import EgosGrass.Spec.InvariantEntry

/-!
# When the kernel halts

`step_fatal_cases` lists every way a step of the system can end in `FATAL`, from any state:
`proc_alloc` on a table with no unused slot among `1 .. MAX_NPROCESS`, or a kernel entry that
takes a non-timer interrupt, a non-`ecall` exception in a process below `GPID_USER_START`, or
runs `proc_try_syscall` on a record it cannot serve (`SyscallFails`). The last happens at the
`ecall` itself, on the record just submitted, or at a retry of a blocked process in either scan
of `proc_yield` (`RetryFails`).

A retry looks the receiver up again. When the receiver has been freed since the `ecall`, the
retry halts (`freed_receiver_halts_retry`): the sender does not stay blocked.
-/

namespace EgosGrass

/-- Why `proc_try_syscall` halts on a record `rec`: its type is neither `SYS_RECV` nor
`SYS_SEND`, or it is a send naming a pid that no live slot below `MAX_NPROCESS` holds. -/
def SyscallFails (s : Kernel) (rec : Syscall) : Fatal → Prop
  | .unknownSyscall ty => rec.type = ty ∧ ty ≠ .sysRecv ∧ ty ≠ .sysSend
  | .unknownReceiver r => rec.type = .sysSend ∧ rec.receiver = r ∧
      findSlot s.procSet (fun p => p.pid == r && p.status != .unused) = none
  | _ => False

/-- A retry of a blocked slot halts on its record. -/
def RetryFails (s : Kernel) (f : Fatal) : Prop :=
  ∃ i, (s.procSet i).status = .pendingSyscall ∧ SyscallFails s (s.procSet i).syscall f

/-- How a kernel entry for trap `t` from `s` halts with `f`, leaving `s'`: a non-timer interrupt,
a non-`ecall` exception in a process below `GPID_USER_START`, the `ecall`'s own record, or a
retry in `proc_yield`. -/
def EntryFails (cfg : Config) (s : Kernel) (t : Trap) (f : Fatal) (s' : Kernel) : Prop :=
  (t.mcause.getLsbD 31 = true ∧ t.mcause &&& 0x3FF ≠ intrIdTimer ∧
    f = .kernelInterrupt (t.mcause &&& 0x3FF)) ∨
  (t.mcause.getLsbD 31 = false ∧ ¬(excpIdEcallU ≤ t.mcause ∧ t.mcause ≤ excpIdEcallM) ∧
    (s.procSet (s.coreToProcIdx t.hart)).pid < cfg.gpidUserStart ∧
    f = .kernelException t.mcause) ∨
  (t.mcause.getLsbD 31 = false ∧ excpIdEcallU ≤ t.mcause ∧ t.mcause ≤ excpIdEcallM ∧
    SyscallFails s' t.syscall f) ∨
  RetryFails s' f

section Fatal

variable {cfg : Config} {s s' : Kernel} {i : Nat} {f : Fatal} {tty : Bool}

/-- A retry halts, leaving the state as it was, only on a record it cannot serve. -/
theorem procTrySyscall_error (h : procTrySyscall cfg s i = .error (f, s')) :
    s' = s ∧ SyscallFails s (s.procSet i).syscall f := by
  unfold procTrySyscall at h
  split at h
  · cases h
  · rename_i hty
    dsimp only [procTrySend] at h
    split at h
    · split at h <;> cases h
    · rename_i hf
      cases h
      exact ⟨rfl, hty, rfl, hf⟩
  · rename_i hty
    cases h
    exact ⟨rfl, hty, nofun, nofun⟩

/-- A step of the scans halts only on the record of a blocked slot. -/
theorem retry_error (h : retry cfg s i = .error (f, s')) : s' = s ∧ RetryFails s f := by
  unfold retry at h
  split at h
  · obtain ⟨rfl, hf⟩ := procTrySyscall_error h
    exact ⟨rfl, i, ‹_›, hf⟩
  · cases h

/-- The first scan halts only on the record of a slot blocked when it halts. -/
theorem mlfqScan_error (now : BitVec 64) (l : List Nat) {n : Nat} {m : Int}
    (h : mlfqScan cfg now l s n m = .error (f, s')) : RetryFails s' f := by
  induction l generalizing s n m with
  | nil => cases h
  | cons i l ih =>
    simp only [mlfqScan, bind, Except.bind] at h
    split at h
    · rename_i h₁
      cases h
      obtain ⟨rfl, hf⟩ := retry_error h₁
      exact hf
    · split at h
      · exact ih h
      · split at h <;> exact ih h

/-- The fallback scan halts only on the record of a slot blocked when it halts. -/
theorem fallbackScan_error (now : BitVec 64) (l : List Nat)
    (h : fallbackScan cfg now l s = .error (f, s')) : RetryFails s' f := by
  induction l generalizing s with
  | nil => cases h
  | cons i l ih =>
    simp only [fallbackScan, bind, Except.bind] at h
    split at h
    · rename_i h₁
      cases h
      obtain ⟨rfl, hf⟩ := retry_error h₁
      exact hf
    · split at h
      · exact ih h
      · split at h
        · cases h
        · exact ih h

/-- The two scans halt only on the record of a blocked slot. -/
theorem pickNext_error {now : BitVec 64} (h : pickNext cfg now s = .error (f, s')) :
    RetryFails s' f := by
  simp only [pickNext, bind, Except.bind] at h
  split at h
  · rename_i h₁
    cases h
    exact mlfqScan_error _ _ h₁
  · split at h
    · exact fallbackScan_error _ _ h
    · cases h

/-- `proc_yield` halts only in its scans, on the record of a blocked slot. -/
theorem procYield_error (h : procYield cfg s tty = .error (f, s')) : RetryFails s' f := by
  simp only [procYield, bind, Except.bind] at h
  split at h
  · rename_i h₁
    cases h
    exact pickNext_error h₁
  · split at h <;> cases h

/-- A mapped `Except` fails as the original does. -/
theorem map_eq_error {ε α β : Type} {g : α → β} {x : Except ε α} {e : ε}
    (h : x.map g = .error e) : x = .error e := by
  cases x <;> simp_all [Except.map]

/-- Blocking the caller copies the submitted record into its slot, marked `PENDING`. -/
theorem blockCaller_syscall (s : Kernel) (rec : Syscall) :
    ((blockCaller s rec).procSet s.currIdx).syscall = { rec with status := .pending } := by
  simp [blockCaller, procSetPending]

/-- Saving the context keeps the pid of the trapping core's process. -/
theorem saveContext_pid (s : Kernel) (t : Trap) :
    ((saveContext s t).procSet (saveContext s t).currIdx).pid =
      (s.procSet (s.coreToProcIdx t.hart)).pid := by
  simp [saveContext, Kernel.currIdx]

/-- Every `FATAL` of a kernel entry, from any state. -/
theorem kernelEntry_error {t : Trap} (h : kernelEntry cfg s t = .error (f, s')) :
    EntryFails cfg s t f s' := by
  replace h := map_eq_error h
  unfold trapHandler at h
  split at h
  · rename_i hb
    unfold intrEntry at h
    split at h
    · cases h
      exact .inl ⟨hb, ‹_›, rfl⟩
    · exact .inr (.inr (.inr (procYield_error h)))
  · rename_i hb
    simp only [Bool.not_eq_true] at hb
    unfold excpEntry at h
    split at h
    · rename_i he
      simp only [bind, Except.bind] at h
      split at h
      · rename_i h₁
        cases h
        obtain ⟨rfl, hf⟩ := procTrySyscall_error h₁
        rw [blockCaller_syscall] at hf
        exact .inr (.inr (.inl ⟨hb, he.1, he.2, hf⟩))
      · exact .inr (.inr (.inr (procYield_error h)))
    · rename_i he
      dsimp only at h
      split at h
      · exact .inr (.inr (.inr (procYield_error h)))
      · rename_i hlt
        cases h
        rw [saveContext_pid] at hlt
        exact .inr (.inl ⟨hb, he, lt_of_not_le hlt, rfl⟩)

/-- Every `FATAL` of a step of the system, from any state: `proc_alloc` with no unused slot among
`1 .. MAX_NPROCESS`, or a kernel entry on a core below `NCORES` (`EntryFails`). -/
theorem step_fatal_cases {l : Step} (h : step cfg s l = .error (f, s')) :
    (l = .alloc ∧ f = .procLimit ∧ ∀ i ∈ userSlots, (s.procSet i).status ≠ .unused) ∨
    ∃ t, l = .trap t ∧ t.hart < cfg.ncores ∧ EntryFails cfg s t f s' := by
  cases l with
  | alloc =>
    replace h := map_eq_error h
    unfold procAlloc at h
    split at h
    · cases h
    · rename_i hn
      cases h
      exact .inl ⟨rfl, rfl, fun i hi => by simpa using List.find?_eq_none.1 hn i hi⟩
  | trap t =>
    simp only [step] at h
    split at h
    · exact .inr ⟨t, rfl, ‹_›, kernelEntry_error h⟩
    · cases h
  | setReady | free | sleep | tick => cases h

end Fatal

/-- The cases above at a reachable halt: pid 1 waits in `SYS_RECV` for pid 5 when pid 2 sends to
it, and is freed; the next timer interrupt halts in a retry. -/
theorem step_fatal_cases_at_retry :
    ∃ s f s', PoliteReach sampleConfig s ∧ step sampleConfig s (timerOn 0) = .error (f, s') ∧
      ((timerOn 0 = .alloc ∧ f = .procLimit ∧ ∀ i ∈ userSlots, (s.procSet i).status ≠ .unused) ∨
      ∃ t, timerOn 0 = .trap t ∧ t.hart < sampleConfig.ncores ∧ EntryFails sampleConfig s t f s') := by
  obtain ⟨s, hs, hp⟩ := politeReach_of_run sampleConfig
    (l := [.alloc, .alloc, .setReady 1, .setReady 2, timerOn 0, recvOn 0 5, sendOn 0 1 [7], .free 1])
    (p := fun s => match step sampleConfig s (timerOn 0) with
      | .error _ => true
      | .ok _ => false) (by decide)
  revert hp
  cases h : step sampleConfig s (timerOn 0) with
  | ok => simp
  | error e =>
    obtain ⟨f, s'⟩ := e
    exact fun _ => ⟨s, f, s', hs, h, step_fatal_cases h⟩

/-- Pid 1 waits for a message from pid 5 when pid 2 blocks in a send to it. `proc_free(1)`, with
no core running pid 1, leaves the sender blocked, and the next timer interrupt halts in
`proc_try_send`. -/
theorem freed_receiver_halts_retry :
    ∃ s, PoliteReach sampleConfig s ∧
      ∃ s', step sampleConfig s (timerOn 0) = .error (.unknownReceiver 1, s') := by
  obtain ⟨s, hs, hp⟩ := politeReach_of_run sampleConfig
    (l := [.alloc, .alloc, .setReady 1, .setReady 2, timerOn 0, recvOn 0 5, sendOn 0 1 [7], .free 1])
    (p := fun s => match step sampleConfig s (timerOn 0) with
      | .error (.unknownReceiver r, _) => r == 1
      | _ => false) (by decide)
  refine ⟨s, hs, ?_⟩
  revert hp
  cases step sampleConfig s (timerOn 0) with
  | ok => simp
  | error e =>
    obtain ⟨f, s'⟩ := e
    cases f <;> simp

end EgosGrass

import EgosGrass.Spec.Fatal

/-!
# Status transitions

`proc_free` marks a slot `PROC_UNUSED` and leaves its pid in place, and `proc_set_runnable` looks
a process up by pid without checking its status. So when `proc_try_recv` releases the sender a
delivered record names, after that sender was freed, the freed slot becomes `PROC_RUNNABLE` again
and is dispatched (`freed_sender_resurrected`).

A slot enters `PROC_PENDING_SYSCALL` only through its own `ecall` (or `proc_sleep`), and the
`ecall` first copies the submitted record in; a slot that stays blocked keeps the type and
receiver of its record (`PendingKept`, `step_pending`). The records that outlive an exchange,
such as a sender's record that stays `PENDING` once it is released, are therefore never retried.
`proc_sleep` is the exception: it blocks a slot on whatever record it holds, and a retry then
releases the sleeper `PROC_RUNNABLE` with its `wakeup_time` still set
(`stale_wakeup_and_record_after_release`).
-/

namespace EgosGrass

/-- Pid 1 (slot 1) waits in `SYS_RECV` on core 0 while pid 3 runs on core 1; the retry of pid 2's
send delivers into pid 1's record, and pid 4 takes core 0. `proc_free(2)` marks slot 2 unused.
The next timer interrupt on core 0 lets pid 1 collect the message and marks the freed slot 2
runnable, and a timer interrupt on core 1 dispatches it. -/
theorem freed_sender_resurrected :
    ∃ s, PoliteReach sampleConfig s ∧ (s.procSet 2).status = .unused ∧
      ∃ s', step sampleConfig s (timerOn 0) = .ok s' ∧ (s'.procSet 2).status = .runnable ∧
        ∃ s'', step sampleConfig s' (timerOn 1) = .ok s'' ∧ s''.coreToProcIdx 1 = 2 ∧
          (s''.procSet 2).status = .running := by
  obtain ⟨s, hs, hp⟩ := politeReach_of_run sampleConfig
    (l := [.alloc, .alloc, .alloc, .alloc, .setReady 1, .setReady 2, .setReady 3, .setReady 4,
      timerOn 0, timerOn 1, sendOn 1 1 [7], recvOn 0 (-1), .free 2])
    (p := fun s => (s.procSet 2).status == .unused &&
      match step sampleConfig s (timerOn 0) with
      | .ok s' => (s'.procSet 2).status == .runnable &&
        match step sampleConfig s' (timerOn 1) with
        | .ok s'' => s''.coreToProcIdx 1 == 2 && (s''.procSet 2).status == .running
        | .error _ => false
      | .error _ => false) (by decide)
  refine ⟨s, hs, ?_⟩
  revert hp
  cases step sampleConfig s (timerOn 0) with
  | error => simp
  | ok s' =>
    cases h₂ : step sampleConfig s' (timerOn 1) <;> simp [h₂]

/-! ## Entering `PROC_PENDING_SYSCALL` -/

/-- The `ecall` case: trap `t` is an `ecall` from the slot the trapping core runs. -/
def EcallFrom (s : Kernel) (t : Trap) (i : Nat) : Prop :=
  t.mcause.getLsbD 31 = false ∧ excpIdEcallU ≤ t.mcause ∧ t.mcause ≤ excpIdEcallM ∧
    i = s.coreToProcIdx t.hart

/-- Slot `i` was blocked already, and its record keeps its type and receiver. -/
def StayedBlocked (s s' : Kernel) (i : Nat) : Prop :=
  (s.procSet i).status = .pendingSyscall ∧
    (s'.procSet i).syscall.type = (s.procSet i).syscall.type ∧
    (s'.procSet i).syscall.receiver = (s.procSet i).syscall.receiver

/-- No slot becomes blocked, and a blocked slot keeps the type and receiver of its record. -/
def PendingKept (s s' : Kernel) : Prop :=
  ∀ i, (s'.procSet i).status = .pendingSyscall → StayedBlocked s s' i

section Pending

variable {cfg : Config} {s s' s₁ s₂ s₃ : Kernel} {tty : Bool}

/-- No change blocks nothing. -/
theorem PendingKept.refl (s : Kernel) : PendingKept s s := fun _ h => ⟨h, rfl, rfl⟩

/-- A slot that stays blocked over two stretches stays blocked over both. -/
theorem StayedBlocked.trans {i : Nat} (h₁ : StayedBlocked s₁ s₂ i) (h₂ : StayedBlocked s₂ s₃ i) :
    StayedBlocked s₁ s₃ i :=
  ⟨h₁.1, h₂.2.1.trans h₁.2.1, h₂.2.2.trans h₁.2.2⟩

/-- Stretches that block nothing compose. -/
theorem PendingKept.trans (h₁ : PendingKept s₁ s₂) (h₂ : PendingKept s₂ s₃) :
    PendingKept s₁ s₃ := fun i h =>
  (h₁ i (h₂ i h).1).trans (h₂ i h)

/-- Logging an event blocks nothing. -/
theorem PendingKept.emit (h : PendingKept s s') (e : Event) : PendingKept s (s'.emit e) := h

/-- Statuses change only to ones other than blocked, and no record changes. -/
theorem PendingKept.of_table
    (hs : ∀ i, (s'.procSet i).status = .pendingSyscall → (s.procSet i).status = .pendingSyscall)
    (hr : ∀ i, (s'.procSet i).syscall = (s.procSet i).syscall) : PendingKept s s' :=
  fun i h => ⟨hs i h, by rw [hr], by rw [hr]⟩

/-- A change that keeps the control view blocks nothing. -/
theorem PendingKept.of_ctl (h : s'.ctl = s.ctl) : PendingKept s s' := by
  obtain ⟨-, hs, hr, -⟩ := Kernel.ctl_eq h
  exact .of_table (fun i e => (hs i).symm.trans e) hr

/-- Setting a status other than `PROC_PENDING_SYSCALL` blocks nothing. -/
theorem PendingKept.withStatus {i : Nat} {st : ProcStatus} (hst : st ≠ .pendingSyscall) :
    PendingKept s (s.withStatus i st) :=
  .of_table (fun j e => by
    rw [Kernel.withStatus_status] at e
    split at e
    exacts [absurd e hst, e]) fun _ => by simp

/-- A stretch of a scan blocks nothing. -/
theorem ScanFrame.pendingKept (h : ScanFrame s s') : PendingKept s s' := by
  refine fun i e => ⟨?_, (h.typed i).1, (h.typed i).2⟩
  rcases h.releases i with r | r
  · exact r ▸ e
  · rw [r] at e; cases e

/-- `proc_set_runnable` blocks nothing. -/
theorem procLeaveRunning_pendingKept {st : ProcStatus} (hst : st ≠ .pendingSyscall) (s : Kernel)
    (pid : Int) : PendingKept s (procLeaveRunning st s pid) := by
  cases hf : findSlot s.procSet (fun p => p.pid == pid) with
  | none => rw [procLeaveRunning_of_none st hf]; exact .refl s
  | some i => exact (PendingKept.withStatus hst).trans (.of_ctl (procLeaveRunning_ctl st hf))

/-- `proc_set_running` blocks nothing. -/
theorem procSetRunning_pendingKept (s : Kernel) (pid : Int) :
    PendingKept s (procSetRunning s pid) := by
  cases hf : findSlot s.procSet (fun p => p.pid == pid) with
  | none => simp only [procSetRunning, hf]; exact .refl s
  | some i => exact (PendingKept.withStatus (by decide)).trans (.of_ctl (procSetRunning_ctl hf))

/-- Dispatching a slot blocks nothing. -/
theorem dispatch_pendingKept (s : Kernel) (k : Nat) : PendingKept s (dispatch cfg s k) := by
  refine (PendingKept.of_ctl (stampNext_ctl cfg s k)).trans ?_
  unfold dispatch switchTo
  dsimp only
  refine PendingKept.emit (PendingKept.trans ?_ (procSetRunning_pendingKept _ _)) _
  refine PendingKept.trans ?_ (.of_ctl (primeIfReady_ctl cfg _ k))
  exact .of_table (fun _ e => e) fun _ => rfl

/-- `proc_yield` blocks nothing: its scans only release. -/
theorem procYield_pendingKept (hy : procYield cfg s tty = .ok s') : PendingKept s s' := by
  obtain ⟨⟨s₂, k⟩, h₁, h₂⟩ := bind_eq_ok.1 hy
  have hpro : PendingKept s (yieldPrologue cfg s tty) := by
    unfold yieldPrologue
    refine PendingKept.trans ?_ (.of_ctl (mlfqResetLevel_ctl cfg _ tty))
    split
    · exact procLeaveRunning_pendingKept (by decide) s _
    · exact .refl s
  refine (hpro.trans (pickNext_step h₁).1.toScanFrame.pendingKept).trans ?_
  dsimp only at h₂
  split at h₂ <;> cases h₂
  · exact dispatch_pendingKept s₂ k
  · exact .of_table (fun _ e => e) fun _ => rfl

/-- `proc_free` blocks nothing. -/
theorem procFree_pendingKept (s : Kernel) (pid : Int) : PendingKept s (procFree cfg s pid) := by
  unfold procFree
  split
  · split
    · rename_i i _
      refine (PendingKept.of_ctl (terminate_ctl s i)).trans (.of_table (fun j e => ?_) fun j => ?_)
      · simp only [procSetStatus] at e
        split at e
        · cases e
        · exact e
      · simp only [procSetStatus]
        split <;> rfl
    · exact .refl s
  · induction lowSlots generalizing s with
    | nil => exact .refl s
    | cons i l ih =>
      rw [List.foldl_cons]
      refine PendingKept.trans ?_ (ih _)
      split
      · exact (PendingKept.of_ctl (terminate_ctl s i)).trans (PendingKept.withStatus (by decide))
      · exact .refl s

/-- A timer interrupt handled to the end blocks nothing. -/
theorem intrEntry_pendingKept {id : BitVec 32} (he : intrEntry cfg s id tty = .ok s') :
    PendingKept s s' := by
  unfold intrEntry at he
  split at he
  · cases he
  · dsimp only at he
    refine PendingKept.trans ?_ (procYield_pendingKept he)
    split
    · exact .of_ctl (Kernel.ctl_modifyProc fun p => timerCharge_sameCtl _ p)
    · exact .refl s

/-- The start of an `ecall` on a core that runs a process blocks the caller, with the record it
submitted, and no other slot. -/
theorem blockCaller_pending (h : Inv cfg s fun _ => True) (h0 : s.currIdx ≠ 0) (rec : Syscall)
    (i : Nat) (hi : ((blockCaller s rec).procSet i).status = .pendingSyscall) :
    StayedBlocked s (blockCaller s rec) i ∨
      (i = s.currIdx ∧ ((blockCaller s rec).procSet i).syscall = { rec with status := .pending }) := by
  have hrun : (s.procSet s.currIdx).status = .running := h.core.running _ trivial h0
  obtain ⟨-, hs, hr, -⟩ := Kernel.ctl_eq
    (blockCaller_ctl rec h.pid (h.core.bound _) (by rw [hrun]; decide))
  rw [hs, Kernel.withStatus_status] at hi
  by_cases e : i = s.currIdx
  · exact .inr ⟨e, by rw [hr, Kernel.withStatus_syscall, Kernel.withSyscall_syscall, if_pos e]⟩
  · rw [if_neg e] at hi
    refine .inl ⟨by simpa using hi, ?_, ?_⟩ <;>
      rw [hr, Kernel.withStatus_syscall, Kernel.withSyscall_syscall, if_neg e]

/-- A kernel entry with the invariant blocks only the caller of an `ecall`, with the type and
receiver of the record it submitted. -/
theorem kernelEntry_pending (h : Inv cfg s fun _ => True) {t : Trap}
    (hp : t.mcause.getLsbD 31 = false → s.coreToProcIdx t.hart ≠ 0)
    (he : kernelEntry cfg s t = .ok s') (i : Nat) (hi : (s'.procSet i).status = .pendingSyscall) :
    StayedBlocked s s' i ∨ (EcallFrom s t i ∧ (s'.procSet i).syscall.type = t.syscall.type ∧
      (s'.procSet i).syscall.receiver = t.syscall.receiver) := by
  unfold kernelEntry at he
  cases ht : trapHandler cfg (saveContext s t) t with
  | error => rw [ht] at he; cases he
  | ok s₁ =>
    rw [ht] at he
    simp only [Except.map, Except.ok.injEq] at he
    subst he
    have h₀ := PendingKept.of_ctl (saveContext_ctl s t)
    change (s₁.procSet i).status = .pendingSyscall at hi
    change StayedBlocked s s₁ i ∨ (EcallFrom s t i ∧ (s₁.procSet i).syscall.type = t.syscall.type ∧
      (s₁.procSet i).syscall.receiver = t.syscall.receiver)
    unfold trapHandler at ht
    split at ht
    · exact .inl ((h₀.trans (intrEntry_pendingKept ht)) i hi)
    · rename_i hb
      simp only [Bool.not_eq_true] at hb
      unfold excpEntry at ht
      split at ht
      · rename_i hec
        obtain ⟨s₂, h₁, h₂⟩ := bind_eq_ok.1 ht
        have hS := h.of_ctl (saveContext_ctl s t)
        have h0 : (saveContext s t).currIdx ≠ 0 := hp hb
        have hst := (hS.block t.syscall h0).2
        have hr : retry cfg (blockCaller (saveContext s t) t.syscall) (saveContext s t).currIdx =
            .ok s₂ := by rw [retry, if_pos hst]; exact h₁
        have hk := ((retry_step hr).toScanFrame.pendingKept.trans (procYield_pendingKept h₂)) i hi
        rcases blockCaller_pending hS h0 t.syscall i hk.1 with hb' | ⟨e, hrec⟩
        · exact .inl ((h₀ i hb'.1).trans (hb'.trans hk))
        · refine .inr ⟨⟨hb, hec.1, hec.2, e⟩, ?_, ?_⟩
          · rw [hk.2.1, hrec]
          · rw [hk.2.2, hrec]
      · dsimp only at ht
        split at ht
        · exact .inl (((h₀.emit _).trans ((procFree_pendingKept _ _).trans
            (procYield_pendingKept ht))) i hi)
        · cases ht

/-- Over a step `l` from `s` to `s'`, every slot blocked afterwards was blocked before and keeps
the type and receiver of its record, or is the caller of the `ecall` that `l` takes, with the
type and receiver of the record it submitted. -/
def BlockedByOwnEcall (s : Kernel) (l : Step) (s' : Kernel) : Prop :=
  ∀ i, (s'.procSet i).status = .pendingSyscall →
    StayedBlocked s s' i ∨ ∃ t, l = .trap t ∧ EcallFrom s t i ∧
      (s'.procSet i).syscall.type = t.syscall.type ∧
      (s'.procSet i).syscall.receiver = t.syscall.receiver

/-- Every polite step from a state with the invariant blocks only the caller of an `ecall`. -/
theorem step_pending (h : Inv cfg s fun _ => True) {l : Step} (hp : Polite cfg s l)
    (hs : step cfg s l = .ok s') : BlockedByOwnEcall s l s' := by
  intro i hi
  cases l with
  | alloc =>
    cases ha : procAlloc s with
    | error => simp [step, ha, Except.map] at hs
    | ok r =>
      simp only [step, ha, Except.map, Except.ok.injEq] at hs
      subst hs
      refine .inl ((?_ : PendingKept s r.2) i hi)
      obtain ⟨pid, s'⟩ := r
      obtain ⟨i, -, -, rfl⟩ := procAlloc_eq_ok ha
      refine PendingKept.of_table (fun j e => ?_) fun j => ?_
      · simp only [Kernel.emit_procSet, Kernel.modifyProc_procSet] at e
        split at e
        · cases e
        · exact e
      · simp only [Kernel.emit_procSet, Kernel.modifyProc_procSet]
        split <;> subst_vars <;> rfl
  | setReady pid =>
    cases hs
    refine .inl ((?_ : PendingKept s (procSetReady s pid)) i hi)
    cases hf : findSlot s.procSet (fun p => p.pid == pid) with
    | none => simp only [procSetReady, hf]; exact .refl s
    | some j => rw [procSetReady_eq hf]; exact .withStatus (by decide)
  | free pid => cases hs; exact .inl (procFree_pendingKept s pid i hi)
  | sleep => exact hp.elim
  | trap t =>
    simp only [step] at hs
    split at hs
    · rcases kernelEntry_pending h (hp ‹_›) hs i hi with hk | ⟨he, hty, hrc⟩
      · exact .inl hk
      · exact .inr ⟨t, rfl, he, hty, hrc⟩
    · cases hs; exact .inl ⟨hi, rfl, rfl⟩
  | tick now =>
    cases hs
    exact .inl (PendingKept.of_ctl (by split <;> rfl) i hi)

end Pending

/-- In a polite run no process sleeps, and every step blocks only the caller of an `ecall`, with
the record it submitted: a record left behind by an exchange is never retried. -/
theorem pending_entered_by_own_ecall {cfg : Config} {s : Kernel} (hall : cfg.gpidAll ≤ 0)
    (h : PoliteReach cfg s) :
    (∀ i, (s.procSet i).wakeupTime = 0) ∧
    ∀ l s', Polite cfg s l → step cfg s l = .ok s' → BlockedByOwnEcall s l s' :=
  ⟨(h.inv hall).ipc.no_sleep, fun _ _ hp hs => step_pending (h.inv hall) hp hs⟩

/-- Pid 1 waits for any sender; pid 2's send is delivered at its `ecall`, and the scan of the same
`proc_yield` releases both. -/
theorem pending_entered_by_own_ecall_after_exchange :
    ∃ s, PoliteReach sampleConfig s ∧ (s.procSet 2).status = .runnable ∧
      (s.procSet 2).syscall.status = .pending ∧ (∀ i, (s.procSet i).wakeupTime = 0) ∧
      ∀ l s', Polite sampleConfig s l → step sampleConfig s l = .ok s' → BlockedByOwnEcall s l s' := by
  obtain ⟨s, hs, hp⟩ := politeReach_of_run sampleConfig
    (l := [.alloc, .alloc, .setReady 1, .setReady 2, timerOn 0, recvOn 0 (-1), sendOn 0 1 [7]])
    (p := fun s => (s.procSet 2).status == .runnable && (s.procSet 2).syscall.status == .pending)
    (by decide)
  simp only [Bool.and_eq_true, beq_iff_eq] at hp
  exact ⟨s, hs, hp.1, hp.2, pending_entered_by_own_ecall (by decide) hs⟩

/-- Both halves fail once `proc_sleep` is called. Pid 1 collects pid 2's message and runs on
core 1 with its collected record still `DONE`; `proc_sleep(1, 100)` blocks it, and the scan of the
next timer interrupt on core 0 collects that record again: pid 1 is `PROC_RUNNABLE` with
`wakeup_time = 100`, and core 0 dispatches pid 2, whose `SYS_SEND` record is still `PENDING`.
Without `proc_sleep` the second half still fails: after one exchange the released sender is
runnable with its kernel record `PENDING`. -/
theorem stale_wakeup_and_record_after_release :
    (∃ s, Reachable sampleConfig s ∧ (s.procSet 1).status = .runnable ∧
      (s.procSet 1).wakeupTime = 100 ∧ (s.procSet 2).status = .running ∧
      (s.procSet 2).syscall.status = .pending) ∧
    ∃ s, PoliteReach sampleConfig s ∧ (s.procSet 2).status = .runnable ∧
      (s.procSet 2).syscall.status = .pending := by
  constructor
  · obtain ⟨s, hs, hp⟩ := reach_of_run sampleConfig
      (l := [.alloc, .alloc, .setReady 1, .setReady 2, timerOn 0, timerOn 1, recvOn 0 (-1),
        sendOn 1 1 [7], .sleep 1 100, timerOn 0])
      (p := fun s => (s.procSet 1).status == .runnable && (s.procSet 1).wakeupTime == 100 &&
        (s.procSet 2).status == .running && (s.procSet 2).syscall.status == .pending)
      (by decide)
    simp only [Bool.and_eq_true, beq_iff_eq] at hp
    exact ⟨s, hs, hp.1.1.1, hp.1.1.2, hp.1.2, hp.2⟩
  · obtain ⟨s, hs, hp⟩ := politeReach_of_run sampleConfig
      (l := [.alloc, .alloc, .setReady 1, .setReady 2, timerOn 0, recvOn 0 (-1), sendOn 0 1 [7]])
      (p := fun s => (s.procSet 2).status == .runnable && (s.procSet 2).syscall.status == .pending)
      (by decide)
    simp only [Bool.and_eq_true, beq_iff_eq] at hp
    exact ⟨s, hs, hp⟩

end EgosGrass

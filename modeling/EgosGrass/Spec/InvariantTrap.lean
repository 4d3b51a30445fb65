import EgosGrass.Spec.Levels

/-!
# The invariant through `kernel.c`

A kernel entry on core `c` keeps the invariant in three phases. Up to the start of `proc_yield`
every core is held, except that an `ecall` or a fault takes `c`'s own process out of
`PROC_RUNNING`; from then on `c` is exempt (`Inv cfg s (· ≠ c)`). The two scans of `proc_yield`
change statuses only to `PROC_RUNNABLE` (`Releases`), so the slot they choose is still ready when
it is dispatched, and dispatching it, or going idle, makes `c` held again.

The message-passing steps are `Inv.tryRecv` (a collectable receiver and the sender it names
are released) and `Inv.trySend` (a blocked sender's message is delivered).
-/

namespace EgosGrass

/-- A scan step changes statuses only to `PROC_RUNNABLE`. -/
def Releases (s s' : Kernel) : Prop :=
  ∀ j, (s'.procSet j).status = (s.procSet j).status ∨ (s'.procSet j).status = .runnable

/-- No change releases nothing. -/
theorem Releases.refl (s : Kernel) : Releases s s := fun _ => .inl rfl

/-- Releases compose. -/
theorem Releases.trans {s₁ s₂ s₃ : Kernel} (h₁ : Releases s₁ s₂) (h₂ : Releases s₂ s₃) :
    Releases s₁ s₃ := fun j => by
  rcases h₂ j with e | e
  · rw [e]; exact h₁ j
  · exact .inr e

/-- A slot ready to run stays ready across releases. -/
theorem Releases.ready {s s' : Kernel} (h : Releases s s') {j : Nat}
    (hj : isReady (s.procSet j) = true) : isReady (s'.procSet j) = true := by
  rcases h j with e | e <;> simp_all [isReady]

/-- A change that keeps the control view releases nothing. -/
theorem Releases.of_ctl {s s' : Kernel} (h : s'.ctl = s.ctl) : Releases s s' :=
  fun j => .inl ((Kernel.ctl_eq h).2.1 j)

/-- Making a slot `PROC_RUNNABLE` is a release. -/
theorem Releases.withStatus (s : Kernel) (i : Nat) : Releases s (s.withStatus i .runnable) :=
  fun j => by rw [Kernel.withStatus_status]; split <;> simp

section Keep

variable {cfg : Config} {s s' : Kernel} {busy : Nat → Prop} {i j : Nat}

/-- The lookup reads only the predicate's value on each slot. -/
theorem findSlot_congr {t t' : Nat → Process} {p : Process → Bool} (h : ∀ i, p (t' i) = p (t i)) :
    findSlot t' p = findSlot t p := by
  simp only [findSlot, h]

/-- The effect of `proc_set_runnable` and `proc_set_pending` on the view depends on the view
only. -/
theorem procLeaveRunning_ctl_congr (st : ProcStatus) (pid : Int) (h : s'.ctl = s.ctl) :
    (procLeaveRunning st s' pid).ctl = (procLeaveRunning st s pid).ctl := by
  have hp := (Kernel.ctl_eq h).1
  have hf : findSlot s'.procSet (fun p => p.pid == pid) = findSlot s.procSet (fun p => p.pid == pid) :=
    findSlot_congr fun i => by rw [hp]
  cases hs : findSlot s.procSet (fun p => p.pid == pid) with
  | none => rw [procLeaveRunning_of_none st hs, procLeaveRunning_of_none st (hf.trans hs), h]
  | some i =>
    rw [procLeaveRunning_ctl st hs, procLeaveRunning_ctl st (hf.trans hs)]
    exact Kernel.ctl_withStatus_congr h

/-- Writing a record keeps the pid invariant. -/
theorem PidInv.withSyscall (h : PidInv s) : PidInv (s.withSyscall i m) :=
  ⟨h.counter, by simpa using h.nonneg, by simpa using h.le_counter, by simpa using h.unique,
    by simpa using h.zero_unused, by simpa using h.beyond, by simpa using h.idle⟩

/-- Writing a record keeps `Inv` when it keeps the IPC part. -/
theorem Inv.withSyscall (h : Inv cfg s busy) (h' : IpcInv (s.withSyscall i m)) :
    Inv cfg (s.withSyscall i m) busy :=
  ⟨h.pid.withSyscall, ⟨h.core.bound, h.core.idle_beyond, by simpa using h.core.running,
    h.core.injective⟩, h'⟩

/-- Releasing a slot below `MAX_NPROCESS` that is blocked or unused, holds a positive pid, and no
other collectable receiver names. -/
theorem Inv.release (h : Inv cfg s busy) (hj : j < maxNProcess) (hpos : 0 < (s.procSet j).pid)
    (hst : (s.procSet j).status = .unused ∨ (s.procSet j).status = .pendingSyscall)
    (hs : ∀ r, r ≠ j → Collectable s r → (s.procSet r).syscall.sender ≠ (s.procSet j).pid) :
    Inv cfg (s.withStatus j .runnable) busy :=
  h.withStatus (fun h0 => by omega)
    (fun c hb h0 e => by
      have := h.core.running c hb h0; rw [e] at this; rcases hst with e' | e' <;> rw [e'] at this <;>
        cases this)
    (fun e => by omega) (fun e => by cases e) (.inr hs)

/-- A record collectable after slot `i` is released was collectable before, in another slot. -/
theorem Collectable.of_withStatus_runnable {r : Nat}
    (hr : Collectable (s.withStatus i .runnable) r) : Collectable s r ∧ r ≠ i := by
  obtain ⟨h1, h2⟩ := hr
  rw [Kernel.withStatus_status] at h1
  split at h1
  · cases h1
  · exact ⟨⟨h1, by simpa using h2⟩, ‹_›⟩

/-- `proc_try_recv` of a blocked receiver: once its record is `DONE`, the receiver and then the
sender it names are released. -/
theorem Inv.tryRecv (h : Inv cfg s busy) (hi : (s.procSet i).status = .pendingSyscall) :
    Inv cfg (procTryRecv s i) busy := by
  dsimp only [procTryRecv]
  split
  · exact h
  rename_i hd
  have hc : Collectable s i := ⟨hi, by cases e : (s.procSet i).syscall.status <;> simp_all⟩
  obtain ⟨ht, hpos, -, hsnd⟩ := h.ipc.delivered i hc
  have hl : (s.procSet i).status ≠ .unused := by rw [hi]; decide
  have hi16 := h.ipc.lt_of_active h.pid hl (by rw [hi]; decide)
  -- the receiver: no other collectable receiver names it, as its own record is a receive
  have hA : Inv cfg (s.withStatus i .runnable) busy :=
    h.release hi16 (h.pid.pos_of_live hl) (.inr hi) fun r _ hr e => by
      rcases (h.ipc.delivered r hr).2.2.2 i hi16 e.symm with hu | ⟨-, hty, -⟩
      · exact hl hu
      · rw [ht] at hty; cases hty
  have h1 : (procSetRunnable (s.emit (.copyOut (s.procSet i).pid (s.procSet i).syscall))
      (s.procSet i).pid).ctl = (s.withStatus i .runnable).ctl := by
    unfold procSetRunnable
    rw [procLeaveRunning_ctl_congr _ _ (Kernel.ctl_emit _)]
    exact procLeaveRunning_ctl _ (h.pid.findSlot_pid hi16 hl)
  have hσ := (Kernel.ctl_eq h1).2.2.1 i
  rw [Kernel.withStatus_syscall] at hσ
  rw [hσ]
  refine Inv.of_ctl (procLeaveRunning_ctl_congr .runnable _ h1) ?_
  -- the sender: unused or still blocked in its send, and named by no other receiver
  cases hf : findSlot (s.withStatus i .runnable).procSet
      (fun p => p.pid == (s.procSet i).syscall.sender) with
  | none => rw [procLeaveRunning_of_none _ hf]; exact hA
  | some j =>
    refine Inv.of_ctl (procLeaveRunning_ctl _ hf) ?_
    obtain ⟨hj16, hpj⟩ := findSlot_eq_some hf
    have hpj : (s.procSet j).pid = (s.procSet i).syscall.sender := by simpa using hpj
    have hji : j ≠ i := fun e => by
      subst e
      rcases hsnd j hj16 hpj with hu | ⟨-, hty, -⟩
      · exact hl hu
      · rw [ht] at hty; cases hty
    refine hA.release hj16 (by rw [Kernel.withStatus_pid, hpj]; exact hpos) ?_ fun r _ hr e => ?_
    · rw [Kernel.withStatus_status, if_neg hji]
      rcases hsnd j hj16 hpj with hu | ⟨hp, -⟩
      exacts [.inl hu, .inr hp]
    · obtain ⟨hr0, hri⟩ := hr.of_withStatus_runnable
      rw [Kernel.withStatus_syscall, Kernel.withStatus_pid] at e
      exact hri (h.ipc.sender_unique r i hr0 hc (e.trans hpj))

/-- `proc_try_send` of a blocked sender: delivery into an accepting receiver. -/
theorem Inv.trySend (h : Inv cfg s busy) (hi : (s.procSet i).status = .pendingSyscall)
    (hty : (s.procSet i).syscall.type = .sysSend) (hs : procTrySend cfg s i = .ok s') :
    Inv cfg s' busy := by
  dsimp only [procTrySend] at hs
  split at hs
  · rename_i j hf
    obtain ⟨-, hj⟩ := findSlot_eq_some hf
    simp only [Bool.and_eq_true, beq_iff_eq, bne_iff_ne, ne_eq] at hj
    split at hs <;> cases hs
    · rename_i ha
      simp only [accepts, Bool.and_eq_true, beq_iff_eq] at ha
      have hd := h.ipc.deliver h.pid hi hty hj.1 hj.2 ha.1.1 ha.1.2
      rw [modifyProc_deliver] at hd ⊢
      exact h.withSyscall hd
    · exact h
  · cases hs

end Keep

/-! ## The retries of the scans -/

/-- What a retry of a scan leaves alone: statuses change only to `PROC_RUNNABLE`, every pid,
saved context and the type and receiver of every record stay, a record changes only by being
marked `DONE`, a ready slot keeps its level and wake-up time, and nothing outside the process
table and the log is written. -/
structure ScanFrame (s s' : Kernel) : Prop where
  releases : Releases s s'
  pid : ∀ j, (s'.procSet j).pid = (s.procSet j).pid
  ctx : ∀ j, (s'.procSet j).mepc = (s.procSet j).mepc ∧
    (s'.procSet j).savedRegisters = (s.procSet j).savedRegisters
  typed : ∀ j, (s'.procSet j).syscall.type = (s.procSet j).syscall.type ∧
    (s'.procSet j).syscall.receiver = (s.procSet j).syscall.receiver
  recs : ∀ j, (s'.procSet j).syscall.status = .pending →
    (s'.procSet j).syscall = (s.procSet j).syscall
  idx : s'.coreToProcIdx = s.coreToProcIdx
  core : s'.coreInKernel = s.coreInKernel
  counter : s'.currPid = s.currPid
  reset : s'.mlfqLastResetTime = s.mlfqLastResetTime
  clock : ClockKept s s'
  moved : TableMoved s s'
  settled : ∀ j, isReady (s.procSet j) = true →
    (s'.procSet j).queueLevel = (s.procSet j).queueLevel ∧
      (s'.procSet j).wakeupTime = (s.procSet j).wakeupTime

/-- A retry of a scan: a `ScanFrame` that keeps the invariant, whichever cores are held. -/
structure ScanStep (cfg : Config) (s s' : Kernel) extends ScanFrame s s' : Prop where
  inv : ∀ busy, Inv cfg s busy → Inv cfg s' busy

section Scan

variable {cfg : Config} {s s' s₁ s₂ s₃ : Kernel} {i : Nat}

/-- The empty stretch of a scan. -/
theorem ScanFrame.refl (s : Kernel) : ScanFrame s s :=
  ⟨.refl s, fun _ => rfl, fun _ => ⟨rfl, rfl⟩, fun _ => ⟨rfl, rfl⟩, fun _ _ => rfl, rfl, rfl, rfl,
    rfl, .refl s, .refl s, fun _ _ => ⟨rfl, rfl⟩⟩

/-- Stretches of a scan compose. -/
theorem ScanFrame.trans (h₁ : ScanFrame s₁ s₂) (h₂ : ScanFrame s₂ s₃) : ScanFrame s₁ s₃ :=
  ⟨h₁.releases.trans h₂.releases, fun j => (h₂.pid j).trans (h₁.pid j),
    fun j => ⟨(h₂.ctx j).1.trans (h₁.ctx j).1, (h₂.ctx j).2.trans (h₁.ctx j).2⟩,
    fun j => ⟨(h₂.typed j).1.trans (h₁.typed j).1, (h₂.typed j).2.trans (h₁.typed j).2⟩,
    fun j hp => (h₂.recs j hp).trans (h₁.recs j (h₂.recs j hp ▸ hp)),
    h₂.idx.trans h₁.idx, h₂.core.trans h₁.core, h₂.counter.trans h₁.counter,
    h₂.reset.trans h₁.reset, h₁.clock.trans h₂.clock, h₁.moved.trans h₂.moved, fun j hj =>
      have h₂j := h₂.settled j (h₁.releases.ready hj)
      ⟨h₂j.1.trans (h₁.settled j hj).1, h₂j.2.trans (h₁.settled j hj).2⟩⟩

/-- Logging an event is a stretch of a scan. -/
theorem ScanFrame.emit (s : Kernel) (e : Event) : ScanFrame s (s.emit e) :=
  ⟨.of_ctl rfl, fun _ => rfl, fun _ => ⟨rfl, rfl⟩, fun _ => ⟨rfl, rfl⟩, fun _ _ => rfl, rfl, rfl,
    rfl, rfl, (ClockKept.refl s).emit e, (TableMoved.refl s).emit e, fun _ _ => ⟨rfl, rfl⟩⟩

/-- A write of one slot that only releases it, keeps its pid, context and record type, and moves its
levels by `LevelWrite`. -/
theorem ScanFrame.modifyProc {f : Process → Process}
    (hf : ∀ p, (f p).status = p.status ∨ (f p).status = .runnable)
    (hp : ∀ p, (f p).pid = p.pid)
    (hc : ∀ p, (f p).mepc = p.mepc ∧ (f p).savedRegisters = p.savedRegisters)
    (hr : ∀ p, (f p).syscall.type = p.syscall.type ∧ (f p).syscall.receiver = p.syscall.receiver)
    (hs : ∀ p, (f p).syscall.status = .pending → (f p).syscall = p.syscall)
    (hk : ∀ sp lo p, p.Clocked s.mtime sp lo → (f p).Clocked s.mtime sp lo)
    (hk' : ∀ p, p.Stamped → (f p).Stamped)
    (hl : Relation.ReflTransGen (LevelWrite s.mtime) (s.procSet i).mlfq (f (s.procSet i)).mlfq)
    (ht : maxNProcess ≤ i → (s.procSet i).status ≠ .pendingSyscall →
      (f (s.procSet i)).status = (s.procSet i).status)
    (hq : isReady (s.procSet i) = true → (f (s.procSet i)).queueLevel = (s.procSet i).queueLevel ∧
      (f (s.procSet i)).wakeupTime = (s.procSet i).wakeupTime) :
    ScanFrame s (s.modifyProc i f) := by
  refine ⟨fun j => ?_, fun j => ?_, fun j => ?_, fun j => ?_, fun j => ?_, rfl, rfl, rfl, rfl,
    .modifyProc (hk · · _) (hk' _), .modifyProc hl ht, fun j => ?_⟩ <;>
    simp only [Kernel.modifyProc_procSet] <;> split <;> subst_vars
  exacts [hf _, .inl rfl, hp _, rfl, hc _, ⟨rfl, rfl⟩, hr _, ⟨rfl, rfl⟩, hs _, fun _ => rfl, hq,
    fun _ => ⟨rfl, rfl⟩]

/-- `mlfq_update_level` keeps the saved context. -/
theorem mlfqUpdateLevel_ctx (p : Process) (r : BitVec 64) :
    (mlfqUpdateLevel p r).mepc = p.mepc ∧ (mlfqUpdateLevel p r).savedRegisters = p.savedRegisters := by
  unfold mlfqUpdateLevel
  split
  · exact ⟨rfl, rfl⟩
  · dsimp only
    split <;> exact ⟨rfl, rfl⟩

/-- A charge keeps the saved context. -/
theorem chargeRunning_ctx (now : BitVec 64) (p : Process) :
    (chargeRunning now p).mepc = p.mepc ∧
      (chargeRunning now p).savedRegisters = p.savedRegisters := by
  unfold chargeRunning
  split
  · exact mlfqUpdateLevel_ctx _ _
  · exact ⟨rfl, rfl⟩

/-- `proc_set_runnable` and `proc_set_pending` keep every record. -/
@[simp] theorem procLeaveRunning_syscall (st : ProcStatus) (s : Kernel) (pid : Int) (j : Nat) :
    ((procLeaveRunning st s pid).procSet j).syscall = (s.procSet j).syscall := by
  unfold procLeaveRunning
  split
  · rw [Kernel.modifyProc_procSet]
    split
    · subst_vars; exact (chargeRunning_sameCtl _ _).2.2.1
    · rfl
  · rfl

/-- A process ready to run is not charged: it is not `PROC_RUNNING`. -/
theorem chargeRunning_of_ready {now : BitVec 64} {p : Process} (h : isReady p = true) :
    chargeRunning now p = p := by
  unfold chargeRunning
  rw [if_neg fun hr => by simp [isReady, hr.1] at h]

/-- `proc_set_runnable` is a stretch of a scan. -/
theorem procSetRunnable_frame (s : Kernel) (pid : Int) :
    ScanFrame s (procSetRunnable s pid) := by
  unfold procSetRunnable procLeaveRunning
  split
  · rename_i hf
    have hs := fun p => (chargeRunning_sameCtl (mtimeGet s) p).2.2.1
    exact .modifyProc (fun _ => .inr rfl) (fun p => (chargeRunning_sameCtl _ p).1)
      (fun p => chargeRunning_ctx _ p) (fun p => by simp [hs]) (fun p _ => by simp [hs])
      (fun _ _ _ h => h.leave nofun) (fun _ _ h' => nomatch h') (chargeRunning_mlfq _ _)
      (fun h => absurd (findSlot_eq_some hf).1 (not_lt.2 h))
      fun h => by rw [chargeRunning_of_ready h]; exact ⟨rfl, rfl⟩
  · exact .refl s

/-- The empty step of a scan. -/
theorem ScanStep.refl (s : Kernel) : ScanStep cfg s s := ⟨.refl s, fun _ h => h⟩

/-- Steps of a scan compose. -/
theorem ScanStep.trans (h₁ : ScanStep cfg s₁ s₂) (h₂ : ScanStep cfg s₂ s₃) :
    ScanStep cfg s₁ s₃ :=
  ⟨h₁.toScanFrame.trans h₂.toScanFrame, fun b h => h₂.inv b (h₁.inv b h)⟩

/-- The wake-up of the first scan; with no sleeper, as in a polite run, it does nothing. -/
theorem wakeUp_step (now : BitVec 64) (s : Kernel) (i : Nat) : ScanStep cfg s (wakeUp now s i) := by
  refine ⟨?_, fun b h => ?_⟩
  · dsimp only [wakeUp]
    split
    · rename_i hw
      exact .modifyProc (f := fun p => { p with wakeupTime := 0, status := .runnable })
        (fun _ => .inr rfl) (fun _ => rfl) (fun _ => ⟨rfl, rfl⟩) (fun _ => ⟨rfl, rfl⟩)
        (fun _ _ => rfl) (fun _ _ _ h => h.mono rfl rfl rfl rfl le_rfl nofun)
        (fun _ _ h' => nomatch h') .refl (fun _ hp => absurd hw.1 hp)
        fun hr => by simp [isReady, hw.1] at hr
    · exact .refl s
  · dsimp only [wakeUp]
    rw [if_neg fun hw => by have := hw.2.1; rw [h.ipc.no_sleep i] at this; simp at this]
    exact h

/-- The retry of a blocked receiver is a step of a scan. -/
theorem procTryRecv_step (hi : (s.procSet i).status = .pendingSyscall) :
    ScanStep cfg s (procTryRecv s i) := by
  refine ⟨?_, fun b h => h.tryRecv hi⟩
  dsimp only [procTryRecv]
  split
  · exact .refl s
  · exact ((ScanFrame.emit _ _).trans (procSetRunnable_frame _ _)).trans (procSetRunnable_frame _ _)

/-- The retry of a blocked sender is a step of a scan. -/
theorem procTrySend_step (hi : (s.procSet i).status = .pendingSyscall)
    (hty : (s.procSet i).syscall.type = .sysSend) (hs : procTrySend cfg s i = .ok s') :
    ScanStep cfg s s' := by
  refine ⟨?_, fun b h => h.trySend hi hty hs⟩
  dsimp only [procTrySend] at hs
  split at hs
  · split at hs <;> cases hs
    · exact .modifyProc (fun _ => .inl rfl) (fun _ => rfl) (fun _ => ⟨rfl, rfl⟩)
        (fun _ => ⟨rfl, rfl⟩) (fun _ h => nomatch h) (fun _ _ _ h => h.mono rfl rfl rfl rfl le_rfl id)
        (fun _ h => h) .refl (fun _ _ => rfl) fun _ => ⟨rfl, rfl⟩
    · exact .refl s
  · cases hs

/-- Every retry that does not halt is a step of a scan. -/
theorem retry_step (h : retry cfg s i = .ok s') : ScanStep cfg s s' := by
  unfold retry at h
  split at h
  · rename_i hi
    unfold procTrySyscall at h
    split at h
    · cases h; exact procTryRecv_step hi
    · exact procTrySend_step hi ‹_› h
    · cases h
  · cases h; exact .refl s

/-- The first scan: every retry is a scan step, and the slot it ends with is the one it started
with or a ready slot of the list. -/
theorem mlfqScan_step (now : BitVec 64) (l : List Nat) {n n' : Nat} {m : Int}
    (h : mlfqScan cfg now l s n m = .ok (s', n')) :
    ScanStep cfg s s' ∧ (n' = n ∨ n' ∈ l ∧ isReady (s'.procSet n') = true) := by
  induction l generalizing s n m with
  | nil => cases h; exact ⟨.refl _, .inl rfl⟩
  | cons i l ih =>
    simp only [mlfqScan, bind, Except.bind] at h
    split at h
    · cases h
    · rename_i s₁ h₁
      have h₁ := (wakeUp_step now s i).trans (retry_step h₁)
      split at h
      · obtain ⟨h₂, hn⟩ := ih h
        exact ⟨h₁.trans h₂, hn.imp_right fun hn => ⟨.tail _ hn.1, hn.2⟩⟩
      · split at h <;> obtain ⟨h₂, hn⟩ := ih h <;> refine ⟨h₁.trans h₂, ?_⟩
        · rcases hn with rfl | hn
          · exact .inr ⟨.head _, h₂.releases.ready (by simp_all)⟩
          · exact .inr ⟨.tail _ hn.1, hn.2⟩
        · exact hn.imp_right fun hn => ⟨.tail _ hn.1, hn.2⟩

/-- The second scan: the slot it ends with is `MAX_NPROCESS` or a ready slot of the list. -/
theorem fallbackScan_step (now : BitVec 64) (l : List Nat) {n' : Nat}
    (h : fallbackScan cfg now l s = .ok (s', n')) :
    ScanStep cfg s s' ∧ (n' = maxNProcess ∨ n' ∈ l ∧ isReady (s'.procSet n') = true) := by
  induction l generalizing s with
  | nil => cases h; exact ⟨.refl _, .inl rfl⟩
  | cons i l ih =>
    simp only [fallbackScan, bind, Except.bind] at h
    split at h
    · cases h
    · rename_i s₁ h₁
      have hs₁ := retry_step h₁
      split at h
      · obtain ⟨h₂, hn⟩ := ih h
        exact ⟨hs₁.trans h₂, hn.imp_right fun hn => ⟨.tail _ hn.1, hn.2⟩⟩
      · split at h
        · cases h; exact ⟨hs₁, .inr ⟨.head _, ‹_›⟩⟩
        · obtain ⟨h₂, hn⟩ := ih h
          exact ⟨hs₁.trans h₂, hn.imp_right fun hn => ⟨.tail _ hn.1, hn.2⟩⟩

/-- The two scans of `proc_yield` choose `MAX_NPROCESS` or a ready slot among `1 .. MAX_NPROCESS`. -/
theorem pickNext_step {now : BitVec 64} {k : Nat} (h : pickNext cfg now s = .ok (s', k)) :
    ScanStep cfg s s' ∧ (k = maxNProcess ∨ k ∈ userSlots ∧ isReady (s'.procSet k) = true) := by
  obtain ⟨⟨s₁, n₁⟩, h₁, h⟩ := bind_eq_ok.1 h
  obtain ⟨hs₁, hn⟩ := mlfqScan_step now userSlots h₁
  dsimp only at h
  split at h
  · obtain ⟨h₂, hk⟩ := fallbackScan_step now userSlots h
    exact ⟨hs₁.trans h₂, hk⟩
  · cases h
    exact ⟨hs₁, hn⟩

end Scan

end EgosGrass

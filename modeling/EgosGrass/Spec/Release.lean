import EgosGrass.Spec.Context
import EgosGrass.Spec.Rendezvous

/-!
# How a blocked process is released, and what it receives

In a polite run a process waiting in `PROC_PENDING_SYSCALL`, blocked before a step or blocked by
the `ecall` of the step (`Waits`), leaves that status in two ways only
(`blocked_released_only_by_copy`): `proc_free` marks it unused, or a `proc_try_recv` copies a
`DONE` `SYS_RECV` record out to its receiver (the `copyOut` event of the log) and releases that
receiver and the sender the record names (`ReleasedByCopy`). A receiver is released only with its
record copied out, the record it blocked on filled in once by a sender its `SYS_RECV` accepts
(`Delivery`); a sender only once its message sits, under its own pid, in the record of the
receiver its `SYS_SEND` named. Until then a blocked process keeps its record, up to that one
delivery (`StillBlocked`). And nothing is forged (`SendsCover`): every message the kernel holds
for delivery or has copied out was submitted by a `SYS_SEND` of the run (`sendsAlong`), from the
sender the record names to the receiver it is copied to.

The proof follows a kernel entry through its stages, each an `Accounted` step that keeps
`SendsCover`: the log only grows, and every blocked process stays blocked or is released by a
logged copy-out. Only the retry of a collectable receiver releases anyone
(`procTryRecv_accounted`).

A message can still be copied twice. `proc_alloc` keeps the record the previous occupant of a slot
left, so a process freed while blocked in `SYS_RECV` leaves its pending record to the next process
in its slot. A send to that process is delivered into the stale record while it is still loading,
and once the process makes its own `SYS_RECV`, the sender, still blocked on the same `ecall`,
delivers the same message again (`message_delivered_twice`).
-/

namespace EgosGrass

/-- A receiver's record across a stretch of a run: unchanged, or filled in once by
`proc_try_send` from a sender its pending `SYS_RECV` accepts (`GPID_ALL` or the pid it names). A
sender's record can only stay. -/
def Delivery (cfg : Config) (a b : Syscall) : Prop :=
  b = a ∨ a.type = .sysRecv ∧ a.status = .pending ∧ b.type = .sysRecv ∧ b.status = .done ∧
    (a.sender = cfg.gpidAll ∨ a.sender = b.sender)

/-- The process with pid `pid`, blocked on record `a`, is still blocked in slot `j` of `s'`, with
its record `a` up to one accepted delivery. -/
def StillBlocked (cfg : Config) (pid : Int) (a : Syscall) (s' : Kernel) (j : Nat) : Prop :=
  (s'.procSet j).status = .pendingSyscall ∧ (s'.procSet j).pid = pid ∧
    Delivery cfg a (s'.procSet j).syscall

/-- The process with pid `pid`, blocked on record `a`, was released by a copy-out logged on the
way from `s` to `s'`: it is the receiver whose record, `a` up to one accepted delivery, was copied
out, or the sender that record names, whose `SYS_SEND` named that receiver with the message
copied. -/
def ReleasedByCopy (cfg : Config) (pid : Int) (a : Syscall) (s s' : Kernel) : Prop :=
  ∃ l p rec, s.log ++ l = s'.log ∧ Event.copyOut p rec ∈ l ∧ rec.type = .sysRecv ∧
    rec.status = .done ∧
    (p = pid ∧ Delivery cfg a rec ∨
      rec.sender = pid ∧ a.type = .sysSend ∧ a.receiver = p ∧ a.content = rec.content)

/-- From `s` to `s'` the log only grows, and every process blocked in `s` is still blocked or was
released by a logged copy-out. -/
structure Accounted (cfg : Config) (s s' : Kernel) : Prop where
  log : s.log <+: s'.log
  blocked : ∀ j, (s.procSet j).status = .pendingSyscall →
    StillBlocked cfg (s.procSet j).pid (s.procSet j).syscall s' j ∨
      ReleasedByCopy cfg (s.procSet j).pid (s.procSet j).syscall s s'

/-- What process `j` waits on as step `l` from `s` begins: its record if it is blocked, or the
record with which the `ecall` of `l` blocks it, on the core that runs it. -/
def Waits (cfg : Config) (s : Kernel) (l : Step) (j : Nat) (a : Syscall) : Prop :=
  (s.procSet j).status = .pendingSyscall ∧ a = (s.procSet j).syscall ∨
    ∃ t, l = .trap t ∧ t.hart < cfg.ncores ∧ t.mcause.getLsbD 31 = false ∧
      excpIdEcallU ≤ t.mcause ∧ t.mcause ≤ excpIdEcallM ∧ j = s.coreToProcIdx t.hart ∧
      a = { t.syscall with status := .pending }

/-! ## The sends of a run -/

/-- The message step `l` submits with `SYS_SEND`, as sender pid, receiver pid and content: the
`ecall` of the process that the trapping core runs. -/
def sendOf (cfg : Config) (s : Kernel) : Step → List (Int × Int × List UInt8)
  | .trap t =>
    if t.hart < cfg.ncores ∧ t.mcause.getLsbD 31 = false ∧ excpIdEcallU ≤ t.mcause ∧
        t.mcause ≤ excpIdEcallM ∧ t.syscall.type = .sysSend then
      [((s.procSet (s.coreToProcIdx t.hart)).pid, t.syscall.receiver, t.syscall.content)]
    else []
  | _ => []

/-- The messages submitted with `SYS_SEND` along the run `ls` from `s`. -/
def sendsAlong (cfg : Config) : Kernel → List Step → List (Int × Int × List UInt8)
  | _, [] => []
  | s, l :: ls =>
    match step cfg s l with
    | .ok s' => sendOf cfg s l ++ sendsAlong cfg s' ls
    | .error _ => []

/-- Every message of `s`, held for delivery or copied out, was submitted in `H` by its sender to
its receiver: the record of a blocked sender, the filled-in record of a blocked receiver, and
every copy-out of the log. -/
structure SendsCover (H : List (Int × Int × List UInt8)) (s : Kernel) : Prop where
  send : ∀ k, (s.procSet k).status = .pendingSyscall → (s.procSet k).syscall.type = .sysSend →
    ((s.procSet k).pid, (s.procSet k).syscall.receiver, (s.procSet k).syscall.content) ∈ H
  recv : ∀ k, (s.procSet k).status = .pendingSyscall → (s.procSet k).syscall.type = .sysRecv →
    (s.procSet k).syscall.status = .done →
    ((s.procSet k).syscall.sender, (s.procSet k).pid, (s.procSet k).syscall.content) ∈ H
  log : ∀ p rec, Event.copyOut p rec ∈ s.log → (rec.sender, p, rec.content) ∈ H

section Accounting

variable {cfg : Config} {s s' s₁ s₂ : Kernel} {busy : Nat → Prop} {i j k : Nat} {tty : Bool}
  {pid : Int} {a b c : Syscall}

/-- A record is filled in at most once: two stretches compose. -/
theorem Delivery.trans (h₁ : Delivery cfg a b) (h₂ : Delivery cfg b c) : Delivery cfg a c := by
  rcases h₁ with rfl | h₁
  · exact h₂
  rcases h₂ with rfl | h₂
  · exact .inr h₁
  · rw [h₁.2.2.2.1] at h₂; cases h₂.2.1

/-- Nobody delivers into a record that is a `SYS_SEND`. -/
theorem Delivery.send (h : Delivery cfg a b) (hb : b.type = .sysSend) : b = a := by
  rcases h with e | h
  · exact e
  · rw [h.2.2.1] at hb; cases hb

/-- A blocked slot left as it was is still blocked on its record. -/
theorem StillBlocked.of_eq (e : s'.procSet j = s.procSet j)
    (hj : (s.procSet j).status = .pendingSyscall) :
    StillBlocked cfg (s.procSet j).pid (s.procSet j).syscall s' j := by
  rw [StillBlocked, e]
  exact ⟨hj, rfl, .inl rfl⟩

/-- Staying blocked over two stretches. -/
theorem StillBlocked.trans (h₁ : StillBlocked cfg pid a s₁ j)
    (h₂ : StillBlocked cfg (s₁.procSet j).pid (s₁.procSet j).syscall s₂ j) :
    StillBlocked cfg pid a s₂ j :=
  ⟨h₂.1, h₂.2.1.trans h₁.2.1, h₁.2.2.trans h₂.2.2⟩

/-- A release stays logged as the log grows. -/
theorem ReleasedByCopy.grow (h : ReleasedByCopy cfg pid a s s₁) (hl : s₁.log <+: s₂.log) :
    ReleasedByCopy cfg pid a s s₂ := by
  obtain ⟨l, p, rec, e, hm, hrest⟩ := h
  obtain ⟨l', e'⟩ := hl
  exact ⟨l ++ l', p, rec, by rw [← List.append_assoc, e, e'], List.mem_append_left _ hm, hrest⟩

/-- A release after a stretch in which the process stayed blocked. -/
theorem ReleasedByCopy.after (hk : StillBlocked cfg pid a s₁ j) (hl : s.log <+: s₁.log)
    (h : ReleasedByCopy cfg (s₁.procSet j).pid (s₁.procSet j).syscall s₁ s₂) :
    ReleasedByCopy cfg pid a s s₂ := by
  obtain ⟨l, p, rec, e, hm, ht, hd, hc⟩ := h
  obtain ⟨l₀, e₀⟩ := hl
  obtain ⟨-, hpid, hdel⟩ := hk
  refine ⟨l₀ ++ l, p, rec, by rw [← List.append_assoc, e₀, e], List.mem_append_right _ hm, ht, hd,
    ?_⟩
  rcases hc with ⟨hp, hr⟩ | ⟨hx, hs, hr, hcnt⟩
  · exact .inl ⟨hp.trans hpid, hdel.trans hr⟩
  · have e := hdel.send hs
    rw [e] at hs hr hcnt
    exact .inr ⟨hx.trans hpid, hs, hr, hcnt⟩

/-- No change releases nobody. -/
theorem Accounted.refl (s : Kernel) : Accounted cfg s s :=
  ⟨List.prefix_refl _, fun _ hj => .inl (.of_eq rfl hj)⟩

/-- Accounted stretches compose: a release in either is a release of the whole. -/
theorem Accounted.trans (h₁ : Accounted cfg s s₁) (h₂ : Accounted cfg s₁ s₂) :
    Accounted cfg s s₂ :=
  ⟨h₁.log.trans h₂.log, fun j hj => (h₁.blocked j hj).elim
    (fun hk => (h₂.blocked j hk.1).elim (fun hk' => .inl (hk.trans hk'))
      fun hr => .inr (hr.after hk h₁.log))
    fun hr => .inr (hr.grow h₂.log)⟩

/-- A change that keeps the pid, status and record of every blocked process and only appends to
the log. -/
theorem Accounted.of_slots (hl : s.log <+: s'.log)
    (h : ∀ j, (s.procSet j).status = .pendingSyscall → (s'.procSet j).pid = (s.procSet j).pid ∧
      (s'.procSet j).status = (s.procSet j).status ∧ (s'.procSet j).syscall = (s.procSet j).syscall) :
    Accounted cfg s s' :=
  ⟨hl, fun j hj => by
    obtain ⟨hp, hs, hσ⟩ := h j hj
    exact .inl ⟨hs.trans hj, hp, .inl hσ⟩⟩

/-- A change that keeps the control view and grows the log. -/
theorem Accounted.of_ctl (h : s'.ctl = s.ctl) (hl : s.log <+: s'.log) : Accounted cfg s s' := by
  obtain ⟨hp, hs, hσ, -⟩ := Kernel.ctl_eq h
  exact .of_slots hl fun j _ => ⟨hp j, hs j, hσ j⟩

/-- Logging an event releases nobody. -/
theorem Accounted.emit (s : Kernel) (e : Event) : Accounted cfg s (s.emit e) :=
  .of_ctl rfl (List.prefix_append _ _)

/-- `proc_set_runnable` and `proc_set_pending` log nothing. -/
@[simp] theorem procLeaveRunning_log (st : ProcStatus) (s : Kernel) (pid : Int) :
    (procLeaveRunning st s pid).log = s.log := by
  unfold procLeaveRunning; split <;> rfl

/-- `proc_set_running` logs nothing. -/
@[simp] theorem procSetRunning_log (s : Kernel) (pid : Int) : (procSetRunning s pid).log = s.log := by
  unfold procSetRunning; split <;> rfl

/-- Priming a slot logs nothing. -/
@[simp] theorem primeIfReady_log (s : Kernel) (k : Nat) : (primeIfReady cfg s k).log = s.log := by
  unfold primeIfReady; split <;> rfl

/-- `mlfq_reset_level` logs nothing. -/
@[simp] theorem mlfqResetLevel_log (s : Kernel) : (mlfqResetLevel cfg s tty).log = s.log := by
  unfold mlfqResetLevel periodicReset shellBoost
  split <;> split <;> (try split) <;> rfl

/-! ## The retries -/

/-- The retry of a collectable receiver copies its record out and releases it and the sender it
names, which is blocked in a `SYS_SEND` to it with the message it holds, or unused; every other
process is untouched. -/
theorem procTryRecv_accounted (h : Inv cfg s busy) (hi : (s.procSet i).status = .pendingSyscall)
    (hty : (s.procSet i).syscall.type = .sysRecv) : Accounted cfg s (procTryRecv s i) := by
  dsimp only [procTryRecv]
  split
  · exact .refl s
  rename_i hd
  have hdone : (s.procSet i).syscall.status = .done := by
    cases e : (s.procSet i).syscall.status <;> simp_all
  obtain ⟨-, -, -, hsnd⟩ := h.ipc.delivered i ⟨hi, hdone⟩
  let s₁ := procSetRunnable (s.emit (.copyOut (s.procSet i).pid (s.procSet i).syscall))
    (s.procSet i).pid
  have hσ : (s₁.procSet i).syscall = (s.procSet i).syscall := procLeaveRunning_syscall _ _ _ _
  rw [hσ]
  have hlog : s.log ++ [.copyOut (s.procSet i).pid (s.procSet i).syscall] =
      (procSetRunnable s₁ (s.procSet i).syscall.sender).log := by
    simp [s₁, procSetRunnable]
  refine ⟨⟨_, hlog⟩, fun j hj => ?_⟩
  by_cases hpi : (s.procSet j).pid = (s.procSet i).pid
  · -- the receiver, whose record is copied out as it is
    have hji : j = i := h.pid.unique j i hpi (h.pid.pos_of_live (by rw [hj]; decide)).ne'
    subst hji
    exact .inr ⟨_, _, _, hlog, List.mem_singleton_self _, hty, hdone, .inl ⟨rfl, .inl rfl⟩⟩
  by_cases hpx : (s.procSet j).pid = (s.procSet i).syscall.sender
  · -- the sender it names
    have hl : (s.procSet j).status ≠ .unused := by rw [hj]; decide
    rcases hsnd j (h.ipc.lt_of_active h.pid hl (by rw [hj]; decide)) hpx with hu | ⟨-, hs, hr, hc⟩
    · exact absurd hu hl
    · exact .inr ⟨_, _, _, hlog, List.mem_singleton_self _, hty, hdone, .inr ⟨hpx.symm, hs, hr, hc⟩⟩
  · -- everyone else
    have e₁ : s₁.procSet j = s.procSet j := procLeaveRunning_procSet_of_pid_ne _ hpi
    refine .inl (.of_eq ?_ hj)
    exact (procLeaveRunning_procSet_of_pid_ne _ (by rw [e₁]; exact hpx)).trans e₁

/-- A send delivers only into a receiver's record, which keeps its type. -/
theorem procTrySend_accounted (hs : procTrySend cfg s i = .ok s') : Accounted cfg s s' := by
  dsimp only [procTrySend] at hs
  split at hs
  · split at hs <;> cases hs
    · rename_i k _ ha
      refine ⟨by simp, fun j hj => .inl ?_⟩
      by_cases hjk : j = k
      · -- the receiver's record is filled in from a sender it accepts
        subst hjk
        simp only [accepts, Bool.and_eq_true, beq_iff_eq, Bool.or_eq_true] at ha
        simp only [StillBlocked, Kernel.modifyProc_procSet, if_pos rfl, deliver]
        exact ⟨hj, rfl, .inr ⟨ha.1.1, ha.1.2, ha.1.1, rfl, ha.2⟩⟩
      · exact .of_eq (by rw [Kernel.modifyProc_procSet, if_neg hjk]) hj
    · exact .refl s
  · cases hs

/-- A step of the scans releases blocked processes only by copy-outs. -/
theorem retry_accounted (h : Inv cfg s busy) (hs : retry cfg s i = .ok s') : Accounted cfg s s' := by
  unfold retry at hs
  split at hs
  · rename_i hi
    unfold procTrySyscall at hs
    split at hs
    · cases hs; exact procTryRecv_accounted h hi ‹_›
    · exact procTrySend_accounted hs
    · cases hs
  · cases hs; exact .refl s

/-- The wake-ups and retries of the first scan release blocked processes only by copy-outs. -/
theorem retryAll_accounted {now : BitVec 64} {l : List Nat} (h : Inv cfg s busy)
    (hs : retryAll cfg now l s = .ok s') : Accounted cfg s s' := by
  induction l generalizing s with
  | nil => cases hs; exact .refl _
  | cons i l ih =>
    obtain ⟨s₁, h₁, h₂⟩ := bind_eq_ok.1 hs
    rw [wakeUp_of_inv h] at h₁
    exact (retry_accounted h h₁).trans (ih ((retry_step h₁).inv busy h) h₂)

/-- The fallback scan releases blocked processes only by copy-outs. -/
theorem fallbackScan_accounted {now : BitVec 64} {l : List Nat} {n : Nat} (h : Inv cfg s busy)
    (hs : fallbackScan cfg now l s = .ok (s', n)) : Accounted cfg s s' := by
  induction l generalizing s with
  | nil => cases hs; exact .refl _
  | cons i l ih =>
    simp only [fallbackScan, bind, Except.bind] at hs
    split at hs
    · cases hs
    · rename_i s₁ h₁
      have hacc := retry_accounted h h₁
      have h₁' := (retry_step h₁).inv busy h
      split at hs
      · exact hacc.trans (ih h₁' hs)
      · split at hs
        · cases hs; exact hacc
        · exact hacc.trans (ih h₁' hs)

/-- The two scans of `proc_yield` release blocked processes only by copy-outs. -/
theorem pickNext_accounted {now : BitVec 64} (h : Inv cfg s busy)
    (hs : pickNext cfg now s = .ok (s', k)) : Accounted cfg s s' := by
  obtain ⟨⟨s₁, n₁⟩, hm, hf⟩ := bind_eq_ok.1 hs
  have hr : retryAll cfg now userSlots s = .ok s₁ := by rw [← mlfqScan_fst, hm]; rfl
  refine (retryAll_accounted h hr).trans ?_
  dsimp only at hf
  split at hf
  · exact fallbackScan_accounted ((retryAll_step hr).inv busy h) hf
  · cases hf; exact .refl _

/-! ## `proc_yield` and the handlers -/

/-- The prologue of `proc_yield` takes only the running process of the core out of
`PROC_RUNNING`. -/
theorem yieldPrologue_accounted (h : Inv cfg s busy) : Accounted cfg s (yieldPrologue cfg s tty) := by
  unfold yieldPrologue
  refine Accounted.trans ?_ (.of_ctl (mlfqResetLevel_ctl cfg _ tty) (by simp))
  split
  · rename_i hrun
    refine .of_slots (by simp [procSetRunnable]) fun j hj => ?_
    have hne : (s.procSet j).pid ≠ (s.procSet s.currIdx).pid := fun e => by
      have hl : (s.procSet j).status ≠ .unused := by rw [hj]; decide
      rw [← h.pid.unique _ _ e (h.pid.pos_of_live hl).ne', hj] at hrun; cases hrun
    rw [procSetRunnable, procLeaveRunning_procSet_of_pid_ne _ hne]
    exact ⟨rfl, rfl, rfl⟩
  · exact .refl s

/-- Dispatching a ready slot changes the status of that slot only. -/
theorem dispatch_accounted (h : Inv cfg s busy) (hk : k < maxNProcess)
    (hr : isReady (s.procSet k) = true) : Accounted cfg s (dispatch cfg s k) := by
  have hS := stampNext_ctl cfg s k
  obtain ⟨-, hs, -⟩ := Kernel.ctl_eq hS
  have hst : (s.procSet k).status = .ready ∨ (s.procSet k).status = .runnable := by
    simpa [isReady] using hr
  have hl : ((stampNext cfg s k).procSet k).status ≠ .unused := by
    rw [hs]; rcases hst with e | e <;> rw [e] <;> decide
  have hctl := (switchTo_ctl cfg (h.of_ctl hS).pid hk hl).trans
    (Kernel.ctl_withStatus_congr (Kernel.ctl_setCoreIdx_congr hS))
  obtain ⟨hp, hs', hσ, -⟩ := Kernel.ctl_eq hctl
  refine .of_slots (by simp [dispatch, switchTo, stampNext]) fun j hj => ?_
  have hjk : j ≠ k := by rintro rfl; rcases hst with e | e <;> rw [e] at hj <;> cases hj
  refine ⟨by simp [dispatch, hp], ?_, by simp [dispatch, hσ]⟩
  rw [dispatch, hs', Kernel.withStatus_status, if_neg hjk, Kernel.setCoreIdx_procSet]

/-- Sending the core idle releases nobody. -/
theorem goIdle_accounted (s : Kernel) : Accounted cfg s (goIdle s) :=
  .of_slots (by simp [goIdle]) fun _ _ => ⟨rfl, rfl, rfl⟩

/-- A `proc_yield` on the exempt core releases blocked processes only through copy-outs. -/
theorem procYield_accounted {c : Nat} {y y' : Kernel} (h : Inv cfg y (· ≠ c))
    (hcs : y.coreInKernel = c) (hy : procYield cfg y tty = .ok y') : Accounted cfg y y' := by
  subst hcs
  obtain ⟨⟨s₂, k⟩, h₁, h₂⟩ := bind_eq_ok.1 hy
  have hp : Inv cfg (yieldPrologue cfg y tty) (· ≠ y.coreInKernel) := h.prologue
  obtain ⟨hps, hk⟩ := pickNext_step h₁
  refine (yieldPrologue_accounted h).trans ((pickNext_accounted hp h₁).trans ?_)
  dsimp only at h₂
  split at h₂ <;> cases h₂
  · exact dispatch_accounted (hps.inv _ hp) ‹_› (hk.resolve_left (by omega)).2
  · exact goIdle_accounted s₂

/-- `proc_free` of a pid other than `GPID_ALL` touches no slot holding another pid. -/
theorem procFree_procSet_of_pid_ne {pid : Int} (hne : pid ≠ cfg.gpidAll)
    (hj : (s.procSet j).pid ≠ pid) : (procFree cfg s pid).procSet j = s.procSet j := by
  unfold procFree
  rw [if_pos hne]
  split
  · rename_i i hi
    have hpi : (s.procSet i).pid = pid := by
      have := (findSlot_eq_some hi).2
      simp only [Bool.and_eq_true, beq_iff_eq] at this
      exact this.1
    have hji : j ≠ i := by rintro rfl; exact hj hpi
    simp only [procSetStatus, terminate_procSet_ne s hji]
    rw [if_neg fun h => hj h.2]
  · rfl

/-- `proc_free` only appends to the log. -/
theorem procFree_log (s : Kernel) (pid : Int) : s.log <+: (procFree cfg s pid).log := by
  have hterm : ∀ s i, s.log <+: (terminate s i).log := fun s i => by simp [terminate]
  unfold procFree
  split
  · split
    · exact (hterm _ _).trans (List.prefix_refl _)
    · exact List.prefix_refl _
  · induction lowSlots generalizing s with
    | nil => exact List.prefix_refl _
    | cons i l ih =>
      rw [List.foldl_cons]
      refine List.IsPrefix.trans ?_ (ih _)
      split
      · exact hterm _ _
      · exact List.prefix_refl _

/-- Blocking the running caller of an `ecall` gives its slot the submitted record, marked
`PENDING`, and status `PROC_PENDING_SYSCALL`, and changes no pid and no other slot. -/
theorem blockCaller_procSet (h : Inv cfg s fun _ => True) (h0 : s.currIdx ≠ 0) (rec : Syscall)
    (j : Nat) :
    ((blockCaller s rec).procSet j).pid = (s.procSet j).pid ∧
      ((blockCaller s rec).procSet j).status =
        (if j = s.currIdx then .pendingSyscall else (s.procSet j).status) ∧
      ((blockCaller s rec).procSet j).syscall =
        (if j = s.currIdx then { rec with status := .pending } else (s.procSet j).syscall) := by
  obtain ⟨hp, hs, hσ, -⟩ := Kernel.ctl_eq
    (blockCaller_ctl rec h.pid (h.core.bound _) (h.core.live trivial h0))
  rw [hp, hs, hσ, Kernel.withStatus_pid, Kernel.withSyscall_pid, Kernel.withStatus_status,
    Kernel.withSyscall_status, Kernel.withStatus_syscall, Kernel.withSyscall_syscall]
  exact ⟨rfl, rfl, rfl⟩

/-- The part of a kernel entry before `proc_yield`: only the trapping process changes status, and
an `ecall` tries the new call once. -/
theorem yieldArg_accounted (hall : cfg.gpidAll ≤ 0) (h : Inv cfg s fun _ => True) {t : Trap}
    {y : Kernel} (hp : t.mcause.getLsbD 31 = false → s.currIdx ≠ 0)
    (hy : yieldArg cfg s t = .ok y) : Accounted cfg s y := by
  unfold yieldArg at hy
  split at hy
  · split at hy
    · cases hy
    · cases hy
      split
      · exact .of_ctl (Kernel.ctl_modifyProc fun p => timerCharge_sameCtl _ p) (by simp)
      · exact .refl s
  · rename_i hb
    have h0 := hp (by simpa using hb)
    have hrun : (s.procSet s.currIdx).status = .running := h.core.running _ trivial h0
    -- a blocked process is not the one the core runs, and holds another pid
    have hne : ∀ j, (s.procSet j).status = .pendingSyscall → j ≠ s.currIdx ∧
        (s.procSet j).pid ≠ (s.procSet s.currIdx).pid := fun j hj => by
      have hjk : j ≠ s.currIdx := by rintro rfl; rw [hj] at hrun; cases hrun
      refine ⟨hjk, fun e => hjk (h.pid.unique _ _ e ?_)⟩
      exact (h.pid.pos_of_live (by rw [hj]; decide)).ne'
    split at hy
    · -- `ecall`: block the caller, then try its call
      obtain ⟨hB, hst⟩ := h.block t.syscall h0
      have hr : retry cfg (blockCaller s t.syscall) s.currIdx = .ok y := by
        rw [retry, if_pos hst]; exact hy
      refine Accounted.trans ?_ (retry_accounted hB hr)
      refine .of_slots (by simp [blockCaller, procSetPending]) fun j hj => ?_
      obtain ⟨ep, es, eσ⟩ := blockCaller_procSet h h0 t.syscall j
      simp only [ep, es, eσ, if_neg (hne j hj).1, and_self]
    · -- a user fault frees the trapping process
      dsimp only at hy
      split at hy
      · cases hy
        have hpos : 0 < (s.procSet s.currIdx).pid := h.pid.pos_of_live (h.core.live trivial h0)
        refine (Accounted.emit s _).trans (.of_slots (procFree_log _ _) fun j hj => ?_)
        rw [procFree_procSet_of_pid_ne (s := s.emit _) (by omega) (hne j hj).2]
        exact ⟨rfl, rfl, rfl⟩
      · cases hy

/-- A kernel entry on a core below `NCORES` from a polite state. -/
theorem kernelEntry_accounted (hall : cfg.gpidAll ≤ 0) (h : Inv cfg s fun _ => True) {t : Trap}
    (hp : t.mcause.getLsbD 31 = false → s.coreToProcIdx t.hart ≠ 0)
    (he : kernelEntry cfg s t = .ok s') : Accounted cfg s s' := by
  obtain ⟨s₁, h₁, rfl⟩ := kernelEntry_ok he
  rw [trapHandler_eq_bind] at h₁
  obtain ⟨y, hy, hy'⟩ := bind_eq_ok.1 h₁
  have h₀ := h.of_ctl (saveContext_ctl s t)
  obtain ⟨hi, hcore⟩ := h₀.atYield hall hp hy
  exact ((Accounted.of_ctl (saveContext_ctl s t) (by simp [saveContext])).trans
    ((yieldArg_accounted hall h₀ hp hy).trans (procYield_accounted hi hcore hy'))).trans
    (.emit _ _)

/-- `proc_free` marks slots unused and changes nothing else a blocked process holds. -/
theorem procFree_slot (s : Kernel) (pid : Int) (j : Nat) :
    ((procFree cfg s pid).procSet j).status = .unused ∨
      ((procFree cfg s pid).procSet j).pid = (s.procSet j).pid ∧
      ((procFree cfg s pid).procSet j).status = (s.procSet j).status ∧
      ((procFree cfg s pid).procSet j).syscall = (s.procSet j).syscall := by
  have hterm : ∀ s i, ((terminate s i).procSet j).pid = (s.procSet j).pid ∧
      ((terminate s i).procSet j).status = (s.procSet j).status ∧
      ((terminate s i).procSet j).syscall = (s.procSet j).syscall := fun s i => by
    obtain ⟨hp, hs, hσ, -⟩ := Kernel.ctl_eq (terminate_ctl s i)
    exact ⟨hp j, hs j, hσ j⟩
  unfold procFree
  split
  · split
    · rename_i i _
      simp only [procSetStatus]
      split
      · exact .inl rfl
      · exact .inr (hterm s i)
    · exact .inr ⟨rfl, rfl, rfl⟩
  · induction lowSlots generalizing s with
    | nil => exact .inr ⟨rfl, rfl, rfl⟩
    | cons i l ih =>
      rw [List.foldl_cons]
      split
      · rcases ih ((terminate s i).modifyProc i fun p => { p with status := .unused }) with
          hu | ⟨hp, hs, hσ⟩
        · exact .inl hu
        · rw [hp, hs, hσ, Kernel.modifyProc_procSet]
          split
          · exact .inl rfl
          · exact .inr (hterm s i)
      · exact ih s

/-- The caller of an `ecall` is blocked, with its pid, on the record it submits in the state
`blockCaller` leaves, whose log is that of the entry; from there to the end of the entry every
blocked process is `Accounted`. -/
theorem kernelEntry_ecall (hall : cfg.gpidAll ≤ 0) (h : Inv cfg s fun _ => True) {t : Trap}
    (hb : t.mcause.getLsbD 31 = false) (hec : excpIdEcallU ≤ t.mcause ∧ t.mcause ≤ excpIdEcallM)
    (h0 : s.coreToProcIdx t.hart ≠ 0) (he : kernelEntry cfg s t = .ok s') :
    ∃ b, Accounted cfg b s' ∧ b.log = s.log ∧
      (b.procSet (s.coreToProcIdx t.hart)).status = .pendingSyscall ∧
      (b.procSet (s.coreToProcIdx t.hart)).pid = (s.procSet (s.coreToProcIdx t.hart)).pid ∧
      (b.procSet (s.coreToProcIdx t.hart)).syscall = { t.syscall with status := .pending } := by
  obtain ⟨s₁, h₁, rfl⟩ := kernelEntry_ok he
  rw [trapHandler_eq_bind] at h₁
  obtain ⟨y, hy, hy'⟩ := bind_eq_ok.1 h₁
  have h₀ := h.of_ctl (saveContext_ctl s t)
  obtain ⟨hi, hcore⟩ := h₀.atYield hall (fun _ => h0) hy
  rw [yieldArg, if_neg (by simp [hb]), if_pos hec] at hy
  obtain ⟨hB, hst⟩ := h₀.block t.syscall h0
  have hr : retry cfg (blockCaller (saveContext s t) t.syscall) (saveContext s t).currIdx =
      .ok y := by
    rw [retry, if_pos hst]; exact hy
  obtain ⟨hp, -, hσ⟩ := blockCaller_procSet h₀ h0 t.syscall (saveContext s t).currIdx
  refine ⟨_, ((retry_accounted hB hr).trans (procYield_accounted hi hcore hy')).trans (.emit _ _),
    by simp [blockCaller, procSetPending, saveContext], hst,
    hp.trans ((Kernel.ctl_eq (saveContext_ctl s t)).1 _), hσ.trans (if_pos rfl)⟩

/-- Over every polite step, a process blocked before the step is still blocked after it, has been
freed, or was released by a copy-out the step logged. -/
theorem step_released (hall : cfg.gpidAll ≤ 0) (h : PoliteReach cfg s) {l : Step}
    (hp : Polite cfg s l) (hs : step cfg s l = .ok s') (hj : (s.procSet j).status = .pendingSyscall) :
    StillBlocked cfg (s.procSet j).pid (s.procSet j).syscall s' j ∨
      (s'.procSet j).status = .unused ∨
      ReleasedByCopy cfg (s.procSet j).pid (s.procSet j).syscall s s' := by
  have hinv := h.inv hall
  cases l with
  | alloc =>
    cases ha : procAlloc s with
    | error => simp [step, ha, Except.map] at hs
    | ok r =>
      simp only [step, ha, Except.map, Except.ok.injEq] at hs
      subst hs
      exact .inl (.of_eq (procAlloc_procSet_of_ne_unused ha (by rw [hj]; decide)) hj)
  | setReady pid =>
    cases hs
    refine .inl (.of_eq ?_ hj)
    unfold procSetReady
    split
    · rename_i i hi
      obtain ⟨hlt, hpid⟩ := findSlot_eq_some hi
      have hl := hp i hlt (by simpa using hpid)
      rw [Kernel.modifyProc_procSet, if_neg fun e => by subst e; rw [hl] at hj; cases hj]
    · rfl
  | free pid =>
    cases hs
    rcases procFree_slot s pid j with hu | ⟨hp', hs', hσ⟩
    · exact .inr (.inl hu)
    · exact .inl ⟨hs'.trans hj, hp', .inl hσ⟩
  | sleep => exact hp.elim
  | trap t =>
    simp only [step] at hs
    split at hs
    · exact ((kernelEntry_accounted hall hinv (hp ‹_›) hs).blocked j hj).imp_right .inr
    · cases hs; exact .inl (.of_eq rfl hj)
  | tick =>
    cases hs
    exact .inl (.of_eq (by split <;> rfl) hj)

end Accounting

/-! ## Nothing is forged -/

section Sends

variable {cfg : Config} {s s' : Kernel} {i k : Nat} {tty : Bool} {H : List (Int × Int × List UInt8)}

/-- A change after which every blocked slot was blocked before with the same pid and record, and
which logs no new copy-out. -/
theorem SendsCover.of_slots (h : SendsCover H s)
    (hb : ∀ k, (s'.procSet k).status = .pendingSyscall → (s.procSet k).status = .pendingSyscall ∧
      (s'.procSet k).pid = (s.procSet k).pid ∧ (s'.procSet k).syscall = (s.procSet k).syscall)
    (hl : ∀ p rec, Event.copyOut p rec ∈ s'.log → Event.copyOut p rec ∈ s.log) :
    SendsCover H s' := by
  refine ⟨fun k hk ht => ?_, fun k hk ht hd => ?_, fun p rec hm => h.log p rec (hl p rec hm)⟩
  · obtain ⟨h₁, h₂, h₃⟩ := hb k hk
    rw [h₂, h₃]; rw [h₃] at ht
    exact h.send k h₁ ht
  · obtain ⟨h₁, h₂, h₃⟩ := hb k hk
    rw [h₂, h₃]; rw [h₃] at ht hd
    exact h.recv k h₁ ht hd

/-- More submitted messages cover at least as much. -/
theorem SendsCover.mono (h : SendsCover H s) {H' : List (Int × Int × List UInt8)}
    (hH : ∀ x ∈ H, x ∈ H') : SendsCover H' s :=
  ⟨fun k hk ht => hH _ (h.send k hk ht), fun k hk ht hd => hH _ (h.recv k hk ht hd),
    fun p rec hm => hH _ (h.log p rec hm)⟩

/-- A change that keeps the control view and logs no new copy-out. -/
theorem SendsCover.of_ctl (h : SendsCover H s) (hc : s'.ctl = s.ctl)
    (hl : ∀ p rec, Event.copyOut p rec ∈ s'.log → Event.copyOut p rec ∈ s.log) :
    SendsCover H s' := by
  obtain ⟨hp, hs, hσ, -⟩ := Kernel.ctl_eq hc
  exact h.of_slots (fun k hk => ⟨(hs k).symm.trans hk, hp k, hσ k⟩) hl

/-- Logging an event other than a copy-out. -/
theorem SendsCover.emit (h : SendsCover H s) {e : Event} (he : ∀ p rec, e ≠ .copyOut p rec) :
    SendsCover H (s.emit e) :=
  h.of_slots (fun _ hk => ⟨hk, rfl, rfl⟩) fun p rec hm => by
    rcases List.mem_append.1 hm with hm | hm
    · exact hm
    · exact absurd (List.mem_singleton.1 hm).symm (he p rec)

/-- Pointing a core at a slot forges nothing. -/
theorem SendsCover.setCoreIdx (h : SendsCover H s) (c k : Nat) : SendsCover H (s.setCoreIdx c k) :=
  ⟨h.send, h.recv, h.log⟩

/-- A write of slot `k` that blocks nothing new and keeps the pid and record of a blocked slot. -/
theorem SendsCover.modifyProc {f : Process → Process} (h : SendsCover H s)
    (hf : (f (s.procSet k)).status = .pendingSyscall → (s.procSet k).status = .pendingSyscall ∧
      (f (s.procSet k)).pid = (s.procSet k).pid ∧ (f (s.procSet k)).syscall = (s.procSet k).syscall) :
    SendsCover H (s.modifyProc k f) :=
  h.of_slots (fun j hj => by
    by_cases hjk : j = k
    · subst hjk; rw [Kernel.modifyProc_procSet, if_pos rfl] at hj ⊢; exact hf hj
    · rw [Kernel.modifyProc_procSet, if_neg hjk] at hj ⊢; exact ⟨hj, rfl, rfl⟩)
    fun _ _ hm => hm

/-- `proc_set_runnable` forges nothing. -/
theorem procLeaveRunning_sendsCover (h : SendsCover H s) {st : ProcStatus}
    (hst : st ≠ .pendingSyscall) (pid : Int) : SendsCover H (procLeaveRunning st s pid) := by
  unfold procLeaveRunning
  split
  · exact h.modifyProc fun hb => absurd hb hst
  · exact h

/-- `proc_set_running` forges nothing. -/
theorem procSetRunning_sendsCover (h : SendsCover H s) (pid : Int) :
    SendsCover H (procSetRunning s pid) := by
  unfold procSetRunning
  split
  · exact h.modifyProc fun hb => by cases hb
  · exact h

/-- The copy-out of a collectable receiver's record is a message submitted to it. -/
theorem procTryRecv_sendsCover (h : SendsCover H s) (hi : (s.procSet i).status = .pendingSyscall)
    (hty : (s.procSet i).syscall.type = .sysRecv) : SendsCover H (procTryRecv s i) := by
  dsimp only [procTryRecv]
  split
  · exact h
  rename_i hd
  have hdone : (s.procSet i).syscall.status = .done := by
    cases e : (s.procSet i).syscall.status <;> simp_all
  have h₁ : SendsCover H (s.emit (.copyOut (s.procSet i).pid (s.procSet i).syscall)) :=
    ⟨h.send, h.recv, fun p rec hm => by
      rcases List.mem_append.1 hm with hm | hm
      · exact h.log p rec hm
      · obtain ⟨rfl, rfl⟩ : p = _ ∧ rec = _ := by simpa using hm
        exact h.recv i hi hty hdone⟩
  exact procLeaveRunning_sendsCover (procLeaveRunning_sendsCover h₁ (by decide) _) (by decide) _

/-- A delivery fills a receiver's record with a message its sender, blocked in a `SYS_SEND` to
that receiver, submitted. -/
theorem procTrySend_sendsCover (h : SendsCover H s) (hi : (s.procSet i).status = .pendingSyscall)
    (hty : (s.procSet i).syscall.type = .sysSend) (hs : procTrySend cfg s i = .ok s') :
    SendsCover H s' := by
  dsimp only [procTrySend] at hs
  split at hs
  · split at hs <;> cases hs
    · rename_i k hk ha
      have hkp := (findSlot_eq_some hk).2
      simp only [Bool.and_eq_true, beq_iff_eq] at hkp
      have hrecv : (s.procSet k).syscall.type = .sysRecv := by
        simp only [accepts, Bool.and_eq_true, beq_iff_eq] at ha; exact ha.1.1
      refine ⟨fun j hj ht => ?_, fun j hj ht hd => ?_, h.log⟩ <;> by_cases hjk : j = k
      · subst hjk; rw [Kernel.modifyProc_procSet, if_pos rfl] at ht; simp [deliver, hrecv] at ht
      · rw [Kernel.modifyProc_procSet, if_neg hjk] at hj ht ⊢; exact h.send j hj ht
      · subst hjk
        rw [Kernel.modifyProc_procSet, if_pos rfl]
        simp only [deliver]
        rw [hkp.1]; exact h.send i hi hty
      · rw [Kernel.modifyProc_procSet, if_neg hjk] at hj ht hd ⊢; exact h.recv j hj ht hd
    · exact h
  · cases hs

/-- A step of the scans forges nothing. -/
theorem retry_sendsCover (h : SendsCover H s) (hs : retry cfg s i = .ok s') : SendsCover H s' := by
  unfold retry at hs
  split at hs
  · rename_i hi
    unfold procTrySyscall at hs
    split at hs
    · cases hs; exact procTryRecv_sendsCover h hi ‹_›
    · exact procTrySend_sendsCover h hi ‹_› hs
    · cases hs
  · cases hs; exact h

/-- The wake-ups and retries of the first scan forge nothing. -/
theorem retryAll_sendsCover {now : BitVec 64} {l : List Nat} (h : SendsCover H s)
    (hs : retryAll cfg now l s = .ok s') : SendsCover H s' := by
  induction l generalizing s with
  | nil => cases hs; exact h
  | cons i l ih =>
    obtain ⟨s₁, h₁, h₂⟩ := bind_eq_ok.1 hs
    have hw : SendsCover H (wakeUp now s i) := by
      dsimp only [wakeUp]
      split
      · exact h.modifyProc (f := fun p => { p with wakeupTime := 0, status := .runnable }) fun hb => by cases hb
      · exact h
    exact ih (retry_sendsCover hw h₁) h₂

/-- The fallback scan forges nothing. -/
theorem fallbackScan_sendsCover {now : BitVec 64} {l : List Nat} {n : Nat} (h : SendsCover H s)
    (hs : fallbackScan cfg now l s = .ok (s', n)) : SendsCover H s' := by
  induction l generalizing s with
  | nil => cases hs; exact h
  | cons i l ih =>
    simp only [fallbackScan, bind, Except.bind] at hs
    split at hs
    · cases hs
    · rename_i s₁ h₁
      have h₁' := retry_sendsCover h h₁
      split at hs
      · exact ih h₁' hs
      · split at hs
        · cases hs; exact h₁'
        · exact ih h₁' hs

/-- `proc_yield` forges nothing. -/
theorem procYield_sendsCover {y y' : Kernel} (h : SendsCover H y)
    (hy : procYield cfg y tty = .ok y') : SendsCover H y' := by
  obtain ⟨⟨s₂, k⟩, h₁, h₂⟩ := bind_eq_ok.1 hy
  have hp : SendsCover H (yieldPrologue cfg y tty) := by
    unfold yieldPrologue
    refine SendsCover.of_ctl ?_ (mlfqResetLevel_ctl cfg _ tty) (by simp)
    split
    · exact procLeaveRunning_sendsCover h (by decide) _
    · exact h
  obtain ⟨⟨s₁, n₁⟩, hm, hf⟩ := bind_eq_ok.1 h₁
  have hr : retryAll cfg (mtimeGet (yieldPrologue cfg y tty)) userSlots (yieldPrologue cfg y tty) =
      .ok s₁ := by
    rw [← mlfqScan_fst, hm]; rfl
  have hs₂ : SendsCover H s₂ := by
    dsimp only at hf
    split at hf
    · exact fallbackScan_sendsCover (retryAll_sendsCover hp hr) hf
    · cases hf; exact retryAll_sendsCover hp hr
  dsimp only at h₂
  split at h₂ <;> cases h₂
  · have hS : SendsCover H (stampNext cfg s₂ k) :=
      (hs₂.modifyProc fun hb => ⟨hb, rfl, rfl⟩).emit (by simp)
    have hP : ∀ s, SendsCover H s → SendsCover H (primeIfReady cfg s k) := fun s h => by
      unfold primeIfReady
      split
      · exact h.modifyProc fun hb => ⟨hb, rfl, rfl⟩
      · exact h
    exact (procSetRunning_sendsCover (hP _ (((hS.setCoreIdx _ _).emit (by simp)).emit (by simp))) _).emit
      (by simp)
  · exact ((hs₂.setCoreIdx _ _).emit (by simp)).emit (by simp)

/-- `proc_free` forges nothing: it only marks slots unused and logs reports. -/
theorem procFree_sendsCover (h : SendsCover H s) (pid : Int) : SendsCover H (procFree cfg s pid) := by
  have hterm : ∀ s i p rec, Event.copyOut p rec ∈ (terminate s i).log → Event.copyOut p rec ∈ s.log :=
    fun s i p rec hm => by simpa [terminate] using hm
  refine h.of_slots (fun k hk => ?_) (procFree_rel cfg
    (R := fun s s' => ∀ p rec, Event.copyOut p rec ∈ s'.log → Event.copyOut p rec ∈ s.log)
    (fun _ _ _ hm => hm) (fun h₁ h₂ p rec hm => h₁ p rec (h₂ p rec hm))
    (fun s i _ => hterm s i) (fun s i => hterm s i) s pid)
  rcases procFree_slot s pid k with hu | ⟨hp, hs, hσ⟩
  · rw [hu] at hk; cases hk
  · exact ⟨hs ▸ hk, hp, hσ⟩

/-- `blockCaller` blocks the running caller on a record whose `SYS_SEND`, if it is one, is in `H`. -/
theorem blockCaller_sendsCover (h : Inv cfg s fun _ => True) (h0 : s.currIdx ≠ 0)
    (hc : SendsCover H s) {rec : Syscall}
    (hnew : rec.type = .sysSend → ((s.procSet s.currIdx).pid, rec.receiver, rec.content) ∈ H) :
    SendsCover H (blockCaller s rec) := by
  refine ⟨fun j hj ht => ?_, fun j hj ht hd => ?_,
    fun p r hm => hc.log p r (by simpa [blockCaller, procSetPending] using hm)⟩
  · obtain ⟨ep, es, eσ⟩ := blockCaller_procSet h h0 rec j
    rw [ep, eσ]; rw [eσ] at ht
    by_cases hjk : j = s.currIdx
    · rw [if_pos hjk] at ht ⊢; subst hjk; exact hnew ht
    · rw [es, if_neg hjk] at hj; rw [if_neg hjk] at ht ⊢; exact hc.send j hj ht
  · obtain ⟨ep, es, eσ⟩ := blockCaller_procSet h h0 rec j
    rw [ep, eσ]; rw [eσ] at ht hd
    by_cases hjk : j = s.currIdx
    · rw [if_pos hjk] at hd; cases hd
    · rw [es, if_neg hjk] at hj; rw [if_neg hjk] at ht hd ⊢; exact hc.recv j hj ht hd

/-- A kernel entry from a polite state keeps `SendsCover`, with the `SYS_SEND` it submits added. -/
theorem kernelEntry_sendsCover (h : Inv cfg s fun _ => True) {t : Trap}
    (hp : t.mcause.getLsbD 31 = false → s.coreToProcIdx t.hart ≠ 0) (hc : SendsCover H s)
    (hnew : t.mcause.getLsbD 31 = false → excpIdEcallU ≤ t.mcause → t.mcause ≤ excpIdEcallM →
      t.syscall.type = .sysSend →
      ((s.procSet (s.coreToProcIdx t.hart)).pid, t.syscall.receiver, t.syscall.content) ∈ H)
    (he : kernelEntry cfg s t = .ok s') : SendsCover H s' := by
  obtain ⟨s₁, h₁, rfl⟩ := kernelEntry_ok he
  rw [trapHandler_eq_bind] at h₁
  obtain ⟨y, hy, hy'⟩ := bind_eq_ok.1 h₁
  have h₀ := h.of_ctl (saveContext_ctl s t)
  have hc₀ : SendsCover H (saveContext s t) := hc.of_ctl (saveContext_ctl s t) fun _ _ hm => hm
  have hpid : ((saveContext s t).procSet (saveContext s t).currIdx).pid =
      (s.procSet (s.coreToProcIdx t.hart)).pid :=
    (Kernel.ctl_eq (saveContext_ctl s t)).1 _
  refine (procYield_sendsCover ?_ hy').emit (by simp)
  unfold yieldArg at hy
  split at hy
  · split at hy
    · cases hy
    · cases hy
      split
      · exact hc₀.of_ctl (Kernel.ctl_modifyProc fun p => timerCharge_sameCtl _ p) fun _ _ hm => hm
      · exact hc₀
  · rename_i hb
    have hb' : t.mcause.getLsbD 31 = false := by simpa using hb
    split at hy
    · rename_i hec
      have hB := blockCaller_sendsCover h₀ (hp hb') hc₀ fun ht => by
        rw [hpid]; exact hnew hb' hec.1 hec.2 ht
      exact retry_sendsCover hB (by rw [retry, if_pos (h₀.block t.syscall (hp hb')).2]; exact hy)
    · dsimp only at hy
      split at hy
      · cases hy; exact procFree_sendsCover (hc₀.emit (by simp)) _
      · cases hy

/-- A polite step keeps `SendsCover`, with the `SYS_SEND` it submits added. -/
theorem step_sendsCover (hall : cfg.gpidAll ≤ 0) (h : PoliteReach cfg s) {l : Step}
    (hp : Polite cfg s l) (hs : step cfg s l = .ok s') (hc : SendsCover H s) :
    SendsCover (H ++ sendOf cfg s l) s' := by
  have hc' := hc.mono fun x hx => List.mem_append_left (sendOf cfg s l) hx
  cases l with
  | alloc =>
    cases ha : procAlloc s with
    | error => simp [step, ha, Except.map] at hs
    | ok r =>
      simp only [step, ha, Except.map, Except.ok.injEq] at hs
      subst hs
      obtain ⟨i, -, -, e⟩ := procAlloc_eq_ok ha
      have h₁ : SendsCover (H ++ sendOf cfg s .alloc) { s with currPid := s.currPid + 1 } :=
        ⟨hc'.send, hc'.recv, hc'.log⟩
      rw [e]
      exact (h₁.modifyProc fun hb => by cases hb).emit (by simp)
  | setReady pid =>
    cases hs
    unfold procSetReady
    split
    · exact hc'.modifyProc fun hb => by cases hb
    · exact hc'
  | free pid => cases hs; exact procFree_sendsCover hc' _
  | sleep => exact hp.elim
  | trap t =>
    simp only [step] at hs
    split at hs
    · rename_i hlt
      refine kernelEntry_sendsCover (h.inv hall) (hp hlt) hc' (fun hb hu hm ht => ?_) hs
      refine List.mem_append_right _ ?_
      simp [sendOf, hlt, hb, hu, hm, ht]
    · cases hs; exact hc'
  | tick =>
    cases hs
    split
    · exact ⟨hc'.send, hc'.recv, hc'.log⟩
    · exact hc'

/-- Along a polite run from boot, every message held or copied out was submitted in the run. -/
theorem politeRun_sendsCover (hall : cfg.gpidAll ≤ 0) {ls : List Step} {s₀ s : Kernel}
    (h₀ : PoliteReach cfg s₀) (hc : SendsCover H s₀) (h : politeRun cfg s₀ ls = some s) :
    SendsCover (H ++ sendsAlong cfg s₀ ls) s := by
  induction ls generalizing s₀ H with
  | nil => cases h; simpa [sendsAlong] using hc
  | cons l ls ih =>
    simp only [politeRun] at h
    split at h
    · rename_i hp
      split at h
      · rename_i s₁ h₁
        have := ih (h₀.step hp h₁) (step_sendsCover hall h₀ hp h₁ hc) h
        simpa [sendsAlong, h₁] using this
      · cases h
    · cases h

/-- The boot state holds no message and has logged no copy-out. -/
theorem sendsCover_init (cfg : Config) : SendsCover [] (init cfg) :=
  ⟨fun _ hk => by simp [init, blank] at hk, fun _ hk => by simp [init, blank] at hk,
    fun _ _ hm => by simp [init] at hm⟩

/-- `politeRun` extends by one polite step. -/
theorem politeRun_snoc {ls : List Step} {s₀ s : Kernel} {l : Step} (h : politeRun cfg s₀ ls = some s)
    (hp : Polite cfg s l) (hs : step cfg s l = .ok s') : politeRun cfg s₀ (ls ++ [l]) = some s' := by
  induction ls generalizing s₀ with
  | nil => cases h; simp [politeRun, hp, hs]
  | cons l₀ ls ih =>
    simp only [politeRun] at h ⊢
    split at h
    · rename_i hp₀
      rw [if_pos hp₀]
      split at h
      · exact ih h
      · cases h
    · cases h

end Sends

/-- Over every polite step from a polite run, a process waiting as the step begins (blocked, or
blocked by the `ecall` of the step) is still blocked after it, with its pid and its record up to
one accepted delivery, or has been freed, or was released by a copy-out the step logged: as the
receiver whose record, filled in from a sender it accepts, was copied out, or as the sender that
record names, whose `SYS_SEND` named that receiver with the message copied. And every message held
for delivery or copied out was submitted by a `SYS_SEND` of the run, from its sender to its
receiver. -/
theorem blocked_released_only_by_copy {cfg : Config} {ls : List Step} {s s' : Kernel} {l : Step}
    (hall : cfg.gpidAll ≤ 0) (h : politeRun cfg (init cfg) ls = some s) (hp : Polite cfg s l)
    (hs : step cfg s l = .ok s') :
    (∀ j a, Waits cfg s l j a →
      StillBlocked cfg (s.procSet j).pid a s' j ∨ (s'.procSet j).status = .unused ∨
        ReleasedByCopy cfg (s.procSet j).pid a s s') ∧
      SendsCover (sendsAlong cfg (init cfg) (ls ++ [l])) s' := by
  have hr := politeRun_reach cfg .init h
  refine ⟨fun j a hw => ?_, ?_⟩
  · rcases hw with ⟨hj, rfl⟩ | ⟨t, rfl, hc, hb, hu, hm, rfl, rfl⟩
    · exact step_released hall hr hp hs hj
    · simp only [step, if_pos hc] at hs
      obtain ⟨b, hA, hlog, hst, hpid, hσ⟩ := kernelEntry_ecall hall (hr.inv hall) hb ⟨hu, hm⟩
        (hp hc hb) hs
      rw [← hpid, ← hσ]
      rcases hA.blocked _ hst with hk | ⟨l', p, rec, e, hrest⟩
      · exact .inl hk
      · exact .inr (.inr ⟨l', p, rec, hlog ▸ e, hrest⟩)
  · simpa using politeRun_sendsCover hall .init (sendsCover_init cfg) (politeRun_snoc h hp hs)

/-- Four processes on `sampleConfig`; pid 2 sends to pid 1 before pid 1 receives, so pid 1 is left
blocked with a delivered record. The timer interrupt on core 1 releases it. -/
theorem blocked_released_only_by_copy_at_exchange :
    ∃ ls s s', politeRun sampleConfig (init sampleConfig) ls = some s ∧
      Polite sampleConfig s (timerOn 1) ∧ step sampleConfig s (timerOn 1) = .ok s' ∧
      (s.procSet 1).status = .pendingSyscall ∧
      ((∀ j a, Waits sampleConfig s (timerOn 1) j a →
        StillBlocked sampleConfig (s.procSet j).pid a s' j ∨ (s'.procSet j).status = .unused ∨
          ReleasedByCopy sampleConfig (s.procSet j).pid a s s') ∧
        SendsCover (sendsAlong sampleConfig (init sampleConfig) (ls ++ [timerOn 1])) s') := by
  let ls : List Step := [.alloc, .alloc, .alloc, .alloc, .setReady 1, .setReady 2, .setReady 3,
    .setReady 4, timerOn 0, timerOn 1, sendOn 1 1 [7], recvOn 0 (-1)]
  have hb : (match politeRun sampleConfig (init sampleConfig) ls with
      | some s => decide (Polite sampleConfig s (timerOn 1)) &&
          (s.procSet 1).status == .pendingSyscall &&
          match step sampleConfig s (timerOn 1) with | .ok _ => true | .error _ => false
      | none => false) = true := by decide
  revert hb
  cases hr : politeRun sampleConfig (init sampleConfig) ls with
  | none => simp
  | some s =>
    cases he : step sampleConfig s (timerOn 1) with
    | error => simp [he]
    | ok s' =>
      simp only [he, Bool.and_eq_true, decide_eq_true_eq, beq_iff_eq, and_true]
      rintro ⟨hpol, hj⟩
      exact ⟨ls, s, s', hr, hpol, he, hj, blocked_released_only_by_copy (by decide) hr hpol he⟩

/-- Pid 1 blocks in `sys_recv(GPID_ALL)` and is freed; `proc_alloc` gives its slot, with the
pending record, to pid 3. Pid 2's `sys_send` to pid 3 is delivered into that record while pid 3
is still loading. Pid 3 then starts and calls `sys_recv`, and the retry of pid 2, still blocked
in the same `ecall` with the same record, delivers the message again; pid 3 receives it. -/
theorem message_delivered_twice :
    ∃ s s', PoliteReach sampleConfig s ∧
      politeRun sampleConfig s [.setReady 3, timerOn 0, recvOn 0 (-1)] = some s' ∧
      (s.procSet 1).pid = 3 ∧ (s.procSet 1).status = .loading ∧
      (s.procSet 1).syscall.status = .done ∧ (s.procSet 1).syscall.sender = 2 ∧
      (s.procSet 1).syscall.content = [7] ∧
      (s.procSet 2).status = .pendingSyscall ∧ (s.procSet 2).syscall.type = .sysSend ∧
      (s.procSet 2).syscall.receiver = 3 ∧ (s'.procSet 2).syscall = (s.procSet 2).syscall ∧
      ∃ rec, Event.copyOut 3 rec ∈ s'.log.drop s.log.length ∧ rec.sender = 2 ∧
        rec.content = [7] := by
  obtain ⟨s, hs, hp⟩ := politeReach_of_run sampleConfig
    (l := [.alloc, .alloc, .setReady 1, .setReady 2, timerOn 0, timerOn 1, recvOn 0 (-1), .free 1,
      .alloc, sendOn 1 3 [7]])
    (p := fun s => (s.procSet 1).pid == 3 && (s.procSet 1).status == .loading &&
      (s.procSet 1).syscall.status == .done && (s.procSet 1).syscall.sender == 2 &&
      (s.procSet 1).syscall.content == [7] && (s.procSet 2).status == .pendingSyscall &&
      (s.procSet 2).syscall.type == .sysSend && (s.procSet 2).syscall.receiver == 3 &&
      match politeRun sampleConfig s [.setReady 3, timerOn 0, recvOn 0 (-1)] with
      | some s' => (s'.procSet 2).syscall == (s.procSet 2).syscall &&
          (s'.log.drop s.log.length).any fun e => match e with
            | .copyOut p rec => p == 3 && rec.sender == 2 && rec.content == [7]
            | _ => false
      | none => false)
    (by decide)
  simp only [Bool.and_eq_true, beq_iff_eq] at hp
  obtain ⟨⟨⟨⟨⟨⟨⟨⟨h₁, h₂⟩, h₃⟩, h₄⟩, h₅⟩, h₆⟩, h₇⟩, h₈⟩, hrest⟩ := hp
  revert hrest
  cases hr : politeRun sampleConfig s [.setReady 3, timerOn 0, recvOn 0 (-1)] with
  | none => simp
  | some s' =>
    simp only [Bool.and_eq_true, beq_iff_eq, List.any_eq_true]
    rintro ⟨hσ, e, he, hm⟩
    cases e with
    | copyOut p rec =>
      simp only [Bool.and_eq_true, beq_iff_eq] at hm
      obtain ⟨⟨rfl, hx⟩, hc⟩ := hm
      exact ⟨s, s', hs, hr, h₁, h₂, h₃, h₄, h₅, h₆, h₇, h₈, hσ, rec, he, hx, hc⟩
    | _ => simp at hm

end EgosGrass

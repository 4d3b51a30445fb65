import EgosGrass.Spec.InvariantEntry

/-!
# Rendez-vous in `proc_yield`

Both scans of `proc_yield` retry every blocked process. In a polite run this settles message
passing at every `proc_yield` that returns (`rendezvous_settled_by_yield`):

* no blocked sender is left with its `SYS_SEND` naming a blocked receiver whose pending
  `SYS_RECV` accepts it (`Stuck`): the first scan retries every sender after every receiver has
  written its record, and a delivery marks the record `DONE`, which no later step of the call
  undoes;
* every receiver whose record was `DONE` when the call began is released together with the
  sender it names (`Released`): the first scan reaches it, and no retry before it touches it.

The first scan changes the table as `retryAll` does, whatever slot it chooses (`mlfqScan_fst`);
after a slot's retry the rest of the call only moves statuses to `PROC_RUNNABLE` or
`PROC_RUNNING` and marks records `DONE` (`Advances`).

Outside polite runs, `proc_sleep` of a receiver whose record is `DONE` lets the wake-up of the
first scan make it runnable without its retry, so the sender it names stays blocked
(`sleeping_receiver_released_alone`).
-/

namespace EgosGrass

/-- Sender `i` is blocked in a `SYS_SEND` naming the pid of `j`, which is blocked in a pending
`SYS_RECV` that accepts `i`: a rendez-vous that is ready but not made. -/
def Stuck (cfg : Config) (s : Kernel) (i j : Nat) : Prop :=
  (s.procSet i).status = .pendingSyscall ∧ (s.procSet i).syscall.type = .sysSend ∧
  (s.procSet j).status = .pendingSyscall ∧ (s.procSet j).pid = (s.procSet i).syscall.receiver ∧
  accepts cfg (s.procSet j) (s.procSet i).pid = true

/-- `PROC_RUNNABLE` or `PROC_RUNNING`. -/
def Active (st : ProcStatus) : Prop := st = .runnable ∨ st = .running

/-- Receiver `r`, and every slot below `MAX_NPROCESS` holding pid `x`, are runnable or
running. -/
def Released (s : Kernel) (r : Nat) (x : Int) : Prop :=
  Active (s.procSet r).status ∧
    ∀ j < maxNProcess, (s.procSet j).pid = x → Active (s.procSet j).status

/-- What the rest of `proc_yield` may do to a slot once it has been retried: its status changes
only to `PROC_RUNNABLE` or `PROC_RUNNING`, its pid and the type and receiver of its record stay,
and its record changes only by being marked `DONE`. -/
structure Process.Advances (p q : Process) : Prop where
  status : q.status = p.status ∨ Active q.status
  pid : q.pid = p.pid
  type : q.syscall.type = p.syscall.type
  receiver : q.syscall.receiver = p.syscall.receiver
  recs : q.syscall.status = .pending → q.syscall = p.syscall

/-- Every slot advances. -/
def Advances (s s' : Kernel) : Prop := ∀ j, (s.procSet j).Advances (s'.procSet j)

/-- The table part of the first scan of `proc_yield`: the wake-up and the retry of each slot of
the list in turn. -/
def retryAll (cfg : Config) (now : BitVec 64) : List Nat → Kernel → Except Halt Kernel
  | [], s => .ok s
  | i :: is, s => retry cfg (wakeUp now s i) i >>= retryAll cfg now is

section Advance

variable {cfg : Config} {s s' s₁ s₂ s₃ : Kernel} {i j r : Nat} {x : Int}

/-- A runnable or running process is not blocked. -/
theorem Active.ne_pending {st : ProcStatus} (h : Active st) : st ≠ .pendingSyscall := by
  rcases h with rfl | rfl <;> decide

/-- A receiver accepts a delivery only while its record is still `PENDING`. -/
theorem accepts_pending {p : Process} (h : accepts cfg p x = true) :
    p.syscall.status = .pending := by
  simp only [accepts, Bool.and_eq_true, beq_iff_eq] at h
  exact h.1.2

/-- Whether a receiver accepts a sender depends only on its record. -/
theorem accepts_congr {p q : Process} (e : q.syscall = p.syscall) :
    accepts cfg q x = accepts cfg p x := by
  simp only [accepts, e]

/-- A process advances to itself. -/
theorem Process.Advances.refl (p : Process) : p.Advances p :=
  ⟨.inl rfl, rfl, rfl, rfl, fun _ => rfl⟩

/-- Advancing composes. -/
theorem Process.Advances.trans {p q r : Process} (h₁ : p.Advances q) (h₂ : q.Advances r) :
    p.Advances r where
  status := h₂.status.elim (fun e => e ▸ h₁.status) .inr
  pid := h₂.pid.trans h₁.pid
  type := h₂.type.trans h₁.type
  receiver := h₂.receiver.trans h₁.receiver
  recs := fun hp => (h₂.recs hp).trans (h₁.recs (h₂.recs hp ▸ hp))

/-- A blocked slot that advances was blocked before. -/
theorem Process.Advances.pending {p q : Process} (h : p.Advances q)
    (hq : q.status = .pendingSyscall) : p.status = .pendingSyscall :=
  h.status.elim (fun e => e ▸ hq) fun ha => absurd hq ha.ne_pending

/-- No change advances every slot. -/
theorem Advances.refl (s : Kernel) : Advances s s := fun _ => .refl _

/-- Stretches that advance every slot compose. -/
theorem Advances.trans (h₁ : Advances s₁ s₂) (h₂ : Advances s₂ s₃) : Advances s₁ s₃ :=
  fun j => (h₁ j).trans (h₂ j)

/-- A write of one slot that advances it. -/
theorem Advances.modifyProc {f : Process → Process} (hf : ∀ p : Process, p.Advances (f p)) :
    Advances s (s.modifyProc i f) := fun j => by
  rw [Kernel.modifyProc_procSet]
  split
  · subst_vars; exact hf _
  · exact .refl _

/-- A stretch of a scan advances every slot. -/
theorem ScanFrame.advances (h : ScanFrame s s') : Advances s s' := fun j =>
  ⟨(h.releases j).imp_right .inl, h.pid j, (h.typed j).1, (h.typed j).2, h.recs j⟩

/-- Logging an event advances every slot. -/
theorem Advances.emit (h : Advances s s') (e : Event) : Advances s (s'.emit e) := h

/-- `proc_set_running` advances every slot. -/
theorem procSetRunning_advances (s : Kernel) (pid : Int) : Advances s (procSetRunning s pid) := by
  unfold procSetRunning
  split
  · exact Advances.modifyProc fun _ => ⟨.inr (.inr rfl), rfl, rfl, rfl, fun _ => rfl⟩
  · exact .refl s

/-- Priming a slot advances every slot. -/
theorem primeIfReady_advances (s : Kernel) (k : Nat) : Advances s (primeIfReady cfg s k) := by
  unfold primeIfReady
  split
  · exact Advances.modifyProc fun _ => ⟨.inl rfl, rfl, rfl, rfl, fun _ => rfl⟩
  · exact .refl s

/-- Dispatching a slot advances every slot. -/
theorem dispatch_advances (s : Kernel) (k : Nat) : Advances s (dispatch cfg s k) := by
  have h₁ : Advances s (stampNext cfg s k) := by
    unfold stampNext
    dsimp only
    refine Advances.emit (Advances.modifyProc ?_) _
    exact fun _ => ⟨.inl rfl, rfl, rfl, rfl, fun _ => rfl⟩
  refine h₁.trans ?_
  unfold dispatch switchTo
  dsimp only
  refine Advances.emit (Advances.trans ?_ (procSetRunning_advances _ _)) _
  refine Advances.trans ?_ (primeIfReady_advances _ k)
  exact fun _ => .refl _

/-- Going idle advances every slot. -/
theorem goIdle_advances (s : Kernel) : Advances s (goIdle s) := fun _ => .refl _

/-- A stuck pair after an advance was stuck before it. -/
theorem Stuck.of_advances (ha : Advances s s') (h : Stuck cfg s' i j) : Stuck cfg s i j := by
  obtain ⟨h₁, h₂, h₃, h₄, h₅⟩ := h
  have hrec := (ha j).recs (accepts_pending h₅)
  refine ⟨(ha i).pending h₁, (ha i).type ▸ h₂, (ha j).pending h₃, ?_, ?_⟩
  · rw [← (ha j).pid, h₄, (ha i).receiver]
  · rw [← accepts_congr hrec, ← (ha i).pid]; exact h₅

/-- A released pair stays released. -/
theorem Released.of_advances (ha : Advances s s') (h : Released s r x) : Released s' r x := by
  have keep : ∀ j, Active (s.procSet j).status → Active (s'.procSet j).status := fun j hj =>
    (ha j).status.elim (fun e => e ▸ hj) id
  exact ⟨keep r h.1, fun j hj e => keep j (h.2 j hj ((ha j).pid ▸ e))⟩

end Advance

/-! ## One retry -/

section Retry

variable {cfg : Config} {s s' : Kernel} {busy : Nat → Prop} {i j r : Nat} {x : Int}

/-- `proc_set_runnable(x)` touches no slot whose pid is not `x`. -/
theorem procLeaveRunning_procSet_of_pid_ne (st : ProcStatus) (hj : (s.procSet j).pid ≠ x) :
    (procLeaveRunning st s x).procSet j = s.procSet j := by
  unfold procLeaveRunning
  split
  · rename_i k hk
    rw [Kernel.modifyProc_procSet, if_neg fun e => hj (by subst e; simpa using (findSlot_eq_some hk).2)]
  · rfl

/-- `proc_set_runnable(x)` makes the slot below `MAX_NPROCESS` that holds `x`, if one does and
it is the only one, runnable. -/
theorem procSetRunnable_runnable (hu : ∀ i j, (s.procSet i).pid = x → (s.procSet j).pid = x → i = j)
    (hj : j < maxNProcess) (hx : (s.procSet j).pid = x) :
    ((procSetRunnable s x).procSet j).status = .runnable := by
  unfold procSetRunnable procLeaveRunning
  split
  · rename_i k hk
    have hkx : (s.procSet k).pid = x := by simpa using (findSlot_eq_some hk).2
    rw [Kernel.modifyProc_procSet, if_pos (hu j k hx hkx)]
  · rename_i hn
    simpa [hx] using findSlot_eq_none.1 hn j hj

/-- Under `Inv` nobody sleeps, so the wake-up of the scans does nothing. -/
theorem wakeUp_of_inv (h : Inv cfg s busy) (now : BitVec 64) (i : Nat) : wakeUp now s i = s := by
  rw [wakeUp, if_neg fun hw => by have := hw.2.1; rw [h.ipc.no_sleep i] at this; simp at this]

/-- A retry of sender `i` leaves it stuck with no receiver. -/
theorem retry_unstuck (h : Inv cfg s busy) (hs : retry cfg s i = .ok s') : ¬Stuck cfg s' i j := by
  intro hst
  have hst₀ := hst.of_advances (retry_step hs).toScanFrame.advances
  unfold retry at hs
  split at hs
  · rename_i hi
    unfold procTrySyscall at hs
    split at hs
    · rename_i hty
      have := hst₀.2.1
      rw [hty] at this; cases this
    · dsimp only [procTrySend] at hs
      split at hs
      · rename_i k hk
        obtain ⟨-, hkp⟩ := findSlot_eq_some hk
        simp only [Bool.and_eq_true, beq_iff_eq, bne_iff_ne, ne_eq] at hkp
        -- the receiver `j` is the slot `proc_try_send` found
        have hjk : j = k := by
          have hl : (s.procSet j).status ≠ .unused := by rw [hst₀.2.2.1]; decide
          exact h.pid.unique j k (hst₀.2.2.2.1.trans hkp.1.symm) (h.pid.pos_of_live hl).ne'
        subst hjk
        split at hs <;> cases hs
        · have := accepts_pending hst.2.2.2.2
          simp [deliver] at this
        · rename_i hna
          exact hna hst.2.2.2.2
      · cases hs
    · cases hs
  · cases hs; exact ‹¬_› hst.1

/-- The retry of a collectable receiver releases it and the sender it names. -/
theorem retry_releases (h : Inv cfg s busy) (hr : Collectable s r) (hs : retry cfg s r = .ok s') :
    Released s' r (s.procSet r).syscall.sender := by
  obtain ⟨ht, hpos, -, -⟩ := h.ipc.delivered r hr
  have hl : (s.procSet r).status ≠ .unused := by rw [hr.1]; decide
  have hr16 := h.ipc.lt_of_active h.pid hl (by rw [hr.1]; decide)
  have hu : ∀ x, x ≠ 0 → ∀ i j, (s.procSet i).pid = x → (s.procSet j).pid = x → i = j :=
    fun x hx i j hi hj => h.pid.unique i j (hi.trans hj.symm) (hi ▸ hx)
  rw [retry, if_pos hr.1, procTrySyscall, ht] at hs
  cases hs
  dsimp only [procTryRecv]
  rw [if_neg fun e => by rw [hr.2] at e; cases e]
  -- the receiver, then the sender
  let s₁ := procSetRunnable (s.emit (.copyOut (s.procSet r).pid (s.procSet r).syscall))
    (s.procSet r).pid
  have f₁ := procSetRunnable_frame (s.emit (.copyOut (s.procSet r).pid (s.procSet r).syscall))
    (s.procSet r).pid
  have h₁ : (s₁.procSet r).status = .runnable :=
    procSetRunnable_runnable (hu _ (h.pid.pos_of_live hl).ne') hr16 rfl
  have hσ : (s₁.procSet r).syscall = (s.procSet r).syscall := procLeaveRunning_syscall _ _ _ _
  rw [hσ]
  have f₂ := procSetRunnable_frame s₁ (s.procSet r).syscall.sender
  have hp₁ : ∀ j, (s₁.procSet j).pid = (s.procSet j).pid := f₁.pid
  refine ⟨?_, fun j hj e => .inl ?_⟩
  · rcases f₂.releases r with e | e
    · exact .inl (e.trans h₁)
    · exact .inl e
  · exact procSetRunnable_runnable (fun i j hi hj => hu _ hpos.ne' i j ((hp₁ i).symm.trans hi)
      ((hp₁ j).symm.trans hj)) hj ((f₂.pid j).symm.trans e)

/-- A retry of another slot leaves a collectable receiver alone: it releases only its own slot
and the sender it names, which is no receiver, and delivers only into a pending record. -/
theorem retry_keeps_collectable (h : Inv cfg s busy) (hr : Collectable s r) (hir : i ≠ r)
    (hs : retry cfg s i = .ok s') : s'.procSet r = s.procSet r := by
  obtain ⟨hrt, -, -, -⟩ := h.ipc.delivered r hr
  have hl : (s.procSet r).status ≠ .unused := by rw [hr.1]; decide
  have hr16 := h.ipc.lt_of_active h.pid hl (by rw [hr.1]; decide)
  unfold retry at hs
  split at hs
  · rename_i hi
    unfold procTrySyscall at hs
    split at hs
    · cases hs
      dsimp only [procTryRecv]
      split
      · rfl
      rename_i hd
      have hc : Collectable s i := ⟨hi, by cases e : (s.procSet i).syscall.status <;> simp_all⟩
      have hri : (s.procSet r).pid ≠ (s.procSet i).pid := fun e =>
        hir (h.pid.unique r i e (h.pid.pos_of_live hl).ne').symm
      -- the sender `i` names is no receiver
      have hrx : (s.procSet r).pid ≠ (s.procSet i).syscall.sender := fun e => by
        rcases (h.ipc.delivered i hc).2.2.2 r hr16 e with hu | ⟨-, hty, -⟩
        · exact hl hu
        · rw [hrt] at hty; cases hty
      generalize hs₁ : procSetRunnable (s.emit (.copyOut (s.procSet i).pid (s.procSet i).syscall))
        (s.procSet i).pid = s₁
      have e₁ : s₁.procSet r = s.procSet r := hs₁ ▸ procLeaveRunning_procSet_of_pid_ne _ hri
      have eσ : (s₁.procSet i).syscall = (s.procSet i).syscall :=
        hs₁ ▸ procLeaveRunning_syscall _ _ _ _
      rw [procSetRunnable, procLeaveRunning_procSet_of_pid_ne _ (by rw [e₁, eσ]; exact hrx), e₁]
    · dsimp only [procTrySend] at hs
      split at hs
      · split at hs <;> cases hs
        · rename_i k _ ha
          rw [Kernel.modifyProc_procSet, if_neg]
          rintro rfl
          have := accepts_pending ha
          rw [hr.2] at this; cases this
        · rfl
      · cases hs
    · cases hs
  · cases hs; rfl

end Retry

/-! ## The first scan -/

section Scan

variable {cfg : Config} {s s' : Kernel} {busy : Nat → Prop} {now : BitVec 64} {l : List Nat}

/-- The first scan changes the table as `retryAll` does, whichever slot it keeps. -/
theorem mlfqScan_fst (l : List Nat) (s : Kernel) (n : Nat) (m : Int) :
    (mlfqScan cfg now l s n m).map Prod.fst = retryAll cfg now l s := by
  induction l generalizing s n m with
  | nil => rfl
  | cons i l ih =>
    simp only [mlfqScan, retryAll, bind, Except.bind]
    cases retry cfg (wakeUp now s i) i with
    | error => rfl
    | ok s₁ =>
      dsimp only
      split
      · exact ih s₁ n m
      · split <;> exact ih s₁ _ _

/-- The wake-ups and retries of the first scan are steps of a scan. -/
theorem retryAll_step (hs : retryAll cfg now l s = .ok s') : ScanStep cfg s s' := by
  induction l generalizing s with
  | nil => cases hs; exact .refl _
  | cons i l ih =>
    obtain ⟨s₁, h₁, h₂⟩ := bind_eq_ok.1 hs
    exact ((wakeUp_step now s i).trans (retry_step h₁)).trans (ih h₂)

/-- After the first scan no slot of its list is a stuck sender, and every receiver of the list
that was collectable at the start is released with the sender it named. -/
theorem retryAll_settles (h : Inv cfg s busy) (hs : retryAll cfg now l s = .ok s') :
    (∀ i ∈ l, ∀ j, ¬Stuck cfg s' i j) ∧
    ∀ r x, (r ∈ l ∧ Collectable s r ∧ (s.procSet r).syscall.sender = x ∨ Released s r x) →
      Released s' r x := by
  induction l generalizing s with
  | nil => cases hs; exact ⟨nofun, fun r x hr => hr.resolve_left fun h => nomatch h.1⟩
  | cons i l ih =>
    obtain ⟨s₁, h₁, h₂⟩ := bind_eq_ok.1 hs
    rw [wakeUp_of_inv h] at h₁
    have hs₁ := retry_step h₁
    obtain ⟨ha, hb⟩ := ih (hs₁.inv busy h) h₂
    have hadv := (retryAll_step h₂).toScanFrame.advances
    refine ⟨fun k hk j hst => ?_, fun r x hr => hb r x ?_⟩
    · rcases List.mem_cons.1 hk with rfl | hk
      · exact retry_unstuck h h₁ (hst.of_advances hadv)
      · exact ha k hk j hst
    · rcases hr with ⟨hm, hc, rfl⟩ | hr
      · by_cases hir : i = r
        · subst hir; exact .inr (retry_releases h hc h₁)
        · have e := retry_keeps_collectable h hc hir h₁
          refine .inl ⟨(List.mem_cons.1 hm).resolve_left (Ne.symm hir), ?_, by rw [e]⟩
          exact ⟨by rw [e]; exact hc.1, by rw [e]; exact hc.2⟩
      · exact .inr (hr.of_advances hs₁.toScanFrame.advances)

end Scan

/-! ## `proc_yield` -/

section Yield

variable {cfg : Config} {s y y' : Kernel} {busy : Nat → Prop} {c : Nat} {tty : Bool}

/-- A blocked slot is one of `1 .. MAX_NPROCESS`: slot 0 and the slots beyond are unused, and
slot `MAX_NPROCESS` never gets past `PROC_LOADING`. -/
theorem mem_userSlots_of_pending (h : Inv cfg s busy) {i : Nat}
    (hi : (s.procSet i).status = .pendingSyscall) : i ∈ userSlots := by
  have hl : (s.procSet i).status ≠ .unused := by rw [hi]; decide
  have h16 := h.ipc.lt_of_active h.pid hl (by rw [hi]; decide)
  have h0 : i ≠ 0 := by rintro rfl; exact hl (h.pid.zero_unused 0 h.pid.idle)
  exact mem_userSlots.2 ⟨Nat.pos_of_ne_zero h0, h16.le⟩

/-- The prologue of `proc_yield` leaves a collectable receiver alone: only the process the core
ran leaves `PROC_RUNNING`. -/
theorem yieldPrologue_collectable (tty : Bool) (h : Inv cfg y busy) {r : Nat}
    (hr : Collectable y r) :
    ((yieldPrologue cfg y tty).procSet r).status = (y.procSet r).status ∧
      ((yieldPrologue cfg y tty).procSet r).syscall = (y.procSet r).syscall := by
  unfold yieldPrologue
  obtain ⟨-, hs, hσ, -⟩ := Kernel.ctl_eq (mlfqResetLevel_ctl cfg
    (if (y.procSet y.currIdx).status = .running then procSetRunnable y (y.procSet y.currIdx).pid
      else y) tty)
  rw [hs, hσ]
  split
  · rename_i hrun
    have hl : (y.procSet r).status ≠ .unused := by rw [hr.1]; decide
    have hne : (y.procSet r).pid ≠ (y.procSet y.currIdx).pid := fun e => by
      have := h.pid.unique _ _ e (h.pid.pos_of_live hl).ne'
      rw [← this, hr.1] at hrun; cases hrun
    unfold procSetRunnable
    rw [procLeaveRunning_procSet_of_pid_ne _ hne]
    exact ⟨rfl, rfl⟩
  · exact ⟨rfl, rfl⟩

/-- A `proc_yield` on the exempt core that returns leaves no stuck pair, and releases every
receiver that was collectable when it began, with the sender it names. -/
theorem procYield_rendezvous (h : Inv cfg y (· ≠ c)) (hcs : y.coreInKernel = c)
    (hc : c < cfg.ncores) (hy : procYield cfg y tty = .ok y') :
    (∀ i j, ¬Stuck cfg y' i j) ∧
      ∀ r, Collectable y r → Released y' r (y.procSet r).syscall.sender := by
  have hend := h.procYield hcs hc hy
  subst hcs
  obtain ⟨⟨s₂, k⟩, h₁, h₂⟩ := bind_eq_ok.1 hy
  obtain ⟨⟨s₁, n₁⟩, hm, hf⟩ := bind_eq_ok.1 h₁
  have hr : retryAll cfg (mtimeGet (yieldPrologue cfg y tty)) userSlots (yieldPrologue cfg y tty) =
      .ok s₁ := by
    rw [← mlfqScan_fst, hm]; rfl
  have hp : Inv cfg (yieldPrologue cfg y tty) (· ≠ y.coreInKernel) := h.prologue
  obtain ⟨ha, hb⟩ := retryAll_settles hp hr
  -- the rest of the call only advances
  have h₁₂ : Advances s₁ s₂ := by
    dsimp only at hf
    split at hf
    · exact (fallbackScan_step _ _ hf).1.toScanFrame.advances
    · cases hf; exact .refl _
  have h₂₃ : Advances s₂ y' := by
    dsimp only at h₂
    split at h₂ <;> cases h₂
    · exact dispatch_advances s₂ k
    · exact goIdle_advances s₂
  have hadv := h₁₂.trans h₂₃
  refine ⟨fun i j hst => ha i (mem_userSlots_of_pending hend hst.1) j (hst.of_advances hadv),
    fun r hr' => ?_⟩
  obtain ⟨hst, hσ⟩ := yieldPrologue_collectable tty h hr'
  have hc' : Collectable (yieldPrologue cfg y tty) r := ⟨hst.trans hr'.1, hσ ▸ hr'.2⟩
  exact (hb r _ (.inl ⟨mem_userSlots_of_pending hp hc'.1, hc', by rw [hσ]⟩)).of_advances hadv

end Yield

/-- Over polite runs, every `proc_yield` that a kernel entry runs and that returns leaves no
stuck pair, and releases every receiver that was collectable when it began together with the
sender it names. -/
theorem rendezvous_settled_by_yield {cfg : Config} {s y y' : Kernel} {t : Trap}
    (hall : cfg.gpidAll ≤ 0) (h : PoliteReach cfg s) (hp : Polite cfg s (.trap t))
    (hc : t.hart < cfg.ncores) (hy : yieldArg cfg (saveContext s t) t = .ok y)
    (hy' : procYield cfg y t.ttyEmpty = .ok y') :
    (∀ i j, ¬Stuck cfg y' i j) ∧
      ∀ r, Collectable y r → Released y' r (y.procSet r).syscall.sender := by
  obtain ⟨hi, hcore⟩ := ((h.inv hall).of_ctl (saveContext_ctl s t)).atYield hall (hp hc) hy
  exact procYield_rendezvous hi hcore hc hy'

/-- Four processes on `sampleConfig`: pid 2 sends to pid 1 before pid 1 receives, so the delivery
comes in the scan after pid 1's retry, and that `proc_yield` dispatches pid 4 with pid 1 left
collectable. A timer interrupt on core 1 then releases pid 1 and pid 2. -/
theorem rendezvous_settled_by_yield_after_send :
    ∃ s y y', PoliteReach sampleConfig s ∧ Polite sampleConfig s (.trap (timerTrap 1)) ∧
      (timerTrap 1).hart < sampleConfig.ncores ∧
      yieldArg sampleConfig (saveContext s (timerTrap 1)) (timerTrap 1) = .ok y ∧
      procYield sampleConfig y (timerTrap 1).ttyEmpty = .ok y' ∧ Collectable y 1 ∧
      (∀ i j, ¬Stuck sampleConfig y' i j) ∧
      ∀ r, Collectable y r → Released y' r (y.procSet r).syscall.sender := by
  obtain ⟨s, hs, hp⟩ := politeReach_of_run sampleConfig
    (l := [.alloc, .alloc, .alloc, .alloc, .setReady 1, .setReady 2, .setReady 3, .setReady 4,
      timerOn 0, timerOn 1, sendOn 1 1 [7], recvOn 0 (-1)])
    (p := fun s => decide (Polite sampleConfig s (timerOn 1)) &&
      match yieldArg sampleConfig (saveContext s (timerTrap 1)) (timerTrap 1) with
      | .ok y => (y.procSet 1).status == .pendingSyscall && (y.procSet 1).syscall.status == .done &&
          match procYield sampleConfig y true with | .ok _ => true | .error _ => false
      | .error _ => false)
    (by decide)
  simp only [Bool.and_eq_true, decide_eq_true_eq] at hp
  obtain ⟨hpol, hrest⟩ := hp
  revert hrest
  cases hy : yieldArg sampleConfig (saveContext s (timerTrap 1)) (timerTrap 1) with
  | error => simp
  | ok y =>
    dsimp only
    cases hy' : procYield sampleConfig y true with
    | error => simp
    | ok y' =>
      simp only [Bool.and_eq_true, beq_iff_eq, and_true]
      intro hc
      exact ⟨s, y, y', hs, hpol, by decide, hy, hy', hc,
        rendezvous_settled_by_yield (by decide) hs hpol (by decide) hy hy'⟩

/-- The same four processes with pid 1 collectable, then `proc_sleep(1, 1)` between two ticks of
`mtime`. A timer interrupt on core 0 runs `proc_yield`, whose first scan wakes pid 1: it is then
not `PROC_PENDING_SYSCALL`, so it is not retried, and it is dispatched. Pid 2, which its record
names, stays blocked, and no later retry releases it, since pid 1's record is not pending. -/
theorem sleeping_receiver_released_alone :
    ∃ s y y', Reachable sampleConfig s ∧
      yieldArg sampleConfig (saveContext s (timerTrap 0)) (timerTrap 0) = .ok y ∧
      procYield sampleConfig y (timerTrap 0).ttyEmpty = .ok y' ∧ Collectable y 1 ∧
      (y.procSet 1).syscall.sender = 2 ∧ (y'.procSet 1).status = .running ∧
      (y'.procSet 2).pid = 2 ∧ (y'.procSet 2).status = .pendingSyscall := by
  obtain ⟨s, hs, hp⟩ := reach_of_run sampleConfig
    (l := [.alloc, .alloc, .alloc, .alloc, .setReady 1, .setReady 2, .setReady 3, .setReady 4,
      timerOn 0, timerOn 1, sendOn 1 1 [7], recvOn 0 (-1), .tick 5, .sleep 1 1, .tick 10])
    (p := fun s => match yieldArg sampleConfig (saveContext s (timerTrap 0)) (timerTrap 0) with
      | .ok y => (y.procSet 1).status == .pendingSyscall && (y.procSet 1).syscall.status == .done &&
          (y.procSet 1).syscall.sender == 2 &&
          match procYield sampleConfig y true with
          | .ok y' => (y'.procSet 1).status == .running && (y'.procSet 2).pid == 2 &&
              (y'.procSet 2).status == .pendingSyscall
          | .error _ => false
      | .error _ => false)
    (by decide)
  revert hp
  cases hy : yieldArg sampleConfig (saveContext s (timerTrap 0)) (timerTrap 0) with
  | error => simp
  | ok y =>
    dsimp only
    cases hy' : procYield sampleConfig y true with
    | error => simp
    | ok y' =>
      simp only [Bool.and_eq_true, beq_iff_eq]
      rintro ⟨⟨⟨h₁, h₂⟩, h₃⟩, ⟨h₄, h₅⟩, h₆⟩
      exact ⟨s, y, y', hs, hy, hy', ⟨h₁, h₂⟩, h₃, h₄, h₅, h₆⟩

end EgosGrass

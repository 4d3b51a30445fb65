import EgosGrass.Spec.Pids
import EgosGrass.Spec.Schedule

/-!
# What `proc_yield` owes to waiting processes

Two mechanisms keep a process from waiting forever behind others, and one keeps a sleeper from
being forgotten.

At the start of every `proc_yield`, `mlfq_reset_level` puts slots back at level 0
(`yieldPrologue_level_zero`): with keyboard input pending, the first live slot holding
`GPID_SHELL`; and once `MLFQ_RESET_PERIOD` microseconds have passed since the last reset, every
live slot below `MAX_NPROCESS`. The first scan prefers the lowest level, so a slot at level 0
that is ready when the scans begin and still eligible when they end makes the entry dispatch a
slot at level 0 that does not come after it (`yield_of_level_zero`):

* with keyboard input pending, the shell or a level-0 slot before it, however far the shell had
  sunk (`shell_input_dispatches_level_zero`);
* after a periodic reset, a slot no later in index order than any slot ready throughout the
  scans, whatever their levels were (`reset_period_dispatches_first_ready`).

A process put to sleep by `proc_sleep` waits in `PROC_PENDING_SYSCALL`. Once its wake-up time has
come, the first scan of the next `proc_yield` wakes it at its own turn, or a retry before that
releases it, and the entry dispatches a slot rather than going idle
(`expired_sleeper_released`).
-/

namespace EgosGrass

section Boost

variable {cfg : Config} {s y y₂ : Kernel} {t : Trap} {tty : Bool} {j k : Nat}

/-! ## The slots left at level 0 -/

/-- A process at level 0 stays there across the periodic reset. -/
theorem periodicReset_level_of_zero (h0 : (s.procSet j).queueLevel = 0) :
    ((periodicReset s).procSet j).queueLevel = 0 := by
  unfold periodicReset
  split
  · dsimp only
    split
    · rfl
    · exact h0
  · exact h0

/-- The slots `mlfq_reset_level` leaves at level 0: with keyboard input pending, the first live
slot holding `GPID_SHELL`; once `MLFQ_RESET_PERIOD` has passed, every live slot below
`MAX_NPROCESS`. Slots are read on the table it returns, whose pids and statuses are those it was
given. -/
theorem mlfqResetLevel_level_zero
    (hj : tty = false ∧ findSlot (mlfqResetLevel cfg s tty).procSet
        (fun p => p.pid == cfg.gpidShell && p.status != .unused) = some j ∨
      mlfqResetPeriod ≤ mtimeGet s - s.mlfqLastResetTime ∧ j < maxNProcess ∧
        ((mlfqResetLevel cfg s tty).procSet j).status ≠ .unused) :
    ((mlfqResetLevel cfg s tty).procSet j).queueLevel = 0 := by
  obtain ⟨hp, hs, -⟩ := Kernel.ctl_eq (mlfqResetLevel_ctl cfg s tty)
  rcases hj with ⟨rfl, hj⟩ | ⟨hper, hj, hl⟩
  · -- the keyboard boost
    rw [findSlot_congr (t := s.procSet) fun i => by rw [hp i, hs i]] at hj
    exact periodicReset_level_of_zero (by simp [shellBoost, hj])
  · -- the periodic reset
    obtain ⟨-, hs', -⟩ := Kernel.ctl_eq (shellBoost_ctl cfg s tty)
    have hclock : mtimeGet (shellBoost cfg s tty) - (shellBoost cfg s tty).mlfqLastResetTime =
        mtimeGet s - s.mlfqLastResetTime := by
      unfold shellBoost; split
      · rfl
      · split <;> rfl
    rw [hs, ← hs'] at hl
    simp only [mlfqResetLevel, periodicReset, hclock, if_pos hper]
    rw [if_pos ⟨hj, hl⟩]

/-- The same slots when the scans of `proc_yield` begin; the clock and the time of the last reset
are those of the state `proc_yield` is given. -/
theorem yieldPrologue_level_zero
    (hj : tty = false ∧ findSlot (yieldPrologue cfg s tty).procSet
        (fun p => p.pid == cfg.gpidShell && p.status != .unused) = some j ∨
      mlfqResetPeriod ≤ mtimeGet s - s.mlfqLastResetTime ∧ j < maxNProcess ∧
        ((yieldPrologue cfg s tty).procSet j).status ≠ .unused) :
    ((yieldPrologue cfg s tty).procSet j).queueLevel = 0 := by
  obtain ⟨s₁, e, hclock⟩ : ∃ s₁, yieldPrologue cfg s tty = mlfqResetLevel cfg s₁ tty ∧
      mtimeGet s₁ - s₁.mlfqLastResetTime = mtimeGet s - s.mlfqLastResetTime := by
    dsimp only [yieldPrologue]
    split
    · refine ⟨_, rfl, ?_⟩
      unfold procSetRunnable procLeaveRunning; split <;> rfl
    · exact ⟨_, rfl, rfl⟩
  rw [e] at hj ⊢
  exact mlfqResetLevel_level_zero (hclock ▸ hj)

/-- The part of a kernel entry before `proc_yield` writes no pid. -/
theorem yieldArg_allocView (hy : yieldArg cfg s t = .ok y) : y.allocView = s.allocView := by
  unfold yieldArg at hy
  split at hy
  · split at hy <;> cases hy
    split
    · exact Kernel.allocView_modifyProc _ _ fun _ => by simp [timerCharge, apply_ite Process.pid]
    · rfl
  · split at hy
    · exact ecall_allocView cfg hy
    · dsimp only at hy
      split at hy <;> cases hy
      simp

/-- When the scans of a kernel entry begin, every slot holds the pid it held before the trap. -/
theorem entry_prologue_pid (hy : yieldArg cfg (saveContext s t) t = .ok y) (i : Nat) :
    ((yieldPrologue cfg y tty).procSet i).pid = (s.procSet i).pid := by
  have e : (yieldPrologue cfg y tty).allocView = s.allocView := by
    rw [← Kernel.allocView_modifyProc s 0 (f := id) fun _ => rfl]
    simp [yieldPrologue, apply_ite Kernel.allocView, yieldArg_allocView hy, saveContext]
  exact congrFun (congrArg (fun v => v.2.2.2) e) i

/-! ## What the scans make of a slot at level 0 -/

/-- A slot at level 0 when the scans begin, ready then and eligible when they end, in a kernel
entry from a reachable state: the entry dispatches a slot at level 0 that does not come after it
in index order. -/
theorem yield_of_level_zero (h : Reachable cfg s) (hy : yieldArg cfg (saveContext s t) t = .ok y)
    (hk : pickNext cfg (mtimeGet (yieldPrologue cfg y t.ttyEmpty)) (yieldPrologue cfg y t.ttyEmpty) =
      .ok (y₂, k)) (hj : j ∈ userSlots) (hej : eligible (mtimeGet y) (y₂.procSet j) = true)
    (hr : isReady ((yieldPrologue cfg y t.ttyEmpty).procSet j) = true)
    (h0 : ((yieldPrologue cfg y t.ttyEmpty).procSet j).queueLevel = 0) :
    procYield cfg y t.ttyEmpty = .ok (dispatch cfg y₂ k) ∧ (y₂.procSet k).queueLevel = 0 ∧
      k ≤ j := by
  obtain ⟨hlev, htop⟩ := yield_start h hy
  have hn : mtimeGet (yieldPrologue cfg y t.ttyEmpty) = mtimeGet y := (yieldPrologue_clockKept y).mtime
  rw [← hn] at hej
  obtain ⟨hkm, hrank⟩ := pickNext_choice hlev htop hk j hj hej hr
  have hq := ((pickNext_step hk).1.toScanFrame.eligible_of_ready hr hej).2
  have hm := (((saveContext_tableMoved s t).trans (yieldArg_tableMoved hy)).trans
    (yieldPrologue_tableMoved y)).trans (pickNext_step hk).1.moved
  have hk0 : 0 ≤ (y₂.procSet k).queueLevel := ((h.levelOk k).moved (hm.levels k)).1
  refine ⟨by rw [procYield_of_pickNext hk, if_pos hkm], ?_⟩
  simp only [Kernel.RanksBefore, hq, h0] at hrank
  omega

end Boost

/-! ## The two boosts -/

/-- With keyboard input pending, in a kernel entry from a reachable state: if the shell's slot
(the first live slot holding `GPID_SHELL`, a pid other than the idle slot's 0) is ready when the
scans of `proc_yield` begin and eligible when they end, the entry dispatches the shell or a slot
before it, at level 0, whatever level the shell had sunk to. -/
theorem shell_input_dispatches_level_zero {cfg : Config} {s y y₂ : Kernel} {t : Trap} {j k : Nat}
    (h : Reachable cfg s) (hy : yieldArg cfg (saveContext s t) t = .ok y)
    (hk : pickNext cfg (mtimeGet (yieldPrologue cfg y t.ttyEmpty)) (yieldPrologue cfg y t.ttyEmpty) =
      .ok (y₂, k)) (htty : t.ttyEmpty = false) (hshell : cfg.gpidShell ≠ 0)
    (hj : findSlot (yieldPrologue cfg y t.ttyEmpty).procSet
      (fun p => p.pid == cfg.gpidShell && p.status != .unused) = some j)
    (hej : eligible (mtimeGet y) (y₂.procSet j) = true)
    (hr : isReady ((yieldPrologue cfg y t.ttyEmpty).procSet j) = true) :
    procYield cfg y t.ttyEmpty = .ok (dispatch cfg y₂ k) ∧ (y₂.procSet k).queueLevel = 0 ∧
      k ≤ j := by
  obtain ⟨hjm, hpj⟩ := findSlot_eq_some hj
  have hj0 : j ≠ 0 := by
    rintro rfl
    rw [entry_prologue_pid hy, procSet_zero_pid cfg h] at hpj
    simp [Ne.symm hshell] at hpj
  exact yield_of_level_zero h hy hk (mem_userSlots.2 ⟨Nat.pos_of_ne_zero hj0, hjm.le⟩) hej hr
    (yieldPrologue_level_zero (.inl ⟨htty, hj⟩))

/-- A timer interrupt on `hart` taken with keyboard input pending. -/
def keyTimerTrap (hart : Nat) : Trap := { timerTrap hart with ttyEmpty := false }

/-- Slot 1 and the shell (pid 4, in slot 4) have both sunk to level 1 on core 0, where slot 1
runs. A timer interrupt with keyboard input pending boosts the shell, and `proc_yield` dispatches
it ahead of slot 1. -/
theorem shell_input_dispatches_shell :
    ∃ s y y₂, Reachable sampleConfig s ∧
      yieldArg sampleConfig (saveContext s (keyTimerTrap 0)) (keyTimerTrap 0) = .ok y ∧
      (y.procSet 4).queueLevel = 1 ∧ (y.procSet 1).queueLevel = 1 ∧
      (procYield sampleConfig y (keyTimerTrap 0).ttyEmpty = .ok (dispatch sampleConfig y₂ 4) ∧
        (y₂.procSet 4).queueLevel = 0 ∧ 4 ≤ 4) := by
  obtain ⟨s, hs, hp⟩ := reach_of_run sampleConfig
    (l := [.alloc, .alloc, .alloc, .alloc, .setReady 1, .setReady 4, .tick 1, timerOn 0,
      .tick 200001, timerOn 0, .tick 400001, timerOn 0])
    (p := fun s => match yieldArg sampleConfig (saveContext s (keyTimerTrap 0)) (keyTimerTrap 0) with
      | .ok y => (y.procSet 4).queueLevel == 1 && (y.procSet 1).queueLevel == 1 &&
        findSlot (yieldPrologue sampleConfig y false).procSet
          (fun p => p.pid == sampleConfig.gpidShell && p.status != .unused) == some 4 &&
        isReady ((yieldPrologue sampleConfig y false).procSet 4) &&
        match pickNext sampleConfig (mtimeGet (yieldPrologue sampleConfig y false))
          (yieldPrologue sampleConfig y false) with
        | .ok (y₂, k) => k == 4 && eligible (mtimeGet y) (y₂.procSet 4)
        | .error _ => false
      | .error _ => false) (by decide)
  revert hp
  cases hy : yieldArg sampleConfig (saveContext s (keyTimerTrap 0)) (keyTimerTrap 0) with
  | error => simp
  | ok y =>
    cases hk : pickNext sampleConfig (mtimeGet (yieldPrologue sampleConfig y false))
        (yieldPrologue sampleConfig y false) with
    | error => simp [hk]
    | ok r =>
      obtain ⟨y₂, k⟩ := r
      simp only [hk, Bool.and_eq_true, beq_iff_eq]
      rintro ⟨⟨⟨⟨h4, h1⟩, hf⟩, hr⟩, rfl, he⟩
      exact ⟨s, y, y₂, hs, hy, h4, h1,
        shell_input_dispatches_level_zero hs hy hk rfl (by decide) hf he hr⟩

section Wake

variable {cfg : Config} {now : BitVec 64} {s s' : Kernel} {l : List Nat} {tty : Bool} {j k : Nat}

/-- A slot the scans will release or choose at `now`: not asleep, and either blocked with a
wake-up time that has come, or ready. -/
def Due (now : BitVec 64) (p : Process) : Prop :=
  asleep now p = false ∧ (p.status = .pendingSyscall ∧ 0 < p.wakeupTime ∨ isReady p = true)

/-- A change that only releases processes and writes no wake-up time keeps a slot due. -/
theorem Due.of_releases (hd : Due now (s.procSet j)) (hr : Releases s s')
    (hw : (s'.procSet j).wakeupTime = (s.procSet j).wakeupTime) : Due now (s'.procSet j) := by
  obtain ⟨ha, hd⟩ := hd
  refine ⟨by rwa [asleep_congr hw], ?_⟩
  rcases hr j with e | e
  · simp only [isReady, e, hw]; exact hd
  · exact .inr (by simp [isReady, e])

/-- The prologue of `proc_yield` only releases. -/
theorem yieldPrologue_releases (s : Kernel) : Releases s (yieldPrologue cfg s tty) := by
  unfold yieldPrologue
  refine Releases.trans ?_ (.of_ctl (mlfqResetLevel_ctl cfg _ tty))
  split
  · unfold procSetRunnable
    cases hi : findSlot s.procSet (fun p => p.pid == (s.procSet s.currIdx).pid) with
    | none => rw [procLeaveRunning_of_none _ hi]; exact .refl s
    | some i => exact (Releases.withStatus s i).trans (.of_ctl (procLeaveRunning_ctl _ hi))
  · exact .refl s

/-- Waking slot `i` leaves every other slot as it was. -/
theorem wakeUp_procSet_ne (now : BitVec 64) (s : Kernel) {i j : Nat} (h : j ≠ i) :
    (wakeUp now s i).procSet j = s.procSet j := by
  dsimp only [wakeUp]
  split
  · exact Kernel.setProc_procSet_ne s _ h
  · rfl

/-- At its own turn in the first scan a due slot is woken, if it sleeps, and is then eligible. -/
theorem wakeUp_eligible (hd : Due now (s.procSet j)) :
    eligible now ((wakeUp now s j).procSet j) = true := by
  obtain ⟨ha, hd⟩ := hd
  dsimp only [wakeUp]
  split
  · simp [eligible, isReady, asleep]
  · rename_i hn
    rcases hd with ⟨hp, hw⟩ | hr
    · have hnow : (s.procSet j).wakeupTime ≤ now := by simp [asleep] at ha; exact ha hw
      exact absurd ⟨hp, hw, hnow⟩ hn
    · simp [eligible, hr, ha]

/-- The first scan leaves every due slot of its list eligible. -/
theorem mlfqScan_due {n n' : Nat} {m : Int} (h : mlfqScan cfg now l s n m = .ok (s', n'))
    (hj : j ∈ l) (hd : Due now (s.procSet j)) : eligible now (s'.procSet j) = true := by
  induction l generalizing s n m with
  | nil => cases hj
  | cons i l ih =>
    simp only [mlfqScan, bind, Except.bind] at h
    split at h
    · cases h
    rename_i s₁ h₁
    obtain ⟨a, b, hr⟩ : ∃ a b, mlfqScan cfg now l s₁ a b = .ok (s', n') := by
      split at h
      · exact ⟨_, _, h⟩
      · split at h <;> exact ⟨_, _, h⟩
    by_cases hij : i = j
    · -- `j`'s own turn
      subst hij
      have he := ((retry_step h₁).toScanFrame.keeps_eligible (wakeUp_eligible hd)).1
      exact ((mlfqScan_step now l hr).1.toScanFrame.keeps_eligible he).1
    · -- another slot's turn
      have hd₁ : Due now (s₁.procSet j) := by
        rw [← wakeUp_procSet_ne now s (Ne.symm hij)] at hd
        exact hd.of_releases (retry_step h₁).releases (retry_wakeupTime h₁ j)
      exact ih hr (List.mem_of_ne_of_mem (Ne.symm hij) hj) hd₁

/-- The second scan, over an increasing list holding a slot `j` eligible when it starts, keeps a
slot of its list no later than `j`. -/
theorem fallbackScan_of_eligible {n' : Nat} (hl : l.Pairwise (· < ·))
    (h : fallbackScan cfg now l s = .ok (s', n')) (hj : j ∈ l)
    (he : eligible now (s.procSet j) = true) : n' ≤ j := by
  induction l generalizing s with
  | nil => cases hj
  | cons i l ih =>
    obtain ⟨hi, hl⟩ := List.pairwise_cons.1 hl
    simp only [fallbackScan, bind, Except.bind] at h
    split at h
    · cases h
    rename_i s₁ h₁
    have he₁ := ((retry_step h₁).toScanFrame.keeps_eligible he).1
    rcases List.mem_cons.1 hj with rfl | hjl
    · -- `j`'s own turn
      simp only [eligible, Bool.and_eq_true, Bool.not_eq_true'] at he₁
      simp only [he₁.1, he₁.2, if_true] at h
      cases h
      exact le_rfl
    · split at h
      · exact ih hl h hjl he₁
      · split at h
        · cases h; exact (hi j hjl).le
        · exact ih hl h hjl he₁

/-- The two scans, from a table where a slot `j` of `1 .. MAX_NPROCESS - 1` is due: they keep a
slot below `MAX_NPROCESS`, and `j` is eligible when they end. -/
theorem pickNext_due (h : pickNext cfg now s = .ok (s', k)) (hj : j ∈ userSlots)
    (hjm : j < maxNProcess) (hd : Due now (s.procSet j)) :
    k < maxNProcess ∧ eligible now (s'.procSet j) = true := by
  obtain ⟨⟨s₁, n₁⟩, h₁, h₂⟩ := bind_eq_ok.1 h
  have he₁ := mlfqScan_due h₁ hj hd
  dsimp only at h₂
  split at h₂
  · -- the first scan kept `MAX_NPROCESS`
    exact ⟨lt_of_le_of_lt (fallbackScan_of_eligible (List.pairwise_lt_range' 1 maxNProcess) h₂
      hj he₁) hjm, ((fallbackScan_step now userSlots h₂).1.toScanFrame.keeps_eligible he₁).1⟩
  · -- the first scan kept a slot of `userSlots`
    rename_i hn
    cases h₂
    rcases (mlfqScan_step now userSlots h₁).2 with e | ⟨hm, -⟩
    · exact absurd e hn
    · exact ⟨lt_of_le_of_ne (mem_userSlots.1 hm).2 hn, he₁⟩

end Wake

/-- A process asleep in `PROC_PENDING_SYSCALL` in a slot of `1 .. MAX_NPROCESS - 1`, whose
wake-up time has come: the next `proc_yield`, on any core, releases it, ready and awake when the
scans end, and dispatches a slot rather than going idle. -/
theorem expired_sleeper_released {cfg : Config} {y y₂ : Kernel} {tty : Bool} {j k : Nat}
    (hk : pickNext cfg (mtimeGet (yieldPrologue cfg y tty)) (yieldPrologue cfg y tty) = .ok (y₂, k))
    (hj : 0 < j) (hjm : j < maxNProcess) (hp : (y.procSet j).status = .pendingSyscall)
    (hw : 0 < (y.procSet j).wakeupTime) (hnow : (y.procSet j).wakeupTime ≤ mtimeGet y) :
    procYield cfg y tty = .ok (dispatch cfg y₂ k) ∧ k < maxNProcess ∧
      eligible (mtimeGet y) (y₂.procSet j) = true := by
  have hn : mtimeGet (yieldPrologue cfg y tty) = mtimeGet y := (yieldPrologue_clockKept y).mtime
  have hd : Due (mtimeGet y) (y.procSet j) :=
    ⟨by simp [asleep, BitVec.not_lt.2 hnow], .inl ⟨hp, hw⟩⟩
  have hd' : Due (mtimeGet y) ((yieldPrologue cfg y tty).procSet j) :=
    hd.of_releases (yieldPrologue_releases y) (yieldPrologue_wakeupTime y tty j)
  rw [← hn] at hd'
  obtain ⟨hkm, he⟩ := pickNext_due hk (mem_userSlots.2 ⟨hj, hjm.le⟩) hjm hd'
  exact ⟨by rw [procYield_of_pickNext hk, if_pos hkm], hkm, hn ▸ he⟩

/-- Pid 1 runs alone on core 0 and is put to sleep for 100 microseconds at time 1. At time 200 a
timer interrupt on core 0 wakes it and dispatches it again. -/
theorem expired_sleeper_released_alone :
    ∃ s y y₂, Reachable sampleConfig s ∧
      yieldArg sampleConfig (saveContext s (timerTrap 0)) (timerTrap 0) = .ok y ∧
      pickNext sampleConfig (mtimeGet (yieldPrologue sampleConfig y true))
        (yieldPrologue sampleConfig y true) = .ok (y₂, 1) ∧
      0 < 1 ∧ 1 < maxNProcess ∧ (y.procSet 1).status = .pendingSyscall ∧
      0 < (y.procSet 1).wakeupTime ∧ (y.procSet 1).wakeupTime ≤ mtimeGet y ∧
      (procYield sampleConfig y true = .ok (dispatch sampleConfig y₂ 1) ∧ 1 < maxNProcess ∧
        eligible (mtimeGet y) (y₂.procSet 1) = true) := by
  obtain ⟨s, hs, hp⟩ := reach_of_run sampleConfig
    (l := [.alloc, .setReady 1, .tick 1, timerOn 0, .sleep 1 100, .tick 200])
    (p := fun s => match yieldArg sampleConfig (saveContext s (timerTrap 0)) (timerTrap 0) with
      | .ok y => (y.procSet 1).status == .pendingSyscall && decide (0 < (y.procSet 1).wakeupTime) &&
        decide ((y.procSet 1).wakeupTime ≤ mtimeGet y) &&
        match pickNext sampleConfig (mtimeGet (yieldPrologue sampleConfig y true))
          (yieldPrologue sampleConfig y true) with
        | .ok (_, k) => k == 1
        | .error _ => false
      | .error _ => false) (by decide)
  revert hp
  cases hy : yieldArg sampleConfig (saveContext s (timerTrap 0)) (timerTrap 0) with
  | error => simp
  | ok y =>
    cases hk : pickNext sampleConfig (mtimeGet (yieldPrologue sampleConfig y true))
        (yieldPrologue sampleConfig y true) with
    | error => simp [hk]
    | ok r =>
      obtain ⟨y₂, k⟩ := r
      simp only [hk, Bool.and_eq_true, beq_iff_eq, decide_eq_true_eq]
      rintro ⟨⟨⟨hst, hw⟩, hnow⟩, rfl⟩
      exact ⟨s, y, y₂, hs, hy, hk, by decide, by decide, hst, hw, hnow,
        expired_sleeper_released hk (by decide) (by decide) hst hw hnow⟩

end EgosGrass

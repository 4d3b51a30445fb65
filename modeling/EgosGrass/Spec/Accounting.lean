import EgosGrass.Spec.InvariantEntry

/-!
# CPU-time accounting over polite runs

`CpuTime` says what one write keeps of a slot's statistics; this module follows a whole step.
Every function of `kernel.c` and `process.c` but `proc_alloc` keeps the statistics of every slot
at a fixed time (`ClockKept`): the timer interrupt is the one write that breaks
`Process.Stamped`, and `proc_yield` takes the interrupted process out of `PROC_RUNNING` before
anything else reads it (`timer_prologue_clockKept`). A tick moves the clock and adds the elapsed
time to the running time of every running slot.

`Metered` pairs each state of a polite run with the time `d j` that the process in slot `j` has
spent in `PROC_RUNNING` since it was allocated (`meter`). Key results:

* `Metered.clocked`: every slot satisfies `Process.Clocked s.mtime (d j) 0` in every state;
* `cpu_time_accounted`: `first_schedule_time`, once set, is not before `creation_time`;
  `total_cpu_time` is at most the running time `d j` and at most `now - first_schedule_time`;
  `queue_time` is at most `total_cpu_time`; and no step lowers `total_cpu_time` while the slot
  keeps its process.
* `charge_spans_level_reset`: the runtime a charge passes to `mlfq_update_level` can start
  before the process's last level reset. A process running on core 1 through the periodic reset
  that core 0 performs is charged, 1 microsecond after the reset, for its whole run, and demoted
  from level 0, whose quantum is 100000 microseconds.
* `sleep_charges_sender_twice`: why polite runs leave out `proc_sleep`. A sleeping process whose
  record was already collected has it collected again, and `proc_set_runnable` charges the sender
  it names while that sender still runs, so the next timer interrupt charges the same interval
  twice.
-/

namespace EgosGrass

/-- Two writes of one slot are one write of the composed update. -/
theorem Kernel.modifyProc_modifyProc (s : Kernel) (i : Nat) (f g : Process → Process) :
    (s.modifyProc i f).modifyProc i g = s.modifyProc i (g ∘ f) := by
  simp only [Kernel.modifyProc, Kernel.setProc, Function.comp, if_pos]
  congr 1
  funext j
  split <;> simp_all

/-! ## One kernel entry -/

section Entry

variable {cfg : Config} {s s' y : Kernel} {tty : Bool}

/-- A change that keeps the table and the clock is `ClockKept`. -/
theorem ClockKept.of_procSet (hp : s'.procSet = s.procSet) (hm : s'.mtime = s.mtime) :
    ClockKept s s' :=
  ⟨hm, fun _ _ _ h => hp ▸ h, fun _ h => hp ▸ h⟩

/-- Pointing a core at a slot keeps every slot `Clocked` and `Stamped`. -/
theorem ClockKept.setCoreIdx (h : ClockKept s s') (c k : Nat) : ClockKept s (s'.setCoreIdx c k) :=
  ⟨h.mtime, h.clocked, h.stamped⟩

/-- A write of fields the statistics do not read. -/
theorem ClockKept.modifyOther {i : Nat} {f : Process → Process}
    (hf : ∀ p, (f p).creationTime = p.creationTime ∧ (f p).firstScheduleTime = p.firstScheduleTime ∧
      (f p).totalCpuTime = p.totalCpuTime ∧ (f p).lastScheduleTime = p.lastScheduleTime ∧
      (f p).queueTime = p.queueTime ∧ (f p).status = p.status) :
    ClockKept s (s.modifyProc i f) :=
  have ⟨hc, hf', ht, hl, hq, hs⟩ := hf (s.procSet i)
  .modifyProc (fun _ _ h => h.mono hc hf' ht hl (hq ▸ le_rfl) fun e => hs ▸ e)
    fun h => h.mono hf' hl fun e => hs ▸ e

/-- A status write other than `PROC_RUNNING`. -/
theorem ClockKept.leaveStatus {i : Nat} {f : Process → Process} (hst : ∀ p, (f p).status ≠ .running)
    (hf : ∀ p, (f p).creationTime = p.creationTime ∧ (f p).firstScheduleTime = p.firstScheduleTime ∧
      (f p).totalCpuTime = p.totalCpuTime ∧ (f p).lastScheduleTime = p.lastScheduleTime ∧
      (f p).queueTime = p.queueTime) :
    ClockKept s (s.modifyProc i f) :=
  have ⟨hc, hf', ht, hl, hq⟩ := hf (s.procSet i)
  .modifyProc (fun _ _ h => h.mono hc hf' ht hl (hq ▸ le_rfl) fun e => absurd e (hst _))
    fun _ e => absurd e (hst _)

/-- `mlfq_reset_level` moves only levels, and keeps every slot `Clocked` and `Stamped`. -/
theorem mlfqResetLevel_clockKept (s : Kernel) : ClockKept s (mlfqResetLevel cfg s tty) := by
  have h₁ : ClockKept s (shellBoost cfg s tty) := by
    unfold shellBoost
    split
    · exact .refl s
    · split
      · exact .modifyProc (fun _ _ h => h.mono rfl rfl rfl rfl (by simp) id) id
      · exact .refl s
  refine h₁.trans ?_
  unfold mlfqResetLevel periodicReset
  split
  · refine ⟨rfl, fun j sp lo h => ?_, fun j h => ?_⟩ <;> dsimp only <;> split
    exacts [h.mono rfl rfl rfl rfl (by simp) id, h, h, h]
  · exact .refl _

/-- The prologue of `proc_yield` charges the running process and keeps every slot `Clocked`. -/
theorem yieldPrologue_clockKept (s : Kernel) : ClockKept s (yieldPrologue cfg s tty) := by
  unfold yieldPrologue
  refine ClockKept.trans ?_ (mlfqResetLevel_clockKept _)
  split
  · exact procSetRunnable_clockKept s _
  · exact .refl s

/-- Priming a `PROC_READY` slot is `ClockKept`. -/
theorem primeIfReady_clockKept (s : Kernel) (k : Nat) : ClockKept s (primeIfReady cfg s k) := by
  unfold primeIfReady
  split
  · exact .modifyOther fun _ => ⟨rfl, rfl, rfl, rfl, rfl, rfl⟩
  · exact .refl s

/-- The dispatch branch of `proc_yield` stamps the chosen slot twice, at the same time. -/
theorem dispatch_clockKept (s : Kernel) (k : Nat) : ClockKept s (dispatch cfg s k) := by
  have h₁ : ClockKept s (stampNext cfg s k) := by
    unfold stampNext
    exact ClockKept.emit (.modifyProc (fun _ _ h => h.stamp) fun _ => Process.Stamped.stamp) _
  unfold dispatch switchTo
  exact ((((h₁.setCoreIdx _ _).emit _).emit _).trans (primeIfReady_clockKept _ k)).trans
    (procSetRunning_clockKept _ _) |>.emit _

/-- Sending the core idle is `ClockKept`. -/
theorem goIdle_clockKept (s : Kernel) : ClockKept s (goIdle s) :=
  (((ClockKept.refl s).setCoreIdx _ _).emit _).emit _

/-- Everything `proc_yield` does after its prologue keeps the statistics. -/
theorem procYield_clockKept (hy : procYield cfg s tty = .ok s') :
    ClockKept (yieldPrologue cfg s tty) s' := by
  obtain ⟨⟨s₂, k⟩, h₁, h₂⟩ := bind_eq_ok.1 hy
  refine (pickNext_step h₁).1.clock.trans ?_
  dsimp only at h₂
  split at h₂ <;> cases h₂
  · exact dispatch_clockKept s₂ k
  · exact goIdle_clockKept s₂

/-- The timer interrupt of the running current slot, then the prologue of `proc_yield`: the slot
is charged and stamped, charged again for nothing, and becomes runnable, so it is `Stamped`
again. -/
theorem timer_prologue_clockKept (h : PidInv s) (hk : s.currIdx < maxNProcess)
    (hrun : (s.procSet s.currIdx).status = .running) :
    ClockKept s (yieldPrologue cfg (s.modifyProc s.currIdx (timerCharge (mtimeGet s))) tty) := by
  have hc := timerCharge_sameCtl (mtimeGet s) (s.procSet s.currIdx)
  have hl : (s.procSet s.currIdx).status ≠ .unused := by rw [hrun]; decide
  have hpid : ((s.modifyProc s.currIdx (timerCharge (mtimeGet s))).procSet s.currIdx).pid =
      (s.procSet s.currIdx).pid := by simp [hc.1]
  have hfind : findSlot (s.modifyProc s.currIdx (timerCharge (mtimeGet s))).procSet
      (fun p => p.pid == ((s.modifyProc s.currIdx (timerCharge (mtimeGet s))).procSet
        s.currIdx).pid) = some s.currIdx := by
    rw [hpid]
    refine (findSlot_congr fun j => ?_).trans (h.findSlot_pid hk hl)
    simp only [Kernel.modifyProc_procSet]
    split
    · subst_vars; rw [hc.1]
    · rfl
  unfold yieldPrologue
  dsimp only
  rw [if_pos (by simpa [Kernel.currIdx] using hc.2.1.trans hrun)]
  refine ClockKept.trans ?_ (mlfqResetLevel_clockKept _)
  simp only [procSetRunnable, procLeaveRunning, Kernel.currIdx, Kernel.modifyProc_coreToProcIdx,
    Kernel.modifyProc_coreInKernel] at hfind ⊢
  rw [hfind]
  dsimp only
  rw [Kernel.modifyProc_modifyProc]
  exact .modifyProc (fun _ _ h => (h.interrupt hrun).leave nofun) fun _ e => nomatch e

/-- Blocking the caller of an `ecall` charges it, and keeps every slot `Clocked`. -/
theorem blockCaller_clockKept (s : Kernel) (rec : Syscall) : ClockKept s (blockCaller s rec) := by
  unfold blockCaller
  dsimp only
  refine ClockKept.trans ?_ (.modifyOther fun _ => ⟨rfl, rfl, rfl, rfl, rfl, rfl⟩)
  refine ClockKept.trans ?_ (procSetPending_clockKept _ _)
  exact .modifyOther fun _ => ⟨rfl, rfl, rfl, rfl, rfl, rfl⟩

/-- A retry that does not halt is `ClockKept`. -/
theorem procTrySyscall_clockKept {i : Nat} (h : procTrySyscall cfg s i = .ok s') :
    ClockKept s s' := by
  unfold procTrySyscall at h
  split at h
  · cases h
    unfold procTryRecv
    dsimp only
    split
    · exact .refl s
    · exact (((ClockKept.refl s).emit _).trans (procSetRunnable_clockKept _ _)).trans
        (procSetRunnable_clockKept _ _)
  · dsimp only [procTrySend] at h
    split at h
    · split at h <;> cases h
      · exact .modifyOther fun _ => ⟨rfl, rfl, rfl, rfl, rfl, rfl⟩
      · exact .refl s
    · cases h
  · cases h

/-- Stamping `termination_time` and logging the report is `ClockKept`. -/
theorem terminate_clockKept (s : Kernel) (i : Nat) : ClockKept s (terminate s i) :=
  ((ClockKept.modifyOther (f := fun p => { p with terminationTime := mtimeGet s })
    fun _ => ⟨rfl, rfl, rfl, rfl, rfl, rfl⟩).emit _).emit _

/-- `proc_free` is `ClockKept`. -/
theorem procFree_clockKept (s : Kernel) (pid : Int) : ClockKept s (procFree cfg s pid) := by
  unfold procFree
  split
  · split
    · rename_i i _
      refine (terminate_clockKept s i).trans ⟨rfl, fun j sp lo h => ?_, fun j h => ?_⟩ <;>
        dsimp only [procSetStatus] <;> split
      exacts [h.mono rfl rfl rfl rfl le_rfl nofun, h, nofun, h]
    · exact .refl s
  · induction lowSlots generalizing s with
    | nil => exact .refl s
    | cons i l ih =>
      rw [List.foldl_cons]
      refine ClockKept.trans ?_ (ih _)
      split
      · exact (terminate_clockKept s i).trans
          (.leaveStatus (fun _ => nofun) fun _ => ⟨rfl, rfl, rfl, rfl, rfl⟩)
      · exact .refl s

/-- The handler's part before `proc_yield`, together with the prologue of `proc_yield`. -/
theorem yieldArg_clockKept (h : Inv cfg s fun _ => True) {t : Trap}
    (hy : yieldArg cfg s t = .ok y) : ClockKept s (yieldPrologue cfg y t.ttyEmpty) := by
  unfold yieldArg at hy
  split at hy
  · split at hy
    · cases hy
    · cases hy
      split
      · rename_i hk
        exact timer_prologue_clockKept h.pid (h.core.bound _)
          (h.core.running _ trivial (by simp only [Kernel.currIdx] at hk; omega))
      · exact yieldPrologue_clockKept s
  · split at hy
    · exact ((blockCaller_clockKept s _).trans (procTrySyscall_clockKept hy)).trans
        (yieldPrologue_clockKept _)
    · dsimp only at hy
      split at hy
      · cases hy
        exact (((ClockKept.refl s).emit _).trans (procFree_clockKept _ _)).trans
          (yieldPrologue_clockKept _)
      · cases hy

/-- Saving the trapped context is `ClockKept`. -/
theorem saveContext_clockKept (s : Kernel) (t : Trap) : ClockKept s (saveContext s t) := by
  unfold saveContext
  refine ClockKept.trans ?_ (.modifyOther fun _ => ⟨rfl, rfl, rfl, rfl, rfl, rfl⟩)
  exact .of_procSet rfl rfl

/-- A kernel entry keeps the statistics of every slot. -/
theorem kernelEntry_clockKept (h : Inv cfg s fun _ => True) {t : Trap}
    (he : kernelEntry cfg s t = .ok s') : ClockKept s s' := by
  obtain ⟨s₁, h₁, rfl⟩ := kernelEntry_ok he
  rw [trapHandler_eq_bind] at h₁
  obtain ⟨y, hy, hy'⟩ := bind_eq_ok.1 h₁
  exact (((saveContext_clockKept s t).trans
    (yieldArg_clockKept (h.of_ctl (saveContext_ctl s t)) hy)).trans (procYield_clockKept hy')).emit _

end Entry

/-! ## Steps and runs -/

/-- The time slot `j` spends in `PROC_RUNNING` from `s` to `s'`: the clock moves only at a
tick, between kernel entries. -/
def ranFor (s s' : Kernel) (j : Nat) : Nat :=
  if (s.procSet j).status = .running then s'.mtime.toNat - s.mtime.toNat else 0

/-- The running time of the process in each slot after a step from `s` to `s'`: it grows by
`ranFor`, and starts at 0 when the slot changes hands. -/
def meter (s s' : Kernel) (d : Nat → Nat) (j : Nat) : Nat :=
  if (s'.procSet j).pid = (s.procSet j).pid then d j + ranFor s s' j else 0

section Steps

variable {cfg : Config} {s s' : Kernel} {l : Step}

/-- What a step does to the statistics: each slot stays `Stamped`; a slot that keeps its process
keeps `Clocked`, with its running time grown by `ranFor`; a slot that changes hands is fresh. -/
def StepClocked (s s' : Kernel) : Prop :=
  (∀ j, (s.procSet j).Stamped → (s'.procSet j).Stamped) ∧
  (∀ j sp lo, (s'.procSet j).pid = (s.procSet j).pid → (s.procSet j).Clocked s.mtime sp lo →
    (s'.procSet j).Clocked s'.mtime (sp + ranFor s s' j) lo) ∧
  (∀ j, (s'.procSet j).pid ≠ (s.procSet j).pid → (s'.procSet j).Clocked s'.mtime 0 0 ∧
    (s'.procSet j).Stamped)

/-- A `ClockKept` change that keeps the pids is a clocked step. -/
theorem ClockKept.stepClocked (h : ClockKept s s') (hp : ∀ j, (s'.procSet j).pid = (s.procSet j).pid) :
    StepClocked s s' := by
  refine ⟨h.stamped, fun j sp lo _ hc => ?_, fun j e => absurd (hp j) e⟩
  simpa [ranFor, h.mtime] using h.clocked j sp lo hc

/-- A tick forward from a stamped table is a clocked step. -/
theorem tick_stepClocked (hst : ∀ j, (s.procSet j).Stamped) (now : BitVec 64) (hn : s.mtime ≤ now) :
    StepClocked s { s with mtime := now } :=
  ⟨fun _ h => h, fun j _ _ _ hc => hc.tick (hst j) (BitVec.le_def.1 hn), fun _ e => absurd rfl e⟩

/-- A polite `proc_alloc` is a clocked step: the new process starts with zero statistics. -/
theorem alloc_stepClocked (h : Inv cfg s fun _ => True) (hpol : Polite cfg s .alloc) {pid : Int}
    (ha : procAlloc s = .ok (pid, s')) : StepClocked s s' := by
  have hpol : s.currPid.toNat + 1 < 2 ^ 31 := hpol
  obtain ⟨i, -, -, rfl⟩ := procAlloc_eq_ok ha
  have hnew : (allocFields (s.currPid + 1).toInt (mtimeGet s) (s.procSet i)).pid ≠
      (s.procSet i).pid := by
    have := h.pid.le_counter i
    simp only [allocFields, toInt_add_one_of_lt hpol]
    omega
  refine ⟨fun j hj => ?_, fun j sp lo hp hc => ?_, fun j hp => ?_⟩ <;>
    simp only [Kernel.emit_procSet, Kernel.modifyProc_procSet] at *
  · split
    · exact fun e => nomatch e
    · exact hj
  · split at hp
    · subst_vars; exact absurd hp hnew
    · rw [if_neg ‹_›]; simpa [ranFor] using hc
  · split at hp
    · subst_vars; rw [if_pos rfl]; exact ⟨.alloc _ _, fun e => nomatch e⟩
    · exact absurd rfl hp

/-- Every polite step from a state of a polite run. -/
theorem step_clocked (hall : cfg.gpidAll ≤ 0) (h : PoliteReach cfg s)
    (hst : ∀ j, (s.procSet j).Stamped) (hp : Polite cfg s l) (hs : step cfg s l = .ok s') :
    StepClocked s s' := by
  have hi := h.inv hall
  have pids : s'.allocView = s.allocView → ∀ j, (s'.procSet j).pid = (s.procSet j).pid :=
    fun e j => congrFun (congrArg (fun v => v.2.2.2) e) j
  cases l with
  | alloc =>
    cases ha : procAlloc s with
    | error => simp [step, ha, Except.map] at hs
    | ok r =>
      simp only [step, ha, Except.map, Except.ok.injEq] at hs
      subst hs
      exact alloc_stepClocked hi hp ha
  | setReady pid =>
    cases hs
    refine ClockKept.stepClocked ?_ (pids (procSetReady_allocView s pid))
    unfold procSetReady
    split
    · exact .leaveStatus (fun _ => nofun) fun _ => ⟨rfl, rfl, rfl, rfl, rfl⟩
    · exact .refl s
  | free pid =>
    cases hs
    exact (procFree_clockKept s pid).stepClocked (pids (procFree_allocView cfg s pid))
  | sleep _ _ => exact hp.elim
  | trap t =>
    simp only [step] at hs
    split at hs
    · exact (kernelEntry_clockKept hi hs).stepClocked (pids (kernelEntry_allocView cfg hs))
    · cases hs
      exact (ClockKept.refl s).stepClocked fun _ => rfl
  | tick now =>
    cases hs
    split
    · exact tick_stepClocked hst now ‹_›
    · exact (ClockKept.refl s).stepClocked fun _ => rfl

end Steps

/-- The states of polite runs from boot, each with the time `d j` that the process in slot `j`
has spent in `PROC_RUNNING` since it was allocated. -/
inductive Metered (cfg : Config) : Kernel → (Nat → Nat) → Prop
  | init : Metered cfg (init cfg) fun _ => 0
  | step {s s' : Kernel} {d : Nat → Nat} {l : Step} :
    Metered cfg s d → Polite cfg s l → step cfg s l = .ok s' → Metered cfg s' (meter s s' d)

section Runs

variable {cfg : Config} {s : Kernel} {d : Nat → Nat}

/-- A metered state is a state of a polite run. -/
theorem Metered.politeReach (h : Metered cfg s d) : PoliteReach cfg s := by
  induction h with
  | init => exact .init
  | step _ hp hs ih => exact ih.step hp hs

/-- Every state of a polite run has its running times. -/
theorem PoliteReach.metered (h : PoliteReach cfg s) : ∃ d, Metered cfg s d := by
  induction h with
  | init => exact ⟨_, .init⟩
  | step _ hp hs ih =>
    obtain ⟨d, hd⟩ := ih
    exact ⟨_, hd.step hp hs⟩

/-- In every state of a polite run, every slot is `Clocked` with its running time, and
`Stamped`. -/
theorem Metered.clocked (hall : cfg.gpidAll ≤ 0) (h : Metered cfg s d) (j : Nat) :
    (s.procSet j).Clocked s.mtime (d j) 0 ∧ (s.procSet j).Stamped := by
  induction h generalizing j with
  | init =>
    refine ⟨⟨?_, ?_, ?_, ?_, ?_, ?_, ?_, ?_, ?_, ?_, ?_⟩, fun e => nomatch e⟩ <;>
      simp [EgosGrass.init, blank]
  | @step s s' d l hm hp hs ih =>
    obtain ⟨hstamp, hkeep, hfresh⟩ :=
      step_clocked hall hm.politeReach (fun j => (ih j).2) hp hs
    unfold meter
    split
    · exact ⟨hkeep j _ _ ‹_› (ih j).1, hstamp j (ih j).2⟩
    · exact hfresh j ‹_›

/-- In every state of a polite run, for the process in every slot `j`: `first_schedule_time`,
once set, is not before `creation_time`; `total_cpu_time` is at most the time `d j` the process
has spent in `PROC_RUNNING`, and `total_cpu_time + first_schedule_time` is at most `now`;
`queue_time` is at most `total_cpu_time`; and no polite step lowers `total_cpu_time` while the
slot keeps its process. -/
theorem cpu_time_accounted (hall : cfg.gpidAll ≤ 0) (h : Metered cfg s d) (j : Nat) :
    ((s.procSet j).firstScheduleTime ≠ 0 →
      (s.procSet j).creationTime ≤ (s.procSet j).firstScheduleTime) ∧
    (s.procSet j).totalCpuTime.toNat ≤ d j ∧
    (s.procSet j).totalCpuTime.toNat + (s.procSet j).firstScheduleTime.toNat ≤ s.mtime.toNat ∧
    (s.procSet j).queueTime ≤ (s.procSet j).totalCpuTime ∧
    ∀ l s', Polite cfg s l → step cfg s l = .ok s' → (s'.procSet j).pid = (s.procSet j).pid →
      (s.procSet j).totalCpuTime ≤ (s'.procSet j).totalCpuTime := by
  obtain ⟨hc, -⟩ := h.clocked hall j
  refine ⟨fun h0 => BitVec.le_def.2 (hc.first fun e => h0 (BitVec.eq_of_toNat_eq (by simpa using e))),
    hc.spent, hc.charged, BitVec.le_def.2 hc.queue, fun l s' hp hs hpid => BitVec.le_def.2 ?_⟩
  -- the charged time so far is the floor the step keeps
  have hfloor : (s.procSet j).Clocked s.mtime (d j) (s.procSet j).totalCpuTime.toNat :=
    { hc with floor := le_rfl }
  exact ((step_clocked hall h.politeReach (fun i => (h.clocked hall i).2) hp hs).2.1 j _ _ hpid
    hfloor).floor

end Runs

/-- A process dispatched at time 0 and interrupted at times 5 and 9 has been charged 4
microseconds: the interrupt at 5 only stamps `last_schedule_time`, since it was 0. -/
theorem cpu_time_accounted_after_two_ticks :
    ∃ s d, Metered sampleConfig s d ∧ (s.procSet 1).totalCpuTime = 4 ∧
      ((s.procSet 1).firstScheduleTime ≠ 0 →
        (s.procSet 1).creationTime ≤ (s.procSet 1).firstScheduleTime) ∧
      (s.procSet 1).totalCpuTime.toNat ≤ d 1 ∧
      (s.procSet 1).totalCpuTime.toNat + (s.procSet 1).firstScheduleTime.toNat ≤ s.mtime.toNat ∧
      (s.procSet 1).queueTime ≤ (s.procSet 1).totalCpuTime ∧
      ∀ l s', Polite sampleConfig s l → step sampleConfig s l = .ok s' →
        (s'.procSet 1).pid = (s.procSet 1).pid →
        (s.procSet 1).totalCpuTime ≤ (s'.procSet 1).totalCpuTime := by
  obtain ⟨s, hs, hp⟩ := politeReach_of_run sampleConfig
    (l := [.alloc, .setReady 1, timerOn 0, .tick 5, timerOn 0, .tick 9, timerOn 0])
    (p := fun s => (s.procSet 1).totalCpuTime == 4) (by decide)
  obtain ⟨d, hd⟩ := hs.metered
  exact ⟨s, d, hd, by simpa using hp, cpu_time_accounted (by decide) hd 1⟩

/-- `proc_sleep` breaks `total_cpu_time + first_schedule_time <= now`. Pid 3, dispatched on core 0
at time 1000, sends to pid 2, which collects the message and runs on core 1 with its record still
`DONE`. `proc_sleep(2, 100000)` blocks pid 2 on that record; at time 10000 the scan on core 1
collects it again, and `proc_set_runnable(3)` charges the running pid 3 for 9000 microseconds
without moving its `last_schedule_time`. The next timer interrupt on core 0 charges the same 9000
microseconds again. -/
theorem sleep_charges_sender_twice :
    ∃ s, Reachable sampleConfig s ∧ (s.procSet 3).firstScheduleTime.toNat = 1000 ∧
      (s.procSet 3).totalCpuTime.toNat = 18000 ∧ s.mtime.toNat = 10000 := by
  obtain ⟨s, hs, hp⟩ := reach_of_run sampleConfig
    (l := [.alloc, .alloc, .alloc, .setReady 2, .setReady 3, .tick 1000, timerOn 0, timerOn 1,
      recvOn 0 (-1), sendOn 1 2 [7], timerOn 0, .setReady 1, .sleep 2 100000, .tick 10000,
      timerOn 1, timerOn 0])
    (p := fun s => (s.procSet 3).firstScheduleTime.toNat == 1000 &&
      (s.procSet 3).totalCpuTime.toNat == 18000 && s.mtime.toNat == 10000) (by decide)
  simp only [Bool.and_eq_true, beq_iff_eq] at hp
  exact ⟨s, hs, hp.1.1, hp.1.2, hp.2⟩

/-- Pid 1 runs on core 1 from time 1. At time 10000000 a timer interrupt on the idle core 0 runs
`proc_yield`, whose `mlfq_reset_level` puts every live process back to level 0 with no queue
time. One microsecond later the timer interrupt on core 1 charges pid 1 for its whole run since
time 1, which began before the reset, and `mlfq_update_level` demotes it from level 0, whose
quantum is `MLFQ_LEVEL_RUNTIME(0) = 100000` microseconds. -/
theorem charge_spans_level_reset :
    ∃ s s', PoliteReach sampleConfig s ∧ Polite sampleConfig s (timerOn 1) ∧
      (s.procSet 1).status = .running ∧ (s.procSet 1).queueLevel = 0 ∧
      (s.procSet 1).queueTime = 0 ∧
      (s.procSet 1).lastScheduleTime.toNat < s.mlfqLastResetTime.toNat ∧
      s.mtime.toNat = s.mlfqLastResetTime.toNat + 1 ∧
      step sampleConfig s (timerOn 1) = .ok s' ∧ s'.mlfqLastResetTime = s.mlfqLastResetTime ∧
      (s'.procSet 1).queueLevel = 1 := by
  obtain ⟨s, hs, hp⟩ := politeReach_of_run sampleConfig
    (l := [.alloc, .setReady 1, .tick 1, timerOn 1, .tick 10000000, timerOn 0, .tick 10000001])
    (p := fun s => decide (Polite sampleConfig s (timerOn 1)) &&
      (s.procSet 1).status == .running && (s.procSet 1).queueLevel == 0 &&
      (s.procSet 1).queueTime == 0 &&
      decide ((s.procSet 1).lastScheduleTime.toNat < s.mlfqLastResetTime.toNat) &&
      s.mtime.toNat == s.mlfqLastResetTime.toNat + 1 &&
      match step sampleConfig s (timerOn 1) with
      | .ok s' => s'.mlfqLastResetTime == s.mlfqLastResetTime && (s'.procSet 1).queueLevel == 1
      | .error _ => false)
    (by decide)
  revert hp
  cases hs' : step sampleConfig s (timerOn 1) with
  | error => simp
  | ok s' =>
    simp only [Bool.and_eq_true, beq_iff_eq, decide_eq_true_eq]
    rintro ⟨⟨⟨⟨⟨⟨h₁, h₂⟩, h₃⟩, h₄⟩, h₅⟩, h₆⟩, h₇, h₈⟩
    exact ⟨s, s', hs, h₁, h₂, h₃, h₄, h₅, h₆, hs', h₇, h₈⟩

end EgosGrass

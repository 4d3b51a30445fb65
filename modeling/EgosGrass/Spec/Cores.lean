import EgosGrass.Spec.InvariantEntry

/-!
# Cores and the slots they run

In a polite run every core that is not idle points at a slot whose process is `PROC_RUNNING`, and
no two cores point at the same slot (`cores_hold_distinct_running_slots`): this is `CoreInv` of
the invariant. Outside polite runs both halves fail. `proc_free` of the process core 0 runs
releases its slot while the core still points at it; the next `proc_alloc` reuses the slot and a
timer interrupt on core 1 dispatches it there, so both cores point at one slot
(`free_running_slot_dispatched_twice`). `proc_sleep` blocks a process on whatever record it holds,
and a retry of a collected record then makes the sender it names `RUNNABLE` while a core still
runs it (`sleep_leaves_core_on_runnable_slot`).

`proc_coresinfo` reports a core as running when its slot is below `MAX_NPROCESS` and
`PROC_RUNNING`. Over a polite run that test is the same as the slot being nonzero, so the report
names, for each core, the pid of the slot it points to, or says it is idle
(`procCoresinfo_of_politeReach`).

Over every run, polite or not, the core map stays below `MAX_NPROCESS` (`cores_index_proc_set`):
`proc_yield` points a core only at the slot its scans chose below `MAX_NPROCESS`, or at 0, and no
other function writes the map. So `proc_set[curr_proc_idx]` is always a slot of `proc_set`, and no
core ever runs slot `MAX_NPROCESS`.
-/

namespace EgosGrass

/-- Every core that is not idle runs a `PROC_RUNNING` slot of its own, over every polite run. -/
theorem cores_hold_distinct_running_slots {cfg : Config} {s : Kernel} (hall : cfg.gpidAll ≤ 0)
    (h : PoliteReach cfg s) :
    (∀ c, s.coreToProcIdx c ≠ 0 → (s.procSet (s.coreToProcIdx c)).status = .running) ∧
    ∀ c d, c ≠ d → s.coreToProcIdx c ≠ 0 → s.coreToProcIdx c ≠ s.coreToProcIdx d := by
  have hc := (h.inv hall).core
  exact ⟨fun c => hc.running c trivial, fun c d hcd h0 e => h0 (hc.injective c d hcd e)⟩

/-- Over every polite run, `proc_coresinfo` names for each core the pid of the slot it points to,
and reports the cores at slot 0 idle. -/
theorem procCoresinfo_of_politeReach {cfg : Config} {s : Kernel} (hall : cfg.gpidAll ≤ 0)
    (h : PoliteReach cfg s) :
    procCoresinfo cfg s = .header :: (List.range cfg.ncores).map fun c =>
      if s.coreToProcIdx c = 0 then .idle c else .process c (s.procSet (s.coreToProcIdx c)).pid := by
  have hi := h.inv hall
  refine congrArg _ (List.map_congr_left fun c _ => ?_)
  by_cases h0 : s.coreToProcIdx c = 0
  · have hidle : (s.procSet 0).status = .unused := hi.pid.zero_unused 0 hi.pid.idle
    rw [if_pos h0, if_neg fun hr => by simp [h0, hidle] at hr]
  · rw [if_neg h0, if_pos ⟨hi.core.bound c, hi.core.running c trivial h0⟩]

/-- Pids 1 and 2 dispatched on the two cores of `sampleConfig`; pid 1 then blocks in
`sys_recv`, and core 0 goes idle while core 1 runs pid 2. -/
theorem procCoresinfo_after_recv :
    ∃ s, PoliteReach sampleConfig s ∧ s.coreToProcIdx 0 = 0 ∧ s.coreToProcIdx 1 = 2 ∧
      procCoresinfo sampleConfig s = .header :: (List.range sampleConfig.ncores).map fun c =>
        if s.coreToProcIdx c = 0 then .idle c
        else .process c (s.procSet (s.coreToProcIdx c)).pid := by
  obtain ⟨s, hs, hp⟩ := politeReach_of_run sampleConfig
    (l := [.alloc, .alloc, .setReady 1, .setReady 2, timerOn 0, timerOn 1, recvOn 0 5])
    (p := fun s => s.coreToProcIdx 0 == 0 && s.coreToProcIdx 1 == 2) (by decide)
  simp only [Bool.and_eq_true, beq_iff_eq] at hp
  exact ⟨s, hs, hp.1, hp.2, procCoresinfo_of_politeReach (by decide) hs⟩

/-- Two processes dispatched on the two cores of `sampleConfig`. -/
theorem cores_hold_distinct_running_slots_two_cores :
    ∃ s, PoliteReach sampleConfig s ∧ s.coreToProcIdx 0 = 1 ∧ s.coreToProcIdx 1 = 2 ∧
      (∀ c, s.coreToProcIdx c ≠ 0 → (s.procSet (s.coreToProcIdx c)).status = .running) ∧
      ∀ c d, c ≠ d → s.coreToProcIdx c ≠ 0 → s.coreToProcIdx c ≠ s.coreToProcIdx d := by
  obtain ⟨s, hs, hp⟩ := politeReach_of_run sampleConfig
    (l := [.alloc, .alloc, .setReady 1, .setReady 2, timerOn 0, timerOn 1])
    (p := fun s => s.coreToProcIdx 0 == 1 && s.coreToProcIdx 1 == 2) (by decide)
  simp only [Bool.and_eq_true, beq_iff_eq] at hp
  exact ⟨s, hs, hp.1, hp.2, cores_hold_distinct_running_slots (by decide) hs⟩

/-- Core 0 runs pid 1 in slot 1 when `proc_free(1)` releases the slot; `proc_alloc` hands it to
pid 2, and a timer interrupt on core 1 dispatches it there while core 0 still points at it. -/
theorem free_running_slot_dispatched_twice :
    ∃ s, Reachable sampleConfig s ∧ s.coreToProcIdx 0 = 1 ∧ s.coreToProcIdx 1 = 1 := by
  obtain ⟨s, hs, hp⟩ := reach_of_run sampleConfig
    (l := [.alloc, .setReady 1, timerOn 0, .free 1, .alloc, .setReady 2, timerOn 1])
    (p := fun s => s.coreToProcIdx 0 == 1 && s.coreToProcIdx 1 == 1) (by decide)
  simp only [Bool.and_eq_true, beq_iff_eq] at hp
  exact ⟨s, hs, hp⟩

/-- `proc_sleep` breaks the first half. Pid 3 on core 0 sends to pid 2, which collects the message
and runs on core 1 with its record still `DONE`. `proc_sleep(2, 100000)` blocks pid 2 on that
record; the scan of the next timer interrupt on core 1 collects it again, makes pid 3 `RUNNABLE`
and dispatches pid 1 on core 1, while core 0 still points at pid 3's slot. -/
theorem sleep_leaves_core_on_runnable_slot :
    ∃ s, Reachable sampleConfig s ∧ s.coreToProcIdx 0 = 3 ∧ (s.procSet 3).status = .runnable := by
  obtain ⟨s, hs, hp⟩ := reach_of_run sampleConfig
    (l := [.alloc, .alloc, .alloc, .setReady 2, .setReady 3, .tick 1000, timerOn 0, timerOn 1,
      recvOn 0 (-1), sendOn 1 2 [7], timerOn 0, .setReady 1, .sleep 2 100000, .tick 10000,
      timerOn 1])
    (p := fun s => s.coreToProcIdx 0 == 3 && (s.procSet 3).status == .runnable) (by decide)
  simp only [Bool.and_eq_true, beq_iff_eq] at hp
  exact ⟨s, hs, hp⟩

/-! ## The core map over every run -/

section CoreMap

variable {cfg : Config} {s s' : Kernel} {tty : Bool}

/-- `proc_set_runnable` and `proc_set_pending` keep the core map. -/
@[simp] theorem procLeaveRunning_coreToProcIdx (st : ProcStatus) (s : Kernel) (pid : Int) :
    (procLeaveRunning st s pid).coreToProcIdx = s.coreToProcIdx := by
  unfold procLeaveRunning; split <;> rfl

/-- `proc_free` keeps the core map, even for the cores that run the freed processes. -/
@[simp] theorem procFree_coreToProcIdx (s : Kernel) (pid : Int) :
    (procFree cfg s pid).coreToProcIdx = s.coreToProcIdx := by
  unfold procFree
  split
  · split <;> rfl
  · induction lowSlots generalizing s with
    | nil => rfl
    | cons i l ih => rw [List.foldl_cons, ih]; split <;> rfl

/-- A retry keeps the core map. -/
theorem procTrySyscall_coreToProcIdx {i : Nat} (h : procTrySyscall cfg s i = .ok s') :
    s'.coreToProcIdx = s.coreToProcIdx := by
  unfold procTrySyscall at h
  split at h
  · cases h
    dsimp only [procTryRecv]
    split <;> simp [procSetRunnable]
  · dsimp only [procTrySend] at h
    split at h
    · split at h <;> cases h <;> rfl
    · cases h
  · cases h

/-- `proc_set_running` keeps the core map. -/
@[simp] theorem procSetRunning_coreToProcIdx (s : Kernel) (pid : Int) :
    (procSetRunning s pid).coreToProcIdx = s.coreToProcIdx := by
  unfold procSetRunning; split <;> rfl

/-- `mlfq_reset_level` keeps the core map. -/
@[simp] theorem mlfqResetLevel_coreToProcIdx (s : Kernel) :
    (mlfqResetLevel cfg s tty).coreToProcIdx = s.coreToProcIdx := by
  unfold mlfqResetLevel periodicReset shellBoost
  split <;> split <;> (try split) <;> rfl

/-- The prologue of `proc_yield` keeps the core map. -/
@[simp] theorem yieldPrologue_coreToProcIdx (s : Kernel) :
    (yieldPrologue cfg s tty).coreToProcIdx = s.coreToProcIdx := by
  simp only [yieldPrologue, mlfqResetLevel_coreToProcIdx]
  split <;> simp [procSetRunnable]

/-- Dispatching slot `k` points the core in the kernel at it. -/
theorem dispatch_coreToProcIdx (s : Kernel) (k c : Nat) :
    (dispatch cfg s k).coreToProcIdx c = if c = s.coreInKernel then k else s.coreToProcIdx c := by
  have hp : ∀ s : Kernel, (primeIfReady cfg s k).coreToProcIdx = s.coreToProcIdx := fun s => by
    unfold primeIfReady; split <;> rfl
  simp [dispatch, switchTo, stampNext, hp]

/-- Going idle points the core in the kernel at slot 0. -/
theorem goIdle_coreToProcIdx (s : Kernel) (c : Nat) :
    (goIdle s).coreToProcIdx c = if c = s.coreInKernel then 0 else s.coreToProcIdx c := rfl

/-- `proc_yield` leaves the map alone but for the core in the kernel, which it points at 0 or at
a slot below `MAX_NPROCESS`. -/
theorem procYield_coreToProcIdx (hy : procYield cfg s tty = .ok s') (c : Nat) :
    s'.coreToProcIdx c = s.coreToProcIdx c ∨ s'.coreToProcIdx c < maxNProcess := by
  obtain ⟨⟨s₂, k⟩, h₁, h₂⟩ := bind_eq_ok.1 hy
  have hk : s₂.coreToProcIdx = s.coreToProcIdx := by
    rw [(pickNext_step h₁).1.idx, yieldPrologue_coreToProcIdx]
  dsimp only at h₂
  split at h₂ <;> cases h₂
  · rw [dispatch_coreToProcIdx, hk]
    split
    · exact .inr ‹k < maxNProcess›
    · exact .inl rfl
  · rw [goIdle_coreToProcIdx, hk]
    split
    · exact .inr (by decide)
    · exact .inl rfl

/-- The part of a kernel entry before `proc_yield` leaves the map alone. -/
theorem yieldArg_coreToProcIdx {t : Trap} (h : yieldArg cfg s t = .ok s') :
    s'.coreToProcIdx = s.coreToProcIdx := by
  unfold yieldArg at h
  split at h
  · split at h <;> cases h
    split <;> rfl
  · split at h
    · rw [procTrySyscall_coreToProcIdx h]
      simp [blockCaller, procSetPending]
    · dsimp only at h
      split at h <;> cases h
      simp

/-- Every step keeps every entry of the core map below `MAX_NPROCESS`. -/
theorem step_coreToProcIdx_lt {l : Step} (h : step cfg s l = .ok s')
    (hs : ∀ c, s.coreToProcIdx c < maxNProcess) (c : Nat) : s'.coreToProcIdx c < maxNProcess := by
  cases l with
  | alloc =>
    obtain ⟨⟨pid, s₁⟩, ha, rfl⟩ : ∃ r, procAlloc s = .ok r ∧ s' = r.2 := by
      cases ha : procAlloc s <;> simp_all [step, Except.map]
    obtain ⟨i, -, -, rfl⟩ := procAlloc_eq_ok ha
    exact hs c
  | setReady pid =>
    cases h; unfold procSetReady; split <;> exact hs c
  | free pid => cases h; simpa using hs c
  | sleep pid usec => cases h; unfold procSleep; split <;> exact hs c
  | trap t =>
    simp only [step] at h
    split at h
    · obtain ⟨s₁, h₁, rfl⟩ := kernelEntry_ok h
      rw [trapHandler_eq_bind] at h₁
      obtain ⟨y, hy, hy'⟩ := bind_eq_ok.1 h₁
      have hyc : y.coreToProcIdx = s.coreToProcIdx :=
        (yieldArg_coreToProcIdx hy).trans (by simp [saveContext])
      rcases procYield_coreToProcIdx hy' c with e | e
      · rw [restoreContext, Kernel.emit_coreToProcIdx, e, hyc]; exact hs c
      · rw [restoreContext, Kernel.emit_coreToProcIdx]; exact e
    · cases h; exact hs c
  | tick now => cases h; split <;> exact hs c

end CoreMap

/-- Over every run, every core's `core_to_proc_idx` is below `MAX_NPROCESS`: the slot
`proc_set[curr_proc_idx]` that `kernel_entry`, `intr_entry`, `excp_entry` and `proc_yield` read
and write is always inside `proc_set`, and no core ever points at slot `MAX_NPROCESS`. -/
theorem cores_index_proc_set {cfg : Config} {s : Kernel} (h : Reachable cfg s) (c : Nat) :
    s.coreToProcIdx c < maxNProcess := by
  induction h generalizing c with
  | init => exact (by decide : 0 < maxNProcess)
  | step _ hs ih => exact step_coreToProcIdx_lt hs ih c

/-- On the two cores of `sampleConfig`: the process core 0 runs is freed, its slot goes to a third
process, and core 0 runs that one. -/
theorem cores_index_proc_set_after_reuse :
    ∃ s, Reachable sampleConfig s ∧ s.coreToProcIdx 0 = 1 ∧ s.coreToProcIdx 0 < maxNProcess ∧
      s.coreToProcIdx 1 < maxNProcess := by
  obtain ⟨s, hs, hp⟩ := reach_of_run sampleConfig
    (l := [.alloc, .alloc, .setReady 1, .setReady 2, timerOn 0, timerOn 1, .free 1, .alloc,
      .setReady 3, timerOn 0])
    (p := fun s => s.coreToProcIdx 0 == 1) (by decide)
  exact ⟨s, hs, beq_iff_eq.1 hp, cores_index_proc_set hs 0, cores_index_proc_set hs 1⟩

end EgosGrass

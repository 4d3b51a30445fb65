import EgosGrass.Spec.Report

/-!
# `proc_free` as a whole

`procFree_all_frees_user_slots`: the loop of `proc_free(GPID_ALL)`, in closed form. It frees
exactly the live slots below `MAX_NPROCESS` that hold a user pid, logs their reports and
`mmu_free` calls in slot order, and changes nothing else; slot `MAX_NPROCESS` is never freed.

`alloc_then_free_restores_statuses`: in a polite run, `proc_free` of the pid `proc_alloc` has
just returned undoes the allocation. Every slot has its status back, and the process is reported
with all statistics 0. This needs a free slot below `MAX_NPROCESS`: a process that `proc_alloc`
puts into slot `MAX_NPROCESS` cannot be freed, since `proc_free`'s loops stop below it.
-/

namespace EgosGrass

/-! ## `proc_free(GPID_ALL)` in closed form -/

/-- The test of the loop of `proc_free(GPID_ALL)`: a live slot holding a user pid. -/
def freedByAll (cfg : Config) (p : Process) : Bool :=
  decide (p.pid ≥ cfg.gpidUserStart) && p.status != .unused

/-- What `proc_free` logs for a process `p` it frees at `now`: its report, then `mmu_free`. -/
def terminationEvents (p : Process) (now : BitVec 64) : List Event :=
  [.terminated p.pid (terminationReport { p with terminationTime := now } now), .mmuFree p.pid]

section FreeAll

variable {cfg : Config}

/-- The loop of `proc_free(GPID_ALL)` over slots it has not visited yet, which still hold what
they held in `s₀`: it frees those of them that `s₀` has live with a user pid, logs their reports
in the order of the list, and changes nothing else. -/
theorem foldl_freeAll (s₀ : Kernel) (L : List Nat) (hL : L.Nodup) (s : Kernel)
    (hs : ∀ i ∈ L, s.procSet i = s₀.procSet i) (hm : s.mtime = s₀.mtime) :
    let s' := L.foldl (fun s i =>
        if (s.procSet i).pid ≥ cfg.gpidUserStart ∧ (s.procSet i).status ≠ .unused then
          (terminate s i).modifyProc i fun p => { p with status := .unused }
        else s) s
    (∀ j, s'.procSet j = if j ∈ L ∧ freedByAll cfg (s₀.procSet j) then
        { s₀.procSet j with terminationTime := mtimeGet s₀, status := .unused } else s.procSet j) ∧
      s'.log = s.log ++ (L.filter fun i => freedByAll cfg (s₀.procSet i)).flatMap
        (fun i => terminationEvents (s₀.procSet i) (mtimeGet s₀)) ∧
      { s' with procSet := s.procSet, log := s.log } = s := by
  induction L generalizing s with
  | nil => exact ⟨fun j => by simp, by simp, rfl⟩
  | cons i L ih =>
    obtain ⟨hi, hL⟩ := List.nodup_cons.1 hL
    have hsi := hs i (List.mem_cons_self _ _)
    simp only [List.foldl_cons]
    split
    · -- slot `i` is freed
      rename_i hf
      have hf' : freedByAll cfg (s₀.procSet i) = true := by rw [← hsi]; simpa [freedByAll] using hf
      have hs₁ : ∀ k ∈ L, ((terminate s i).modifyProc i fun p => { p with status := .unused }).procSet k =
          s₀.procSet k := fun k hk => by
        have hki : k ≠ i := by rintro rfl; exact hi hk
        rw [Kernel.modifyProc_procSet, if_neg hki, terminate_procSet_ne _ hki]
        exact hs k (List.mem_cons_of_mem _ hk)
      obtain ⟨hp, hl, hr⟩ := ih hL _ hs₁ (by simpa [terminate] using hm)
      refine ⟨fun j => ?_, ?_, ?_⟩
      · rw [hp]
        by_cases hj : j = i
        · subst hj
          simp [hi, hf', terminate, hsi, mtimeGet, hm]
        · simp [hj, terminate_procSet_ne _ hj]
      · rw [hl]
        simp [terminate, hf', List.filter_cons, terminationEvents, hsi, mtimeGet, hm]
      · exact (congrArg (fun k : Kernel => { k with procSet := s.procSet, log := s.log }) hr).trans rfl
    · -- slot `i` is kept
      rename_i hf
      have hf' : freedByAll cfg (s₀.procSet i) = false := by rw [← hsi]; simpa [freedByAll] using hf
      obtain ⟨hp, hl, hr⟩ := ih hL s (fun k hk => hs k (List.mem_cons_of_mem _ hk)) hm
      refine ⟨fun j => ?_, ?_, hr⟩
      · rw [hp]
        by_cases hj : j = i
        · subst hj; simp [hi, hf']
        · simp [hj]
      · rw [hl]; simp [List.filter_cons, hf']

end FreeAll

/-- `proc_free(GPID_ALL)`, from any state: every live slot below `MAX_NPROCESS` holding a pid of
at least `GPID_USER_START` gets `termination_time = mtime_get()` and `PROC_UNUSED`, and every other
slot is left as it is; the log gains the report and the `mmu_free` of each freed slot, in slot
order; and nothing else of the kernel changes. Slot `MAX_NPROCESS` is never freed. -/
theorem procFree_all_frees_user_slots {cfg : Config} (s : Kernel) :
    (∀ j, (procFree cfg s cfg.gpidAll).procSet j =
      if j < maxNProcess ∧ freedByAll cfg (s.procSet j) then
        { s.procSet j with terminationTime := mtimeGet s, status := .unused } else s.procSet j) ∧
    (procFree cfg s cfg.gpidAll).log = s.log ++ (lowSlots.filter fun i => freedByAll cfg (s.procSet i)).flatMap
        (fun i => terminationEvents (s.procSet i) (mtimeGet s)) ∧
    { procFree cfg s cfg.gpidAll with procSet := s.procSet, log := s.log } = s := by
  obtain ⟨hp, hl, hr⟩ := foldl_freeAll s lowSlots (List.nodup_range _) s (fun _ _ => rfl) rfl
  simp only [procFree, ne_eq, not_true_eq_false, if_false]
  exact ⟨fun j => by simp only [hp, mem_lowSlots], hl, hr⟩

/-! ## An allocation undone -/

/-- A process allocated at `now` and never scheduled has a report of zeros at `now`. -/
@[simp] theorem terminationReport_allocFields (pid : Int) (now : BitVec 64) (p : Process) :
    terminationReport (allocFields pid now p) now = ⟨0, 0, 0, 0, 0, 0⟩ := by
  have h0 : ¬now < 0#64 := by rw [BitVec.lt_def]; simp
  simp [terminationReport, allocFields, toCInt, h0]

/-- With an unused slot below `MAX_NPROCESS`, the first unused slot `proc_alloc` finds is below
`MAX_NPROCESS` too. -/
theorem procAlloc_slot_lt {s s' : Kernel} {pid : Int} (ha : procAlloc s = .ok (pid, s'))
    (hfree : ∃ j, 0 < j ∧ j < maxNProcess ∧ (s.procSet j).status = .unused) :
    ∃ i, AllocInto s s' i ∧ i < maxNProcess := by
  obtain ⟨i, hi, -, rfl⟩ := procAlloc_eq_ok ha
  obtain ⟨j, hj0, hj, hju⟩ := hfree
  have e : userSlots = List.range' 1 (maxNProcess - 1) ++ [maxNProcess] := rfl
  rw [e, List.find?_append] at hi
  cases hf : (List.range' 1 (maxNProcess - 1)).find? fun i => (s.procSet i).status == .unused with
  | none =>
    have := List.find?_eq_none.1 hf j (List.mem_range'_1.2 ⟨hj0, by omega⟩)
    simp [hju] at this
  | some k =>
    rw [hf, Option.or_some, Option.some.injEq] at hi
    subst hi
    have hk := List.mem_range'_1.1 (List.mem_of_find?_eq_some hf)
    exact ⟨k, ⟨⟨hk.1, by omega⟩, by simpa using List.find?_some hf, by simp, fun j hj => by simp [hj],
      rfl, rfl⟩, by omega⟩

/-- In a polite run with an unused slot below `MAX_NPROCESS`, `proc_free` of the pid `proc_alloc`
has just returned undoes the allocation: every slot has its status back, and the log gains the
allocation, a report of zeros and the `mmu_free`. -/
theorem alloc_then_free_restores_statuses {cfg : Config} {s s₁ : Kernel} {pid : Int}
    (hall : cfg.gpidAll ≤ 0) (h : PoliteReach cfg s) (hc : s.currPid.toNat + 1 < 2 ^ 31)
    (hfree : ∃ j, 0 < j ∧ j < maxNProcess ∧ (s.procSet j).status = .unused)
    (ha : procAlloc s = .ok (pid, s₁)) :
    (∀ j, ((procFree cfg s₁ pid).procSet j).status = (s.procSet j).status) ∧
    (procFree cfg s₁ pid).log =
      s.log ++ [.allocated pid, .terminated pid ⟨0, 0, 0, 0, 0, 0⟩, .mmuFree pid] := by
  obtain ⟨i, ha', hi⟩ := procAlloc_slot_lt ha hfree
  have hpid : pid = (s.currPid + 1).toInt := (procAlloc_spec ha).1
  have hlt := ha'.pid_lt hc (h.inv hall).pid
  have hpos : 0 < pid := by rw [hpid, toInt_add_one_of_lt hc]; omega
  -- slot `i` is the only slot holding the new pid, before and after the report is stamped
  have hSi : (s₁.procSet i).pid = pid := by rw [ha'.slot, hpid]; rfl
  have huniq : ∀ j, (s₁.procSet j).pid = pid → j = i := fun j hj => by
    by_contra hji
    rw [ha'.other j hji, ← hSi] at hj
    exact (hlt j).ne hj
  have hT := (Kernel.ctl_eq (terminate_ctl s₁ i)).1
  have hfind : findSlot s₁.procSet (fun p => p.pid == pid && p.status != .unused) = some i :=
    findSlot_of_unique hi (by simp [ha'.slot, allocFields, hpid]) fun j _ hj =>
      huniq j (by simp only [Bool.and_eq_true, beq_iff_eq] at hj; exact hj.1)
  have hne : pid ≠ cfg.gpidAll := by omega
  refine ⟨fun j => ?_, ?_⟩
  · -- the statuses
    have hctl : (procSetStatus (terminate s₁ i) pid .unused).ctl =
        ((terminate s₁ i).withStatus i .unused).ctl :=
      procSetStatus_ctl hi (by rw [hT, hSi]) fun j _ hj => huniq j (by rwa [hT] at hj)
    rw [procFree, if_pos hne, hfind, (Kernel.ctl_eq hctl).2.1 j, Kernel.withStatus_status]
    split
    · subst_vars; exact ha'.unused.symm
    · rw [terminate_procSet_ne _ ‹_›, ha'.other j ‹_›]
  · -- the log
    rw [procFree_log_of_live hne hfind, ha'.slot, ← hpid]
    obtain ⟨k, -, -, rfl⟩ := procAlloc_eq_ok ha
    simp [mtimeGet, hpid]

/-- Pid 1 runs on core 0; pid 2 is allocated into slot 2 and freed at once. -/
theorem alloc_then_free_restores_statuses_of_pid_two :
    ∃ s s₁, PoliteReach sampleConfig s ∧ procAlloc s = .ok (2, s₁) ∧
      sampleConfig.gpidAll ≤ 0 ∧ s.currPid.toNat + 1 < 2 ^ 31 ∧
      (∃ j, 0 < j ∧ j < maxNProcess ∧ (s.procSet j).status = .unused) ∧
      ((∀ j, ((procFree sampleConfig s₁ 2).procSet j).status = (s.procSet j).status) ∧
        (procFree sampleConfig s₁ 2).log =
          s.log ++ [.allocated 2, .terminated 2 ⟨0, 0, 0, 0, 0, 0⟩, .mmuFree 2]) := by
  obtain ⟨s, hs, hp⟩ := politeReach_of_run sampleConfig (l := [.alloc, .setReady 1, timerOn 0])
    (p := fun s => decide (s.currPid.toNat + 1 < 2 ^ 31) && (s.procSet 2).status == .unused &&
      match procAlloc s with
      | .ok (pid, _) => pid == 2
      | .error _ => false) (by decide)
  revert hp
  cases ha : procAlloc s with
  | error => simp
  | ok r =>
    obtain ⟨pid, s₁⟩ := r
    simp only [Bool.and_eq_true, decide_eq_true_eq, beq_iff_eq]
    rintro ⟨⟨hc, hu⟩, rfl⟩
    exact ⟨s, s₁, hs, ha, by decide, hc, ⟨2, by decide, by decide, hu⟩,
      alloc_then_free_restores_statuses (by decide) hs hc ⟨2, by decide, by decide, hu⟩ ha⟩

end EgosGrass

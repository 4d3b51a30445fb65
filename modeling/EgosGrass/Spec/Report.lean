import EgosGrass.Spec.Accounting

/-!
# The termination report of `proc_free`

`proc_free` prints, for every process it frees, its turnaround, response, CPU and waiting times
in milliseconds (`terminationReport`). Each is an unsigned 64-bit count of microseconds, divided by
1000 and cast to `int`. The response time is clamped to half the turnaround when it exceeds the
turnaround or ten seconds, and the waiting time is what is left of the turnaround after the
response and CPU times, or 0.

`terminationReport_bounds`: for a slot whose statistics are consistent (`Process.Clocked`, as in
every state of a polite run), the response is never negative. It is at most the turnaround when
the turnaround fits in an `int`. Response, CPU and waiting times then add up to at most the
turnaround, provided the process was first dispatched within ten seconds of its creation. Both
conditions are needed (`report_exceeds_turnaround`). A process that lives `2^31` milliseconds or
more has its turnaround cast to a negative `int` and printed as 0. The clamp replaces a long
response time by half the turnaround, even when the process has been charged more than the other
half. Outside polite runs the charge itself can exceed the time the process ran: with `proc_sleep`
a process is charged twice for one interval (`sleep_report_exceeds_turnaround`).

`free_report_bounds` applies this to every report `proc_free` logs (`procFree_reports`), in a
polite run and on the path `excp_entry` takes for a faulting process.
-/

namespace EgosGrass

/-! ## The arithmetic of one report -/

/-- The `(int)` cast of a value below `2^31` is the value itself. -/
theorem toCInt_of_lt {x : BitVec 64} (h : x.toNat < 2 ^ 31) : toCInt x = x.toNat := by
  rw [toCInt, BitVec.toInt_eq_toNat_cond, BitVec.toNat_setWidth, Nat.mod_eq_of_lt (by omega),
    if_pos (by omega)]

/-- A field of the report: microseconds to milliseconds, cast to `int` and clamped at 0. Below
`2^31` milliseconds it is the number of whole milliseconds. -/
theorem reportMs_of_lt {x : BitVec 64} (h : x.toNat / 1000 < 2 ^ 31) :
    max 0 (toCInt (x / 1000)) = (x.toNat / 1000 : Nat) := by
  have e : (x / 1000).toNat = x.toNat / 1000 := by rw [BitVec.toNat_udiv]; rfl
  rw [toCInt_of_lt (by omega), e]
  exact max_eq_right (by omega)

/-- The response time before the clamp: from the creation to the first dispatch, or 0. -/
theorem rawResponse_toNat (c f : BitVec 64) :
    (if f > c then f - c else 0).toNat = f.toNat - c.toNat := by
  split
  · exact toNat_sub_of_le (BitVec.lt_def.1 ‹_›).le
  · have := BitVec.le_def.1 (BitVec.not_lt.1 ‹_›)
    have : (0 : BitVec 64).toNat = 0 := rfl
    omega

/-- The clamp of the response time to half the turnaround. -/
theorem clamp_toNat (r t : BitVec 64) :
    (if r > t ∨ r > 10000000 then t / 2 else r).toNat =
      if t.toNat < r.toNat ∨ 10000000 < r.toNat then t.toNat / 2 else r.toNat := by
  have h : (10000000 : BitVec 64).toNat = 10000000 := rfl
  simp only [gt_iff_lt, BitVec.lt_def, h]
  split
  · rw [BitVec.toNat_udiv]; rfl
  · rfl

/-- The waiting time: what is left of the turnaround after response and CPU time, or 0. -/
theorem waiting_toNat (t r c : BitVec 64) (h : r.toNat + c.toNat < 2 ^ 64) :
    (if t > r + c then t - r - c else 0).toNat = t.toNat - r.toNat - c.toNat := by
  have hadd : (r + c).toNat = r.toNat + c.toNat := by
    rw [BitVec.toNat_add]; exact Nat.mod_eq_of_lt h
  split
  · have hlt := BitVec.lt_def.1 ‹_›
    have h1 : (t - r).toNat = t.toNat - r.toNat := toNat_sub_of_le (by omega)
    rw [toNat_sub_of_le (by rw [h1]; omega), h1]
  · have := BitVec.le_def.1 (BitVec.not_lt.1 ‹_›)
    have : (0 : BitVec 64).toNat = 0 := rfl
    omega

/-- The report of a process with consistent statistics. Its response time is never negative; if
it lived less than `2^31` milliseconds, the response time is at most the turnaround; and if it
was moreover first dispatched within ten seconds of its creation, or never, response, CPU and
waiting times add up to at most the turnaround. -/
theorem terminationReport_bounds {p : Process} {now : BitVec 64} {ran lo : Nat}
    (h : p.Clocked now ran lo) :
    0 ≤ (terminationReport p now).responseMs ∧
    (now.toNat - p.creationTime.toNat < 2 ^ 31 * 1000 →
      (terminationReport p now).responseMs ≤ (terminationReport p now).turnaroundMs ∧
      (p.firstScheduleTime.toNat ≤ p.creationTime.toNat + 10000000 →
        (terminationReport p now).responseMs + (terminationReport p now).cpuMs +
          (terminationReport p now).waitMs ≤ (terminationReport p now).turnaroundMs)) := by
  have hc := h.created; have hf := h.first; have ht := h.charged; have hu := h.unscheduled
  unfold terminationReport
  dsimp only
  generalize hT : now - p.creationTime = T
  have hTn : T.toNat = now.toNat - p.creationTime.toNat := hT ▸ toNat_sub_of_le hc
  generalize hR₀ : (if p.firstScheduleTime > p.creationTime then p.firstScheduleTime - p.creationTime
    else 0) = R₀
  have hR₀n := hR₀ ▸ rawResponse_toNat p.creationTime p.firstScheduleTime
  generalize hR : (if R₀ > T ∨ R₀ > 10000000 then T / 2 else R₀) = R
  have hRn := hR ▸ clamp_toNat R₀ T
  have hRT : R.toNat ≤ T.toNat := by rw [hRn]; split <;> omega
  generalize hW : (if T > R + p.totalCpuTime then T - R - p.totalCpuTime else 0) = W
  refine ⟨le_max_left _ _, fun hlife => ?_⟩
  rw [reportMs_of_lt (x := T) (by omega), reportMs_of_lt (x := R) (by omega)]
  refine ⟨by omega, fun hfirst => ?_⟩
  -- without the clamp, response and CPU time fit in the turnaround
  have hsum : R.toNat + p.totalCpuTime.toNat ≤ T.toNat := by
    rw [hRn, if_neg (by omega)]
    by_cases h0 : p.firstScheduleTime.toNat = 0
    · have := hu h0; omega
    · have := hf h0; omega
  -- so the waiting time is the rest of the turnaround
  have hWn := hW ▸ waiting_toNat T R p.totalCpuTime (by omega)
  rw [reportMs_of_lt (x := p.totalCpuTime) (by omega), reportMs_of_lt (x := W) (by omega)]
  omega

/-! ## The reports `proc_free` logs -/

section Free

variable {cfg : Config}

/-- The loop of `proc_free(GPID_ALL)` over slots it has not visited yet, which still hold what
they held in `s₀`: each report it logs is that of one of those slots, at the time of `s₀`. -/
theorem freeAll_reports (s₀ : Kernel) (L : List Nat) (hL : L.Nodup) (s : Kernel)
    (hs : ∀ i ∈ L, s.procSet i = s₀.procSet i) (hm : s.mtime = s₀.mtime) :
    ∃ l, (L.foldl (fun s i =>
        if (s.procSet i).pid ≥ cfg.gpidUserStart ∧ (s.procSet i).status ≠ .unused then
          (terminate s i).modifyProc i fun p => { p with status := .unused }
        else s) s).log = s.log ++ l ∧
      ∀ q r, Event.terminated q r ∈ l → ∃ i, (s₀.procSet i).status ≠ .unused ∧
        (s₀.procSet i).pid = q ∧
        r = terminationReport { s₀.procSet i with terminationTime := s₀.mtime } s₀.mtime := by
  induction L generalizing s with
  | nil => exact ⟨[], by simp, by simp⟩
  | cons i L ih =>
    obtain ⟨hi, hL⟩ := List.nodup_cons.1 hL
    rw [List.foldl_cons]
    have hsi := hs i (.head _)
    split
    · rename_i hlive
      obtain ⟨l, hl, hr⟩ := ih hL ((terminate s i).modifyProc i fun p => { p with status := .unused })
        (fun j hj => by
          have hji : j ≠ i := fun e => hi (e ▸ hj)
          rw [Kernel.modifyProc_procSet, if_neg hji, terminate_procSet_ne _ hji, hs j (.tail _ hj)])
        (by simpa [terminate] using hm)
      refine ⟨_ :: _ :: l, by rw [hl]; simp [terminate]; exact ⟨rfl, rfl⟩, fun q r hm' => ?_⟩
      simp only [List.mem_cons, Event.terminated.injEq, reduceCtorEq, false_or] at hm'
      rcases hm' with ⟨rfl, rfl⟩ | hm'
      · exact ⟨i, hsi ▸ hlive.2, by rw [hsi], by simp [mtimeGet, hsi, hm]⟩
      · exact hr q r hm'
    · obtain ⟨l, hl, hr⟩ := ih hL s (fun j hj => hs j (.tail _ hj)) hm
      exact ⟨l, hl, hr⟩

/-- Every report `proc_free` logs is that of a slot live in the state it is called in, at that
state's time. -/
theorem procFree_reports (s : Kernel) (pid : Int) :
    ∃ l, (procFree cfg s pid).log = s.log ++ l ∧
      ∀ q r, Event.terminated q r ∈ l → ∃ i, (s.procSet i).status ≠ .unused ∧
        (s.procSet i).pid = q ∧
        r = terminationReport { s.procSet i with terminationTime := s.mtime } s.mtime := by
  unfold procFree
  split
  · split
    · rename_i i hi
      have hlive := (findSlot_eq_some hi).2
      simp only [Bool.and_eq_true, bne_iff_ne, ne_eq] at hlive
      refine ⟨_, by simp [procSetStatus, terminate]; rfl, fun q r hm => ?_⟩
      simp only [List.mem_cons, Event.terminated.injEq, reduceCtorEq, List.not_mem_nil,
        false_or, or_false] at hm
      obtain ⟨rfl, rfl⟩ := hm
      exact ⟨i, hlive.2, rfl, rfl⟩
    · exact ⟨[], by simp, by simp⟩
  · exact freeAll_reports s lowSlots (List.nodup_range _) s (fun _ _ => rfl) rfl

/-- The report does not read `termination_time`: `proc_free` stamps it before printing, and
prints the times computed from `now`. -/
@[simp] theorem terminationReport_terminationTime (p : Process) (t now : BitVec 64) :
    terminationReport { p with terminationTime := t } now = terminationReport p now := rfl

/-- `proc_free(pid)` of a pid that a live slot holds logs the report of the first such slot and
the call to `mmu_free`. -/
theorem procFree_log_of_live {s : Kernel} {pid : Int} {i : Nat} (hp : pid ≠ cfg.gpidAll)
    (hi : findSlot s.procSet (fun p => p.pid == pid && p.status != .unused) = some i) :
    (procFree cfg s pid).log =
      s.log ++ [.terminated pid (terminationReport (s.procSet i) s.mtime), .mmuFree pid] := by
  have hpid := (findSlot_eq_some hi).2
  simp only [Bool.and_eq_true, beq_iff_eq] at hpid
  obtain ⟨rfl, -⟩ := hpid
  simp [procFree, hp, hi, procSetStatus, terminate, mtimeGet]

/-- The reports of `proc_free`, called in a state `y` of a polite run by the process server, or
by `excp_entry` after saving the context of a faulting process: each is the report of a slot live
in `y`, its response time is never negative, and if the process lived less than `2^31`
milliseconds the response time is at most the turnaround; if it was moreover first dispatched
within ten seconds of its creation, or never, response, CPU and waiting times add up to at most
the turnaround. -/
theorem free_report_bounds {s : Kernel} (hall : cfg.gpidAll ≤ 0) (h : PoliteReach cfg s) {y : Kernel}
    (hy : y = s ∨ ∃ t e, y = (saveContext s t).emit e) (pid : Int) {l : List Event}
    (hl : (procFree cfg y pid).log = y.log ++ l) {q : Int} {r : Report}
    (hr : Event.terminated q r ∈ l) :
    ∃ i, (y.procSet i).status ≠ .unused ∧ (y.procSet i).pid = q ∧ 0 ≤ r.responseMs ∧
      (y.mtime.toNat - (y.procSet i).creationTime.toNat < 2 ^ 31 * 1000 →
        r.responseMs ≤ r.turnaroundMs ∧
        ((y.procSet i).firstScheduleTime.toNat ≤ (y.procSet i).creationTime.toNat + 10000000 →
          r.responseMs + r.cpuMs + r.waitMs ≤ r.turnaroundMs)) := by
  obtain ⟨l', hl', hrep⟩ := (procFree_reports y pid : ∃ l, (procFree cfg y pid).log = _ ∧ _)
  obtain ⟨i, hlive, hq, rfl⟩ := hrep q r (List.append_cancel_left (hl.symm.trans hl') ▸ hr)
  obtain ⟨d, hd⟩ := h.metered
  have hk : ∃ ran, (y.procSet i).Clocked y.mtime ran 0 := by
    rcases hy with rfl | ⟨t, e, rfl⟩
    · exact ⟨_, (hd.clocked hall i).1⟩
    · have hc := (saveContext_clockKept s t).emit e
      exact ⟨_, hc.mtime ▸ hc.clocked i _ _ (hd.clocked hall i).1⟩
  obtain ⟨ran, hk⟩ := hk
  exact ⟨i, hlive, hq, terminationReport_bounds (p := { y.procSet i with terminationTime := y.mtime })
    { hk with }⟩

/-- Pid 1 lives 5 s, of which it runs 3 s after a first dispatch at 1 ms: the report it gets when
freed in a polite run is within the bounds. -/
theorem free_report_bounds_after_run :
    ∃ s r, PoliteReach sampleConfig s ∧
      (procFree sampleConfig s 1).log = s.log ++ [.terminated 1 r, .mmuFree 1] ∧
      ∃ i, (s.procSet i).status ≠ .unused ∧ (s.procSet i).pid = 1 ∧ 0 ≤ r.responseMs ∧
        (s.mtime.toNat - (s.procSet i).creationTime.toNat < 2 ^ 31 * 1000 →
          r.responseMs ≤ r.turnaroundMs ∧
          ((s.procSet i).firstScheduleTime.toNat ≤ (s.procSet i).creationTime.toNat + 10000000 →
            r.responseMs + r.cpuMs + r.waitMs ≤ r.turnaroundMs)) := by
  obtain ⟨s, hs, hp⟩ := politeReach_of_run sampleConfig
    (l := [.alloc, .setReady 1, .tick 1000, timerOn 0, .tick 3001000, timerOn 0, recvOn 0 5,
      .tick 5000000])
    (p := fun s => findSlot s.procSet (fun p => p.pid == 1 && p.status != .unused) == some 1 &&
      terminationReport (s.procSet 1) s.mtime == ⟨5000, 1, 3000, 1999, 1, 1⟩) (by decide)
  simp only [Bool.and_eq_true, beq_iff_eq] at hp
  have hl : (procFree sampleConfig s 1).log = _ := procFree_log_of_live (by decide) hp.1
  rw [hp.2] at hl
  exact ⟨s, _, hs, hl, free_report_bounds (by decide) hs (.inl rfl) 1 hl (List.mem_cons_self _ _)⟩

/-- Both conditions of `free_report_bounds` are needed, in polite runs. Pid 1, created at time 0
and first dispatched after 20 s, runs 980 s of its 1000 s: the clamp prints a response of half
the turnaround, and response, CPU and waiting times add up to 1480 s. Pid 1, freed `2^31` s after
its creation, has its turnaround cast to a negative `int` and printed as 0, below its response
of 1 ms. -/
theorem report_exceeds_turnaround :
    (∃ s r, PoliteReach sampleConfig s ∧ Polite sampleConfig s (.free 1) ∧
      (procFree sampleConfig s 1).log = s.log ++ [.terminated 1 r, .mmuFree 1] ∧
      r.turnaroundMs < r.responseMs + r.cpuMs + r.waitMs) ∧
    (∃ s r, PoliteReach sampleConfig s ∧ Polite sampleConfig s (.free 1) ∧
      (procFree sampleConfig s 1).log = s.log ++ [.terminated 1 r, .mmuFree 1] ∧
      r.turnaroundMs < r.responseMs) := by
  constructor
  · obtain ⟨s, hs, hp⟩ := politeReach_of_run sampleConfig
      (l := [.alloc, .setReady 1, .tick 20000001, timerOn 0, .tick 1000000000, timerOn 0,
        recvOn 0 5])
      (p := fun s => decide (Polite sampleConfig s (.free 1)) &&
        findSlot s.procSet (fun p => p.pid == 1 && p.status != .unused) == some 1 &&
        terminationReport (s.procSet 1) s.mtime == ⟨1000000, 500000, 979999, 0, 1, 0⟩) (by decide)
    simp only [Bool.and_eq_true, decide_eq_true_eq, beq_iff_eq] at hp
    obtain ⟨⟨hpol, hi⟩, hr⟩ := hp
    refine ⟨s, _, hs, hpol, procFree_log_of_live (by decide) hi, ?_⟩
    rw [hr]; decide
  · obtain ⟨s, hs, hp⟩ := politeReach_of_run sampleConfig
      (l := [.alloc, .setReady 1, .tick 1000, timerOn 0, recvOn 0 5, .tick 2147483648000])
      (p := fun s => decide (Polite sampleConfig s (.free 1)) &&
        findSlot s.procSet (fun p => p.pid == 1 && p.status != .unused) == some 1 &&
        terminationReport (s.procSet 1) s.mtime == ⟨0, 1, 0, 2147483647, 0, 0⟩) (by decide)
    simp only [Bool.and_eq_true, decide_eq_true_eq, beq_iff_eq] at hp
    obtain ⟨⟨hpol, hi⟩, hr⟩ := hp
    refine ⟨s, _, hs, hpol, procFree_log_of_live (by decide) hi, ?_⟩
    rw [hr]; decide

/-- `proc_sleep` breaks the bound on the sum even for a process first dispatched within ten seconds:
in the run where a stale `DONE` record gets pid 3 charged twice, `proc_free(3)` at time 10 ms
reports a turnaround of 10 ms, a response of 1 ms and 18 ms of CPU. -/
theorem sleep_report_exceeds_turnaround :
    ∃ s r, Reachable sampleConfig s ∧
      (procFree sampleConfig s 3).log = s.log ++ [.terminated 3 r, .mmuFree 3] ∧
      (s.procSet 3).firstScheduleTime.toNat ≤ (s.procSet 3).creationTime.toNat + 10000000 ∧
      r.turnaroundMs < r.responseMs + r.cpuMs + r.waitMs := by
  obtain ⟨s, hs, hp⟩ := reach_of_run sampleConfig
    (l := [.alloc, .alloc, .alloc, .setReady 2, .setReady 3, .tick 1000, timerOn 0, timerOn 1,
      recvOn 0 (-1), sendOn 1 2 [7], timerOn 0, .setReady 1, .sleep 2 100000, .tick 10000,
      timerOn 1, timerOn 0])
    (p := fun s => findSlot s.procSet (fun p => p.pid == 3 && p.status != .unused) == some 3 &&
      decide ((s.procSet 3).firstScheduleTime.toNat ≤ (s.procSet 3).creationTime.toNat + 10000000) &&
      terminationReport (s.procSet 3) s.mtime == ⟨10, 1, 18, 0, 1, 0⟩) (by decide)
  simp only [Bool.and_eq_true, decide_eq_true_eq, beq_iff_eq] at hp
  obtain ⟨⟨hi, hf⟩, hr⟩ := hp
  refine ⟨s, _, hs, procFree_log_of_live (by decide) hi, hf, ?_⟩
  rw [hr]; decide

end Free

end EgosGrass

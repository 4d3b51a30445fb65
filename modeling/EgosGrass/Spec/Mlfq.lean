import EgosGrass.Spec.InvariantEntry

/-!
# The MLFQ levels over runs

`Levels` says what one write does to the MLFQ fields of a slot; this module follows whole steps.
A kernel entry, from any state, moves the MLFQ fields of every slot by writes and keeps the status
of every slot from `MAX_NPROCESS` on unless it is blocked (`kernelEntry_tableMoved`). The
environment's calls do the same, except `proc_alloc`, which resets the slot it hands out. Over
every run, then:

* `Reachable.levelOk`: every slot's level is in `0 .. MLFQ_LEVELS - 1`, and above the bottom level
  its queue time is below the level's quantum;
* `Reachable.top`: slot `MAX_NPROCESS` is unused or loading;
* `queue_levels_bounded`: the bounds, and across any step every slot's level moves by resets to 0
  and by charges at the step's clock, each of which keeps the level or moves it down one once the
  quantum is used up.
-/

namespace EgosGrass

/-! ## One kernel entry -/

section Entry

variable {cfg : Config} {s s' y : Kernel} {tty : Bool}

/-- Stamping the chosen slot is a level write. -/
theorem stampNext_tableMoved (s : Kernel) (k : Nat) : TableMoved s (stampNext cfg s k) := by
  unfold stampNext
  exact (TableMoved.modifyProc (.single (.stamp _)) fun _ _ => rfl).emit _

/-- Priming a `PROC_READY` slot touches no level. -/
theorem primeIfReady_tableMoved (s : Kernel) (k : Nat) : TableMoved s (primeIfReady cfg s k) := by
  unfold primeIfReady
  split
  · exact .modifyOther fun _ => ⟨rfl, rfl⟩
  · exact .refl s

/-- Dispatching a slot moves levels only by level writes. -/
theorem dispatch_tableMoved (s : Kernel) (k : Nat) : TableMoved s (dispatch cfg s k) := by
  unfold dispatch switchTo
  exact (((((stampNext_tableMoved s k).setCoreIdx _ _).emit _).emit _).trans
    (primeIfReady_tableMoved _ k)).trans (procSetRunning_tableMoved _ _) |>.emit _

/-- Sending the core idle moves nothing. -/
theorem goIdle_tableMoved (s : Kernel) : TableMoved s (goIdle s) :=
  (((TableMoved.refl s).setCoreIdx _ _).emit _).emit _

/-- The prologue of `proc_yield` moves levels only by level writes. -/
theorem yieldPrologue_tableMoved (s : Kernel) : TableMoved s (yieldPrologue cfg s tty) := by
  unfold yieldPrologue
  refine TableMoved.trans ?_ (mlfqResetLevel_tableMoved _ _)
  split
  · exact procLeaveRunning_tableMoved _ s _
  · exact .refl s

/-- `proc_yield` moves levels only by level writes at the standing clock. -/
theorem procYield_tableMoved (hy : procYield cfg s tty = .ok s') : TableMoved s s' := by
  obtain ⟨⟨s₂, k⟩, h₁, h₂⟩ := bind_eq_ok.1 hy
  refine (yieldPrologue_tableMoved s).trans ((pickNext_step h₁).1.moved.trans ?_)
  dsimp only at h₂
  split at h₂ <;> cases h₂
  · exact dispatch_tableMoved s₂ k
  · exact goIdle_tableMoved s₂

/-- Blocking the caller charges it, a level write. -/
theorem blockCaller_tableMoved (s : Kernel) (rec : Syscall) :
    TableMoved s (blockCaller s rec) := by
  unfold blockCaller
  dsimp only
  refine TableMoved.trans ?_ (.modifyOther fun _ => ⟨rfl, rfl⟩)
  refine TableMoved.trans ?_ (procLeaveRunning_tableMoved _ _ _)
  exact .modifyOther fun _ => ⟨rfl, rfl⟩

/-- A retry that does not halt moves levels only by level writes. -/
theorem procTrySyscall_tableMoved {i : Nat} (h : procTrySyscall cfg s i = .ok s') :
    TableMoved s s' := by
  unfold procTrySyscall at h
  split at h
  · cases h
    unfold procTryRecv
    dsimp only
    split
    · exact .refl s
    · exact (((TableMoved.refl s).emit _).trans (procLeaveRunning_tableMoved _ _ _)).trans
        (procLeaveRunning_tableMoved _ _ _)
  · dsimp only [procTrySend] at h
    split at h
    · split at h <;> cases h
      · exact .modifyOther fun _ => ⟨rfl, rfl⟩
      · exact .refl s
    · cases h
  · cases h

/-- The handler's part before `proc_yield`: the timer interrupt charges the current slot. -/
theorem yieldArg_tableMoved {t : Trap} (hy : yieldArg cfg s t = .ok y) : TableMoved s y := by
  unfold yieldArg at hy
  split at hy
  · split at hy
    · cases hy
    · cases hy
      split
      · exact .modifyProc (timerCharge_mlfq _ _) fun _ _ => (timerCharge_sameCtl _ _).2.1
      · exact .refl s
  · split at hy
    · exact (blockCaller_tableMoved s _).trans (procTrySyscall_tableMoved hy)
    · dsimp only at hy
      split at hy
      · cases hy
        exact ((TableMoved.refl s).emit _).trans (procFree_tableMoved _ _)
      · cases hy

/-- Saving the trapped context touches no level. -/
theorem saveContext_tableMoved (s : Kernel) (t : Trap) : TableMoved s (saveContext s t) := by
  have h₁ : TableMoved s { s with coreInKernel := t.hart } := .of_procSet rfl rfl
  unfold saveContext
  refine h₁.trans (.modifyOther ?_)
  exact fun _ => ⟨rfl, rfl⟩

/-- A kernel entry, from any state, moves the table by writes. -/
theorem kernelEntry_tableMoved {t : Trap} (he : kernelEntry cfg s t = .ok s') : TableMoved s s' := by
  obtain ⟨s₁, h₁, rfl⟩ := kernelEntry_ok he
  rw [trapHandler_eq_bind] at h₁
  obtain ⟨y, hy, hy'⟩ := bind_eq_ok.1 h₁
  exact (((saveContext_tableMoved s t).trans (yieldArg_tableMoved hy)).trans
    (procYield_tableMoved hy')).emit _

end Entry

/-! ## Steps and runs -/

section Run

variable {cfg : Config} {s s' : Kernel}

/-- Every step but `proc_alloc` and a tick of the clock moves the table by writes at its clock. -/
theorem step_tableMoved {l : Step} (hl : l ≠ .alloc) (ht : ∀ now, l ≠ .tick now)
    (h : step cfg s l = .ok s') : TableMoved s s' := by
  cases l with
  | alloc => exact absurd rfl hl
  | setReady pid => cases h; exact procSetReady_tableMoved s pid
  | free pid => cases h; exact procFree_tableMoved s pid
  | sleep pid usec => cases h; exact procSleep_tableMoved s pid usec
  | trap t =>
    simp only [step] at h
    split at h
    · exact kernelEntry_tableMoved h
    · cases h; exact .refl s
  | tick now => exact absurd rfl (ht now)

/-- A tick of the clock leaves the process table alone. -/
theorem step_tick {now : BitVec 64} (h : step cfg s (.tick now) = .ok s') :
    s'.procSet = s.procSet := by
  cases h
  split <;> rfl

/-- `proc_alloc` marks the slot it hands out `PROC_LOADING` and no other slot changes status. -/
theorem procAlloc_status {pid : Int} (h : procAlloc s = .ok (pid, s')) (j : Nat) :
    (s'.procSet j).status = (s.procSet j).status ∨ (s'.procSet j).status = .loading := by
  obtain ⟨i, -, -, rfl⟩ := procAlloc_eq_ok h
  simp only [Kernel.emit_procSet, Kernel.modifyProc_procSet]
  split
  · exact .inr rfl
  · exact .inl rfl

/-- An allocation step is `proc_alloc`. -/
theorem step_alloc {l : Step} (hl : l = .alloc) (h : step cfg s l = .ok s') :
    ∃ pid, procAlloc s = .ok (pid, s') := by
  subst hl
  cases hp : procAlloc s with
  | error => simp [step, hp, Except.map] at h
  | ok r => simp only [step, hp, Except.map, Except.ok.injEq] at h; exact ⟨r.1, h ▸ rfl⟩

/-- Every step moves the MLFQ fields of every slot by writes at the clock it starts from. -/
theorem step_levelsMoved {l : Step} (h : step cfg s l = .ok s') : LevelsMoved s.mtime s s' := by
  cases l with
  | alloc =>
    obtain ⟨_, hp⟩ := step_alloc rfl h
    exact procAlloc_levelsMoved hp
  | tick => exact fun _ => step_tick h ▸ .refl
  | _ => exact (step_tableMoved (by simp) (by simp) h).levels

/-- In every reachable state every slot's MLFQ fields are within bounds. -/
theorem Reachable.levelOk (h : Reachable cfg s) (j : Nat) : LevelOk (s.procSet j).mlfq := by
  induction h with
  | init => exact .of_zero rfl rfl
  | step _ hs ih => exact ih.moved (step_levelsMoved hs j)

/-- Slot `MAX_NPROCESS` never gets past `PROC_LOADING`: no pid lookup reaches it, and a retry of
`proc_yield` acts only on a blocked slot. -/
theorem Reachable.top (h : Reachable cfg s) :
    (s.procSet maxNProcess).status = .unused ∨ (s.procSet maxNProcess).status = .loading := by
  induction h with
  | init => exact .inl rfl
  | @step s s' l _ hs ih =>
    by_cases hl : l = .alloc
    · obtain ⟨_, hp⟩ := step_alloc hl hs
      rcases procAlloc_status hp maxNProcess with e | e
      · rw [e]; exact ih
      · exact .inr e
    · by_cases ht : ∃ now, l = .tick now
      · obtain ⟨now, rfl⟩ := ht
        rw [step_tick hs]
        exact ih
      have hp : (s.procSet maxNProcess).status ≠ .pendingSyscall := by
        rcases ih with e | e <;> rw [e] <;> decide
      rw [(step_tableMoved hl (fun now e => ht ⟨now, e⟩) hs).top _ le_rfl hp]
      exact ih

/-- Over every run, the process `proc_alloc` puts in slot `MAX_NPROCESS` is never made ready and
never runs: the slot stays `PROC_UNUSED` or `PROC_LOADING`, since the pid lookups of `process.c`
and `proc_try_send` scan `0 .. MAX_NPROCESS - 1` only. -/
theorem last_slot_never_scheduled {cfg : Config} {s : Kernel} (h : Reachable cfg s) :
    (s.procSet maxNProcess).status = .unused ∨ (s.procSet maxNProcess).status = .loading :=
  h.top

/-- Sixteen allocations fill slot `MAX_NPROCESS`; the loader's `proc_set_ready(16)` and two timer
interrupts later it is still loading. -/
theorem last_slot_never_scheduled_after_sixteen_allocs :
    ∃ s, Reachable sampleConfig s ∧ (s.procSet maxNProcess).pid = 16 ∧
      ((s.procSet maxNProcess).status = .unused ∨ (s.procSet maxNProcess).status = .loading) := by
  obtain ⟨s, hs, hp⟩ := reach_of_run sampleConfig
    (l := List.replicate 16 .alloc ++ [.setReady 16, timerOn 0, timerOn 1])
    (p := fun s => (s.procSet maxNProcess).pid == 16) (by decide)
  exact ⟨s, hs, beq_iff_eq.1 hp, last_slot_never_scheduled hs⟩

end Run

end EgosGrass

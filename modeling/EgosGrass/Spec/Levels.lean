import EgosGrass.Spec.CpuTime
import Mathlib.Logic.Relation

/-!
# The MLFQ levels

`queue_level` and `queue_time` are written in three ways only (`LevelWrite now`, for a kernel step
at clock `now`): a reset to level 0 with no queue time, in `proc_alloc` and in both branches of
`mlfq_reset_level`; a charge, where `mlfq_update_level` is passed the runtime
`now - last_schedule_time` of the slot it charges; and the stamp `last_schedule_time = now` that
the next charge is measured from. A change of the table moves these fields of every slot by a
chain of such writes at the step's clock (`LevelsMoved`); this module proves it for the functions
of `process.c`, and `Mlfq` for a whole kernel entry.

One write lowers a level only by resetting it to 0; a charge keeps the level or moves it one
level down the queue, and only once `queue_time` and the charged runtime together reach the
level's quantum `MLFQ_LEVEL_RUNTIME(queue_level)` (`LevelWrite.level_cases`). So every write keeps
`LevelOk`: the level stays in `0 .. MLFQ_LEVELS - 1`, below the sentinel `min_level = MLFQ_LEVELS`
of `proc_yield`, and above the bottom level the queue time stays below the quantum.
-/

namespace EgosGrass

/-- The fields of a slot that the MLFQ writes read and write: `queue_level`, `queue_time`, and the
`last_schedule_time` that a charge measures its runtime from. -/
structure MlfqFields where
  queueLevel : Int
  queueTime : BitVec 64
  lastScheduleTime : BitVec 64

/-- The MLFQ fields of a slot. -/
def Process.mlfq (p : Process) : MlfqFields := ⟨p.queueLevel, p.queueTime, p.lastScheduleTime⟩

/-- One write of the MLFQ fields of a slot during a kernel step at clock `now`. -/
inductive LevelWrite (now : BitVec 64) : MlfqFields → MlfqFields → Prop
  /-- `queue_level = 0; queue_time = 0;` of the periodic reset and the shell boost of
  `mlfq_reset_level`. -/
  | reset (a : MlfqFields) : LevelWrite now a { a with queueLevel := 0, queueTime := 0 }
  /-- `proc_alloc`, which clears the slot. -/
  | alloc (a : MlfqFields) : LevelWrite now a ⟨0, 0, 0⟩
  /-- A charge of the slot holding `p`: `mlfq_update_level(p, now - p->last_schedule_time)`. -/
  | charge (p : Process) : LevelWrite now p.mlfq (charge now p).mlfq
  /-- `last_schedule_time = now`, in `proc_set_running`, `proc_yield` and `intr_entry`. -/
  | stamp (a : MlfqFields) : LevelWrite now a { a with lastScheduleTime := now }

/-- The bounds of the MLFQ fields: a level in `0 .. MLFQ_LEVELS - 1`, and above the bottom level
a queue time below the level's quantum. -/
def LevelOk (a : MlfqFields) : Prop :=
  0 ≤ a.queueLevel ∧ a.queueLevel ≤ mlfqLevels - 1 ∧
    (a.queueLevel < mlfqNLevels - 1 → (a.queueTime.toNat : Int) < mlfqLevelRuntime a.queueLevel)

/-! ## One write -/

/-- `BitVec.ofInt 64 (MLFQ_LEVEL_RUNTIME(l))` is the quantum itself on the levels above the
bottom one. -/
theorem mlfqLevelRuntime_toNat {l : Int} (h0 : 0 ≤ l) (h4 : l < mlfqNLevels - 1) :
    ((BitVec.ofInt 64 (mlfqLevelRuntime l)).toNat : Int) = mlfqLevelRuntime l := by
  simp only [mlfqNLevels] at h4
  simp only [mlfqLevelRuntime, BitVec.toNat_ofInt]
  rw [Int.emod_eq_of_lt (by omega) (by omega)]
  omega

/-- Level 0 with no queue time is within bounds. -/
theorem LevelOk.of_zero {a : MlfqFields} (hl : a.queueLevel = 0) (ht : a.queueTime = 0) :
    LevelOk a := by
  simp [LevelOk, hl, ht, mlfqLevels, mlfqNLevels, mlfqLevelRuntime]

/-- `mlfq_update_level` keeps the bounds, whatever the runtime. -/
theorem LevelOk.mlfqUpdateLevel {p : Process} (h : LevelOk p.mlfq) (runtime : BitVec 64) :
    LevelOk (mlfqUpdateLevel p runtime).mlfq := by
  obtain ⟨h0, h4, hq⟩ := h
  simp only [LevelOk, Process.mlfq] at h0 h4 hq ⊢
  unfold EgosGrass.mlfqUpdateLevel
  split
  · exact ⟨h0, h4, hq⟩
  rename_i hb
  have hq₀ := mlfqLevelRuntime_toNat (l := p.queueLevel) h0 (by omega)
  simp only [mlfqLevels, mlfqNLevels] at hb h4 hq ⊢
  split
  · simp [mlfqLevelRuntime]; omega
  · have := BitVec.lt_def.1 (BitVec.not_le.1 ‹_›)
    dsimp only
    omega

/-- Every write keeps the bounds. -/
theorem LevelOk.write {now : BitVec 64} {a b : MlfqFields} (h : LevelOk a)
    (hw : LevelWrite now a b) : LevelOk b := by
  cases hw with
  | reset | alloc => exact .of_zero rfl rfl
  | charge p =>
    exact LevelOk.mlfqUpdateLevel
      (p := { p with totalCpuTime := p.totalCpuTime + (now - p.lastScheduleTime) }) h _
  | stamp => exact h

/-- A chain of writes keeps the bounds. -/
theorem LevelOk.moved {now : BitVec 64} {a b : MlfqFields} (h : LevelOk a)
    (hw : Relation.ReflTransGen (LevelWrite now) a b) : LevelOk b := by
  induction hw with
  | refl => exact h
  | tail _ hw ih => exact ih.write hw

/-! ## The charges -/

section Slot

variable (now : BitVec 64) (p : Process)

/-- What `proc_set_runnable` and `proc_set_pending` do to a slot they take out of
`PROC_RUNNING`: at most one charge. -/
theorem chargeRunning_mlfq :
    Relation.ReflTransGen (LevelWrite now) p.mlfq (chargeRunning now p).mlfq := by
  unfold chargeRunning
  split
  · exact .single (.charge p)
  · exact .refl

/-- The timer interrupt charges the slot when `last_schedule_time > 0`, then stamps it. -/
theorem timerCharge_mlfq :
    Relation.ReflTransGen (LevelWrite now) p.mlfq (timerCharge now p).mlfq := by
  unfold timerCharge
  dsimp only
  split
  · exact .tail (.single (.charge { p with timerInterruptCount := p.timerInterruptCount + 1 }))
      (.stamp _)
  · exact .single (.stamp _)

end Slot

/-! ## The table -/

/-- The MLFQ fields of every slot move from `s` to `s'` by writes at clock `now`. -/
def LevelsMoved (now : BitVec 64) (s s' : Kernel) : Prop :=
  ∀ j, Relation.ReflTransGen (LevelWrite now) (s.procSet j).mlfq (s'.procSet j).mlfq

/-- Stretches of level writes at one clock compose. -/
theorem LevelsMoved.trans {now : BitVec 64} {s₁ s₂ s₃ : Kernel} (h₁ : LevelsMoved now s₁ s₂)
    (h₂ : LevelsMoved now s₂ s₃) : LevelsMoved now s₁ s₃ :=
  fun j => (h₁ j).trans (h₂ j)

/-- What the functions of `kernel.c` and `process.c` other than `proc_alloc` do to the table, from
any state: the clock stands still, the MLFQ fields of every slot move by writes at that clock, and
a slot from `MAX_NPROCESS` on, out of reach of the pid lookups, changes status only while it is
blocked. -/
structure TableMoved (s s' : Kernel) : Prop where
  clock : s'.mtime = s.mtime
  levels : LevelsMoved s.mtime s s'
  top : ∀ j, maxNProcess ≤ j → (s.procSet j).status ≠ .pendingSyscall →
    (s'.procSet j).status = (s.procSet j).status

section Table

variable {cfg : Config} {s s' s₁ s₂ s₃ : Kernel} {i : Nat}

/-- A write of one slot whose levels move by level writes. -/
theorem LevelsMoved.modifyProc {now : BitVec 64} {f : Process → Process}
    (hf : Relation.ReflTransGen (LevelWrite now) (s.procSet i).mlfq (f (s.procSet i)).mlfq) :
    LevelsMoved now s (s.modifyProc i f) := fun j => by
  rw [Kernel.modifyProc_procSet]
  split
  · subst_vars; exact hf
  · exact .refl

/-- No change moves nothing. -/
theorem TableMoved.refl (s : Kernel) : TableMoved s s := ⟨rfl, fun _ => .refl, fun _ _ _ => rfl⟩

/-- Stretches at a standing clock compose. -/
theorem TableMoved.trans (h₁ : TableMoved s₁ s₂) (h₂ : TableMoved s₂ s₃) : TableMoved s₁ s₃ :=
  ⟨h₂.clock.trans h₁.clock, h₁.levels.trans (h₁.clock ▸ h₂.levels), fun j hj hp => by
    rw [h₂.top j hj (by rwa [h₁.top j hj hp]), h₁.top j hj hp]⟩

/-- A write outside the process table and the clock. -/
theorem TableMoved.of_procSet (h : s'.procSet = s.procSet) (hm : s'.mtime = s.mtime) :
    TableMoved s s' :=
  ⟨hm, fun j => by rw [h], fun j _ _ => by rw [h]⟩

/-- Logging an event moves nothing. -/
theorem TableMoved.emit (h : TableMoved s s') (e : Event) : TableMoved s (s'.emit e) :=
  ⟨h.clock, h.levels, h.top⟩

/-- Pointing a core at a slot moves nothing. -/
theorem TableMoved.setCoreIdx (h : TableMoved s s') (c k : Nat) :
    TableMoved s (s'.setCoreIdx c k) :=
  ⟨h.clock, h.levels, h.top⟩

/-- A write of one slot whose levels move by level writes and which, from `MAX_NPROCESS` on, changes
status only while it is blocked. -/
theorem TableMoved.modifyProc {f : Process → Process}
    (hf : Relation.ReflTransGen (LevelWrite s.mtime) (s.procSet i).mlfq (f (s.procSet i)).mlfq)
    (ht : maxNProcess ≤ i → (s.procSet i).status ≠ .pendingSyscall →
      (f (s.procSet i)).status = (s.procSet i).status) :
    TableMoved s (s.modifyProc i f) := by
  refine ⟨rfl, .modifyProc hf, fun j hj hp => ?_⟩
  rw [Kernel.modifyProc_procSet]
  split
  · subst_vars; exact ht hj hp
  · rfl

/-- A write of other fields than the MLFQ fields and the status. -/
theorem TableMoved.modifyOther {f : Process → Process}
    (hf : ∀ p, (f p).mlfq = p.mlfq ∧ (f p).status = p.status) :
    TableMoved s (s.modifyProc i f) :=
  .modifyProc (by rw [(hf _).1]) fun _ _ => (hf _).2

/-- A pid-addressed operation: its lookup stops below `MAX_NPROCESS`. -/
theorem TableMoved.lookup (hm : s'.mtime = s.mtime) (hl : LevelsMoved s.mtime s s')
    (h : ∀ j, maxNProcess ≤ j → s'.procSet j = s.procSet j) : TableMoved s s' :=
  ⟨hm, hl, fun j hj _ => by rw [h j hj]⟩

/-- The charge of `proc_set_runnable` and `proc_set_pending` is a level write. -/
theorem procLeaveRunning_tableMoved (st : ProcStatus) (s : Kernel) (pid : Int) :
    TableMoved s (procLeaveRunning st s pid) := by
  refine .lookup ?_ ?_ fun j => procLeaveRunning_procSet_of_ge st s pid <;>
    unfold procLeaveRunning <;> split
  exacts [rfl, rfl, .modifyProc (chargeRunning_mlfq _ _), fun _ => .refl]

/-- `proc_set_running` stamps `last_schedule_time`, a level write. -/
theorem procSetRunning_tableMoved (s : Kernel) (pid : Int) :
    TableMoved s (procSetRunning s pid) := by
  refine .lookup ?_ ?_ fun j => procSetRunning_procSet_of_ge s pid <;>
    unfold procSetRunning <;> split
  exacts [rfl, rfl, .modifyProc (.single (.stamp _)), fun _ => .refl]

/-- `proc_set_ready` touches no level. -/
theorem procSetReady_tableMoved (s : Kernel) (pid : Int) : TableMoved s (procSetReady s pid) := by
  refine .lookup ?_ ?_ fun j => procSetReady_procSet_of_ge s pid <;>
    unfold procSetReady <;> split
  exacts [rfl, rfl, .modifyProc .refl, fun _ => .refl]

/-- `proc_sleep` touches no level. -/
theorem procSleep_tableMoved (s : Kernel) (pid : Int) (usec : BitVec 32) :
    TableMoved s (procSleep s pid usec) := by
  refine .lookup ?_ ?_ fun j => procSleep_procSet_of_ge s pid usec <;>
    unfold procSleep <;> split
  exacts [rfl, rfl, .modifyProc .refl, fun _ => .refl]

/-- Terminating a slot touches no level. -/
theorem terminate_tableMoved (s : Kernel) (i : Nat) : TableMoved s (terminate s i) :=
  ((TableMoved.modifyOther (i := i) (f := fun p => { p with terminationTime := mtimeGet s })
    fun _ => ⟨rfl, rfl⟩).emit _).emit _

/-- `proc_free` keeps the clock and writes no MLFQ field. -/
theorem procFree_levelsMoved (s : Kernel) (pid : Int) :
    (procFree cfg s pid).mtime = s.mtime ∧ LevelsMoved s.mtime s (procFree cfg s pid) := by
  refine procFree_rel (R := fun s s' => s'.mtime = s.mtime ∧ LevelsMoved s.mtime s s') cfg
    (fun _ => ⟨rfl, fun _ => .refl⟩) (fun h₁ h₂ => ⟨h₂.1.trans h₁.1, h₁.2.trans (h₁.1 ▸ h₂.2)⟩)
    (fun s i _ => ⟨rfl, (terminate_tableMoved s i).levels.trans fun j => ?_⟩)
    (fun s i => ⟨rfl, (terminate_tableMoved s i).levels.trans (.modifyProc .refl)⟩) s pid
  dsimp only [procSetStatus]
  split <;> exact .refl

/-- `proc_free` touches no level. -/
theorem procFree_tableMoved (s : Kernel) (pid : Int) : TableMoved s (procFree cfg s pid) :=
  .lookup (procFree_levelsMoved s pid).1 (procFree_levelsMoved s pid).2
    fun _ => procFree_procSet_of_ge cfg s pid

/-- `proc_alloc` clears the MLFQ fields of the slot it hands out. -/
theorem procAlloc_levelsMoved {pid : Int} (h : procAlloc s = .ok (pid, s')) :
    LevelsMoved s.mtime s s' := by
  obtain ⟨i, -, -, rfl⟩ := procAlloc_eq_ok h
  exact .modifyProc (.single (.alloc _))

/-- `mlfq_reset_level` resets levels, each a level write. -/
theorem mlfqResetLevel_tableMoved (s : Kernel) (tty : Bool) :
    TableMoved s (mlfqResetLevel cfg s tty) := by
  have h₁ : TableMoved s (shellBoost cfg s tty) := by
    unfold shellBoost
    split
    · exact .refl s
    · split
      · exact .modifyProc (.single (.reset _)) fun _ _ => rfl
      · exact .refl s
  refine h₁.trans ⟨?_, fun j => ?_, fun j _ _ => ?_⟩ <;> unfold mlfqResetLevel periodicReset <;>
    split
  · rfl
  · rfl
  · dsimp only
    split
    · exact .single (.reset _)
    · exact .refl
  · exact .refl
  · dsimp only
    split <;> rfl
  · rfl

end Table

end EgosGrass

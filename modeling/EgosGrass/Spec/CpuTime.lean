import EgosGrass.Spec.InvariantOps

/-!
# The CPU-time fields of a slot

`proc_alloc` stamps `creation_time` and clears the other statistics. The dispatch branch of
`proc_yield` and `proc_set_running` stamp `first_schedule_time` (at the first dispatch) and
`last_schedule_time`. Three sites charge `runtime = now - last_schedule_time` to
`total_cpu_time` and to `mlfq_update_level` (`charge`): the timer interrupt (`timerCharge`), and
`proc_set_runnable` and `proc_set_pending` when they take a running process off its core
(`chargeRunning`).

`Process.Clocked now ran lo p` collects what these writes keep of one slot at time `now`, for a
process that has spent `ran` microseconds in `PROC_RUNNING` and has been charged at least `lo`:

* `creation_time` and `last_schedule_time` are not in the future, and `first_schedule_time`,
  once set, is not before `creation_time`;
* nothing is charged before the first dispatch, and `total_cpu_time + first_schedule_time` is at
  most `now`, and at most `last_schedule_time` while the process runs;
* `total_cpu_time`, plus the running interval not charged yet, is at most `ran`;
* `queue_time` is at most `total_cpu_time`.

No single write of the kernel breaks these at a fixed `now`, and a tick of the clock keeps them
given `Process.Stamped`: a running process without a first dispatch time was dispatched at time 0
and has `last_schedule_time = 0`. The timer interrupt breaks `Stamped` for the process it
interrupts, until `proc_yield` takes that process out of `PROC_RUNNING`.

`ClockKept` lifts both to the table: every slot keeps them, and the clock does not move.
-/

namespace EgosGrass

/-- The CPU-time fields of `p` at time `now`, for a process that has spent `ran` microseconds in
`PROC_RUNNING` and whose `total_cpu_time` is at least `lo`. -/
structure Process.Clocked (now : BitVec 64) (ran lo : Nat) (p : Process) : Prop where
  created : p.creationTime.toNat ≤ now.toNat
  last : p.lastScheduleTime.toNat ≤ now.toNat
  first : p.firstScheduleTime.toNat ≠ 0 → p.creationTime.toNat ≤ p.firstScheduleTime.toNat
  /-- Nothing is charged before the first dispatch. -/
  unscheduled : p.firstScheduleTime.toNat = 0 → p.totalCpuTime.toNat = 0
  /-- A running process without a first dispatch time was dispatched at time 0, or its timer
  interrupt has just stamped `last_schedule_time`. -/
  fresh : p.status = .running → p.firstScheduleTime.toNat = 0 →
    p.lastScheduleTime.toNat = 0 ∨ p.lastScheduleTime.toNat = now.toNat
  charged : p.totalCpuTime.toNat + p.firstScheduleTime.toNat ≤ now.toNat
  charged_running : p.status = .running →
    p.totalCpuTime.toNat + p.firstScheduleTime.toNat ≤ p.lastScheduleTime.toNat
  spent : p.totalCpuTime.toNat ≤ ran
  /-- The interval since `last_schedule_time` is run but not charged yet. -/
  spent_running : p.status = .running →
    p.totalCpuTime.toNat + (now.toNat - p.lastScheduleTime.toNat) ≤ ran
  queue : p.queueTime.toNat ≤ p.totalCpuTime.toNat
  floor : lo ≤ p.totalCpuTime.toNat

/-- A running process without a first dispatch time has `last_schedule_time = 0`. -/
def Process.Stamped (p : Process) : Prop :=
  p.status = .running → p.firstScheduleTime.toNat = 0 → p.lastScheduleTime.toNat = 0

/-- An addition of a runtime `b - c` that does not wrap. -/
theorem toNat_add_sub {a b c : BitVec 64} (hc : c.toNat ≤ b.toNat)
    (h : a.toNat + (b.toNat - c.toNat) < 2 ^ 64) :
    (a + (b - c)).toNat = a.toNat + (b.toNat - c.toNat) := by
  bv_omega

/-- A 64-bit difference that does not wrap. -/
theorem toNat_sub_of_le {b c : BitVec 64} (hc : c.toNat ≤ b.toNat) :
    (b - c).toNat = b.toNat - c.toNat := by
  bv_omega

/-- `charge` adds `now - last_schedule_time` to `total_cpu_time`, and otherwise writes only the
level's fields, adding at most the same runtime to `queue_time`. -/
theorem charge_eq (now : BitVec 64) (p : Process) : ∃ level qt,
    charge now p = { p with
      totalCpuTime := p.totalCpuTime + (now - p.lastScheduleTime)
      queueLevel := level
      queueTime := qt } ∧
    qt.toNat ≤ p.queueTime.toNat + (now - p.lastScheduleTime).toNat := by
  unfold charge mlfqUpdateLevel
  dsimp only
  split
  · exact ⟨_, _, rfl, Nat.le_add_right _ _⟩
  · split
    · exact ⟨_, 0, rfl, by simp⟩
    · exact ⟨_, _, rfl, by rw [BitVec.toNat_add]; exact Nat.mod_le _ _⟩

section Slot

variable {now : BitVec 64} {sp lo : Nat} {p q : Process}

/-- The fields carry over to `q` when the clock fields agree, `queue_time` did not grow, and `q`
runs only if `p` did. -/
theorem Process.Clocked.mono (h : p.Clocked now sp lo) (hc : q.creationTime = p.creationTime)
    (hf : q.firstScheduleTime = p.firstScheduleTime) (ht : q.totalCpuTime = p.totalCpuTime)
    (hl : q.lastScheduleTime = p.lastScheduleTime) (hq : q.queueTime.toNat ≤ p.queueTime.toNat)
    (hs : q.status = .running → p.status = .running) : q.Clocked now sp lo := by
  obtain ⟨h1, h2, h3, h4, h5, h6, h7, h8, h9, h10, h11⟩ := h
  rw [← hc, ← hf, ← ht, ← hl] at *
  exact ⟨h1, h2, h3, h4, fun hr => h5 (hs hr), h6, fun hr => h7 (hs hr), h8, fun hr => h9 (hs hr),
    hq.trans h10, h11⟩

/-- `Stamped` reads only the schedule times and whether the process runs. -/
theorem Process.Stamped.mono (h : p.Stamped) (hf : q.firstScheduleTime = p.firstScheduleTime)
    (hl : q.lastScheduleTime = p.lastScheduleTime) (hs : q.status = .running → p.status = .running) :
    q.Stamped := fun hr h0 => hl ▸ h (hs hr) (hf ▸ h0)

/-- `proc_set_runnable` and `proc_set_pending`: the charge of a running process, then a status
other than `PROC_RUNNING`. -/
theorem Process.Clocked.leave {st : ProcStatus} (hst : st ≠ .running) (h : p.Clocked now sp lo) :
    { chargeRunning now p with status := st }.Clocked now sp lo := by
  unfold chargeRunning
  split
  · rename_i hr
    obtain ⟨level, qt, he, hq⟩ := charge_eq now p
    rw [he]
    have hpos : 0 < p.lastScheduleTime.toNat := BitVec.lt_def.1 hr.2
    have hrun := h.charged_running hr.1
    have hfresh := h.fresh hr.1
    have hl := h.last
    have hr' := toNat_sub_of_le hl
    have ht := toNat_add_sub (a := p.totalCpuTime) hl (by have := now.isLt; omega)
    refine ⟨h.created, h.last, h.first, fun h0 => ?_, fun h' => absurd h' hst, ?_,
      fun h' => absurd h' hst, ?_, fun h' => absurd h' hst, ?_, ?_⟩ <;>
      dsimp only <;> rw [ht]
    · have := h.unscheduled h0; have := hfresh h0; omega
    · omega
    · have := h.spent_running hr.1; omega
    · have := h.queue; rw [hr'] at hq; omega
    · have := h.floor; omega
  · exact h.mono rfl rfl rfl rfl le_rfl fun h' => absurd h' hst

/-- The timer interrupt of a running process: one more interrupt, a charge if
`last_schedule_time > 0`, and `last_schedule_time = now`. -/
theorem Process.Clocked.interrupt (hr : p.status = .running) (h : p.Clocked now sp lo) :
    (timerCharge now p).Clocked now sp lo := by
  unfold timerCharge
  dsimp only
  have hrun := h.charged_running hr
  have hsp := h.spent_running hr
  split
  · rename_i hpos
    obtain ⟨level, qt, he, hq⟩ := charge_eq now { p with timerInterruptCount := _ }
    rw [he]
    have hpos : 0 < p.lastScheduleTime.toNat := BitVec.lt_def.1 hpos
    have hfresh := h.fresh hr
    have hl := h.last
    have hr' := toNat_sub_of_le hl
    have ht := toNat_add_sub (a := p.totalCpuTime) hl (by have := now.isLt; omega)
    refine ⟨h.created, le_rfl, h.first, fun h0 => ?_, fun _ _ => .inr rfl, ?_, fun _ => ?_, ?_,
      fun _ => ?_, ?_, ?_⟩ <;> dsimp only at * <;> rw [ht]
    · have := h.unscheduled h0; have := hfresh h0; omega
    · omega
    · omega
    · omega
    · omega
    · have := h.queue; rw [hr'] at hq; omega
    · have := h.floor; omega
  · exact ⟨h.created, le_rfl, h.first, h.unscheduled, fun _ _ => .inr rfl, h.charged,
      fun _ => h.charged, h.spent, fun _ => by simpa using h.spent, h.queue, h.floor⟩

/-- The stamps of the dispatch branch of `proc_yield` and of `proc_set_running`, with any status. -/
theorem Process.Clocked.stamp {st : ProcStatus} (h : p.Clocked now sp lo) :
    { p with
      firstScheduleTime := if p.firstScheduleTime = 0 then now else p.firstScheduleTime
      lastScheduleTime := now
      status := st }.Clocked now sp lo := by
  split
  · rename_i h0
    have ht := h.unscheduled (by simp [h0])
    exact ⟨h.created, le_rfl, fun _ => h.created, fun _ => ht, fun _ _ => .inr rfl,
      by dsimp only; omega, fun _ => by dsimp only; omega, h.spent, fun _ => by simpa using h.spent,
      h.queue, h.floor⟩
  · rename_i h0
    have h0 : p.firstScheduleTime.toNat ≠ 0 := fun e => h0 (BitVec.eq_of_toNat_eq e)
    exact ⟨h.created, le_rfl, h.first, fun e => absurd e h0, fun _ e => absurd e h0, h.charged,
      fun _ => h.charged, h.spent, fun _ => by simpa using h.spent, h.queue, h.floor⟩

/-- Stamping the schedule times at `now` leaves a process `Stamped`. -/
theorem Process.Stamped.stamp {st : ProcStatus} :
    ({ p with
      firstScheduleTime := if p.firstScheduleTime = 0 then now else p.firstScheduleTime
      lastScheduleTime := now
      status := st } : Process).Stamped := fun _ h0 => by
  dsimp only at h0 ⊢
  split at h0
  · exact h0
  · rename_i hne
    exact absurd (BitVec.eq_of_toNat_eq (by simpa using h0)) hne

/-- A slot `proc_alloc` fills at time `now` has spent and been charged nothing. -/
theorem Process.Clocked.alloc (pid : Int) (p : Process) :
    (allocFields pid now p).Clocked now 0 0 := by
  refine ⟨le_rfl, ?_, ?_, ?_, ?_, ?_, ?_, ?_, ?_, ?_, ?_⟩ <;> simp [allocFields]

/-- A tick of the clock from `now` to `now'`: the running time grows by `now' - now` for a running
process. -/
theorem Process.Clocked.tick {now' : BitVec 64} (h : p.Clocked now sp lo) (hs : p.Stamped)
    (hn : now.toNat ≤ now'.toNat) :
    p.Clocked now' (sp + if p.status = .running then now'.toNat - now.toNat else 0) lo := by
  have h1 := h.created; have h2 := h.last; have h6 := h.charged; have h8 := h.spent
  refine ⟨by omega, by omega, h.first, h.unscheduled, fun hr h0 => .inl (hs hr h0), by omega,
    h.charged_running, ?_, fun hr => ?_, h.queue, h.floor⟩
  · split <;> omega
  · have := h.spent_running hr; rw [if_pos hr]; omega

end Slot

/-! ## The table -/

/-- A change of the table at a fixed time that keeps the CPU-time fields of every slot. -/
structure ClockKept (s s' : Kernel) : Prop where
  mtime : s'.mtime = s.mtime
  clocked : ∀ j sp lo, (s.procSet j).Clocked s.mtime sp lo → (s'.procSet j).Clocked s.mtime sp lo
  stamped : ∀ j, (s.procSet j).Stamped → (s'.procSet j).Stamped

section Table

variable {s s' s₁ s₂ s₃ : Kernel} {i : Nat}

/-- No change keeps every slot's statistics. -/
theorem ClockKept.refl (s : Kernel) : ClockKept s s := ⟨rfl, fun _ _ _ h => h, fun _ h => h⟩

/-- `ClockKept` stretches compose. -/
theorem ClockKept.trans (h₁ : ClockKept s₁ s₂) (h₂ : ClockKept s₂ s₃) : ClockKept s₁ s₃ := by
  refine ⟨h₂.mtime.trans h₁.mtime, fun j sp lo h => ?_, fun j h => h₂.stamped j (h₁.stamped j h)⟩
  have := h₂.clocked j sp lo (h₁.mtime ▸ h₁.clocked j sp lo h)
  rwa [h₁.mtime] at this

/-- Logging an event is `ClockKept`. -/
theorem ClockKept.emit (h : ClockKept s s') (e : Event) : ClockKept s (s'.emit e) :=
  ⟨h.mtime, h.clocked, h.stamped⟩

/-- A write of one slot that keeps it `Clocked` and `Stamped`. -/
theorem ClockKept.modifyProc {f : Process → Process}
    (hf : ∀ sp lo, (s.procSet i).Clocked s.mtime sp lo → (f (s.procSet i)).Clocked s.mtime sp lo)
    (hs : (s.procSet i).Stamped → (f (s.procSet i)).Stamped) : ClockKept s (s.modifyProc i f) := by
  refine ⟨rfl, fun j sp lo h => ?_, fun j h => ?_⟩ <;> rw [Kernel.modifyProc_procSet] <;> split <;>
    subst_vars
  exacts [hf sp lo h, h, hs h, h]

/-- Taking a process out of `PROC_RUNNING` charges it exactly its run since `last_schedule_time`. -/
theorem procLeaveRunning_clockKept {st : ProcStatus} (hst : st ≠ .running) (s : Kernel) (pid : Int) :
    ClockKept s (procLeaveRunning st s pid) := by
  unfold procLeaveRunning
  split
  · exact .modifyProc (fun _ _ h => h.leave hst) fun _ h' => absurd h' hst
  · exact .refl s

/-- `proc_set_runnable` is `ClockKept`. -/
theorem procSetRunnable_clockKept (s : Kernel) (pid : Int) :
    ClockKept s (procSetRunnable s pid) :=
  procLeaveRunning_clockKept (nofun : ProcStatus.runnable ≠ .running) s pid

/-- `proc_set_pending` is `ClockKept`. -/
theorem procSetPending_clockKept (s : Kernel) (pid : Int) : ClockKept s (procSetPending s pid) :=
  procLeaveRunning_clockKept (nofun : ProcStatus.pendingSyscall ≠ .running) s pid

/-- `proc_set_running` stamps the schedule times at `now`, and is `ClockKept`. -/
theorem procSetRunning_clockKept (s : Kernel) (pid : Int) : ClockKept s (procSetRunning s pid) := by
  unfold procSetRunning
  split
  · exact .modifyProc (fun _ _ h => h.stamp) fun _ => Process.Stamped.stamp
  · exact .refl s

end Table

end EgosGrass

import EgosGrass.Spec.Invariant

/-!
# The invariant through `process.c`

Each operation of `process.c` changes what the invariant reads (`Kernel.ctl`) by one
`Kernel.withStatus` of the slot its lookup finds, or not at all: the statistics and MLFQ updates
(`charge`, `timerCharge`, `mlfqResetLevel`, `terminate`) keep the view. From these, the polite
calls of the environment keep the invariant: `proc_alloc` (`Inv.alloc`), `proc_set_ready`
(`Inv.setReady`) and `proc_free` of a pid or of `GPID_ALL` (`Inv.free`).
-/

namespace EgosGrass

/-! ## Updates that keep the view -/

/-- `mlfq_update_level` touches only the level fields, none of the control fields. -/
theorem mlfqUpdateLevel_sameCtl (p : Process) (r : BitVec 64) :
    p.SameCtl (mlfqUpdateLevel p r) := by
  unfold mlfqUpdateLevel
  split
  · exact .refl p
  · dsimp only
    split <;> exact .refl p

/-- A charge keeps the pid, status, record and wake-up time. -/
theorem charge_sameCtl (now : BitVec 64) (p : Process) : p.SameCtl (charge now p) :=
  mlfqUpdateLevel_sameCtl _ _

/-- The charge of `proc_set_runnable` and `proc_set_pending` keeps the control fields. -/
theorem chargeRunning_sameCtl (now : BitVec 64) (p : Process) :
    p.SameCtl (chargeRunning now p) := by
  unfold chargeRunning
  split
  · exact charge_sameCtl now p
  · exact .refl p

/-- The charge of a timer interrupt keeps the control fields. -/
theorem timerCharge_sameCtl (now : BitVec 64) (p : Process) : p.SameCtl (timerCharge now p) := by
  let q := { p with timerInterruptCount := p.timerInterruptCount + 1 }
  have h : p.SameCtl (if q.lastScheduleTime > 0 then charge now q else q) := by
    split
    · exact charge_sameCtl now q
    · exact .refl p
  exact h

namespace Kernel

variable {s s' : Kernel}

/-- Setting one status in two states with the same control view gives the same view. -/
theorem ctl_withStatus_congr {i : Nat} {st : ProcStatus} (h : s'.ctl = s.ctl) :
    (s'.withStatus i st).ctl = (s.withStatus i st).ctl := by
  obtain ⟨hp, hs, hr, hw, hc, hn⟩ := ctl_eq h
  simp only [ctl, withStatus_pid, withStatus_status, withStatus_syscall, withStatus_wakeupTime,
    withStatus_coreToProcIdx, withStatus_currPid, hp, hs, hr, hw, hc, hn]

end Kernel

section Ops

variable (cfg : Config) {s : Kernel} {pid : Int} {i : Nat}

/-- Stamping `termination_time` and logging the report keeps the control view. -/
theorem terminate_ctl (s : Kernel) (i : Nat) : (terminate s i).ctl = s.ctl := by
  simp only [terminate, Kernel.ctl_emit]
  exact Kernel.ctl_modifyProc (f := fun p => { p with terminationTime := mtimeGet s })
    fun p => .refl p

/-- The shell boost of `mlfq_reset_level` moves only levels. -/
theorem shellBoost_ctl (s : Kernel) (tty : Bool) : (shellBoost cfg s tty).ctl = s.ctl := by
  unfold shellBoost
  split
  · rfl
  · split
    · exact Kernel.ctl_modifyProc fun p => .refl p
    · rfl

/-- The periodic reset of `mlfq_reset_level` moves only levels. -/
theorem periodicReset_ctl (s : Kernel) : (periodicReset s).ctl = s.ctl := by
  unfold periodicReset
  split
  · simp only [Kernel.ctl, Prod.mk.injEq, and_true]
    funext j; split <;> rfl
  · rfl

/-- `mlfq_reset_level` keeps the control view. -/
theorem mlfqResetLevel_ctl (s : Kernel) (tty : Bool) : (mlfqResetLevel cfg s tty).ctl = s.ctl :=
  (periodicReset_ctl _).trans (shellBoost_ctl cfg s tty)

/-- `proc_set_ready` of a pid the lookup finds sets that slot `PROC_READY`. -/
theorem procSetReady_eq (h : findSlot s.procSet (fun p => p.pid == pid) = some i) :
    procSetReady s pid = s.withStatus i .ready := by
  simp only [procSetReady, h]; rfl

/-- `proc_set_running` of a pid the lookup finds changes only that slot's status. -/
theorem procSetRunning_ctl (h : findSlot s.procSet (fun p => p.pid == pid) = some i) :
    (procSetRunning s pid).ctl = (s.withStatus i .running).ctl := by
  simp only [procSetRunning, h]
  exact Kernel.ctl_modifyProc_congr fun p => .refl _

/-- `proc_set_runnable` and `proc_set_pending` of a found pid change only that slot's status. -/
theorem procLeaveRunning_ctl (st : ProcStatus)
    (h : findSlot s.procSet (fun p => p.pid == pid) = some i) :
    (procLeaveRunning st s pid).ctl = (s.withStatus i st).ctl := by
  simp only [procLeaveRunning, h]
  exact Kernel.ctl_modifyProc_congr fun p =>
    have hc := chargeRunning_sameCtl (mtimeGet s) p
    ⟨hc.1, rfl, hc.2.2.1, hc.2.2.2⟩

/-- `proc_set_runnable` and `proc_set_pending` of a pid no slot holds do nothing. -/
theorem procLeaveRunning_of_none (st : ProcStatus)
    (h : findSlot s.procSet (fun p => p.pid == pid) = none) : procLeaveRunning st s pid = s := by
  simp only [procLeaveRunning, h]

/-- `proc_set_status` on a pid only slot `i` below `MAX_NPROCESS` holds. -/
theorem procSetStatus_ctl {st : ProcStatus} (hi : i < maxNProcess)
    (hpid : (s.procSet i).pid = pid) (hu : ∀ j < maxNProcess, (s.procSet j).pid = pid → j = i) :
    (procSetStatus s pid st).ctl = (s.withStatus i st).ctl := by
  simp only [Kernel.ctl, procSetStatus, Kernel.withStatus_pid, Kernel.withStatus_status,
    Kernel.withStatus_syscall, Kernel.withStatus_wakeupTime, Kernel.withStatus_coreToProcIdx,
    Kernel.withStatus_currPid, Prod.mk.injEq, and_true]
  funext j
  by_cases hj : j = i
  · subst hj; simp [hi, hpid]
  · have : ¬(j < maxNProcess ∧ (s.procSet j).pid = pid) := fun ⟨h1, h2⟩ => hj (hu j h1 h2)
    simp [this, hj]

end Ops

/-! ## The environment's calls -/

section Env

variable {cfg : Config} {s : Kernel} {busy : Nat → Prop} {pid : Int} {i : Nat} {st : ProcStatus}

/-- A status write keeps `Inv` when the new status suits the slot's pid, the cores and its record.
-/
theorem Inv.withStatus (h : Inv cfg s busy) (hz : (s.procSet i).pid = 0 → st = .unused)
    (hc : ∀ c, busy c → s.coreToProcIdx c ≠ 0 → s.coreToProcIdx c = i → st = .running)
    (h16 : i = maxNProcess → st = .unused ∨ st = .loading)
    (hpend : st = .pendingSyscall →
      (s.procSet i).syscall.status = .pending ∨ (s.procSet i).status = .pendingSyscall)
    (hsend : st = .unused ∨
      ∀ r, r ≠ i → Collectable s r → (s.procSet r).syscall.sender ≠ (s.procSet i).pid) :
    Inv cfg (s.withStatus i st) busy :=
  ⟨h.pid.withStatus hz, h.core.withStatus hc, h.ipc.withStatus h16 hpend hsend⟩

/-- Marking unused a slot below `MAX_NPROCESS` that no held core points to. -/
theorem Inv.freeSlot (h : Inv cfg s busy) (hi : i < maxNProcess)
    (hc : ∀ c, busy c → s.coreToProcIdx c ≠ 0 → s.coreToProcIdx c ≠ i) :
    Inv cfg (s.withStatus i .unused) busy :=
  h.withStatus (fun _ => rfl) (fun c hb h0 e => absurd e (hc c hb h0)) (fun e => by omega)
    (fun e => by cases e) (.inl rfl)

/-- The loader's `proc_set_ready` of a process still loading. -/
theorem Inv.setReady (h : Inv cfg s fun _ => True) (hpol : Polite cfg s (.setReady pid)) :
    Inv cfg (procSetReady s pid) fun _ => True := by
  cases hf : findSlot s.procSet (fun p => p.pid == pid) with
  | none => simpa [procSetReady, hf] using h
  | some i =>
    obtain ⟨hi, hpi⟩ := findSlot_eq_some hf
    have hpi : (s.procSet i).pid = pid := by simpa using hpi
    have hl : (s.procSet i).status = .loading := hpol i hi hpi
    rw [procSetReady_eq hf]
    refine h.withStatus (fun h0 => absurd (h.pid.zero_unused i h0) (by rw [hl]; decide))
      (fun c _ h0 e => absurd (h.core.running c trivial h0) (by rw [e, hl]; decide))
      (fun e => by omega) (fun e => by cases e) (.inr fun r _ hr e => ?_)
    rcases (h.ipc.delivered r hr).2.2.2 i hi e.symm with hu | ⟨hp, -⟩
    · rw [hl] at hu; cases hu
    · rw [hl] at hp; cases hp

/-- `proc_free` of every user process, as the `GPID_ALL` branch runs it slot by slot, while no
core runs a user process. -/
theorem Inv.freeAll (hpol : ∀ c < cfg.ncores, s.coreToProcIdx c ≠ 0 →
      (s.procSet (s.coreToProcIdx c)).pid < cfg.gpidUserStart)
    (h : Inv cfg s fun _ => True) (l : List Nat) (hl : ∀ i ∈ l, i < maxNProcess) :
    Inv cfg (l.foldl (fun s i =>
      if (s.procSet i).pid ≥ cfg.gpidUserStart ∧ (s.procSet i).status ≠ .unused then
        (terminate s i).modifyProc i fun p => { p with status := .unused }
      else s) s) fun _ => True := by
  induction l generalizing s with
  | nil => exact h
  | cons i l ih =>
    simp only [List.foldl_cons]
    have hi := hl i (List.mem_cons_self _ _)
    split
    · rename_i hu
      have hctl : ((terminate s i).modifyProc i fun p => { p with status := .unused }).ctl =
          (s.withStatus i .unused).ctl := Kernel.ctl_withStatus_congr (terminate_ctl s i)
      obtain ⟨hp, -, -, -, hc, -⟩ := Kernel.ctl_eq hctl
      refine ih (fun c hc' h0 => ?_) (Inv.of_ctl hctl (h.freeSlot hi fun c _ h0 e => ?_))
        fun j hj => hl j (List.mem_cons_of_mem _ hj)
      · rw [hc, Kernel.withStatus_coreToProcIdx] at h0 ⊢
        rw [hp, Kernel.withStatus_pid]; exact hpol c hc' h0
      · by_cases hcn : c < cfg.ncores
        · have := hpol c hcn h0; rw [e] at this; omega
        · exact h0 (h.core.idle_beyond c (by omega))
    · exact ih hpol h fun j hj => hl j (List.mem_cons_of_mem _ hj)

/-- `proc_free` of a pid other than `GPID_ALL` that no held core runs. -/
theorem Inv.freePid (h : Inv cfg s busy) (hne : pid ≠ cfg.gpidAll)
    (hc : ∀ c, busy c → s.coreToProcIdx c ≠ 0 → (s.procSet (s.coreToProcIdx c)).pid ≠ pid) :
    Inv cfg (procFree cfg s pid) busy := by
  rw [procFree, if_pos hne]
  cases hf : findSlot s.procSet (fun p => p.pid == pid && p.status != .unused) with
  | none => exact h
  | some i =>
    obtain ⟨hi, hpi⟩ := findSlot_eq_some hf
    simp only [Bool.and_eq_true, beq_iff_eq, bne_iff_ne, ne_eq] at hpi
    have hpos := h.pid.pos_of_live hpi.2
    have hctl : (procSetStatus (terminate s i) pid .unused).ctl = (s.withStatus i .unused).ctl := by
      obtain ⟨hp, -⟩ := Kernel.ctl_eq (terminate_ctl s i)
      rw [procSetStatus_ctl hi (by rw [hp]; exact hpi.1) fun j _ hj =>
        h.pid.unique j i (by rw [← hp j, hj, hpi.1]) (by rw [← hp j, hj]; omega)]
      exact Kernel.ctl_withStatus_congr (terminate_ctl s i)
    exact Inv.of_ctl hctl (h.freeSlot hi fun c hb h0 e => hc c hb h0 (by rw [e, hpi.1]))

/-- `proc_free` of a process no core runs, or of `GPID_ALL` while no core runs a user process. -/
theorem Inv.free (h : Inv cfg s fun _ => True) (hpol : Polite cfg s (.free pid)) :
    Inv cfg (procFree cfg s pid) fun _ => True := by
  by_cases hall : pid = cfg.gpidAll
  · rw [procFree, if_neg (not_not.2 hall)]
    refine Inv.freeAll (fun c hc h0 => ?_) h lowSlots fun i hi => mem_lowSlots.1 hi
    have := hpol c hc h0
    rwa [if_pos hall] at this
  · refine h.freePid hall fun c _ h0 => ?_
    have hcn : c < cfg.ncores := by
      by_contra hcn; exact h0 (h.core.idle_beyond c (by omega))
    have := hpol c hcn h0
    rwa [if_neg hall] at this

/-- Below `2^31` the increment of `curr_pid` does not wrap. -/
theorem toNat_add_one_of_lt {c : BitVec 32} (h : c.toNat + 1 < 2 ^ 31) :
    (c + 1).toNat = c.toNat + 1 := by
  rw [BitVec.toNat_add]; simp; omega

/-- Below `2^31` the incremented `curr_pid` read as an `int` is the next number. -/
theorem toInt_add_one_of_lt {c : BitVec 32} (h : c.toNat + 1 < 2 ^ 31) :
    (c + 1).toInt = c.toNat + 1 := by
  rw [BitVec.toInt_eq_toNat_cond, toNat_add_one_of_lt h, if_pos (by omega)]; push_cast; rfl

/-- The table after `proc_alloc` fills the unused slot `i` of `1 .. MAX_NPROCESS` with pid
`curr_pid + 1`: the counter moves up by one, the core map stays, and no other slot changes. -/
structure AllocInto (s S : Kernel) (i : Nat) : Prop where
  range : 1 ≤ i ∧ i ≤ maxNProcess
  unused : (s.procSet i).status = .unused
  slot : S.procSet i = allocFields (s.currPid + 1).toInt (mtimeGet s) (s.procSet i)
  other : ∀ j, j ≠ i → S.procSet j = s.procSet j
  counter : S.currPid = s.currPid + 1
  cores : S.coreToProcIdx = s.coreToProcIdx

/-- A `proc_alloc` that does not halt writes a new process into one unused user slot. -/
theorem procAlloc_allocInto {s' : Kernel} (ha : procAlloc s = .ok (pid, s')) :
    ∃ i, AllocInto s s' i := by
  obtain ⟨i, hi, -, rfl⟩ := procAlloc_eq_ok ha
  exact ⟨i, mem_userSlots.1 (List.mem_of_find?_eq_some hi), by simpa using List.find?_some hi,
    by simp, fun j hj => by simp [hj], rfl, rfl⟩

section Alloc

variable {S : Kernel}

/-- The new pid is above every pid of the table. -/
theorem AllocInto.pid_lt (hpol : s.currPid.toNat + 1 < 2 ^ 31) (ha : AllocInto s S i)
    (h : PidInv s) (j : Nat) :
    (s.procSet j).pid < (S.procSet i).pid := by
  rw [ha.slot]
  simp only [allocFields, toInt_add_one_of_lt hpol]
  have := h.le_counter j
  omega

/-- An allocation below pid `2^31 - 1` keeps the pids of live slots distinct and positive. -/
theorem PidInv.alloc (h : PidInv s) (hpol : s.currPid.toNat + 1 < 2 ^ 31) (ha : AllocInto s S i) :
    PidInv S := by
  have hcnt := toNat_add_one_of_lt hpol
  have hlt := ha.pid_lt hpol h
  refine ⟨?_, fun j => ?_, fun j => ?_, fun j k e hne => ?_, fun j hj => ?_, fun j hj => ?_, ?_⟩
  · rw [ha.counter, hcnt]; exact hpol
  · by_cases hj : j = i
    · subst hj; exact (h.nonneg 0).trans (hlt 0).le
    · rw [ha.other j hj]; exact h.nonneg j
  · rw [ha.counter, hcnt]
    by_cases hj : j = i
    · subst hj; rw [ha.slot]; simp only [allocFields, toInt_add_one_of_lt hpol]; push_cast; omega
    · rw [ha.other j hj]; have := h.le_counter j; push_cast; omega
  · by_cases hj : j = i <;> by_cases hk : k = i
    · rw [hj, hk]
    · subst hj; rw [ha.other k hk] at e; exact absurd e (hlt k).ne'
    · subst hk; rw [ha.other j hj] at e; exact absurd e (hlt j).ne
    · rw [ha.other j hj, ha.other k hk] at e; rw [ha.other j hj] at hne; exact h.unique j k e hne
  · by_cases hj' : j = i
    · subst hj'; exact absurd hj (by have := (h.nonneg 0).trans_lt (hlt 0); omega)
    · rw [ha.other j hj'] at hj ⊢; exact h.zero_unused j hj
  · rw [ha.other j (by have := ha.range.2; omega)]; exact h.beyond j hj
  · rw [ha.other 0 (by have := ha.range.1; omega)]; exact h.idle

/-- No core runs the unused slot `proc_alloc` fills. -/
theorem CoreInv.alloc (h : CoreInv cfg s fun _ => True) (ha : AllocInto s S i) :
    CoreInv cfg S fun _ => True := by
  have hnotrun : ∀ c, s.coreToProcIdx c ≠ 0 → s.coreToProcIdx c ≠ i := fun c h0 e => by
    have := h.running c trivial h0; rw [e, ha.unused] at this; cases this
  refine ⟨?_, ?_, fun c _ h0 => ?_, ?_⟩ <;> rw [ha.cores]
  · exact h.bound
  · exact h.idle_beyond
  · rw [ha.cores] at h0; rw [ha.other _ (hnotrun c h0)]; exact h.running c trivial h0
  · exact h.injective

/-- The filled slot is loading, and every pid a receiver names stays below the new pid. -/
theorem IpcInv.alloc (h : IpcInv s) (hpol : s.currPid.toNat + 1 < 2 ^ 31) (ha : AllocInto s S i) :
    IpcInv S := by
  have hne : ∀ r, Collectable S r → r ≠ i := fun r hr e => by
    subst e; have := hr.1; rw [ha.slot] at this; cases this
  have hcol : ∀ r, Collectable S r → Collectable s r := fun r hr => by
    rwa [Collectable, ← ha.other r (hne r hr)]
  refine ⟨fun j => ?_, ?_, fun r hr => ?_, fun r r' hr hr' e => ?_⟩
  · by_cases hj : j = i
    · subst hj; rw [ha.slot]; rfl
    · rw [ha.other j hj]; exact h.no_sleep j
  · by_cases h16 : maxNProcess = i
    · subst h16; rw [ha.slot]; exact .inr rfl
    · rw [ha.other _ h16]; exact h.last_slot
  · obtain ⟨ht, hpos, hle, hk⟩ := h.delivered r (hcol r hr)
    simp only [Delivered, ha.other r (hne r hr), ha.counter, toNat_add_one_of_lt hpol]
    refine ⟨ht, hpos, by push_cast; omega, fun k hk16 hpk => ?_⟩
    by_cases hki : k = i
    · subst hki; rw [ha.slot] at hpk; simp only [allocFields, toInt_add_one_of_lt hpol] at hpk; omega
    · rw [ha.other k hki] at hpk ⊢; exact hk k hk16 hpk
  · rw [ha.other r (hne r hr), ha.other r' (hne r' hr')] at e
    exact h.sender_unique r r' (hcol r hr) (hcol r' hr') e

end Alloc

/-- `proc_alloc` while the counter stays below `2^31 - 1`: the new pid is above every pid in the
table and every pid a collectable receiver names, and the slot it fills was unused. -/
theorem Inv.alloc (h : Inv cfg s fun _ => True) (hpol : Polite cfg s .alloc) {s' : Kernel}
    (ha : procAlloc s = .ok (pid, s')) : Inv cfg s' fun _ => True := by
  have hpol : s.currPid.toNat + 1 < 2 ^ 31 := hpol
  obtain ⟨i, hA⟩ := procAlloc_allocInto ha
  exact ⟨h.pid.alloc hpol hA, h.core.alloc hA, h.ipc.alloc hpol hA⟩

end Env

end EgosGrass

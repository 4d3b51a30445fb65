import EgosGrass.Spec.InvariantEntry

/-!
# Running processes and the cores that run them

`CoreInv.running` says that a core that is not idle points at a `PROC_RUNNING` slot. This module
proves the converse: over every polite run, every `PROC_RUNNING` slot is the slot of a core
(`OnCore`). A running slot without a core could never run again: both scans of `proc_yield` pick
only `PROC_READY` and `PROC_RUNNABLE` slots, and only the prologue of `proc_yield` on the slot's
own core makes it runnable. Together with `CoreInv`, the running slots are exactly the slots the
cores point at, one core each (`running_iff_on_core`).

Only `proc_set_running`, at the end of a dispatch, makes a slot run, and the dispatch points the
core in the kernel at that slot. `NoStart s s'` says that from `s` to `s'` no slot starts running
and no core moves. Every other stage of a kernel entry has this property, and so do `proc_alloc`,
`proc_set_ready` and `proc_free` (`NoStart.of_ctl` and the lemmas after it). The one core that
moves, in the dispatch or the idle branch, leaves a slot that the prologue of `proc_yield` has
taken out of `PROC_RUNNING` (`yieldPrologue_curr`).
-/

namespace EgosGrass

/-- Every `PROC_RUNNING` slot is the slot of a core below `NCORES`. -/
def OnCore (cfg : Config) (s : Kernel) : Prop :=
  ∀ i, (s.procSet i).status = .running → ∃ c < cfg.ncores, s.coreToProcIdx c = i

/-- From `s` to `s'` no slot starts running, and every core keeps its slot. -/
structure NoStart (s s' : Kernel) : Prop where
  running : ∀ j, (s'.procSet j).status = .running → (s.procSet j).status = .running
  idx : s'.coreToProcIdx = s.coreToProcIdx

/-! ## Stages that start nothing -/

section NoStart

variable {cfg : Config} {s s' s₁ s₂ : Kernel} {i : Nat} {tty : Bool}

/-- No change starts nothing. -/
theorem NoStart.refl (s : Kernel) : NoStart s s := ⟨fun _ h => h, rfl⟩

/-- Stretches that start nothing compose. -/
theorem NoStart.trans (h₁ : NoStart s s₁) (h₂ : NoStart s₁ s₂) : NoStart s s₂ :=
  ⟨fun j h => h₁.running j (h₂.running j h), h₂.idx.trans h₁.idx⟩

/-- Every change that keeps statuses and the core map: emits, context saves, clock updates. -/
theorem NoStart.of_ctl (h : s'.ctl = s.ctl) : NoStart s s' :=
  have ⟨_, hs, _, _, hc, _⟩ := Kernel.ctl_eq h
  ⟨fun j hj => hs j ▸ hj, hc⟩

/-- A write of one slot that does not make it `PROC_RUNNING` starts nothing. -/
theorem NoStart.modifyProc {f : Process → Process}
    (hf : ∀ p, (f p).status = .running → p.status = .running) : NoStart s (s.modifyProc i f) := by
  refine ⟨fun j hj => ?_, rfl⟩
  rw [Kernel.modifyProc_procSet] at hj
  split at hj
  · subst_vars; exact hf _ hj
  · exact hj

/-- The core that keeps its slot across the change keeps it out of `PROC_RUNNING`. -/
theorem NoStart.not_running (n : NoStart s s') {c : Nat}
    (h : (s.procSet (s.coreToProcIdx c)).status ≠ .running) :
    (s'.procSet (s'.coreToProcIdx c)).status ≠ .running :=
  fun e => h (n.idx ▸ n.running _ e)

/-- A stretch of a scan starts nothing. -/
theorem ScanFrame.noStart (h : ScanFrame s s') : NoStart s s' := by
  refine ⟨fun j hj => ?_, h.idx⟩
  rcases h.releases j with e | e
  · rwa [← e]
  · rw [e] at hj; cases hj

/-- `proc_set_runnable` and `proc_set_pending` start nothing. -/
theorem procLeaveRunning_noStart {st : ProcStatus} (hst : st ≠ .running) (s : Kernel) (pid : Int) :
    NoStart s (procLeaveRunning st s pid) := by
  unfold procLeaveRunning
  split
  · exact .modifyProc fun _ h => absurd h hst
  · exact .refl s

/-- `proc_set_ready` starts nothing. -/
theorem procSetReady_noStart (s : Kernel) (pid : Int) : NoStart s (procSetReady s pid) := by
  unfold procSetReady
  split
  · exact .modifyProc fun _ h => by cases h
  · exact .refl s

/-- `proc_set_status` to a status other than `PROC_RUNNING` starts nothing. -/
theorem procSetStatus_noStart {st : ProcStatus} (hst : st ≠ .running) (s : Kernel) (pid : Int) :
    NoStart s (procSetStatus s pid st) := by
  refine ⟨fun j hj => ?_, rfl⟩
  simp only [procSetStatus] at hj
  split at hj
  · exact absurd hj hst
  · exact hj

/-- `proc_free` starts nothing. -/
theorem procFree_noStart (s : Kernel) (pid : Int) : NoStart s (procFree cfg s pid) :=
  procFree_rel cfg NoStart.refl NoStart.trans
    (fun s i _ => (NoStart.of_ctl (terminate_ctl s i)).trans (procSetStatus_noStart (by decide) _ _))
    (fun s i => (NoStart.of_ctl (terminate_ctl s i)).trans (.modifyProc fun _ h => by cases h)) s pid

/-- The retry of a receiver starts nothing. -/
theorem procTryRecv_noStart (s : Kernel) (i : Nat) : NoStart s (procTryRecv s i) := by
  dsimp only [procTryRecv]
  split
  · exact .refl s
  · exact (((ScanFrame.emit _ _).trans (procSetRunnable_frame _ _)).trans
      (procSetRunnable_frame _ _)).noStart

/-- A retry that does not halt starts nothing. -/
theorem procTrySyscall_noStart (h : procTrySyscall cfg s i = .ok s') : NoStart s s' := by
  unfold procTrySyscall at h
  split at h
  · cases h; exact procTryRecv_noStart s i
  · dsimp only [procTrySend] at h
    split at h
    · split at h <;> cases h
      · exact .modifyProc fun _ h => h
      · exact .refl s
    · cases h
  · cases h

/-- Blocking the caller starts nothing. -/
theorem blockCaller_noStart (s : Kernel) (rec : Syscall) : NoStart s (blockCaller s rec) := by
  dsimp only [blockCaller]
  refine NoStart.trans ?_ (.modifyProc fun _ h => h)
  refine NoStart.trans ?_ (procLeaveRunning_noStart (by decide : ProcStatus.pendingSyscall ≠ .running) _ _)
  exact .modifyProc fun _ h => h

/-- `intr_entry` and `excp_entry` up to `proc_yield`: a timer charge, a blocked caller with its call
tried once, or a user fault freed. -/
theorem yieldArg_noStart {t : Trap} (hy : yieldArg cfg s t = .ok s') : NoStart s s' := by
  unfold yieldArg at hy
  split at hy
  · split at hy <;> cases hy
    split
    · exact .of_ctl (Kernel.ctl_modifyProc fun p => timerCharge_sameCtl _ p)
    · exact .refl s
  · split at hy
    · exact (blockCaller_noStart s _).trans (procTrySyscall_noStart hy)
    · dsimp only at hy
      split at hy <;> cases hy
      refine NoStart.trans ?_ (procFree_noStart _ _)
      exact .of_ctl rfl

/-- The prologue of `proc_yield` starts nothing. -/
theorem yieldPrologue_noStart (s : Kernel) : NoStart s (yieldPrologue cfg s tty) := by
  unfold yieldPrologue
  refine NoStart.trans ?_ (.of_ctl (mlfqResetLevel_ctl cfg _ tty))
  split
  · exact procLeaveRunning_noStart (by decide) _ _
  · exact .refl s

/-- After the prologue of `proc_yield`, the slot of the core in the kernel does not run: if it ran,
it holds its pid alone, and `proc_set_runnable` finds it. -/
theorem yieldPrologue_curr (h : PidInv s) (hk : s.currIdx < maxNProcess) :
    ((yieldPrologue cfg s tty).procSet s.currIdx).status ≠ .running := by
  unfold yieldPrologue
  rw [(Kernel.ctl_eq (mlfqResetLevel_ctl cfg _ tty)).2.1]
  split
  · rename_i hrun
    have hl : (s.procSet s.currIdx).status ≠ .unused := by rw [hrun]; decide
    unfold procSetRunnable
    rw [(Kernel.ctl_eq (procLeaveRunning_ctl _ (h.findSlot_pid hk hl))).2.1,
      Kernel.withStatus_status, if_pos rfl]
    decide
  · assumption

end NoStart

/-! ## `OnCore` along a run -/

section OnCore

variable {cfg : Config} {s s' : Kernel} {c k : Nat} {tty : Bool}

/-- A stretch that starts nothing keeps every running slot on its core. -/
theorem OnCore.of_noStart (h : OnCore cfg s) (n : NoStart s s') : OnCore cfg s' := fun i hi =>
  n.idx ▸ h i (n.running i hi)

/-- Moving a core whose slot does not run. -/
theorem OnCore.setCoreIdx (h : OnCore cfg s)
    (hnr : (s.procSet (s.coreToProcIdx c)).status ≠ .running) (k : Nat) :
    OnCore cfg (s.setCoreIdx c k) := fun i hi => by
  obtain ⟨d, hd, rfl⟩ := h i hi
  have hdc : d ≠ c := by rintro rfl; exact hnr hi
  exact ⟨d, hd, by simp [hdc]⟩

/-- Running the slot of a core below `NCORES`. -/
theorem OnCore.withStatus_running (h : OnCore cfg s) (hc : c < cfg.ncores)
    (hk : s.coreToProcIdx c = k) : OnCore cfg (s.withStatus k .running) := fun i hi => by
  rw [Kernel.withStatus_status] at hi
  split at hi
  · subst_vars; exact ⟨c, hc, rfl⟩
  · exact h i hi

/-- An allocation writes a `PROC_LOADING` process, so it keeps `OnCore`. -/
theorem OnCore.alloc {i : Nat} (h : OnCore cfg s) (ha : AllocInto s s' i) : OnCore cfg s' :=
  h.of_noStart ⟨fun j hj => by
    by_cases e : j = i
    · subst e; simp [ha.slot, allocFields] at hj
    · rwa [ha.other j e] at hj, ha.cores⟩

/-- `proc_yield` on the exempt core `c`: the dispatched slot runs on `c`, and the slot `c` leaves
no longer runs. -/
theorem OnCore.procYield (h : OnCore cfg s) (hi : Inv cfg s (· ≠ c)) (hcs : s.coreInKernel = c)
    (hc : c < cfg.ncores) (hy : procYield cfg s tty = .ok s') : OnCore cfg s' := by
  subst hcs
  obtain ⟨⟨s₂, k⟩, h₁, h₂⟩ := bind_eq_ok.1 hy
  obtain ⟨hs, hk⟩ := pickNext_step h₁
  have hcore : s₂.coreInKernel = s.coreInKernel := hs.core.trans (yieldPrologue_coreInKernel s)
  have ho : OnCore cfg s₂ := (h.of_noStart (yieldPrologue_noStart s)).of_noStart hs.noStart
  have hnr : (s₂.procSet (s₂.coreToProcIdx s₂.coreInKernel)).status ≠ .running := by
    rw [hcore]
    refine hs.noStart.not_running ?_
    rw [(yieldPrologue_noStart s).idx]
    exact yieldPrologue_curr hi.pid (hi.core.bound _)
  rw [← hcore] at hc
  dsimp only at h₂
  split at h₂ <;> cases h₂
  · -- the dispatch: the stamps keep statuses, and the switch runs the slot the core now points at
    have hinv : Inv cfg s₂ (· ≠ s₂.coreInKernel) := hcore ▸ hs.inv _ hi.prologue
    have hst := stampNext_ctl cfg s₂ k
    have hl : ((stampNext cfg s₂ k).procSet k).status ≠ .unused := by
      have hr := (hk.resolve_left (by omega)).2
      rw [(Kernel.ctl_eq hst).2.1]
      simp only [isReady, Bool.or_eq_true, beq_iff_eq] at hr
      rcases hr with e | e <;> rw [e] <;> decide
    refine OnCore.of_noStart ?_ (.of_ctl (switchTo_ctl cfg (hinv.of_ctl hst).pid ‹_› hl))
    exact ((ho.of_noStart (.of_ctl hst)).setCoreIdx ((NoStart.of_ctl hst).not_running hnr) k).withStatus_running
      hc (by simp [stampNext])
  · exact ho.setCoreIdx hnr 0

/-- A kernel entry on a core below `NCORES`, an exception coming from a core that runs a
process. -/
theorem OnCore.entry (hall : cfg.gpidAll ≤ 0) (h : Inv cfg s fun _ => True) (ho : OnCore cfg s)
    {t : Trap} (hc : t.hart < cfg.ncores)
    (hp : t.mcause.getLsbD 31 = false → s.coreToProcIdx t.hart ≠ 0)
    (he : kernelEntry cfg s t = .ok s') : OnCore cfg s' := by
  obtain ⟨s₁, h₁, rfl⟩ := kernelEntry_ok he
  rw [trapHandler_eq_bind] at h₁
  obtain ⟨y, hy, hy'⟩ := bind_eq_ok.1 h₁
  obtain ⟨hi, hcore⟩ := (h.of_ctl (saveContext_ctl s t)).atYield hall hp hy
  have hoy : OnCore cfg y :=
    (ho.of_noStart (.of_ctl (saveContext_ctl s t))).of_noStart (yieldArg_noStart hy)
  exact (hoy.procYield hi hcore hc hy').of_noStart (.of_ctl (restoreContext_ctl _))

/-- Every polite step keeps `OnCore`. -/
theorem OnCore.of_polite (hall : cfg.gpidAll ≤ 0) (h : Inv cfg s fun _ => True)
    (ho : OnCore cfg s) {l : Step} (hp : Polite cfg s l) (hs : step cfg s l = .ok s') :
    OnCore cfg s' := by
  cases l with
  | alloc =>
    cases ha : procAlloc s with
    | error => simp [step, ha, Except.map] at hs
    | ok r =>
      obtain ⟨pid, s₁⟩ := r
      simp only [step, ha, Except.map, Except.ok.injEq] at hs
      subst hs
      obtain ⟨i, hi⟩ := procAlloc_allocInto ha
      exact ho.alloc hi
  | setReady pid => cases hs; exact ho.of_noStart (procSetReady_noStart s pid)
  | free pid => cases hs; exact ho.of_noStart (procFree_noStart s pid)
  | sleep => exact hp.elim
  | trap t =>
    simp only [step] at hs
    split at hs
    · exact ho.entry hall h ‹_› (hp ‹_›) hs
    · cases hs; exact ho
  | tick now =>
    cases hs
    exact ho.of_noStart (.of_ctl (by split <;> rfl))

/-- In every state of a polite run, every running slot is on a core. -/
theorem PoliteReach.onCore (hall : cfg.gpidAll ≤ 0) (h : PoliteReach cfg s) : OnCore cfg s := by
  induction h with
  | init => exact fun i hi => by simp [EgosGrass.init, blank] at hi
  | step hr hp hs ih => exact ih.of_polite hall (hr.inv hall) hp hs

end OnCore

/-- Over every polite run, the `PROC_RUNNING` slots are exactly the slots the cores point at: a
slot runs if and only if it is not the idle slot 0 and exactly one core below `NCORES` points at
it. No process is left running without a core. -/
theorem running_iff_on_core {cfg : Config} {s : Kernel} (hall : cfg.gpidAll ≤ 0)
    (h : PoliteReach cfg s) (i : Nat) :
    (s.procSet i).status = .running ↔ 0 < i ∧ ∃! c, c < cfg.ncores ∧ s.coreToProcIdx c = i := by
  have hi := h.inv hall
  constructor
  · intro hr
    obtain ⟨c, hc, rfl⟩ := h.onCore hall _ hr
    have h0 : s.coreToProcIdx c ≠ 0 := fun e => by
      rw [e, hi.pid.zero_unused 0 hi.pid.idle] at hr; cases hr
    exact ⟨Nat.pos_of_ne_zero h0, c, ⟨hc, rfl⟩, fun d ⟨_, hd⟩ =>
      by_contra fun hdc => h0 (hi.core.injective c d (fun e => hdc e.symm) hd.symm)⟩
  · rintro ⟨hi0, c, ⟨-, rfl⟩, -⟩
    exact hi.core.running c trivial hi0.ne'

/-- Pids 1 and 2 run on cores 0 and 1; slot 2 runs, on core 1 alone. -/
theorem running_iff_on_core_two_cores :
    ∃ s, PoliteReach sampleConfig s ∧ s.coreToProcIdx 1 = 2 ∧ sampleConfig.gpidAll ≤ 0 ∧
      ((s.procSet 2).status = .running ↔
        0 < 2 ∧ ∃! c, c < sampleConfig.ncores ∧ s.coreToProcIdx c = 2) := by
  obtain ⟨s, hs, hp⟩ := politeReach_of_run sampleConfig
    (l := [.alloc, .alloc, .setReady 1, .setReady 2, timerOn 0, timerOn 1])
    (p := fun s => s.coreToProcIdx 1 == 2) (by decide)
  exact ⟨s, hs, by simpa using hp, by decide, running_iff_on_core (by decide) hs 2⟩

end EgosGrass

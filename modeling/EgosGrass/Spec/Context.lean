import EgosGrass.Spec.InvariantEntry

/-!
# Saved contexts

`kernel_entry` saves the trapped registers and `mepc` into the slot of the trapping core and ends
by handing the context of that core's slot back to `mret`. In between, only three things write a
saved context: the save itself, the `mepc += 4` of an `ecall`, and the priming of a `PROC_READY`
slot at its first dispatch. So a slot that is not ready keeps its context through everything
else the kernel does (`CtxKept`, `procYield_ctxKept`).

In a polite run every core points at a running slot or at none, and the context a kernel entry
saves belongs to the process that trapped (`context_saved_and_restored`). Outside polite runs a
core can still point at a slot that was freed and handed to another process; its next trap
overwrites that process's saved context (`stale_core_overwrites_context`).
-/

namespace EgosGrass

/-- The trap is an `ecall`: an exception with a cause from `EXCP_ID_ECALL_U` to
`EXCP_ID_ECALL_M`. -/
def Trap.IsEcall (t : Trap) : Prop :=
  t.mcause.getLsbD 31 = false ∧ excpIdEcallU ≤ t.mcause ∧ t.mcause ≤ excpIdEcallM

instance (t : Trap) : Decidable t.IsEcall :=
  inferInstanceAs (Decidable (_ ∧ _ ∧ _))

/-- Slots that are not `PROC_READY` stay so and keep their saved context. -/
def CtxKept (s s' : Kernel) : Prop :=
  ∀ j, (s.procSet j).status ≠ .ready → (s'.procSet j).status ≠ .ready ∧
    (s'.procSet j).mepc = (s.procSet j).mepc ∧
    (s'.procSet j).savedRegisters = (s.procSet j).savedRegisters

section Ctx

variable {cfg : Config} {s s' s₁ s₂ s₃ : Kernel} {tty : Bool}

/-- No change keeps every context. -/
theorem CtxKept.refl (s : Kernel) : CtxKept s s := fun _ h => ⟨h, rfl, rfl⟩

/-- Stretches that keep contexts compose. -/
theorem CtxKept.trans (h₁ : CtxKept s₁ s₂) (h₂ : CtxKept s₂ s₃) : CtxKept s₁ s₃ := fun j h =>
  have ⟨r₂, m₂, g₂⟩ := h₁ j h
  have ⟨r₃, m₃, g₃⟩ := h₂ j r₂
  ⟨r₃, m₃.trans m₂, g₃.trans g₂⟩

/-- Logging an event keeps every context. -/
theorem CtxKept.emit (h : CtxKept s s') (e : Event) : CtxKept s (s'.emit e) := h

/-- A write of one slot that makes no slot `PROC_READY` and keeps the context of a slot that was
not. -/
theorem CtxKept.modifyProc {i : Nat} {f : Process → Process}
    (hf : ∀ p : Process, p.status ≠ .ready →
      (f p).status ≠ .ready ∧ (f p).mepc = p.mepc ∧ (f p).savedRegisters = p.savedRegisters) :
    CtxKept s (s.modifyProc i f) := fun j hj => by
  rw [Kernel.modifyProc_procSet]
  split
  · subst_vars; exact hf _ hj
  · exact ⟨hj, rfl, rfl⟩

/-- A change that keeps every status and every saved context. -/
theorem CtxKept.of_same {i : Nat} {f : Process → Process}
    (hf : ∀ p : Process, (f p).status = p.status ∧ (f p).mepc = p.mepc ∧
      (f p).savedRegisters = p.savedRegisters) :
    CtxKept s (s.modifyProc i f) :=
  .modifyProc fun p hp => ⟨by rw [(hf p).1]; exact hp, (hf p).2⟩

/-- A stretch of a scan keeps every context. -/
theorem ScanFrame.ctxKept (h : ScanFrame s s') : CtxKept s s' := fun j hj =>
  ⟨by rcases h.releases j with e | e <;> rw [e]; exacts [hj, by decide], h.ctx j⟩

/-- `proc_set_runnable` and `proc_set_pending` keep every context. -/
theorem procLeaveRunning_ctxKept {st : ProcStatus} (hst : st ≠ .ready) (s : Kernel) (pid : Int) :
    CtxKept s (procLeaveRunning st s pid) := by
  unfold procLeaveRunning
  split
  · exact .modifyProc fun p _ => ⟨hst, chargeRunning_ctx _ p⟩
  · exact .refl s

/-- `proc_set_running` keeps every context. -/
theorem procSetRunning_ctxKept (s : Kernel) (pid : Int) : CtxKept s (procSetRunning s pid) := by
  unfold procSetRunning
  split
  · exact .modifyProc fun _ _ => ⟨nofun, rfl, rfl⟩
  · exact .refl s

/-- Priming writes the context of a `PROC_READY` slot only. -/
theorem primeIfReady_ctxKept (s : Kernel) (k : Nat) : CtxKept s (primeIfReady cfg s k) := by
  unfold primeIfReady
  split
  · rename_i hk
    intro j hj
    rw [Kernel.modifyProc_procSet, if_neg fun (e : j = k) => hj (e ▸ hk)]
    exact ⟨hj, rfl, rfl⟩
  · exact .refl s

/-- Dispatching a slot keeps the context of every slot that was not `PROC_READY`. -/
theorem dispatch_ctxKept (s : Kernel) (k : Nat) : CtxKept s (dispatch cfg s k) := by
  have h₁ : CtxKept s (stampNext cfg s k) := by
    unfold stampNext
    dsimp only
    refine CtxKept.emit (CtxKept.of_same ?_) _
    exact fun _ => ⟨rfl, rfl, rfl⟩
  refine h₁.trans ?_
  unfold dispatch switchTo
  dsimp only
  refine CtxKept.emit (CtxKept.trans ?_ (procSetRunning_ctxKept _ _)) _
  refine CtxKept.trans ?_ (primeIfReady_ctxKept _ k)
  exact fun _ h => ⟨h, rfl, rfl⟩

/-- `mlfq_reset_level` keeps every context. -/
theorem mlfqResetLevel_ctxKept (s : Kernel) : CtxKept s (mlfqResetLevel cfg s tty) := by
  have h₁ : CtxKept s (shellBoost cfg s tty) := by
    unfold shellBoost
    split
    · exact .refl s
    · split
      · refine CtxKept.of_same ?_
        exact fun _ => ⟨rfl, rfl, rfl⟩
      · exact .refl s
  refine h₁.trans fun j hj => ?_
  unfold mlfqResetLevel periodicReset
  split
  · dsimp only
    split <;> exact ⟨hj, rfl, rfl⟩
  · exact ⟨hj, rfl, rfl⟩

/-- `proc_yield` primes only the slot it dispatches, and only if that slot is ready. -/
theorem procYield_ctxKept (hy : procYield cfg s tty = .ok s') : CtxKept s s' := by
  obtain ⟨⟨s₂, k⟩, h₁, h₂⟩ := bind_eq_ok.1 hy
  have hpro : CtxKept s (yieldPrologue cfg s tty) := by
    unfold yieldPrologue
    refine CtxKept.trans ?_ (mlfqResetLevel_ctxKept _)
    split
    · exact procLeaveRunning_ctxKept (by decide) s _
    · exact .refl s
  refine (hpro.trans (pickNext_step h₁).1.toScanFrame.ctxKept).trans ?_
  dsimp only at h₂
  split at h₂ <;> cases h₂
  · exact dispatch_ctxKept s₂ k
  · exact .refl s₂

/-- The charge of a timer interrupt keeps the saved context. -/
theorem timerCharge_ctx (now : BitVec 64) (p : Process) :
    (timerCharge now p).mepc = p.mepc ∧ (timerCharge now p).savedRegisters = p.savedRegisters := by
  let q := { p with timerInterruptCount := p.timerInterruptCount + 1 }
  have h : (if q.lastScheduleTime > 0 then charge now q else q).mepc = p.mepc ∧
      (if q.lastScheduleTime > 0 then charge now q else q).savedRegisters = p.savedRegisters := by
    split
    · exact mlfqUpdateLevel_ctx _ _
    · exact ⟨rfl, rfl⟩
  exact h

/-- A timer interrupt handled up to `proc_yield` keeps every context. -/
theorem intrEntry_ctxKept {id : BitVec 32} (he : intrEntry cfg s id tty = .ok s') :
    CtxKept s s' := by
  unfold intrEntry at he
  split at he
  · cases he
  · dsimp only at he
    refine CtxKept.trans ?_ (procYield_ctxKept he)
    split
    · refine CtxKept.of_same ?_
      exact fun p => ⟨(timerCharge_sameCtl _ p).2.1, timerCharge_ctx _ p⟩
    · exact .refl s

/-- `proc_free` keeps every context. -/
theorem procFree_ctxKept (s : Kernel) (pid : Int) : CtxKept s (procFree cfg s pid) := by
  have hterm : ∀ s i, CtxKept s (terminate s i) := fun s i =>
    CtxKept.emit (CtxKept.emit (.of_same (f := fun p => { p with terminationTime := mtimeGet s })
      fun _ => ⟨rfl, rfl, rfl⟩) _) _
  unfold procFree
  split
  · split
    · rename_i i _
      refine (hterm s i).trans fun j hj => ?_
      simp only [procSetStatus]
      split
      · exact ⟨nofun, rfl, rfl⟩
      · exact ⟨hj, rfl, rfl⟩
    · exact .refl s
  · induction lowSlots generalizing s with
    | nil => exact .refl s
    | cons i l ih =>
      rw [List.foldl_cons]
      refine CtxKept.trans ?_ (ih _)
      split
      · exact (hterm s i).trans (.modifyProc fun _ _ => ⟨nofun, rfl, rfl⟩)
      · exact .refl s

/-- Blocking the caller keeps every context but the caller's `mepc`, which moves past the `ecall`.
-/
theorem blockCaller_eq (s : Kernel) (rec : Syscall) :
    ∃ S, CtxKept s S ∧
      blockCaller s rec = S.modifyProc s.currIdx fun p => { p with mepc := p.mepc + 4 } := by
  refine ⟨_, (CtxKept.of_same ?_).trans (procLeaveRunning_ctxKept (by decide) _ _), rfl⟩
  exact fun _ => ⟨rfl, rfl, rfl⟩

/-- `proc_set_running` keeps the core in the kernel. -/
@[simp] theorem procSetRunning_coreInKernel (s : Kernel) (pid : Int) :
    (procSetRunning s pid).coreInKernel = s.coreInKernel := by
  unfold procSetRunning; split <;> rfl

/-- `proc_yield` keeps the core in the kernel. -/
theorem procYield_coreInKernel (hy : procYield cfg s tty = .ok s') :
    s'.coreInKernel = s.coreInKernel := by
  obtain ⟨⟨s₂, k⟩, h₁, h₂⟩ := bind_eq_ok.1 hy
  refine Eq.trans ?_ ((pickNext_step h₁).1.core.trans (yieldPrologue_coreInKernel s))
  dsimp only at h₂
  split at h₂ <;> cases h₂
  · simp [dispatch, switchTo, stampNext, primeIfReady, apply_ite Kernel.coreInKernel]
  · simp [goIdle]

/-- The handlers keep the core in the kernel. -/
theorem trapHandler_coreInKernel {t : Trap} (h : trapHandler cfg s t = .ok s') :
    s'.coreInKernel = s.coreInKernel := by
  unfold trapHandler at h
  split at h
  · unfold intrEntry at h
    split at h
    · cases h
    · rw [procYield_coreInKernel h]
      split <;> rfl
  · unfold excpEntry at h
    split at h
    · obtain ⟨s₁, h₁, h₂⟩ := bind_eq_ok.1 h
      have hr : retry cfg (blockCaller s t.syscall) s.currIdx = .ok s₁ ∨
          procTrySyscall cfg (blockCaller s t.syscall) s.currIdx = .ok s₁ := .inr h₁
      rw [procYield_coreInKernel h₂]
      rcases hr with hr | hr
      · exact (retry_step hr).core.trans (by simp [blockCaller, procSetPending])
      · unfold procTrySyscall at hr
        split at hr
        · cases hr; simp [procTryRecv, blockCaller, procSetPending, procSetRunnable,
            apply_ite Kernel.coreInKernel]
        · dsimp only [procTrySend] at hr
          split at hr
          · split at hr <;> cases hr <;> simp [blockCaller, procSetPending]
          · cases hr
        · cases hr
    · dsimp only at h
      split at h
      · rw [procYield_coreInKernel h]; simp
      · cases h

/-- The interrupt and the fault keep every slot that is not ready, the trapping one included. -/
theorem trapHandler_ctx_of_kept {t : Trap} (hk : s.currIdx ≠ 0 → (s.procSet s.currIdx).status ≠ .ready)
    (hc : CtxKept s s') (he : ¬t.IsEcall) :
    (∀ j, j ≠ s.currIdx → (s.procSet j).status ≠ .ready →
      (s'.procSet j).mepc = (s.procSet j).mepc ∧
      (s'.procSet j).savedRegisters = (s.procSet j).savedRegisters) ∧
    (s.currIdx ≠ 0 → (s'.procSet s.currIdx).mepc =
        (if t.IsEcall then (s.procSet s.currIdx).mepc + 4 else (s.procSet s.currIdx).mepc) ∧
      (s'.procSet s.currIdx).savedRegisters = (s.procSet s.currIdx).savedRegisters) :=
  ⟨fun j _ hj => (hc j hj).2, fun h0 => by rw [if_neg he]; exact (hc _ (hk h0)).2⟩

/-- A trap handler from a state with the invariant, on a core that runs a process or takes an
interrupt: every other slot that is not ready keeps its context, and the trapping slot keeps its
context but for `mepc += 4` on an `ecall`. -/
theorem trapHandler_ctx (h : Inv cfg s fun _ => True) {t : Trap}
    (hp : t.mcause.getLsbD 31 = false → s.currIdx ≠ 0) (hs : trapHandler cfg s t = .ok s') :
    (∀ j, j ≠ s.currIdx → (s.procSet j).status ≠ .ready →
      (s'.procSet j).mepc = (s.procSet j).mepc ∧
      (s'.procSet j).savedRegisters = (s.procSet j).savedRegisters) ∧
    (s.currIdx ≠ 0 → (s'.procSet s.currIdx).mepc =
        (if t.IsEcall then (s.procSet s.currIdx).mepc + 4 else (s.procSet s.currIdx).mepc) ∧
      (s'.procSet s.currIdx).savedRegisters = (s.procSet s.currIdx).savedRegisters) := by
  have hk : s.currIdx ≠ 0 → (s.procSet s.currIdx).status ≠ .ready := fun h0 => by
    have := h.core.running s.coreInKernel trivial h0
    unfold Kernel.currIdx; rw [this]; decide
  unfold trapHandler at hs
  split at hs
  · exact trapHandler_ctx_of_kept hk (intrEntry_ctxKept hs) fun he => by simp_all [Trap.IsEcall]
  · rename_i hb
    simp only [Bool.not_eq_true] at hb
    unfold excpEntry at hs
    split at hs
    · rename_i hec
      obtain ⟨s₁, h₁, h₂⟩ := bind_eq_ok.1 hs
      have h0 := hp hb
      have hr : retry cfg (blockCaller s t.syscall) s.currIdx = .ok s₁ := by
        rw [retry, if_pos (h.block t.syscall h0).2]; exact h₁
      have hc := (retry_step hr).toScanFrame.ctxKept.trans (procYield_ctxKept h₂)
      obtain ⟨S, hS, hB⟩ := blockCaller_eq s t.syscall
      rw [hB] at hc
      refine ⟨fun j hj hr => ?_, fun _ => ?_⟩
      · have := hc j (by rw [Kernel.modifyProc_procSet, if_neg hj]; exact (hS j hr).1)
        rw [Kernel.modifyProc_procSet, if_neg hj] at this
        exact ⟨this.2.1.trans (hS j hr).2.1, this.2.2.trans (hS j hr).2.2⟩
      · have := hc _ (by rw [Kernel.modifyProc_procSet, if_pos rfl]; exact (hS _ (hk h0)).1)
        rw [Kernel.modifyProc_procSet, if_pos rfl] at this
        rw [if_pos ⟨hb, hec⟩, this.2.1, (hS _ (hk h0)).2.1]
        exact ⟨rfl, this.2.2.trans (hS _ (hk h0)).2.2⟩
    · rename_i hec
      dsimp only at hs
      split at hs
      · exact trapHandler_ctx_of_kept hk ((CtxKept.emit (.refl s) _).trans
          ((procFree_ctxKept _ _).trans (procYield_ctxKept hs))) fun he => hec ⟨he.2.1, he.2.2⟩
      · cases hs

/-- Saving the trapped context writes it into the slot of the trapping core. -/
theorem saveContext_procSet (s : Kernel) (t : Trap) (j : Nat) :
    (saveContext s t).procSet j = if j = s.coreToProcIdx t.hart then
      { s.procSet j with mepc := t.ctx.mepc, savedRegisters := t.ctx.regs } else s.procSet j := by
  simp only [saveContext, Kernel.modifyProc_procSet, Kernel.currIdx]
  split <;> simp_all

/-- A kernel entry from a state with the invariant, on a core that runs a process or takes an
interrupt. Every slot but the trapping one that is not ready keeps its context; the trapping slot
holds the trapped context, with `mepc` past the `ecall`; and the entry ends by restoring the
context of the slot the core points at. -/
theorem kernelEntry_ctx (h : Inv cfg s fun _ => True) {t : Trap}
    (hp : t.mcause.getLsbD 31 = false → s.coreToProcIdx t.hart ≠ 0)
    (he : kernelEntry cfg s t = .ok s') :
    (∀ j, j ≠ s.coreToProcIdx t.hart → (s.procSet j).status ≠ .ready →
      (s'.procSet j).mepc = (s.procSet j).mepc ∧
      (s'.procSet j).savedRegisters = (s.procSet j).savedRegisters) ∧
    (s.coreToProcIdx t.hart ≠ 0 →
      (s'.procSet (s.coreToProcIdx t.hart)).mepc =
        (if t.IsEcall then t.ctx.mepc + 4 else t.ctx.mepc) ∧
      (s'.procSet (s.coreToProcIdx t.hart)).savedRegisters = t.ctx.regs) ∧
    s'.log.getLast? = some (.restore t.hart ⟨(s'.procSet (s'.coreToProcIdx t.hart)).mepc,
      (s'.procSet (s'.coreToProcIdx t.hart)).savedRegisters⟩) := by
  obtain ⟨s₁, h₁, rfl⟩ : ∃ s₁, trapHandler cfg (saveContext s t) t = .ok s₁ ∧
      s' = restoreContext s₁ := by
    unfold kernelEntry at he
    cases h₁ : trapHandler cfg (saveContext s t) t <;> simp_all [Except.map]
  have hS : (saveContext s t).currIdx = s.coreToProcIdx t.hart := rfl
  obtain ⟨hF, hC⟩ := trapHandler_ctx (h.of_ctl (saveContext_ctl s t)) (hS ▸ hp) h₁
  rw [hS] at hF hC
  refine ⟨fun j hj hr => ?_, fun h0 => ?_, ?_⟩
  · have := hF j hj (by rw [saveContext_procSet, if_neg hj]; exact hr)
    rw [saveContext_procSet, if_neg hj] at this
    exact this
  · have := hC h0
    rw [saveContext_procSet, if_pos rfl] at this
    exact this
  · have hc : s₁.coreInKernel = t.hart := trapHandler_coreInKernel h₁
    simp [restoreContext, Kernel.currIdx, hc]

/-- `PROC_RUNNABLE` or `PROC_PENDING_SYSCALL`: a process off the cores that has trapped before. -/
def Waiting (st : ProcStatus) : Prop := st = .runnable ∨ st = .pendingSyscall

/-- A waiting slot is not `PROC_READY`. -/
theorem Waiting.ne_ready {st : ProcStatus} (h : Waiting st) : st ≠ .ready := by
  rcases h with rfl | rfl <;> decide

/-- A waiting slot other than slot 0 is on no core. -/
theorem ne_coreToProcIdx_of_waiting {busy : Nat → Prop} (h : Inv cfg s busy) {j : Nat}
    (hj0 : j ≠ 0) (hw : Waiting (s.procSet j).status) (c : Nat) (hc : busy c) :
    j ≠ s.coreToProcIdx c := fun e => by
  have := h.core.running c hc (e ▸ hj0)
  rw [← e] at this
  rcases hw with hw | hw <;> rw [hw] at this <;> cases this

/-- `proc_alloc` leaves every slot that was not unused as it was. -/
theorem procAlloc_procSet_of_ne_unused {pid : Int} (h : procAlloc s = .ok (pid, s')) {j : Nat}
    (hj : (s.procSet j).status ≠ .unused) : s'.procSet j = s.procSet j := by
  obtain ⟨i, hi, -, rfl⟩ := procAlloc_eq_ok h
  have := List.find?_some hi
  simp only [Kernel.emit_procSet, Kernel.modifyProc_procSet]
  rw [if_neg fun e => by simp_all]

/-- A polite step keeps the context of every waiting slot but slot 0. -/
theorem step_ctx_waiting (h : Inv cfg s fun _ => True) {l : Step} (hp : Polite cfg s l)
    (hs : step cfg s l = .ok s') {j : Nat} (hj0 : j ≠ 0) (hw : Waiting (s.procSet j).status) :
    (s'.procSet j).mepc = (s.procSet j).mepc ∧
      (s'.procSet j).savedRegisters = (s.procSet j).savedRegisters := by
  cases l with
  | alloc =>
    cases ha : procAlloc s with
    | error => simp [step, ha, Except.map] at hs
    | ok r =>
      simp only [step, ha, Except.map, Except.ok.injEq] at hs
      subst hs
      rw [procAlloc_procSet_of_ne_unused ha (by rcases hw with e | e <;> rw [e] <;> decide)]
      exact ⟨rfl, rfl⟩
  | setReady pid =>
    cases hs
    unfold procSetReady
    split
    · rename_i i hi
      obtain ⟨hlt, hpid⟩ := findSlot_eq_some hi
      have hl := hp i hlt (by simpa using hpid)
      rw [Kernel.modifyProc_procSet, if_neg fun e => by rcases hw with hw | hw <;> simp_all]
      exact ⟨rfl, rfl⟩
    · exact ⟨rfl, rfl⟩
  | free pid =>
    cases hs
    exact (procFree_ctxKept s pid j hw.ne_ready).2
  | sleep => exact hp.elim
  | trap t =>
    simp only [step] at hs
    split at hs
    · exact (kernelEntry_ctx h (hp ‹_›) hs).1 j
        (ne_coreToProcIdx_of_waiting h hj0 hw _ trivial) hw.ne_ready
    · cases hs; exact ⟨rfl, rfl⟩
  | tick =>
    cases hs
    split <;> exact ⟨rfl, rfl⟩

/-- A polite run from `s` to `s'` along which slot `j` is runnable or blocked in every state. -/
inductive Parked (cfg : Config) (j : Nat) : Kernel → Kernel → Prop
  | refl {s : Kernel} : Waiting (s.procSet j).status → Parked cfg j s s
  | step {s s₁ s₂ : Kernel} {l : Step} : Parked cfg j s s₁ → Polite cfg s₁ l →
      step cfg s₁ l = .ok s₂ → Waiting (s₂.procSet j).status → Parked cfg j s s₂

/-- A parked slot keeps its context over the whole run. -/
theorem Parked.ctx (hall : cfg.gpidAll ≤ 0) {j : Nat} (hj0 : j ≠ 0) (hs : PoliteReach cfg s)
    (h : Parked cfg j s s') :
    PoliteReach cfg s' ∧ Waiting (s'.procSet j).status ∧
      (s'.procSet j).mepc = (s.procSet j).mepc ∧
      (s'.procSet j).savedRegisters = (s.procSet j).savedRegisters := by
  induction h with
  | refl hw => exact ⟨hs, hw, rfl, rfl⟩
  | step _ hp hst hw ih =>
    obtain ⟨h₁, hw₁, m₁, g₁⟩ := ih
    have ⟨m₂, g₂⟩ := step_ctx_waiting (h₁.inv hall) hp hst hj0 hw₁
    exact ⟨h₁.step hp hst, hw, m₂.trans m₁, g₂.trans g₁⟩

end Ctx

/-- Over polite runs: a kernel entry of the process in slot `j` saves the trapped context, with
`mepc` past an `ecall`. The entry restores that context if it dispatches `j` again at once;
otherwise `j` waits, and the kernel entry that next dispatches it restores the same context,
whatever entries, retries and primings ran in between. -/
theorem context_saved_and_restored {cfg : Config} {s s₁ : Kernel} {t : Trap}
    (hall : cfg.gpidAll ≤ 0) (h : PoliteReach cfg s) (hp : Polite cfg s (.trap t))
    (ht : t.hart < cfg.ncores) (hk : s.coreToProcIdx t.hart ≠ 0)
    (he : step cfg s (.trap t) = .ok s₁) :
    (s₁.coreToProcIdx t.hart = s.coreToProcIdx t.hart →
      s₁.log.getLast? = some (.restore t.hart
        ⟨if t.IsEcall then t.ctx.mepc + 4 else t.ctx.mepc, t.ctx.regs⟩)) ∧
    ∀ s₂ s₃ t', Parked cfg (s.coreToProcIdx t.hart) s₁ s₂ → Polite cfg s₂ (.trap t') →
      t'.hart < cfg.ncores → step cfg s₂ (.trap t') = .ok s₃ →
      s₃.coreToProcIdx t'.hart = s.coreToProcIdx t.hart →
      s₃.log.getLast? = some (.restore t'.hart
        ⟨if t.IsEcall then t.ctx.mepc + 4 else t.ctx.mepc, t.ctx.regs⟩) := by
  simp only [step, if_pos ht] at he
  obtain ⟨-, hC, hR⟩ := kernelEntry_ctx (h.inv hall) (hp ht) he
  obtain ⟨m₁, g₁⟩ := hC hk
  refine ⟨fun e => by rw [hR, e, m₁, g₁], fun s₂ s₃ t' hpk hp' ht' he' e => ?_⟩
  obtain ⟨h₂, hw₂, m₂, g₂⟩ := hpk.ctx hall hk (h.step hp (by simp only [step, if_pos ht]; exact he))
  simp only [step, if_pos ht'] at he'
  obtain ⟨hF, -, hR'⟩ := kernelEntry_ctx (h₂.inv hall) (hp' ht') he'
  obtain ⟨m₃, g₃⟩ := hF _ (ne_coreToProcIdx_of_waiting (h₂.inv hall) hk hw₂ _ trivial)
    hw₂.ne_ready
  rw [hR', e, m₃, g₃, m₂, g₂, m₁, g₁]

/-- Pid 1 traps in `sys_recv` on core 0 of `sampleConfig` right after its first dispatch. -/
theorem context_saved_and_restored_at_recv :
    ∃ s t s₁, PoliteReach sampleConfig s ∧ Polite sampleConfig s (.trap t) ∧
      t.hart < sampleConfig.ncores ∧ s.coreToProcIdx t.hart ≠ 0 ∧
      step sampleConfig s (.trap t) = .ok s₁ ∧
      (s₁.coreToProcIdx t.hart = s.coreToProcIdx t.hart →
        s₁.log.getLast? = some (.restore t.hart
          ⟨if t.IsEcall then t.ctx.mepc + 4 else t.ctx.mepc, t.ctx.regs⟩)) ∧
      ∀ s₂ s₃ t', Parked sampleConfig (s.coreToProcIdx t.hart) s₁ s₂ →
        Polite sampleConfig s₂ (.trap t') → t'.hart < sampleConfig.ncores →
        step sampleConfig s₂ (.trap t') = .ok s₃ →
        s₃.coreToProcIdx t'.hart = s.coreToProcIdx t.hart →
        s₃.log.getLast? = some (.restore t'.hart
          ⟨if t.IsEcall then t.ctx.mepc + 4 else t.ctx.mepc, t.ctx.regs⟩) := by
  obtain ⟨s, hs, hp⟩ := politeReach_of_run sampleConfig
    (l := [.alloc, .alloc, .setReady 1, .setReady 2, timerOn 0])
    (p := fun s => decide (Polite sampleConfig s (recvOn 0 (-1))) && s.coreToProcIdx 0 != 0 &&
      (match step sampleConfig s (recvOn 0 (-1)) with | .ok _ => true | .error _ => false))
    (by decide)
  simp only [Bool.and_eq_true, decide_eq_true_eq, bne_iff_ne, ne_eq] at hp
  obtain ⟨⟨hpol, hk⟩, he⟩ := hp
  revert he
  cases he : step sampleConfig s (recvOn 0 (-1)) with
  | error => simp
  | ok s₁ =>
    intro _
    exact ⟨s, _, s₁, hs, hpol, by decide, hk,
      he, context_saved_and_restored (by decide) hs hpol (by decide) hk he⟩

/-- Core 0 runs pid 1 in slot 1 when `proc_free(1)` releases the slot; pid 2 gets it and runs on
core 1, where it traps in `sys_recv` at `mepc = 0x200`. A timer interrupt on core 0, which still
points at slot 1, saves `mepc = 0x100` over it, and when pid 3's send releases pid 2, core 1
resumes it at `0x100` and not at `0x204`. -/
theorem stale_core_overwrites_context :
    ∃ s, Reachable sampleConfig s ∧ s.coreToProcIdx 1 = 1 ∧ (s.procSet 1).pid = 2 ∧
      ∃ regs, s.log.getLast? = some (.restore 1 ⟨0x100, regs⟩) := by
  obtain ⟨s, hs, hp⟩ := reach_of_run sampleConfig
    (l := [.alloc, .setReady 1, timerOn 0, .free 1, .alloc, .setReady 2, .alloc, .setReady 3,
      timerOn 1, trapAt 1 excpIdEcallU ⟨0x200, fun _ => 2⟩ ⟨.sysRecv, -1, 0, [], .pending⟩,
      trapAt 0 0x80000007 ⟨0x100, fun _ => 1⟩ sampleConfig.zeroSyscall, sendOn 1 2 [7]])
    (p := fun s => s.coreToProcIdx 1 == 1 && (s.procSet 1).pid == 2 &&
      match s.log.getLast? with
      | some (.restore c ctx) => c == 1 && ctx.mepc == 0x100
      | _ => false)
    (by decide)
  simp only [Bool.and_eq_true, beq_iff_eq] at hp
  obtain ⟨⟨h₁, h₂⟩, h₃⟩ := hp
  refine ⟨s, hs, h₁, h₂, ?_⟩
  revert h₃
  cases s.log.getLast? with
  | none => simp
  | some e =>
    cases e with
    | restore c ctx =>
      obtain ⟨m, r⟩ := ctx
      simp only [Bool.and_eq_true, beq_iff_eq, and_imp]
      rintro rfl rfl
      exact ⟨r, rfl⟩
    | _ => simp

end EgosGrass

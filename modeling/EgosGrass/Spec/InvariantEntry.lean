import EgosGrass.Spec.InvariantTrap

/-!
# The invariant over polite runs

`proc_yield` on core `c` takes `Inv cfg s (· ≠ c)` to the full invariant (`Inv.procYield`): its
prologue takes `c`'s process out of `PROC_RUNNING`, its scans are `ScanStep`s, and it ends by
pointing `c` at a slot it marks running (`Inv.dispatch`) or at none (`Inv.idle`). The trap
handlers reach `proc_yield` with `c` exempt: a timer interrupt charges the current process, an
`ecall` blocks it and tries its call once (`Inv.block`), a user fault frees it.

With `GPID_ALL` not a pid (`cfg.gpidAll ≤ 0`), every polite step keeps the invariant
(`Inv.step`), so every state of a polite run satisfies it (`PoliteReach.inv`).
-/

namespace EgosGrass

/-- Pointing a core at a slot in two states with the same control view gives the same view. -/
theorem Kernel.ctl_setCoreIdx_congr {s s' : Kernel} {c k : Nat} (h : s'.ctl = s.ctl) :
    (s'.setCoreIdx c k).ctl = (s.setCoreIdx c k).ctl := by
  obtain ⟨hp, hs, hr, hw, hc, hn⟩ := Kernel.ctl_eq h
  simp only [Kernel.ctl, Kernel.setCoreIdx, hp, hs, hr, hw, hc, hn]

section Yield

variable {cfg : Config} {s s' : Kernel} {c k : Nat} {tty : Bool}

/-- `proc_set_running` reads only the control view to choose its slot. -/
theorem procSetRunning_ctl_congr (pid : Int) (h : s'.ctl = s.ctl) :
    (procSetRunning s' pid).ctl = (procSetRunning s pid).ctl := by
  have hf : findSlot s'.procSet (fun p => p.pid == pid) = findSlot s.procSet (fun p => p.pid == pid) :=
    findSlot_congr fun i => by rw [(Kernel.ctl_eq h).1]
  cases hs : findSlot s.procSet (fun p => p.pid == pid) with
  | none => simp only [procSetRunning, hs, hf.trans hs, h]
  | some i =>
    rw [procSetRunning_ctl hs, procSetRunning_ctl (hf.trans hs)]
    exact Kernel.ctl_withStatus_congr h

/-- Stamping the chosen slot's schedule times keeps the control view. -/
theorem stampNext_ctl (cfg : Config) (s : Kernel) (k : Nat) : (stampNext cfg s k).ctl = s.ctl := by
  unfold stampNext
  dsimp only
  rw [Kernel.ctl_emit]
  exact Kernel.ctl_modifyProc fun _ => ⟨rfl, rfl, rfl, rfl⟩

/-- Priming a `PROC_READY` slot's context keeps the control view. -/
theorem primeIfReady_ctl (cfg : Config) (s : Kernel) (k : Nat) : (primeIfReady cfg s k).ctl = s.ctl := by
  unfold primeIfReady
  split
  · exact Kernel.ctl_modifyProc fun _ => .refl _
  · rfl

/-- Pointing the exempt core at a slot no other core points to. -/
theorem Inv.setCoreIdx (h : Inv cfg s (· ≠ c)) (hc : c < cfg.ncores) (hk : k < maxNProcess)
    (hfree : k ≠ 0 → ∀ d, d ≠ c → s.coreToProcIdx d ≠ k) :
    Inv cfg (s.setCoreIdx c k) (· ≠ c) :=
  ⟨⟨h.pid.counter, h.pid.nonneg, h.pid.le_counter, h.pid.unique, h.pid.zero_unused, h.pid.beyond,
      h.pid.idle⟩,
    h.core.setCoreIdx hc hk hfree,
    ⟨h.ipc.no_sleep, h.ipc.last_slot, h.ipc.delivered, h.ipc.sender_unique⟩⟩

/-- Switching to a live slot below `MAX_NPROCESS` that holds its pid alone: the core points at it
and it runs. -/
theorem switchTo_ctl (cfg : Config) (h : PidInv s) (hk : k < maxNProcess)
    (hl : (s.procSet k).status ≠ .unused) :
    (switchTo cfg s k).ctl = ((s.setCoreIdx s.coreInKernel k).withStatus k .running).ctl := by
  dsimp only [switchTo]
  rw [Kernel.ctl_emit, (Kernel.ctl_eq (primeIfReady_ctl cfg _ k)).1 k,
    procSetRunning_ctl_congr _ (primeIfReady_ctl cfg _ k)]
  exact (procSetRunning_ctl (s := ((s.setCoreIdx s.coreInKernel k).emit _).emit _)
    (h.findSlot_pid hk hl)).trans (Kernel.ctl_withStatus_congr rfl)

/-- Switching the exempt core to a ready slot below `MAX_NPROCESS`: the core points at it and it
runs, so every core is held again. -/
theorem Inv.switched (h : Inv cfg s (· ≠ s.coreInKernel)) (hc : s.coreInKernel < cfg.ncores)
    (hk : k < maxNProcess) (hr : isReady (s.procSet k) = true) :
    Inv cfg (switchTo cfg s k) fun _ => True := by
  have hst : (s.procSet k).status = .ready ∨ (s.procSet k).status = .runnable := by
    simpa [isReady] using hr
  have hl : (s.procSet k).status ≠ .unused := by rcases hst with e | e <;> rw [e] <;> decide
  have h₁ := h.setCoreIdx hc hk fun _ d hd e => by
    have := h.core.running d hd (by omega); rw [e] at this
    rcases hst with e' | e' <;> rw [e'] at this <;> cases this
  have h₂ : Inv cfg ((s.setCoreIdx s.coreInKernel k).withStatus k .running) (· ≠ s.coreInKernel) :=
    h₁.withStatus (fun h0 => absurd h0 (h.pid.pos_of_live hl).ne') (fun _ _ _ _ => rfl)
      (fun e => by omega) (fun e => by cases e) (.inr fun r _ hr e => by
        rcases (h₁.ipc.delivered r hr).2.2.2 k hk e.symm with hu | ⟨hp, -⟩
        · exact hl hu
        · rcases hst with e' | e' <;> simp only [Kernel.setCoreIdx_procSet, e'] at hp <;> cases hp)
  have hctl := switchTo_ctl cfg h.pid hk hl
  have h₃ := h₂.of_ctl hctl
  refine ⟨h₃.pid, h₃.core.close fun _ => ?_, h₃.ipc⟩
  obtain ⟨-, hs, -, -, hc', -⟩ := Kernel.ctl_eq hctl
  simp [hc', hs, Kernel.withStatus_status]

/-- Dispatching a ready slot on the exempt core restores `Inv` for every core. -/
theorem Inv.dispatch (h : Inv cfg s (· ≠ s.coreInKernel)) (hc : s.coreInKernel < cfg.ncores)
    (hk : k < maxNProcess) (hr : isReady (s.procSet k) = true) :
    Inv cfg (dispatch cfg s k) fun _ => True := by
  obtain ⟨-, hs, -⟩ := Kernel.ctl_eq (stampNext_ctl cfg s k)
  exact Inv.switched (h.of_ctl (stampNext_ctl cfg s k)) hc hk (by simpa [isReady, hs] using hr)

/-- `Inv` for every core holds with any core exempt. -/
theorem Inv.exempt (h : Inv cfg s fun _ => True) : Inv cfg s (· ≠ c) :=
  ⟨h.pid, h.core.mono fun _ _ => trivial, h.ipc⟩

/-- Sending the exempt core idle restores `Inv` for every core. -/
theorem Inv.idle (h : Inv cfg s (· ≠ s.coreInKernel)) (hc : s.coreInKernel < cfg.ncores) :
    Inv cfg (goIdle s) fun _ => True := by
  have h₁ : Inv cfg (goIdle s) (· ≠ s.coreInKernel) :=
    Inv.of_ctl (s := s.setCoreIdx s.coreInKernel 0) rfl
      (h.setCoreIdx hc (by decide) fun h0 => absurd rfl h0)
  exact ⟨h₁.pid, h₁.core.close fun h0 => absurd (by simp [goIdle]) h0, h₁.ipc⟩

/-- `proc_set_runnable` and `proc_set_pending` keep the core in the kernel. -/
@[simp] theorem procLeaveRunning_coreInKernel (st : ProcStatus) (s : Kernel) (pid : Int) :
    (procLeaveRunning st s pid).coreInKernel = s.coreInKernel := by
  unfold procLeaveRunning; split <;> rfl

/-- `mlfq_reset_level` keeps the core in the kernel. -/
@[simp] theorem mlfqResetLevel_coreInKernel (s : Kernel) :
    (mlfqResetLevel cfg s tty).coreInKernel = s.coreInKernel := by
  unfold mlfqResetLevel periodicReset shellBoost
  split <;> split <;> (try split) <;> rfl

/-- The prologue of `proc_yield` keeps the core in the kernel. -/
@[simp] theorem yieldPrologue_coreInKernel (s : Kernel) :
    (yieldPrologue cfg s tty).coreInKernel = s.coreInKernel := by
  simp only [yieldPrologue, mlfqResetLevel_coreInKernel]
  split <;> simp [procSetRunnable]

/-- The prologue of `proc_yield`: a running current process becomes runnable. -/
theorem Inv.prologue (h : Inv cfg s (· ≠ s.coreInKernel)) :
    Inv cfg (yieldPrologue cfg s tty) (· ≠ s.coreInKernel) := by
  unfold yieldPrologue
  refine Inv.of_ctl (mlfqResetLevel_ctl cfg _ tty) ?_
  split
  · rename_i hrun
    have hl : (s.procSet s.currIdx).status ≠ .unused := by rw [hrun]; decide
    have hk : s.currIdx < maxNProcess := h.core.bound s.coreInKernel
    refine Inv.of_ctl (procLeaveRunning_ctl _ (h.pid.findSlot_pid hk hl)) <|
      h.withStatus (fun h0 => absurd h0 (h.pid.pos_of_live hl).ne')
        (fun d hd h0 e => absurd (h.core.injective d _ hd e) h0) (fun e => by omega)
        (fun e => by cases e) (.inr fun r _ hr e => ?_)
    rcases (h.ipc.delivered r hr).2.2.2 _ hk e.symm with hu | ⟨hp, -⟩
    · exact hl hu
    · rw [hrun] at hp; cases hp
  · exact h

/-- `proc_yield` on the exempt core leaves every core held. -/
theorem Inv.procYield (h : Inv cfg s (· ≠ c)) (hcs : s.coreInKernel = c) (hc : c < cfg.ncores)
    (hy : procYield cfg s tty = .ok s') : Inv cfg s' fun _ => True := by
  subst hcs
  obtain ⟨⟨s₂, k⟩, h₁, h₂⟩ := bind_eq_ok.1 hy
  obtain ⟨hs, hk⟩ := pickNext_step h₁
  have hcore : s₂.coreInKernel = s.coreInKernel := hs.core.trans (yieldPrologue_coreInKernel s)
  have hinv : Inv cfg s₂ (· ≠ s₂.coreInKernel) := hcore ▸ hs.inv _ h.prologue
  rw [← hcore] at hc
  dsimp only at h₂
  split at h₂ <;> cases h₂
  · exact hinv.dispatch hc ‹_› (hk.resolve_left (by omega)).2
  · exact hinv.idle hc

end Yield

/-! ## Trap handlers -/

section Entry

variable {cfg : Config} {s s' : Kernel} {tty : Bool} {rec : Syscall}

/-- Saving the trapped context keeps the control view. -/
theorem saveContext_ctl (s : Kernel) (t : Trap) : (saveContext s t).ctl = s.ctl := by
  unfold saveContext
  exact Kernel.ctl_modifyProc fun _ => ⟨rfl, rfl, rfl, rfl⟩

/-- `proc_free` keeps the core in the kernel. -/
@[simp] theorem procFree_coreInKernel (s : Kernel) (pid : Int) :
    (procFree cfg s pid).coreInKernel = s.coreInKernel := by
  unfold procFree
  split
  · split <;> rfl
  · induction lowSlots generalizing s with
    | nil => rfl
    | cons i l ih => rw [List.foldl_cons, ih]; split <;> rfl

/-- A record collectable after a record is written into a slot that was not blocked was collectable
before, in another slot. -/
theorem Collectable.of_withSyscall {k r : Nat} {m : Syscall}
    (hk : (s.procSet k).status ≠ .pendingSyscall) (hr : Collectable (s.withSyscall k m) r) :
    Collectable s r ∧ r ≠ k := by
  obtain ⟨h1, h2⟩ := hr
  rw [Kernel.withSyscall_status] at h1
  have hrk : r ≠ k := fun e => hk (e ▸ h1)
  rw [Kernel.withSyscall_syscall, if_neg hrk] at h2
  exact ⟨⟨h1, h2⟩, hrk⟩

/-- The start of an `ecall` on a slot below `MAX_NPROCESS` that holds its pid alone: the record
is written and the slot blocked. -/
theorem blockCaller_ctl (rec : Syscall) (h : PidInv s) (hk : s.currIdx < maxNProcess)
    (hl : (s.procSet s.currIdx).status ≠ .unused) :
    (blockCaller s rec).ctl = ((s.withSyscall s.currIdx { rec with status := .pending }).withStatus
      s.currIdx .pendingSyscall).ctl := by
  unfold blockCaller
  dsimp only
  rw [Kernel.ctl_modifyProc (f := fun p => { p with mepc := p.mepc + 4 })
    fun _ => ⟨rfl, rfl, rfl, rfl⟩]
  exact procLeaveRunning_ctl _ (h.withSyscall.findSlot_pid hk (by simpa using hl))

/-- The start of an `ecall` on a core that runs a process: the record is copied in and the
caller is blocked. -/
theorem Inv.block (rec : Syscall) (h : Inv cfg s fun _ => True) (h0 : s.currIdx ≠ 0) :
    Inv cfg (blockCaller s rec) (· ≠ s.coreInKernel) ∧
      ((blockCaller s rec).procSet s.currIdx).status = .pendingSyscall := by
  have hrun : (s.procSet s.currIdx).status = .running := h.core.running _ trivial h0
  have hl : (s.procSet s.currIdx).status ≠ .unused := by rw [hrun]; decide
  have hk : s.currIdx < maxNProcess := h.core.bound s.coreInKernel
  -- no collectable receiver names the caller, which runs
  have hfree : ∀ r, Collectable s r → (s.procSet r).syscall.sender ≠ (s.procSet s.currIdx).pid :=
    fun r hr e => by
      rcases (h.ipc.delivered r hr).2.2.2 _ hk e.symm with hu | ⟨hp, -⟩
      · exact hl hu
      · rw [hrun] at hp; cases hp
  have hnp : (s.procSet s.currIdx).status ≠ .pendingSyscall := by rw [hrun]; decide
  have h₁ := (h.withSyscall (m := { rec with status := .pending }) (h.ipc.withSyscall hnp hfree)).exempt
    (c := s.coreInKernel)
  have h₂ : Inv cfg ((s.withSyscall s.currIdx { rec with status := .pending }).withStatus
      s.currIdx .pendingSyscall) (· ≠ s.coreInKernel) := h₁.withStatus
    (fun h0 => absurd h0 (by simpa using (h.pid.pos_of_live hl).ne'))
    (fun d hd h0 e => absurd (h.core.injective d _ hd e) h0) (fun e => by omega)
    (fun _ => .inl (by simp)) (.inr fun r _ hr e => by
      obtain ⟨hr, -⟩ := hr.of_withSyscall hnp
      rw [Kernel.withSyscall_syscall, if_neg ‹_›, Kernel.withSyscall_pid] at e
      exact hfree r hr e)
  have hctl := blockCaller_ctl rec h.pid hk hl
  refine ⟨h₂.of_ctl hctl, ?_⟩
  rw [(Kernel.ctl_eq hctl).2.1, Kernel.withStatus_status, if_pos rfl]

/-- An `ecall` on a core that runs a process: the caller is blocked and its call tried once, and
the core is exempt until `proc_yield`. -/
theorem Inv.syscall (h : Inv cfg s fun _ => True) (h0 : s.currIdx ≠ 0)
    (he : ecall cfg s rec = .ok s') :
    Inv cfg s' (· ≠ s.coreInKernel) ∧ s'.coreInKernel = s.coreInKernel := by
  obtain ⟨h₁, hp⟩ := h.block rec h0
  have hr : retry cfg (blockCaller s rec) s.currIdx = .ok s' := by
    rw [retry, if_pos hp]; exact he
  exact ⟨(retry_step hr).inv _ h₁, (retry_step hr).core.trans (by simp [blockCaller, procSetPending])⟩

/-- The state `kernel_entry` hands to `proc_yield` for trap `t`: `intr_entry` or `excp_entry` up
to its call of `proc_yield`. -/
def yieldArg (cfg : Config) (s : Kernel) (t : Trap) : Except Halt Kernel :=
  if t.mcause.getLsbD 31 then
    if t.mcause &&& 0x3FF ≠ intrIdTimer then .error (.kernelInterrupt (t.mcause &&& 0x3FF), s)
    else .ok (if 0 < s.currIdx ∧ s.currIdx ≤ maxNProcess then
      s.modifyProc s.currIdx (timerCharge (mtimeGet s)) else s)
  else if excpIdEcallU ≤ t.mcause ∧ t.mcause ≤ excpIdEcallM then ecall cfg s t.syscall
  else
    let pid := (s.procSet s.currIdx).pid
    if pid ≥ cfg.gpidUserStart then .ok (procFree cfg (s.emit (.killed pid t.mcause)) pid)
    else .error (.kernelException t.mcause, s)

/-- Both handlers end in `proc_yield`. -/
theorem trapHandler_eq_bind (s : Kernel) (t : Trap) :
    trapHandler cfg s t = yieldArg cfg s t >>= fun y => procYield cfg y t.ttyEmpty := by
  unfold trapHandler yieldArg intrEntry excpEntry
  split
  · split <;> simp only [bind, Except.bind]
  · split
    · rfl
    · dsimp only
      split <;> simp only [bind, Except.bind]

/-- `kernel_entry` on a core that runs a process, or on a timer interrupt, reaches `proc_yield`
with that core exempt: a timer interrupt charges the current process, an `ecall` blocks it and
tries its call once, and a user fault frees it. -/
theorem Inv.atYield (hall : cfg.gpidAll ≤ 0) (h : Inv cfg s fun _ => True) {t : Trap} {y : Kernel}
    (hp : t.mcause.getLsbD 31 = false → s.currIdx ≠ 0) (hy : yieldArg cfg s t = .ok y) :
    Inv cfg y (· ≠ s.coreInKernel) ∧ y.coreInKernel = s.coreInKernel := by
  unfold yieldArg at hy
  split at hy
  · split at hy
    · cases hy
    · cases hy
      split
      · exact ⟨(h.of_ctl (Kernel.ctl_modifyProc fun p => timerCharge_sameCtl _ p)).exempt, rfl⟩
      · exact ⟨h.exempt, rfl⟩
  · rename_i hb
    have h0 := hp (by simpa using hb)
    split at hy
    · exact h.syscall h0 hy
    · dsimp only at hy
      split at hy
      · -- a user fault frees the current process, which only this core runs
        cases hy
        have hpos : 0 < (s.procSet s.currIdx).pid := h.pid.pos_of_live (h.core.live trivial h0)
        have h₁ : Inv cfg (s.emit (.killed (s.procSet s.currIdx).pid t.mcause)) (· ≠ s.coreInKernel) :=
          Inv.of_ctl (s := s) rfl h.exempt
        exact ⟨h₁.freePid (by omega) fun d hd hd0 e => hd0
          (h.core.injective d _ hd (h.pid.unique _ _ e fun h0 => hpos.ne' (e.symm.trans h0))),
          by simp⟩
      · cases hy

/-- Handing the context back to `mret` keeps the control view. -/
theorem restoreContext_ctl (s : Kernel) : (restoreContext s).ctl = s.ctl := rfl

/-- A successful kernel entry runs the handler from the saved state and restores. -/
theorem kernelEntry_ok {t : Trap} (he : kernelEntry cfg s t = .ok s') :
    ∃ s₁, trapHandler cfg (saveContext s t) t = .ok s₁ ∧ s' = restoreContext s₁ := by
  unfold kernelEntry at he
  cases h₁ : trapHandler cfg (saveContext s t) t <;> simp_all [Except.map]

/-- `kernel_entry` on a core below `NCORES`; an exception comes from a core that runs a
process. -/
theorem Inv.entry (hall : cfg.gpidAll ≤ 0) (h : Inv cfg s fun _ => True) {t : Trap}
    (hc : t.hart < cfg.ncores) (hp : t.mcause.getLsbD 31 = false → s.coreToProcIdx t.hart ≠ 0)
    (he : kernelEntry cfg s t = .ok s') : Inv cfg s' fun _ => True := by
  obtain ⟨s₁, h₁, rfl⟩ := kernelEntry_ok he
  rw [trapHandler_eq_bind] at h₁
  obtain ⟨y, hy, hy'⟩ := bind_eq_ok.1 h₁
  obtain ⟨hi, hcore⟩ := (h.of_ctl (saveContext_ctl s t)).atYield hall hp hy
  exact Inv.of_ctl (restoreContext_ctl _) (hi.procYield hcore hc hy')

/-- The boot state satisfies `Inv` for every core. -/
theorem Inv.initial (cfg : Config) : Inv cfg (init cfg) fun _ => True :=
  ⟨⟨by simp [init], fun _ => le_rfl, fun _ => by simp [init, blank], fun _ _ _ h => absurd rfl h,
      fun _ _ => rfl, fun _ _ => rfl, rfl⟩,
    ⟨fun _ => (by decide : 0 < maxNProcess), fun _ _ => rfl, fun _ _ h => absurd rfl h,
      fun _ _ _ _ => rfl⟩,
    ⟨fun _ => rfl, .inl rfl, fun _ hr => (by cases hr.1), fun _ _ hr => (by cases hr.1)⟩⟩

/-- Every polite step keeps the invariant. -/
theorem Inv.of_polite (hall : cfg.gpidAll ≤ 0) (h : Inv cfg s fun _ => True) {l : Step}
    (hp : Polite cfg s l) (hs : step cfg s l = .ok s') : Inv cfg s' fun _ => True := by
  cases l with
  | alloc =>
    cases ha : procAlloc s with
    | error => simp [step, ha, Except.map] at hs
    | ok r =>
      simp only [step, ha, Except.map, Except.ok.injEq] at hs
      subst hs
      exact h.alloc hp ha
  | setReady pid => cases hs; exact h.setReady hp
  | free pid => cases hs; exact h.free hp
  | sleep => exact hp.elim
  | trap t =>
    simp only [step] at hs
    split at hs
    · exact h.entry hall ‹_› (hp ‹_›) hs
    · cases hs; exact h
  | tick now =>
    cases hs
    exact h.of_ctl (by split <;> rfl)

/-- Every state of a polite run satisfies the invariant. -/
theorem PoliteReach.inv (hall : cfg.gpidAll ≤ 0) (h : PoliteReach cfg s) :
    Inv cfg s fun _ => True := by
  induction h with
  | init => exact .initial cfg
  | step _ hp hs ih => exact ih.of_polite hall hp hs

/-! ## What the invariant says about the table -/

/-- Over every polite run, pids identify processes: no two slots hold the same nonzero pid, every
slot in use holds a pid between 1 and the counter, and slot 0 and the slots beyond
`MAX_NPROCESS` stay unused. -/
theorem polite_pids_identify_slots (hall : cfg.gpidAll ≤ 0) (h : PoliteReach cfg s) :
    (∀ i j, (s.procSet i).pid = (s.procSet j).pid → (s.procSet i).pid ≠ 0 → i = j) ∧
    (∀ i, (s.procSet i).status ≠ .unused →
      0 < (s.procSet i).pid ∧ (s.procSet i).pid ≤ s.currPid.toNat) ∧
    (s.procSet 0).status = .unused ∧ ∀ i, maxNProcess < i → (s.procSet i).status = .unused := by
  have hp := (h.inv hall).pid
  exact ⟨hp.unique, fun i hi => ⟨hp.pos_of_live hi, hp.le_counter i⟩, hp.zero_unused 0 hp.idle,
    fun i hi => hp.zero_unused i (hp.beyond i hi)⟩

/-- Three processes, the second freed and its slot handed to pid 4. -/
theorem polite_pids_identify_slots_after_reuse :
    ∃ s, PoliteReach sampleConfig s ∧ (s.procSet 2).pid = 4 ∧
      (∀ i j, (s.procSet i).pid = (s.procSet j).pid → (s.procSet i).pid ≠ 0 → i = j) ∧
      (∀ i, (s.procSet i).status ≠ .unused →
        0 < (s.procSet i).pid ∧ (s.procSet i).pid ≤ s.currPid.toNat) ∧
      (s.procSet 0).status = .unused ∧ ∀ i, maxNProcess < i → (s.procSet i).status = .unused := by
  obtain ⟨s, hs, hp⟩ := politeReach_of_run sampleConfig
    (l := [.alloc, .alloc, .alloc, .setReady 1, .setReady 2, timerOn 0, .free 2, .alloc])
    (p := fun s => (s.procSet 2).pid == 4) (by decide)
  exact ⟨s, hs, beq_iff_eq.1 hp, polite_pids_identify_slots (by decide) hs⟩

/-- Over every polite run, a sent message waits in one receiver at most. A receiver blocked with
a delivered record names a positive pid below the counter, and every slot below
`MAX_NPROCESS` holding that pid is unused or still blocked in its `SYS_SEND` to that receiver,
with the message the receiver holds; no two such receivers name the same sender. -/
theorem polite_messages_wait_once (hall : cfg.gpidAll ≤ 0) (h : PoliteReach cfg s) :
    (∀ r, Collectable s r → Delivered s r) ∧
    ∀ r r', Collectable s r → Collectable s r' →
      (s.procSet r).syscall.sender = (s.procSet r').syscall.sender → r = r' :=
  ⟨(h.inv hall).ipc.delivered, (h.inv hall).ipc.sender_unique⟩

/-- Pid 2 sends to pid 1 while pid 1 runs; once pid 1 calls `sys_recv(GPID_ALL)`, the scan of its
`proc_yield` delivers the message into its record, and pid 1 waits with it. -/
theorem polite_messages_wait_once_at_delivery :
    ∃ s, PoliteReach sampleConfig s ∧ Collectable s 1 ∧
      (∀ r, Collectable s r → Delivered s r) ∧
      ∀ r r', Collectable s r → Collectable s r' →
        (s.procSet r).syscall.sender = (s.procSet r').syscall.sender → r = r' := by
  obtain ⟨s, hs, hp⟩ := politeReach_of_run sampleConfig
    (l := [.alloc, .alloc, .alloc, .alloc, .setReady 1, .setReady 2, .setReady 3, .setReady 4,
      timerOn 0, timerOn 1, sendOn 1 1 [7], recvOn 0 (-1)])
    (p := fun s => (s.procSet 1).status == .pendingSyscall && (s.procSet 1).syscall.status == .done)
    (by decide)
  simp only [Bool.and_eq_true, beq_iff_eq] at hp
  exact ⟨s, hs, hp, polite_messages_wait_once (by decide) hs⟩

end Entry

end EgosGrass

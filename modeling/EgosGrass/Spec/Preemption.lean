import EgosGrass.Spec.Release
import EgosGrass.Spec.Cores
import EgosGrass.Spec.Pids

/-!
# How a kernel entry hands its core back

Preemption rests on `earth->timer_reset(core_in_kernel)`, which `proc_yield` calls on both of
its exits, the dispatch and the idle branch. No other function of the kernel resets a timer. So
every call of `kernel_entry` that returns logs exactly one `timer_reset`: for the core that
trapped, never for another core (`entry_rearms_own_timer`).

`QuietLog s s'`: from `s` to `s'` the log only grows, and by no `timer_reset`. Every stage of an
entry before the exit of `proc_yield` is quiet: the trapped context is saved, a system call
copies a record out, `proc_free` reports and calls `mmu_free`, and the scans retry records.

The events an entry ends with are fixed by the slot its core points at afterwards
(`entry_exit_events`). At slot 0 the core idles. At any other slot, `mstatus.MPP`, the address
space and the restored context all come from that one slot: a process is never resumed in
another's page table, and it runs in user mode exactly when its pid is at least
`GPID_USER_START`.
-/

namespace EgosGrass

/-- Whether an event is `earth->timer_reset(c)`. -/
def Event.resetsTimer (c : Nat) : Event → Bool
  | .timerReset d => d == c
  | _ => false

/-- From `s` to `s'` the log only grows, and the number of `timer_reset` calls of every core stays
the same. -/
def QuietLog (s s' : Kernel) : Prop :=
  s.log <+: s'.log ∧ ∀ c, s'.log.countP (Event.resetsTimer c) = s.log.countP (Event.resetsTimer c)

section Quiet

variable {cfg : Config} {s s' s₁ s₂ : Kernel} {i k : Nat} {tty : Bool}

/-- A change that keeps the log is quiet. -/
theorem QuietLog.of_log (h : s'.log = s.log) : QuietLog s s' :=
  ⟨h ▸ List.prefix_refl _, fun _ => by rw [h]⟩

/-- No change is quiet. -/
theorem QuietLog.refl (s : Kernel) : QuietLog s s := .of_log rfl

/-- Quiet stretches compose. -/
theorem QuietLog.trans (h₁ : QuietLog s s₁) (h₂ : QuietLog s₁ s₂) : QuietLog s s₂ :=
  ⟨h₁.1.trans h₂.1, fun c => (h₂.2 c).trans (h₁.2 c)⟩

/-- Logging an event other than a `timer_reset`. -/
theorem QuietLog.emit (s : Kernel) {e : Event} (he : ∀ c, e.resetsTimer c = false) :
    QuietLog s (s.emit e) :=
  ⟨List.prefix_append _ _, fun c => by simp [Kernel.emit, he c]⟩

/-- The retry of a receiver logs a copy-out at most, never a `timer_reset`. -/
theorem procTryRecv_quiet (s : Kernel) (i : Nat) : QuietLog s (procTryRecv s i) := by
  dsimp only [procTryRecv]
  split
  · exact .refl s
  · exact ⟨by simp [procSetRunnable, Kernel.emit],
      fun c => by simp [procSetRunnable, Kernel.emit, Event.resetsTimer]⟩

/-- A retry that does not halt logs no `timer_reset`. -/
theorem procTrySyscall_quiet (h : procTrySyscall cfg s i = .ok s') : QuietLog s s' := by
  unfold procTrySyscall at h
  split at h
  · cases h; exact procTryRecv_quiet s i
  · dsimp only [procTrySend] at h
    split at h
    · split at h <;> cases h <;> exact .of_log rfl
    · cases h
  · cases h

/-- A step of the scans logs no `timer_reset`. -/
theorem retry_quiet (h : retry cfg s i = .ok s') : QuietLog s s' := by
  unfold retry at h
  split at h
  · exact procTrySyscall_quiet h
  · cases h; exact .refl s

/-- Waking a sleeper logs nothing. -/
theorem wakeUp_quiet (now : BitVec 64) (s : Kernel) (i : Nat) : QuietLog s (wakeUp now s i) := by
  dsimp only [wakeUp]
  split
  · exact .of_log rfl
  · exact .refl s

/-- The two scans of `proc_yield` log no `timer_reset`. -/
theorem pickNext_quiet {now : BitVec 64} (h : pickNext cfg now s = .ok (s', k)) : QuietLog s s' :=
  ScanRel.of_pickNext ⟨QuietLog.refl, QuietLog.trans, wakeUp_quiet now, retry_quiet⟩ h

/-- The prologue of `proc_yield` logs nothing. -/
theorem yieldPrologue_quiet (s : Kernel) : QuietLog s (yieldPrologue cfg s tty) :=
  .of_log <| by
    simp only [yieldPrologue, mlfqResetLevel_log]
    split <;> simp [procSetRunnable]

/-- `proc_free` logs reports and `mmu_free` calls, never a `timer_reset`. -/
theorem procFree_quiet (s : Kernel) (pid : Int) : QuietLog s (procFree cfg s pid) := by
  have hterm : ∀ s i, QuietLog s (terminate s i) := fun s i =>
    ((QuietLog.of_log rfl).trans (.emit _ fun _ => by rfl)).trans (.emit _ fun _ => by rfl)
  exact procFree_rel cfg QuietLog.refl QuietLog.trans (fun s i _ => (hterm s i).trans (.of_log rfl))
    (fun s i => (hterm s i).trans (.of_log rfl)) s pid

/-- The part of a kernel entry before `proc_yield` resets no timer. -/
theorem yieldArg_quiet {t : Trap} (h : yieldArg cfg s t = .ok s') : QuietLog s s' := by
  unfold yieldArg at h
  split at h
  · split at h <;> cases h
    split
    · exact .of_log rfl
    · exact .refl s
  · split at h
    · exact (QuietLog.of_log (by simp [blockCaller, procSetPending])).trans (procTrySyscall_quiet h)
    · dsimp only at h
      split at h <;> cases h
      exact (QuietLog.emit s fun _ => by rfl).trans (procFree_quiet _ _)

/-- The exits of `proc_yield`: one `timer_reset`, for the core in the kernel. -/
theorem procYield_resets (hy : procYield cfg s tty = .ok s') (c : Nat) :
    s.log <+: s'.log ∧ s'.log.countP (Event.resetsTimer c) =
      s.log.countP (Event.resetsTimer c) + if c = s.coreInKernel then 1 else 0 := by
  obtain ⟨⟨s₂, k⟩, h₁, h₂⟩ := bind_eq_ok.1 hy
  have q := (yieldPrologue_quiet s : QuietLog s (yieldPrologue cfg s tty)).trans (pickNext_quiet h₁)
  have hc : s₂.coreInKernel = s.coreInKernel :=
    (pickNext_step h₁).1.core.trans (yieldPrologue_coreInKernel s)
  rw [← q.2 c, ← hc]
  refine ⟨q.1.trans ?_, ?_⟩ <;> dsimp only at h₂ <;> split at h₂ <;> cases h₂
  · simp [dispatch, switchTo, stampNext, Kernel.emit]
  · simp [goIdle, Kernel.emit]
  · rcases eq_or_ne c s₂.coreInKernel with rfl | hne
    · simp [dispatch, switchTo, stampNext, Kernel.emit, Event.resetsTimer]
    · simp [dispatch, switchTo, stampNext, Kernel.emit, Event.resetsTimer, hne, hne.symm]
  · rcases eq_or_ne c s₂.coreInKernel with rfl | hne
    · simp [goIdle, Kernel.emit, Event.resetsTimer]
    · simp [goIdle, Kernel.emit, Event.resetsTimer, hne, hne.symm]

end Quiet

/-- Every call of `kernel_entry` that returns, from any state, on any trap: the log only grows,
and it gains exactly one `timer_reset`, for the core that trapped. No entry leaves its core's
timer unarmed, and none resets the timer of another core. -/
theorem entry_rearms_own_timer {cfg : Config} {s s' : Kernel} {t : Trap}
    (he : kernelEntry cfg s t = .ok s') :
    s.log <+: s'.log ∧ ∀ c, s'.log.countP (Event.resetsTimer c) =
      s.log.countP (Event.resetsTimer c) + if c = t.hart then 1 else 0 := by
  obtain ⟨s₁, h₁, rfl⟩ := kernelEntry_ok he
  have hc₁ : s₁.coreInKernel = t.hart := trapHandler_coreInKernel h₁
  rw [trapHandler_eq_bind] at h₁
  obtain ⟨y, hy, hy'⟩ := bind_eq_ok.1 h₁
  have q : QuietLog s y :=
    (QuietLog.of_log rfl : QuietLog s (saveContext s t)).trans (yieldArg_quiet hy)
  have hc : y.coreInKernel = t.hart := (procYield_coreInKernel hy').symm.trans hc₁
  refine ⟨q.1.trans ((procYield_resets hy' 0).1.trans (List.prefix_append _ _)), fun c => ?_⟩
  simp only [restoreContext, Kernel.emit, List.countP_append, (procYield_resets hy' c).2, q.2 c, hc]
  simp [Event.resetsTimer]

/-- Pid 1 runs on core 0; a timer interrupt on core 1 finds nothing to run, and re-arms the timer
of core 1 only. -/
theorem entry_rearms_own_timer_on_idle_core :
    ∃ s s', Reachable sampleConfig s ∧ kernelEntry sampleConfig s (timerTrap 1) = .ok s' ∧
      (s.log <+: s'.log ∧ ∀ c, s'.log.countP (Event.resetsTimer c) =
        s.log.countP (Event.resetsTimer c) + if c = (timerTrap 1).hart then 1 else 0) := by
  obtain ⟨s, hs, hp⟩ := reach_of_run sampleConfig (l := [.alloc, .setReady 1, timerOn 0])
    (p := fun s => match kernelEntry sampleConfig s (timerTrap 1) with
      | .ok _ => true
      | .error _ => false) (by decide)
  revert hp
  cases he : kernelEntry sampleConfig s (timerTrap 1) with
  | error => simp
  | ok s' => exact fun _ => ⟨s, s', hs, he, entry_rearms_own_timer he⟩

/-! ## What `mret` returns to -/

/-- The events with which `kernel_entry` hands core `c` back to `mret`, when `core_to_proc_idx[c]`
is `k` and slot `k` holds `p`. At slot 0, the idle branch of `proc_yield`: the timer, then `wfi`.
At any other slot, the dispatch of `p`: `mstatus.MPP` from its pid, its address space, the cache
flush, the timer. Last, the restore of `p`'s context. -/
def exitEvents (cfg : Config) (c k : Nat) (p : Process) : List Event :=
  (if k = 0 then [.timerReset c, .idle c]
  else [.mpp c (if p.pid ≥ cfg.gpidUserStart then .user else .machine), .mmuSwitch c p.pid,
    .mmuFlushCache c, .timerReset c]) ++ [.restore c ⟨p.mepc, p.savedRegisters⟩]

section Exit

variable {cfg : Config} {s s' : Kernel} {tty : Bool}

/-- What dispatching slot `k` logs: the privilege of `mret`, the switch of address space, the cache
flush and the `timer_reset` of the core. -/
theorem dispatch_log (s : Kernel) (k : Nat) :
    (dispatch cfg s k).log = s.log ++
      [.mpp s.coreInKernel (if (s.procSet k).pid ≥ cfg.gpidUserStart then .user else .machine),
        .mmuSwitch s.coreInKernel (s.procSet k).pid, .mmuFlushCache s.coreInKernel,
        .timerReset s.coreInKernel] := by
  simp [dispatch, switchTo, stampNext, Kernel.emit]

/-- Dispatching a slot keeps every pid. -/
theorem dispatch_procSet_pid (s : Kernel) (k j : Nat) :
    ((dispatch cfg s k).procSet j).pid = (s.procSet j).pid := by
  simpa [Kernel.allocView] using
    congrArg (fun v : BitVec 32 × BitVec 64 × List Int × (Nat → Int) => v.2.2.2 j)
      (dispatch_allocView cfg s k)

/-- `proc_yield`, then the restore of `kernel_entry`. -/
theorem procYield_exit (hy : procYield cfg s tty = .ok s') :
    ∃ pre, (restoreContext s').log =
      pre ++ exitEvents cfg s'.coreInKernel s'.currIdx (s'.procSet s'.currIdx) := by
  obtain ⟨⟨s₂, k⟩, h₁, h₂⟩ := bind_eq_ok.1 hy
  have hk := (pickNext_step h₁).2
  refine ⟨s₂.log, ?_⟩
  dsimp only at h₂
  split at h₂ <;> cases h₂
  · -- the dispatch of slot `k`, which is not slot 0
    have hk0 : k ≠ 0 := by
      have := mem_userSlots.1 (hk.resolve_left (by omega)).1
      omega
    have hc : (dispatch cfg s₂ k).coreInKernel = s₂.coreInKernel := by
      simp [dispatch, switchTo, stampNext, primeIfReady]
      split <;> rfl
    have hi : (dispatch cfg s₂ k).currIdx = k := by
      rw [Kernel.currIdx, dispatch_coreToProcIdx, hc, if_pos rfl]
    simp [restoreContext, Kernel.emit, exitEvents, hi, hc, hk0, dispatch_log, dispatch_procSet_pid]
  · simp [restoreContext, Kernel.emit, exitEvents, goIdle, Kernel.currIdx]

end Exit

/-- Every call of `kernel_entry` that returns, from any state, on any trap, hands its core back in
one of two ways: idle at slot 0, or running the slot the core now points at, with `mstatus.MPP`
set from that slot's pid, the MMU switched to that pid, and that slot's context restored. -/
theorem entry_exit_events {cfg : Config} {s s' : Kernel} {t : Trap}
    (he : kernelEntry cfg s t = .ok s') :
    ∃ pre, s'.log = pre ++ exitEvents cfg t.hart (s'.coreToProcIdx t.hart)
      (s'.procSet (s'.coreToProcIdx t.hart)) := by
  obtain ⟨s₁, h₁, rfl⟩ := kernelEntry_ok he
  have hc : s₁.coreInKernel = t.hart := trapHandler_coreInKernel h₁
  rw [trapHandler_eq_bind] at h₁
  obtain ⟨y, -, hy⟩ := bind_eq_ok.1 h₁
  obtain ⟨pre, hpre⟩ := procYield_exit hy
  rw [Kernel.currIdx, hc] at hpre
  exact ⟨pre, hpre⟩

/-- Pids 1 to 5 are allocated and only pid 5, the first user pid of `sampleConfig`, is ready: a
timer interrupt on core 0 returns to it in user mode. -/
theorem entry_exit_events_user_mode :
    ∃ s s', Reachable sampleConfig s ∧ kernelEntry sampleConfig s (timerTrap 0) = .ok s' ∧
      s'.coreToProcIdx 0 = 5 ∧ (s'.procSet 5).pid = 5 ∧
      ∃ pre, s'.log = pre ++ exitEvents sampleConfig (timerTrap 0).hart
        (s'.coreToProcIdx (timerTrap 0).hart) (s'.procSet (s'.coreToProcIdx (timerTrap 0).hart)) := by
  obtain ⟨s, hs, hp⟩ := reach_of_run sampleConfig
    (l := [.alloc, .alloc, .alloc, .alloc, .alloc, .setReady 5])
    (p := fun s => match kernelEntry sampleConfig s (timerTrap 0) with
      | .ok s' => s'.coreToProcIdx 0 == 5 && (s'.procSet 5).pid == 5
      | .error _ => false) (by decide)
  revert hp
  cases he : kernelEntry sampleConfig s (timerTrap 0) with
  | error => simp
  | ok s' =>
    simp only [Bool.and_eq_true, beq_iff_eq]
    exact fun hp => ⟨s, s', hs, he, hp.1, hp.2, entry_exit_events he⟩

end EgosGrass

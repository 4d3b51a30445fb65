import EgosGrass.Spec.Lookup

/-!
# The timer-interrupt count

`proc_free` prints `timer_interrupt_count` as the timer interrupts of the process. The field is
written in two places only: `proc_alloc` clears it, and `intr_entry` adds one for the process in
the slot the interrupted core points to, when that slot is in `1 .. MAX_NPROCESS`. Every other
function of `kernel.c` and `process.c` keeps the count of every slot (`procYield_interruptCounts`,
`procFree_interruptCounts`, ...).

`countInterrupts` counts, along a run, the timer interrupts each slot's process has taken since
the slot was last handed out. The field is a C `int`, so `++` wraps at `2^32`: over every run
from boot, each slot's `timer_interrupt_count` is that count modulo `2^32`, and the report of
`proc_free` prints the count itself while it stays below `2^31` (`timer_interrupts_counted`).
-/

namespace EgosGrass

/-- The `timer_interrupt_count` of every slot. -/
def interruptCounts (s : Kernel) (j : Nat) : BitVec 32 := (s.procSet j).timerInterruptCount

/-! ## Writes that keep the count -/

section Frame

variable {cfg : Config} {s s' : Kernel} {i : Nat} {pid : Int} {tty : Bool}

/-- Logging an event keeps every count. -/
@[simp] theorem interruptCounts_emit (s : Kernel) (e : Event) :
    interruptCounts (s.emit e) = interruptCounts s := rfl

/-- Pointing a core at a slot keeps every count. -/
@[simp] theorem interruptCounts_setCoreIdx (s : Kernel) (c k : Nat) :
    interruptCounts (s.setCoreIdx c k) = interruptCounts s := rfl

/-- A write of one slot that keeps the count of every process keeps every count. -/
theorem interruptCounts_modifyProc {f : Process → Process}
    (hf : ∀ p, (f p).timerInterruptCount = p.timerInterruptCount) :
    interruptCounts (s.modifyProc i f) = interruptCounts s := by
  funext j
  by_cases hj : j = i
  · subst hj; simp [interruptCounts, hf]
  · simp [interruptCounts, hj]

/-- `mlfq_update_level` keeps the count. -/
@[simp] theorem mlfqUpdateLevel_timerInterruptCount (p : Process) (runtime : BitVec 64) :
    (mlfqUpdateLevel p runtime).timerInterruptCount = p.timerInterruptCount := by
  unfold mlfqUpdateLevel
  split
  · rfl
  · dsimp only
    split <;> rfl

/-- A charge keeps the count. -/
@[simp] theorem charge_timerInterruptCount (now : BitVec 64) (p : Process) :
    (charge now p).timerInterruptCount = p.timerInterruptCount :=
  mlfqUpdateLevel_timerInterruptCount _ _

/-- The charge of `proc_set_runnable` and `proc_set_pending` keeps the count. -/
@[simp] theorem chargeRunning_timerInterruptCount (now : BitVec 64) (p : Process) :
    (chargeRunning now p).timerInterruptCount = p.timerInterruptCount := by
  unfold chargeRunning
  split <;> simp

/-- `proc_set_status` keeps every count. -/
theorem procSetStatus_interruptCounts (s : Kernel) (pid : Int) (st : ProcStatus) :
    interruptCounts (procSetStatus s pid st) = interruptCounts s := by
  funext j
  simp only [interruptCounts, procSetStatus]
  split <;> rfl

/-- `proc_set_ready` keeps every count. -/
theorem procSetReady_interruptCounts (s : Kernel) (pid : Int) :
    interruptCounts (procSetReady s pid) = interruptCounts s := by
  unfold procSetReady
  split
  · exact interruptCounts_modifyProc fun _ => rfl
  · rfl

/-- `proc_set_running` keeps every count. -/
theorem procSetRunning_interruptCounts (s : Kernel) (pid : Int) :
    interruptCounts (procSetRunning s pid) = interruptCounts s := by
  unfold procSetRunning
  split
  · exact interruptCounts_modifyProc fun _ => rfl
  · rfl

/-- `proc_set_runnable` and `proc_set_pending` keep every count. -/
theorem procLeaveRunning_interruptCounts (st : ProcStatus) (s : Kernel) (pid : Int) :
    interruptCounts (procLeaveRunning st s pid) = interruptCounts s := by
  unfold procLeaveRunning
  split
  · exact interruptCounts_modifyProc fun p => chargeRunning_timerInterruptCount _ p
  · rfl

/-- Stamping `termination_time` and logging the report keeps every count. -/
theorem terminate_interruptCounts (s : Kernel) (i : Nat) :
    interruptCounts (terminate s i) = interruptCounts s :=
  interruptCounts_modifyProc (f := fun p => { p with terminationTime := mtimeGet s }) fun _ => rfl

/-- `proc_free` keeps every count; the freed slots keep theirs until `proc_alloc` clears them. -/
theorem procFree_interruptCounts (s : Kernel) (pid : Int) :
    interruptCounts (procFree cfg s pid) = interruptCounts s := by
  refine procFree_rel (R := fun s s' => interruptCounts s' = interruptCounts s) cfg (fun _ => rfl)
    (fun h₁ h₂ => h₂.trans h₁) (fun s i _ => ?_) (fun s i => ?_) s pid <;> dsimp only
  · rw [procSetStatus_interruptCounts, terminate_interruptCounts]
  · rw [← terminate_interruptCounts s i]
    exact interruptCounts_modifyProc fun _ => rfl

/-- `proc_sleep` keeps every count. -/
theorem procSleep_interruptCounts (s : Kernel) (pid : Int) (usec : BitVec 32) :
    interruptCounts (procSleep s pid usec) = interruptCounts s := by
  unfold procSleep
  split
  · exact interruptCounts_modifyProc fun _ => rfl
  · rfl

/-- `mlfq_reset_level` keeps every count. -/
theorem mlfqResetLevel_interruptCounts (s : Kernel) (tty : Bool) :
    interruptCounts (mlfqResetLevel cfg s tty) = interruptCounts s := by
  have hb : interruptCounts (shellBoost cfg s tty) = interruptCounts s := by
    unfold shellBoost
    split
    · rfl
    · split
      · exact interruptCounts_modifyProc fun _ => rfl
      · rfl
  rw [mlfqResetLevel, ← hb]
  unfold periodicReset
  split
  · funext j
    simp only [interruptCounts]
    split <;> rfl
  · rfl

/-! ## Message passing and `proc_yield` -/

/-- The retry of a receiver keeps every count. -/
theorem procTryRecv_interruptCounts (s : Kernel) (i : Nat) :
    interruptCounts (procTryRecv s i) = interruptCounts s := by
  dsimp only [procTryRecv]
  split
  · rfl
  · simp only [procSetRunnable, procLeaveRunning_interruptCounts, interruptCounts_emit]

/-- A retry that does not halt keeps every count. -/
theorem procTrySyscall_interruptCounts (h : procTrySyscall cfg s i = .ok s') :
    interruptCounts s' = interruptCounts s := by
  unfold procTrySyscall at h
  split at h
  · cases h; exact procTryRecv_interruptCounts s i
  · dsimp only [procTrySend] at h
    split at h
    · split at h <;> cases h
      · exact interruptCounts_modifyProc fun _ => rfl
      · rfl
    · cases h
  · cases h

/-- A step of the scans that does not halt keeps every count. -/
theorem retry_interruptCounts (h : retry cfg s i = .ok s') :
    interruptCounts s' = interruptCounts s := by
  unfold retry at h
  split at h
  · exact procTrySyscall_interruptCounts h
  · cases h; rfl

/-- Waking a sleeper keeps every count. -/
theorem wakeUp_interruptCounts (now : BitVec 64) (s : Kernel) (i : Nat) :
    interruptCounts (wakeUp now s i) = interruptCounts s := by
  dsimp only [wakeUp]
  split
  · exact interruptCounts_modifyProc (f := fun p => { p with wakeupTime := 0, status := .runnable })
      fun _ => rfl
  · rfl

/-- The two scans of `proc_yield` keep every count. -/
theorem pickNext_interruptCounts {now : BitVec 64} {k : Nat} (h : pickNext cfg now s = .ok (s', k)) :
    interruptCounts s' = interruptCounts s :=
  ScanRel.of_pickNext (R := fun s s' => interruptCounts s' = interruptCounts s)
    ⟨fun _ => rfl, fun h₁ h₂ => h₂.trans h₁, wakeUp_interruptCounts now, retry_interruptCounts⟩ h

/-- Dispatching a slot keeps every count. -/
theorem dispatch_interruptCounts (s : Kernel) (k : Nat) :
    interruptCounts (dispatch cfg s k) = interruptCounts s := by
  have hs : interruptCounts (stampNext cfg s k) = interruptCounts s := by
    rw [stampNext, interruptCounts_emit]
    exact interruptCounts_modifyProc fun _ => rfl
  have hp : ∀ s, interruptCounts (primeIfReady cfg s k) = interruptCounts s := fun s => by
    unfold primeIfReady
    split
    · exact interruptCounts_modifyProc fun _ => rfl
    · rfl
  rw [dispatch, switchTo, ← hs]
  simp only [interruptCounts_emit, procSetRunning_interruptCounts, hp, interruptCounts_setCoreIdx]

/-- The prologue of `proc_yield` keeps every count. -/
theorem yieldPrologue_interruptCounts (s : Kernel) (tty : Bool) :
    interruptCounts (yieldPrologue cfg s tty) = interruptCounts s := by
  rw [yieldPrologue, mlfqResetLevel_interruptCounts]
  split
  · exact procLeaveRunning_interruptCounts _ s _
  · rfl

/-- `proc_yield` keeps every count. -/
theorem procYield_interruptCounts (h : procYield cfg s tty = .ok s') :
    interruptCounts s' = interruptCounts s := by
  obtain ⟨⟨s₁, k⟩, h₁, h⟩ := bind_eq_ok.1 h
  rw [← yieldPrologue_interruptCounts s tty, ← pickNext_interruptCounts h₁]
  dsimp only at h
  split at h <;> cases h
  · exact dispatch_interruptCounts s₁ k
  · rfl

/-! ## Kernel entries -/

/-- The exception branch keeps every count: the `ecall`, the kill of a user process, and the
`proc_yield` after either. -/
theorem excpEntry_interruptCounts {id : BitVec 32} {rec : Syscall}
    (h : excpEntry cfg s id rec tty = .ok s') : interruptCounts s' = interruptCounts s := by
  unfold excpEntry at h
  split at h
  · obtain ⟨s₁, h₁, h⟩ := bind_eq_ok.1 h
    rw [procYield_interruptCounts h, procTrySyscall_interruptCounts h₁, blockCaller]
    refine Eq.trans (by exact interruptCounts_modifyProc fun _ => rfl) ?_
    rw [procSetPending, procLeaveRunning_interruptCounts]
    exact interruptCounts_modifyProc fun _ => rfl
  · dsimp only at h
    split at h
    · rw [procYield_interruptCounts h, procFree_interruptCounts, interruptCounts_emit]
    · cases h

/-- `intr_entry` survives only a timer interrupt, and adds one to the count of the current slot
when it is in `1 .. MAX_NPROCESS`. -/
theorem intrEntry_interruptCounts {id : BitVec 32} (h : intrEntry cfg s id tty = .ok s') :
    id = intrIdTimer ∧ interruptCounts s' = fun j => interruptCounts s j +
      if s.currIdx = j ∧ 0 < j ∧ j ≤ maxNProcess then 1 else 0 := by
  unfold intrEntry at h
  split at h
  · cases h
  refine ⟨not_not.1 ‹_›, ?_⟩
  rw [procYield_interruptCounts h]
  funext j
  split
  · rename_i hk
    by_cases hj : s.currIdx = j
    · subst hj
      simp [interruptCounts, timerCharge, hk]
      split <;> simp
    · simp [interruptCounts, Ne.symm hj, hj]
  · rename_i hk
    rw [if_neg fun ⟨e, hj⟩ => hk (e ▸ hj)]
    exact (BitVec.add_zero _).symm

/-- Saving the trapped context keeps every count. -/
theorem saveContext_interruptCounts (s : Kernel) (t : Trap) :
    interruptCounts (saveContext s t) = interruptCounts s := by
  dsimp only [saveContext]
  exact interruptCounts_modifyProc fun _ => rfl

/-- A kernel entry on hart `t.hart` adds one to the count of the slot that hart points to when
the trap is a timer interrupt and the slot is in `1 .. MAX_NPROCESS`, and keeps every other
count. -/
theorem kernelEntry_interruptCounts {t : Trap} (h : kernelEntry cfg s t = .ok s') :
    interruptCounts s' = fun j => interruptCounts s j +
      if t.mcause.getLsbD 31 = true ∧ t.mcause &&& 0x3FF = intrIdTimer ∧
        s.coreToProcIdx t.hart = j ∧ 0 < j ∧ j ≤ maxNProcess then 1 else 0 := by
  obtain ⟨s₁, h₁, rfl⟩ : ∃ s₁, trapHandler cfg (saveContext s t) t = .ok s₁ ∧
      s' = restoreContext s₁ := by
    cases h₁ : trapHandler cfg (saveContext s t) t <;> simp_all [kernelEntry, Except.map]
  rw [restoreContext, interruptCounts_emit]
  unfold trapHandler at h₁
  split at h₁
  · rename_i hb
    obtain ⟨hid, he⟩ := intrEntry_interruptCounts h₁
    rw [he, saveContext_interruptCounts]
    funext j
    simp only [hb, hid, true_and]
    rfl
  · rename_i hb
    rw [excpEntry_interruptCounts h₁, saveContext_interruptCounts]
    funext j
    simp [hb]

end Frame

/-! ## Runs -/

/-- The slot `proc_alloc` hands out when step `l` is an allocation from `s`. -/
def allocatedSlot (s : Kernel) : Step → Option Nat
  | .alloc => userSlots.find? fun i => (s.procSet i).status == .unused
  | _ => none

/-- The timer interrupts step `l` from `s` delivers to the process in slot `j`: one for a timer
interrupt on a core whose `core_to_proc_idx` is `j`, for `j` in `1 .. MAX_NPROCESS`. -/
def interruptsTo (cfg : Config) (s : Kernel) : Step → Nat → Nat
  | .trap t, j =>
    if t.hart < cfg.ncores ∧ t.mcause.getLsbD 31 = true ∧ t.mcause &&& 0x3FF = intrIdTimer ∧
      s.coreToProcIdx t.hart = j ∧ 0 < j ∧ j ≤ maxNProcess then 1 else 0
  | _, _ => 0

/-- The timer interrupts the process in each slot has taken along the run `ls` from `s`, where
`n` holds the counts at `s`: `proc_alloc` starts the count of the slot it hands out again. -/
def countInterrupts (cfg : Config) : Kernel → (Nat → Nat) → List Step → Nat → Nat
  | _, n, [] => n
  | s, n, l :: ls =>
    match step cfg s l with
    | .ok s' => countInterrupts cfg s'
        (fun j => if allocatedSlot s l = some j then 0 else n j + interruptsTo cfg s l j) ls
    | .error _ => n

section Runs

variable {cfg : Config} {s s' : Kernel}

/-- One step: the slot `proc_alloc` hands out starts again from 0, and every other count grows
by the timer interrupts the step delivers to it. -/
theorem step_interruptCounts {l : Step} (h : step cfg s l = .ok s') :
    interruptCounts s' = fun j =>
      if allocatedSlot s l = some j then 0
      else interruptCounts s j + BitVec.ofNat 32 (interruptsTo cfg s l j) := by
  cases l with
  | alloc =>
    obtain ⟨⟨pid, s₁⟩, ha, rfl⟩ : ∃ r, procAlloc s = .ok r ∧ s' = r.2 := by
      cases ha : procAlloc s <;> simp_all [step, Except.map]
    obtain ⟨i, hi, -, rfl⟩ := procAlloc_eq_ok ha
    funext j
    by_cases hj : j = i
    · subst hj; simp [interruptCounts, allocatedSlot, hi, allocFields]
    · simp [interruptCounts, allocatedSlot, hi, hj, Ne.symm hj, interruptsTo]
  | setReady pid =>
    cases h; rw [procSetReady_interruptCounts]; funext j; simp [allocatedSlot, interruptsTo]
  | free pid =>
    cases h; rw [procFree_interruptCounts]; funext j; simp [allocatedSlot, interruptsTo]
  | sleep pid usec =>
    cases h; rw [procSleep_interruptCounts]; funext j; simp [allocatedSlot, interruptsTo]
  | trap t =>
    simp only [step] at h
    split at h
    · rename_i ht
      rw [kernelEntry_interruptCounts h]
      funext j
      simp only [allocatedSlot, interruptsTo, ht, true_and, reduceCtorEq, if_false]
      split <;> rfl
    · cases h
      funext j
      simp [allocatedSlot, interruptsTo, *]
  | tick now =>
    cases h
    funext j
    split <;> simp [allocatedSlot, interruptsTo, interruptCounts]

/-- Along a run that does not halt, the counts follow `countInterrupts` modulo `2^32`. -/
theorem run_interruptCounts {ls : List Step} {n : Nat → Nat}
    (hn : interruptCounts s = fun j => BitVec.ofNat 32 (n j)) (h : run cfg s ls = .ok s') :
    interruptCounts s' = fun j => BitVec.ofNat 32 (countInterrupts cfg s n ls j) := by
  induction ls generalizing s n with
  | nil => cases h; exact hn
  | cons l ls ih =>
    obtain ⟨s₁, h₁, h⟩ := bind_eq_ok.1 h
    rw [countInterrupts, h₁]
    refine ih ?_ h
    rw [step_interruptCounts h₁, hn]
    funext j
    split
    · rfl
    · exact BitVec.ofNat_add_ofNat _ _

/-- A count below `2^31` reads back as itself through the `int` the report prints. -/
theorem toInt_ofNat_of_lt {n : Nat} (h : n < 2 ^ 31) : (BitVec.ofNat 32 n).toInt = n := by
  rw [BitVec.toInt_eq_toNat_cond, BitVec.toNat_ofNat, Nat.mod_eq_of_lt (by omega), if_pos (by omega)]

end Runs

/-- Over every run from boot, the `timer_interrupt_count` of every slot is, modulo `2^32`, the
number of timer interrupts the slot's process has taken on a core pointing at it since
`proc_alloc` handed the slot out; while that number is below `2^31`, it is what the report of
`proc_free` prints. -/
theorem timer_interrupts_counted {cfg : Config} {ls : List Step} {s : Kernel}
    (h : run cfg (init cfg) ls = .ok s) (j : Nat) (now : BitVec 64) :
    (s.procSet j).timerInterruptCount =
        BitVec.ofNat 32 (countInterrupts cfg (init cfg) (fun _ => 0) ls j) ∧
      (countInterrupts cfg (init cfg) (fun _ => 0) ls j < 2 ^ 31 →
        (terminationReport (s.procSet j) now).timerInterrupts =
          countInterrupts cfg (init cfg) (fun _ => 0) ls j) := by
  have hc := congrFun (run_interruptCounts (n := fun _ => 0) (s := init cfg) rfl h) j
  exact ⟨hc, fun hl => (congrArg BitVec.toInt hc).trans (toInt_ofNat_of_lt hl)⟩

/-- Pid 1 is dispatched on core 0 by a first timer interrupt, while the core is idle, and takes
the next two. -/
theorem timer_interrupts_counted_after_three_ticks :
    ∃ s, run sampleConfig (init sampleConfig)
        [.alloc, .setReady 1, timerOn 0, timerOn 0, timerOn 0] = .ok s ∧
      (s.procSet 1).timerInterruptCount = BitVec.ofNat 32 (countInterrupts sampleConfig
        (init sampleConfig) (fun _ => 0) [.alloc, .setReady 1, timerOn 0, timerOn 0, timerOn 0] 1) ∧
      countInterrupts sampleConfig (init sampleConfig) (fun _ => 0)
        [.alloc, .setReady 1, timerOn 0, timerOn 0, timerOn 0] 1 = 2 := by
  have hr : (match run sampleConfig (init sampleConfig)
      [.alloc, .setReady 1, timerOn 0, timerOn 0, timerOn 0] with
      | .ok _ => true | .error _ => false) = true := by decide
  cases h : run sampleConfig (init sampleConfig) [.alloc, .setReady 1, timerOn 0, timerOn 0, timerOn 0]
    with
  | error e => rw [h] at hr; cases hr
  | ok s => exact ⟨s, rfl, (timer_interrupts_counted h 1 0).1, by decide⟩

end EgosGrass

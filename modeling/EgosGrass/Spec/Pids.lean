import EgosGrass.Spec.Lookup
import Mathlib.Data.List.Nodup

/-!
# The pid counter

`proc_alloc` numbers processes with `++curr_pid`, where `curr_pid` is a `static uint` and the
result is stored into the `int` field `pid`. Every other entry point leaves the counter alone and
returns no pid (`Kernel.allocView`, kept by every function of the model but `proc_alloc`). Hence the pids returned
over a run are exactly `1, 2, 3, …` reduced modulo `2^32` and read as signed 32-bit values
(`allocatedPids_eq`).

## Key results

- `allocatedPids_eq`: in every reachable state, the `k`-th returned pid is `(k mod 2^32)` as an
  `int`.
- `allocatedPids_below_wrap`: while fewer than `2^31` processes have been allocated, the returned
  pids are `1, …, n`: pairwise distinct, positive, never a non-positive `GPID_ALL`, and the `k`-th
  is at least `k`.
- `allocatedPids_wrap`: the `2^31`-th allocation of a run that allocates and frees one process
  over and over returns `-2^31`.
-/

namespace EgosGrass

/-- The pid of an allocation event. -/
def Event.allocatedPid : Event → Option Int
  | .allocated pid => some pid
  | _ => none

/-- The pids `proc_alloc` has returned, in order. -/
def allocatedPids (log : List Event) : List Int := log.filterMap Event.allocatedPid

/-! ## What a call other than `proc_alloc` keeps -/

/-- The part of the state only `proc_alloc` and the clock change: the pid counter, the clock, the
pids returned so far, and the pid of every slot. -/
def Kernel.allocView (s : Kernel) : BitVec 32 × BitVec 64 × List Int × (Nat → Int) :=
  (s.currPid, s.mtime, allocatedPids s.log, fun i => (s.procSet i).pid)

namespace Kernel

/-- A write of one slot that keeps its pid keeps the view. -/
@[simp] theorem allocView_modifyProc (s : Kernel) (i : Nat) {f : Process → Process}
    (hf : ∀ p, (f p).pid = p.pid) : (s.modifyProc i f).allocView = s.allocView := by
  simp only [allocView, modifyProc_procSet, modifyProc_currPid, modifyProc_mtime, modifyProc_log,
    Prod.mk.injEq, true_and]
  funext j; split <;> simp_all

/-- Replacing a slot by a process with the same pid keeps the view. -/
@[simp] theorem allocView_setProc (s : Kernel) (i : Nat) {p : Process}
    (hp : p.pid = (s.procSet i).pid) : (s.setProc i p).allocView = s.allocView := by
  simp only [allocView, setProc_currPid, setProc_mtime, setProc_log, Prod.mk.injEq, true_and]
  funext j; rw [setProc_procSet]; split <;> simp_all

/-- Logging an event other than an allocation keeps the view. -/
@[simp] theorem allocView_emit (s : Kernel) {e : Event} (he : e.allocatedPid = none) :
    (s.emit e).allocView = s.allocView := by
  simp [allocView, allocatedPids, he]

/-- Noting the core in the kernel keeps the view. -/
@[simp] theorem allocView_withCoreInKernel (s : Kernel) (c : Nat) :
    ({ s with coreInKernel := c } : Kernel).allocView = s.allocView := rfl

/-- Pointing a core at a slot keeps the view. -/
@[simp] theorem allocView_setCoreIdx (s : Kernel) (c k : Nat) :
    (s.setCoreIdx c k).allocView = s.allocView := rfl

end Kernel

attribute [simp] Event.allocatedPid

/-- Modifying the slot a lookup finds keeps the view. -/
theorem allocView_modifyFound (s : Kernel) (o : Option Nat) {f : Process → Process}
    (hf : ∀ p, (f p).pid = p.pid) :
    (match o with | some i => s.modifyProc i f | none => s).allocView = s.allocView := by
  cases o
  · rfl
  · exact Kernel.allocView_modifyProc _ _ hf

/-- `mlfq_update_level` keeps the pid. -/
@[simp] theorem mlfqUpdateLevel_pid (p : Process) (r : BitVec 64) :
    (mlfqUpdateLevel p r).pid = p.pid := by
  unfold mlfqUpdateLevel; split
  · rfl
  · dsimp only; split <;> rfl

/-- A charge keeps the pid. -/
@[simp] theorem charge_pid (now : BitVec 64) (p : Process) : (charge now p).pid = p.pid := by
  simp [charge]

/-- The charge of `proc_set_runnable` and `proc_set_pending` keeps the pid. -/
@[simp] theorem chargeRunning_pid (now : BitVec 64) (p : Process) :
    (chargeRunning now p).pid = p.pid := by
  unfold chargeRunning; split <;> simp

/-- `proc_set_ready` keeps the view. -/
@[simp] theorem procSetReady_allocView (s : Kernel) (pid : Int) :
    (procSetReady s pid).allocView = s.allocView := allocView_modifyFound _ _ fun _ => rfl

/-- `proc_set_running` keeps the view. -/
@[simp] theorem procSetRunning_allocView (s : Kernel) (pid : Int) :
    (procSetRunning s pid).allocView = s.allocView := allocView_modifyFound _ _ fun _ => rfl

/-- `proc_set_runnable` and `proc_set_pending` keep the view. -/
@[simp] theorem procLeaveRunning_allocView (st : ProcStatus) (s : Kernel) (pid : Int) :
    (procLeaveRunning st s pid).allocView = s.allocView :=
  allocView_modifyFound _ _ fun _ => chargeRunning_pid _ _

/-- `proc_set_runnable` keeps the view. -/
@[simp] theorem procSetRunnable_allocView (s : Kernel) (pid : Int) :
    (procSetRunnable s pid).allocView = s.allocView := procLeaveRunning_allocView _ _ _

/-- `proc_set_pending` keeps the view. -/
@[simp] theorem procSetPending_allocView (s : Kernel) (pid : Int) :
    (procSetPending s pid).allocView = s.allocView := procLeaveRunning_allocView _ _ _

/-- `proc_sleep` keeps the view. -/
@[simp] theorem procSleep_allocView (s : Kernel) (pid : Int) (usec : BitVec 32) :
    (procSleep s pid usec).allocView = s.allocView := allocView_modifyFound _ _ fun _ => rfl

/-- `proc_set_status` keeps the view. -/
@[simp] theorem procSetStatus_allocView (s : Kernel) (pid : Int) (st : ProcStatus) :
    (procSetStatus s pid st).allocView = s.allocView := by
  simp only [procSetStatus, Kernel.allocView, Prod.mk.injEq, true_and]
  funext i; split <;> rfl

/-- Terminating a slot keeps the view: its pid stays in place. -/
@[simp] theorem terminate_allocView (s : Kernel) (i : Nat) :
    (terminate s i).allocView = s.allocView := by
  simp [terminate]

section Config

variable (cfg : Config)

/-- `proc_free` keeps the view: the freed slots keep their pids. -/
@[simp] theorem procFree_allocView (s : Kernel) (pid : Int) :
    (procFree cfg s pid).allocView = s.allocView := by
  unfold procFree
  split
  · split <;> simp
  · generalize lowSlots = l
    induction l generalizing s with
    | nil => rfl
    | cons i l ih => simp only [List.foldl_cons, ih]; split <;> simp

/-- The shell boost keeps the view. -/
@[simp] theorem shellBoost_allocView (s : Kernel) (tty : Bool) :
    (shellBoost cfg s tty).allocView = s.allocView := by
  unfold shellBoost; split
  · rfl
  · exact allocView_modifyFound _ _ fun _ => rfl

/-- The periodic reset keeps the view. -/
@[simp] theorem periodicReset_allocView (s : Kernel) :
    (periodicReset s).allocView = s.allocView := by
  unfold periodicReset; split
  · simp only [Kernel.allocView, Prod.mk.injEq, true_and]
    funext i; split <;> rfl
  · rfl

/-- `mlfq_reset_level` keeps the view. -/
@[simp] theorem mlfqResetLevel_allocView (s : Kernel) (tty : Bool) :
    (mlfqResetLevel cfg s tty).allocView = s.allocView := by
  simp [mlfqResetLevel]

/-- A delivery keeps the view. -/
theorem procTrySend_allocView {s s' : Kernel} {i : Nat} (h : procTrySend cfg s i = .ok s') :
    s'.allocView = s.allocView := by
  dsimp only [procTrySend] at h
  split at h
  · split at h <;> cases h
    · exact Kernel.allocView_modifyProc _ _ fun _ => rfl
    · rfl
  · cases h

/-- The retry of a receiver keeps the view. -/
@[simp] theorem procTryRecv_allocView (s : Kernel) (i : Nat) :
    (procTryRecv s i).allocView = s.allocView := by
  unfold procTryRecv; dsimp only; split <;> simp

/-- A retry that does not halt keeps the view. -/
theorem procTrySyscall_allocView {s s' : Kernel} {i : Nat} (h : procTrySyscall cfg s i = .ok s') :
    s'.allocView = s.allocView := by
  unfold procTrySyscall at h
  split at h
  · cases h; simp
  · exact procTrySend_allocView cfg h
  · cases h

/-- A step of the scans keeps the view. -/
theorem retry_allocView {s s' : Kernel} {i : Nat} (h : retry cfg s i = .ok s') :
    s'.allocView = s.allocView := by
  unfold retry at h
  split at h
  · exact procTrySyscall_allocView cfg h
  · cases h; rfl

/-- Waking a sleeper keeps the view. -/
theorem wakeUp_allocView (now : BitVec 64) (s : Kernel) (i : Nat) :
    (wakeUp now s i).allocView = s.allocView := by
  dsimp only [wakeUp]
  split
  · exact Kernel.allocView_setProc _ _ rfl
  · rfl

/-- The first scan keeps the view. -/
theorem mlfqScan_allocView (now : BitVec 64) (l : List Nat) {s s' : Kernel} {n n' : Nat} {m : Int}
    (h : mlfqScan cfg now l s n m = .ok (s', n')) : s'.allocView = s.allocView := by
  induction l generalizing s n m with
  | nil => cases h; rfl
  | cons i l ih =>
    simp only [mlfqScan, bind, Except.bind] at h
    split at h
    · cases h
    · rename_i s₁ h₁
      rw [← wakeUp_allocView now s i, ← retry_allocView cfg h₁]
      split at h
      · exact ih h
      · split at h <;> exact ih h

/-- The fallback scan keeps the view. -/
theorem fallbackScan_allocView (now : BitVec 64) (l : List Nat) {s s' : Kernel} {n' : Nat}
    (h : fallbackScan cfg now l s = .ok (s', n')) : s'.allocView = s.allocView := by
  induction l generalizing s with
  | nil => cases h; rfl
  | cons i l ih =>
    simp only [fallbackScan, bind, Except.bind] at h
    split at h
    · cases h
    · rename_i s₁ h₁
      rw [← retry_allocView cfg h₁]
      split at h
      · exact ih h
      · split at h
        · cases h; rfl
        · exact ih h

/-- Dispatching a slot keeps the view. -/
@[simp] theorem dispatch_allocView (s : Kernel) (k : Nat) :
    (dispatch cfg s k).allocView = s.allocView := by
  simp [dispatch, stampNext, switchTo, primeIfReady, apply_ite Kernel.allocView, prime]

/-- Sending the core idle keeps the view. -/
@[simp] theorem goIdle_allocView (s : Kernel) : (goIdle s).allocView = s.allocView := by
  simp [goIdle]

/-- The two scans of `proc_yield` keep the view. -/
theorem pickNext_allocView {now : BitVec 64} {s s' : Kernel} {k : Nat}
    (h : pickNext cfg now s = .ok (s', k)) : s'.allocView = s.allocView := by
  obtain ⟨⟨s₁, n₁⟩, h₁, h⟩ := bind_eq_ok.1 h
  rw [← mlfqScan_allocView cfg _ _ h₁]
  dsimp only at h
  split at h
  · exact fallbackScan_allocView cfg _ _ h
  · cases h; rfl

/-- `proc_yield` keeps the view. -/
theorem procYield_allocView {s s' : Kernel} {tty : Bool} (h : procYield cfg s tty = .ok s') :
    s'.allocView = s.allocView := by
  obtain ⟨⟨s₁, k⟩, h₁, h⟩ := bind_eq_ok.1 h
  have e : (yieldPrologue cfg s tty).allocView = s.allocView := by
    simp [yieldPrologue, apply_ite Kernel.allocView]
  rw [← e, ← pickNext_allocView cfg h₁]
  dsimp only at h
  split at h <;> cases h <;> simp

/-- `intr_entry` keeps the view. -/
theorem intrEntry_allocView {s s' : Kernel} {id : BitVec 32} {tty : Bool}
    (h : intrEntry cfg s id tty = .ok s') : s'.allocView = s.allocView := by
  unfold intrEntry at h
  split at h
  · cases h
  · rw [procYield_allocView cfg h]; split
    · exact Kernel.allocView_modifyProc _ _ fun _ => by simp [timerCharge, apply_ite Process.pid]
    · rfl

/-- The system-call part of `excp_entry` keeps the view. -/
theorem ecall_allocView {s s' : Kernel} {rec : Syscall} (h : ecall cfg s rec = .ok s') :
    s'.allocView = s.allocView := by
  rw [procTrySyscall_allocView cfg h]; simp [blockCaller]

/-- `excp_entry` keeps the view. -/
theorem excpEntry_allocView {s s' : Kernel} {id : BitVec 32} {rec : Syscall} {tty : Bool}
    (h : excpEntry cfg s id rec tty = .ok s') : s'.allocView = s.allocView := by
  unfold excpEntry at h
  split at h
  · simp only [bind, Except.bind] at h
    split at h
    · cases h
    · rename_i s₁ h₁
      rw [procYield_allocView cfg h, ecall_allocView cfg h₁]
  · dsimp only at h
    split at h
    · rw [procYield_allocView cfg h]; simp
    · cases h

/-- A kernel entry keeps the view: only `proc_alloc` hands out pids. -/
theorem kernelEntry_allocView {s s' : Kernel} {t : Trap} (h : kernelEntry cfg s t = .ok s') :
    s'.allocView = s.allocView := by
  unfold kernelEntry at h
  cases h₁ : trapHandler cfg (saveContext s t) t with
  | error e => simp [h₁, Except.map] at h
  | ok s₁ =>
    simp only [h₁, Except.map, Except.ok.injEq] at h
    subst h
    have : s₁.allocView = (saveContext s t).allocView := by
      unfold trapHandler at h₁
      split at h₁
      · exact intrEntry_allocView cfg h₁
      · exact excpEntry_allocView cfg h₁
    simp [restoreContext, this, saveContext]

/-! ## The returned pids -/

/-- `proc_alloc` returns `++curr_pid` read as an `int`, logs it, and moves the counter on. -/
theorem procAlloc_spec {s s' : Kernel} {pid : Int} (h : procAlloc s = .ok (pid, s')) :
    pid = (s.currPid + 1).toInt ∧ s'.currPid = s.currPid + 1 ∧ s'.mtime = s.mtime ∧
      allocatedPids s'.log = allocatedPids s.log ++ [pid] := by
  obtain ⟨i, -, rfl, rfl⟩ := procAlloc_eq_ok h
  simp [allocatedPids, Event.allocatedPid]

/-- The `k`-th pid `proc_alloc` returns over a run, counting from zero. -/
def nthPid (k : Nat) : Int := (BitVec.ofNat 32 (k + 1)).toInt

/-- In every reachable state the counter is the number of allocations so far, modulo `2^32`,
and the `k`-th allocation returned `nthPid k`. -/
theorem allocatedPids_eq {s : Kernel} (h : Reachable cfg s) :
    s.currPid = BitVec.ofNat 32 (allocatedPids s.log).length ∧
      allocatedPids s.log = (List.range (allocatedPids s.log).length).map nthPid := by
  induction h with
  | init => simp [init, allocatedPids]
  | @step s s' l _ hs ih =>
    obtain ⟨hc, hl⟩ := ih
    have keep : s'.allocView = s.allocView →
        s'.currPid = BitVec.ofNat 32 (allocatedPids s'.log).length ∧
        allocatedPids s'.log = (List.range (allocatedPids s'.log).length).map nthPid := by
      intro hk
      simp only [Kernel.allocView, Prod.mk.injEq] at hk
      rw [hk.1, hk.2.2.1]; exact ⟨hc, hl⟩
    cases l with
    | alloc =>
      simp only [step, Except.map] at hs
      split at hs
      · cases hs
      · rename_i r hr
        cases hs
        obtain ⟨pid, s''⟩ := r
        obtain ⟨rfl, hc', -, hl'⟩ := procAlloc_spec hr
        rw [hl', List.length_append, List.length_singleton, List.range_succ, List.map_append,
          ← hl, hc', hc]
        refine ⟨?_, ?_⟩
        · apply BitVec.eq_of_toNat_eq; simp [Nat.add_mod]
        · simp [nthPid, hc, BitVec.ofNat_add]
    | setReady pid => cases hs; exact keep (procSetReady_allocView _ _)
    | free pid => cases hs; exact keep (procFree_allocView cfg _ _)
    | sleep pid usec => cases hs; exact keep (procSleep_allocView _ _ _)
    | trap t =>
      simp only [step] at hs
      split at hs
      · exact keep (kernelEntry_allocView cfg hs)
      · cases hs; exact keep rfl
    | tick now =>
      simp only [step] at hs
      cases hs
      split
      · simp only [Kernel.mk.injEq]; exact ⟨hc, hl⟩
      · exact ⟨hc, hl⟩


/-- `proc_alloc` writes no slot below 1, so the idle slot keeps the pid 0 it boots with. -/
theorem procSet_zero_pid {s : Kernel} (h : Reachable cfg s) : (s.procSet 0).pid = 0 := by
  induction h with
  | init => rfl
  | @step s s' l _ hs ih =>
    have keep : s'.allocView = s.allocView → (s'.procSet 0).pid = 0 := fun hk => by
      simp only [Kernel.allocView, Prod.mk.injEq] at hk
      rw [congrFun hk.2.2.2 0, ih]
    cases l with
    | alloc =>
      simp only [step, Except.map] at hs
      split at hs
      · cases hs
      · rename_i r hr
        cases hs
        obtain ⟨pid, s'⟩ := r
        obtain ⟨i, hi, -, rfl⟩ := procAlloc_eq_ok hr
        have : 0 ≠ i := by
          have := mem_userSlots.1 (List.mem_of_find?_eq_some hi); omega
        simp [this, ih]
    | setReady pid => cases hs; exact keep (procSetReady_allocView _ _)
    | free pid => cases hs; exact keep (procFree_allocView cfg _ _)
    | sleep pid usec => cases hs; exact keep (procSleep_allocView _ _ _)
    | trap t =>
      simp only [step] at hs
      split at hs
      · exact keep (kernelEntry_allocView cfg hs)
      · cases hs; exact ih
    | tick now =>
      simp only [step] at hs
      cases hs
      split <;> exact ih

/-- Below `2^31` allocations the `k`-th returned pid is `k + 1`. -/
theorem nthPid_of_lt {k : Nat} (hk : k + 1 < 2 ^ 31) : nthPid k = k + 1 := by
  rw [nthPid, BitVec.toInt_eq_toNat_cond, BitVec.toNat_ofNat,
    Nat.mod_eq_of_lt (by omega : k + 1 < 2 ^ 32), if_pos (by omega)]
  push_cast; rfl

/-- While fewer than `2^31` processes have been allocated, the returned pids are `1, …, n`. -/
theorem allocatedPids_below_wrap {s : Kernel} (h : Reachable cfg s)
    (hn : (allocatedPids s.log).length < 2 ^ 31) :
    ∃ n < 2 ^ 31, allocatedPids s.log = (List.range n).map fun k : Nat => (k : Int) + 1 :=
  ⟨_, hn, (allocatedPids_eq cfg h).2.trans
    (List.map_congr_left fun k hk => nthPid_of_lt (by have := List.mem_range.1 hk; omega))⟩

/-- While fewer than `2^31` processes have been allocated, the pids `proc_alloc` returned are
pairwise distinct and positive, none is the idle slot's pid or a non-positive `GPID_ALL`, and the
`k`-th of them (from 1) is at least `GPID_USER_START` once `k` is. -/
theorem allocatedPids_distinct_positive {s : Kernel} (h : Reachable cfg s)
    (hn : (allocatedPids s.log).length < 2 ^ 31) :
    (allocatedPids s.log).Nodup ∧ (∀ p ∈ allocatedPids s.log, 0 < p) ∧
      (s.procSet 0).pid ∉ allocatedPids s.log ∧
      (cfg.gpidAll ≤ 0 → cfg.gpidAll ∉ allocatedPids s.log) ∧
      ∀ (k : Nat) (hk : k < (allocatedPids s.log).length), cfg.gpidUserStart ≤ k + 1 →
        cfg.gpidUserStart ≤ (allocatedPids s.log)[k] := by
  rw [procSet_zero_pid cfg h]
  obtain ⟨n, -, e⟩ := allocatedPids_below_wrap cfg h hn
  simp only [e, List.mem_map, List.mem_range, List.getElem_map, List.getElem_range]
  refine ⟨List.Nodup.map (fun a b hab => by omega) (List.nodup_range _),
    ?_, ?_, ?_, fun k _ hu => hu⟩
  · rintro p ⟨k, -, rfl⟩; omega
  · rintro ⟨k, -, hk⟩; omega
  · rintro hall ⟨k, -, hk⟩; omega

end Config

/-- After three allocations from boot the returned pids are `1, 2, 3`, which satisfy the bounds. -/
theorem allocatedPids_after_three_allocs :
    ∃ s, Reachable sampleConfig s ∧ (allocatedPids s.log).length < 2 ^ 31 ∧
      ((allocatedPids s.log).Nodup ∧ (∀ p ∈ allocatedPids s.log, 0 < p) ∧
        (s.procSet 0).pid ∉ allocatedPids s.log ∧
        (sampleConfig.gpidAll ≤ 0 → sampleConfig.gpidAll ∉ allocatedPids s.log) ∧
        ∀ (k : Nat) (hk : k < (allocatedPids s.log).length), sampleConfig.gpidUserStart ≤ k + 1 →
          sampleConfig.gpidUserStart ≤ (allocatedPids s.log)[k]) := by
  obtain ⟨s, hr, hn⟩ := reach_of_run sampleConfig (l := [.alloc, .alloc, .alloc])
    (p := fun s => decide ((allocatedPids s.log).length < 2 ^ 31)) (by decide)
  have hn : (allocatedPids s.log).length < 2 ^ 31 := of_decide_eq_true hn
  exact ⟨s, hr, hn, allocatedPids_distinct_positive sampleConfig hr hn⟩

/-! ## Past `2^31` allocations -/

/-- A run that allocates a process and frees it again, `n` times over. -/
def allocFreeCycles : Nat → List Step
  | 0 => []
  | n + 1 => allocFreeCycles n ++ [.alloc, .free (nthPid n)]

/-- On a table with every slot unused, `proc_alloc` hands out slot 1. -/
theorem procAlloc_of_all_unused {s : Kernel} (h : ∀ i, (s.procSet i).status = .unused) :
    ∃ s', procAlloc s = .ok ((s.currPid + 1).toInt, s') ∧ s'.currPid = s.currPid + 1 ∧
      (s'.procSet 1).pid = (s.currPid + 1).toInt ∧ (s'.procSet 1).status = .loading ∧
      ∀ i ≠ 1, (s'.procSet i).status = .unused := by
  have : userSlots.find? (fun i => (s.procSet i).status == .unused) = some 1 := by
    simp [userSlots, List.range', List.find?, h]
  simp only [procAlloc, this]
  exact ⟨_, rfl, rfl, by simp [allocFields], by simp [allocFields], fun i hi => by simp [hi, h]⟩

/-- Freeing the only live process, held in slot 1, leaves every slot unused. -/
theorem procFree_only_live {cfg : Config} {s : Kernel} {pid : Int} (hne : pid ≠ cfg.gpidAll)
    (h1 : (s.procSet 1).pid = pid) (hl : (s.procSet 1).status ≠ .unused)
    (hu : ∀ i ≠ 1, (s.procSet i).status = .unused) :
    ∀ i, ((procFree cfg s pid).procSet i).status = .unused := by
  have hfind : findSlot s.procSet (fun p => p.pid == pid && p.status != .unused) = some 1 :=
    findSlot_of_unique (by decide) (by simp [h1, hl]) fun j _ hj => by
      by_contra hj1; simp [hu j hj1] at hj
  intro i
  simp only [procFree, if_pos hne, hfind]
  by_cases h : i = 1
  · subst h; simp [procSetStatus, terminate, h1, maxNProcess]
  · simp only [procSetStatus, terminate_procSet_ne _ h]
    split <;> simp [hu i h]

/-- A cycle's allocation returns `nthPid n` after `n` cycles. -/
theorem ofNat_add_one (n : Nat) : BitVec.ofNat 32 n + 1 = BitVec.ofNat 32 (n + 1) := by
  rw [BitVec.ofNat_add]; rfl

/-- Each cycle from an all-unused table ends in an all-unused table, one pid further on. -/
theorem allocFreeCycles_run {n : Nat} (hn : n < 2 ^ 31) :
    ∃ s, run sampleConfig (init sampleConfig) (allocFreeCycles n) = .ok s ∧
      (∀ i, (s.procSet i).status = .unused) ∧ s.currPid = BitVec.ofNat 32 n := by
  induction n with
  | zero => exact ⟨_, rfl, fun _ => rfl, rfl⟩
  | succ n ih =>
    obtain ⟨s, hs, hu, hc⟩ := ih (by omega)
    obtain ⟨s₁, ha, hc₁, hp₁, hl₁, hu₁⟩ := procAlloc_of_all_unused hu
    have hpid : (s.currPid + 1).toInt = nthPid n := by rw [hc, ofNat_add_one]; rfl
    have hne : nthPid n ≠ sampleConfig.gpidAll := by
      rw [nthPid_of_lt (by omega)]; simp [sampleConfig]; omega
    refine ⟨procFree sampleConfig s₁ (nthPid n), ?_,
      procFree_only_live hne (hp₁.trans hpid) (by simp [hl₁]) hu₁, ?_⟩
    · rw [allocFreeCycles, run_append, hs]
      simp [run, step, ha, Except.map, Except.bind]
    · have := congrArg Prod.fst (procFree_allocView sampleConfig s₁ (nthPid n))
      simp only [Kernel.allocView] at this
      rw [this, hc₁, hc, ofNat_add_one]

/-- The `2^31`-th allocation of a run that allocates and frees one process over and over returns
`-2^31`: the pid counter is a `uint` and the pid an `int`. -/
theorem allocatedPids_wrap :
    ∃ s, Reachable sampleConfig s ∧ (-2 ^ 31 : Int) ∈ allocatedPids s.log := by
  obtain ⟨s, hs, hu, hc⟩ := allocFreeCycles_run (n := 2 ^ 31 - 1) (by decide)
  obtain ⟨s₁, ha, -⟩ := procAlloc_of_all_unused hu
  refine ⟨s₁, (run_reachable sampleConfig Reachable.init hs).step (l := .alloc)
    (by simp [step, ha, Except.map]), ?_⟩
  rw [(procAlloc_spec ha).2.2.2, hc]
  simp only [List.mem_append, List.mem_singleton]
  exact .inr (by decide)

end EgosGrass

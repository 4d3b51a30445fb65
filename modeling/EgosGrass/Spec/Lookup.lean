import EgosGrass.Native.Run

/-!
# Slot lookup

`findSlot` is the scan of slots `0 .. MAX_NPROCESS - 1` that every pid-addressed operation of
`process.c` and `proc_try_send` share. Its specification (`findSlot_eq_some`, `findSlot_eq_none`)
and the frame lemmas of the operations built on it are stated here once; later proofs cite them
and do not unfold the scan.

The scan range is where the operations and `proc_alloc` part ways: `proc_alloc` hands out slots
`1 .. MAX_NPROCESS`, while the lookups never reach slot `MAX_NPROCESS`
(`lookups_skip_last_slot`).
-/

namespace EgosGrass

/-- A bind in `Except` succeeds exactly when both halves do. -/
theorem bind_eq_ok {ε α β : Type} {x : Except ε α} {f : α → Except ε β} {b : β} :
    x >>= f = .ok b ↔ ∃ a, x = .ok a ∧ f a = .ok b := by
  cases x <;> simp [bind, Except.bind]

/-- The lookups scan slots `0 .. MAX_NPROCESS - 1`. -/
theorem mem_lowSlots {i : Nat} : i ∈ lowSlots ↔ i < maxNProcess := List.mem_range

/-- `proc_alloc` and the scans of `proc_yield` range over slots `1 .. MAX_NPROCESS`. -/
theorem mem_userSlots {i : Nat} : i ∈ userSlots ↔ 1 ≤ i ∧ i ≤ maxNProcess := by
  simp only [userSlots, List.mem_range', maxNProcess]
  constructor
  · rintro ⟨k, hk, rfl⟩; omega
  · intro h; exact ⟨i - 1, by omega, by omega⟩

/-- A slot `findSlot` returns is below `MAX_NPROCESS` and matches. -/
theorem findSlot_eq_some {t : Nat → Process} {p : Process → Bool} {i : Nat}
    (h : findSlot t p = some i) : i < maxNProcess ∧ p (t i) = true :=
  ⟨mem_lowSlots.1 (List.mem_of_find?_eq_some h), List.find?_some (p := fun i => p (t i)) h⟩

/-- `findSlot` finds nothing exactly when no slot below `MAX_NPROCESS` matches. -/
theorem findSlot_eq_none {t : Nat → Process} {p : Process → Bool} :
    findSlot t p = none ↔ ∀ i < maxNProcess, p (t i) = false := by
  simp [findSlot, List.find?_eq_none, mem_lowSlots]

/-- A slot that is the only match below `MAX_NPROCESS` is the one `findSlot` returns. -/
theorem findSlot_of_unique {t : Nat → Process} {p : Process → Bool} {i : Nat}
    (hi : i < maxNProcess) (hp : p (t i) = true)
    (hu : ∀ j < maxNProcess, p (t j) = true → j = i) : findSlot t p = some i := by
  cases h : findSlot t p with
  | none => simp [findSlot_eq_none.1 h i hi] at hp
  | some j =>
    obtain ⟨hj, hpj⟩ := findSlot_eq_some h
    rw [hu j hj hpj]

/-- `proc_alloc` when it does not halt: the first unused slot of `userSlots` takes the fields of a
new process with pid `++curr_pid`, and the pid is logged. -/
theorem procAlloc_eq_ok {s s' : Kernel} {pid : Int} (h : procAlloc s = .ok (pid, s')) :
    ∃ i, userSlots.find? (fun i => (s.procSet i).status == .unused) = some i ∧
      pid = (s.currPid + 1).toInt ∧
      s' = ({ s with currPid := s.currPid + 1 }.modifyProc i
        (allocFields (s.currPid + 1).toInt (mtimeGet s))).emit (.allocated (s.currPid + 1).toInt) := by
  unfold procAlloc at h
  split at h
  · cases h
    exact ⟨_, ‹_›, rfl, rfl⟩
  · cases h

/-! ## Frame lemmas of the pid-addressed operations

Each operation writes at most the slot `findSlot` returns; everything else is left alone. -/

/-- The shape all pid-addressed operations share: modify the slot a lookup finds. -/
theorem modifyFound_procSet_of_not_found (s : Kernel) (o : Option Nat) (f : Process → Process)
    {j : Nat} (hj : o ≠ some j) :
    (match o with | some i => s.modifyProc i f | none => s).procSet j = s.procSet j := by
  cases o with
  | none => rfl
  | some i =>
    have : j ≠ i := fun h => hj (h ▸ rfl)
    simp [this]

/-- `proc_set_ready` never reaches slot `MAX_NPROCESS` or beyond. -/
theorem procSetReady_procSet_of_ge (s : Kernel) (pid : Int) {j : Nat} (hj : maxNProcess ≤ j) :
    (procSetReady s pid).procSet j = s.procSet j :=
  modifyFound_procSet_of_not_found s _ _ fun h => by
    have := (findSlot_eq_some h).1; omega

/-- `proc_set_running` never reaches slot `MAX_NPROCESS` or beyond. -/
theorem procSetRunning_procSet_of_ge (s : Kernel) (pid : Int) {j : Nat} (hj : maxNProcess ≤ j) :
    (procSetRunning s pid).procSet j = s.procSet j :=
  modifyFound_procSet_of_not_found s _ _ fun h => by
    have := (findSlot_eq_some h).1; omega

/-- `proc_set_runnable` and `proc_set_pending` never reach slot `MAX_NPROCESS` or beyond. -/
theorem procLeaveRunning_procSet_of_ge (st : ProcStatus) (s : Kernel) (pid : Int) {j : Nat}
    (hj : maxNProcess ≤ j) : (procLeaveRunning st s pid).procSet j = s.procSet j :=
  modifyFound_procSet_of_not_found s _ _ fun h => by
    have := (findSlot_eq_some h).1; omega

/-- `proc_sleep` never reaches slot `MAX_NPROCESS` or beyond. -/
theorem procSleep_procSet_of_ge (s : Kernel) (pid : Int) (usec : BitVec 32) {j : Nat}
    (hj : maxNProcess ≤ j) : (procSleep s pid usec).procSet j = s.procSet j :=
  modifyFound_procSet_of_not_found s _ _ fun h => by
    have := (findSlot_eq_some h).1; omega

/-- `proc_set_status` never reaches slot `MAX_NPROCESS` or beyond. -/
theorem procSetStatus_procSet_of_ge (s : Kernel) (pid : Int) (st : ProcStatus) {j : Nat}
    (hj : maxNProcess ≤ j) : (procSetStatus s pid st).procSet j = s.procSet j := by
  simp [procSetStatus, show ¬j < maxNProcess by omega]

/-- Terminating slot `i` leaves every other slot as it was. -/
theorem terminate_procSet_ne (s : Kernel) {i j : Nat} (h : j ≠ i) :
    (terminate s i).procSet j = s.procSet j := by
  simp [terminate, h]

/-- `proc_free`, of a pid or of `GPID_ALL`, never reaches slot `MAX_NPROCESS` or beyond. -/
theorem procFree_procSet_of_ge (cfg : Config) (s : Kernel) (pid : Int) {j : Nat}
    (hj : maxNProcess ≤ j) : (procFree cfg s pid).procSet j = s.procSet j := by
  unfold procFree
  split
  · split
    · rename_i i hi
      have := (findSlot_eq_some hi).1
      rw [procSetStatus_procSet_of_ge _ _ _ hj, terminate_procSet_ne _ (by omega)]
    · rfl
  · -- `GPID_ALL`: the loop visits only slots below `MAX_NPROCESS`
    have key : ∀ (l : List Nat) (s : Kernel), (∀ i ∈ l, i < maxNProcess) →
        (l.foldl (fun s i =>
          if (s.procSet i).pid ≥ cfg.gpidUserStart ∧ (s.procSet i).status ≠ .unused then
            (terminate s i).modifyProc i fun p => { p with status := .unused }
          else s) s).procSet j = s.procSet j := by
      intro l
      induction l with
      | nil => intros; rfl
      | cons i l ih =>
        intro s hl
        simp only [List.foldl_cons]
        rw [ih _ fun k hk => hl k (List.mem_cons_of_mem _ hk)]
        have hij : j ≠ i := by have := hl i (List.mem_cons_self _ _); omega
        split
        · simp [hij, terminate_procSet_ne _ hij]
        · rfl
    exact key lowSlots s fun i hi => mem_lowSlots.1 hi

/-- `proc_free` carries a reflexive, transitive relation that each of its ways to free a slot
establishes: by pid, and in the loop of `GPID_ALL`. -/
theorem procFree_rel (cfg : Config) {R : Kernel → Kernel → Prop} (hrefl : ∀ s, R s s)
    (htrans : ∀ {a b c}, R a b → R b c → R a c)
    (hpid : ∀ s i pid, R s (procSetStatus (terminate s i) pid .unused))
    (hall : ∀ s i, R s ((terminate s i).modifyProc i fun p => { p with status := .unused }))
    (s : Kernel) (pid : Int) : R s (procFree cfg s pid) := by
  unfold procFree
  split
  · split
    · exact hpid s _ pid
    · exact hrefl s
  · induction lowSlots generalizing s with
    | nil => exact hrefl s
    | cons i l ih =>
      refine htrans ?_ (ih _)
      dsimp only
      split
      · exact hall s i
      · exact hrefl s

/-- The receiver lookup of `proc_try_send` never reaches slot `MAX_NPROCESS` or beyond. -/
theorem procTrySend_procSet_of_ge (cfg : Config) {s s' : Kernel} {i j : Nat}
    (hj : maxNProcess ≤ j) (h : procTrySend cfg s i = .ok s') : s'.procSet j = s.procSet j := by
  dsimp only [procTrySend] at h
  split at h
  · rename_i k hk
    have := (findSlot_eq_some hk).1
    split at h <;> cases h
    · simp [show j ≠ k by omega]
    · rfl
  · cases h

/-! ## What the scans of `proc_yield` carry -/

/-- A relation between states that each step of the scans establishes: the wake-up of a slot, and
the retry of its pending system call. -/
structure ScanRel (cfg : Config) (now : BitVec 64) (R : Kernel → Kernel → Prop) : Prop where
  refl : ∀ s, R s s
  trans : ∀ {a b c}, R a b → R b c → R a c
  wake : ∀ s i, R s (wakeUp now s i)
  retry : ∀ {s s' i}, retry cfg s i = .ok s' → R s s'

section ScanRel

variable {cfg : Config} {now : BitVec 64} {R : Kernel → Kernel → Prop} {s s' : Kernel}

/-- A relation that every wake-up and retry establishes holds across the first scan. -/
theorem ScanRel.of_mlfqScan (hR : ScanRel cfg now R) {l : List Nat} {n n' : Nat} {m : Int}
    (h : mlfqScan cfg now l s n m = .ok (s', n')) : R s s' := by
  induction l generalizing s n m with
  | nil => cases h; exact hR.refl _
  | cons i l ih =>
    obtain ⟨s₁, h₁, h⟩ := bind_eq_ok.1 h
    have r := hR.trans (hR.wake s i) (hR.retry h₁)
    dsimp only at h
    split at h
    · exact hR.trans r (ih h)
    · split at h <;> exact hR.trans r (ih h)

/-- A relation that every wake-up and retry establishes holds across the fallback scan. -/
theorem ScanRel.of_fallbackScan (hR : ScanRel cfg now R) {l : List Nat} {n' : Nat}
    (h : fallbackScan cfg now l s = .ok (s', n')) : R s s' := by
  induction l generalizing s with
  | nil => cases h; exact hR.refl _
  | cons i l ih =>
    obtain ⟨s₁, h₁, h⟩ := bind_eq_ok.1 h
    dsimp only at h
    split at h
    · exact hR.trans (hR.retry h₁) (ih h)
    · split at h
      · cases h; exact hR.retry h₁
      · exact hR.trans (hR.retry h₁) (ih h)

/-- Both scans of `proc_yield` carry the relation. -/
theorem ScanRel.of_pickNext (hR : ScanRel cfg now R) {k : Nat}
    (h : pickNext cfg now s = .ok (s', k)) : R s s' := by
  obtain ⟨⟨s₁, n₁⟩, h₁, h⟩ := bind_eq_ok.1 h
  refine hR.trans (hR.of_mlfqScan h₁) ?_
  dsimp only at h
  split at h
  · exact hR.of_fallbackScan h
  · cases h; exact hR.refl _

end ScanRel

/-- Slot `MAX_NPROCESS` is out of reach of every pid-addressed operation: `proc_set_ready`,
`proc_set_running`, `proc_set_runnable`, `proc_set_pending`, `proc_sleep`, `proc_free` (of a pid
or of `GPID_ALL`) and the receiver lookup of `proc_try_send` all leave it as it is, although
`proc_alloc` hands it out. -/
theorem lookups_skip_last_slot (cfg : Config) (s : Kernel) (pid : Int) (usec : BitVec 32) :
    (procSetReady s pid).procSet maxNProcess = s.procSet maxNProcess ∧
    (procSetRunning s pid).procSet maxNProcess = s.procSet maxNProcess ∧
    (procSetRunnable s pid).procSet maxNProcess = s.procSet maxNProcess ∧
    (procSetPending s pid).procSet maxNProcess = s.procSet maxNProcess ∧
    (procSleep s pid usec).procSet maxNProcess = s.procSet maxNProcess ∧
    (procFree cfg s pid).procSet maxNProcess = s.procSet maxNProcess ∧
    ∀ i s', procTrySend cfg s i = .ok s' → s'.procSet maxNProcess = s.procSet maxNProcess :=
  ⟨procSetReady_procSet_of_ge _ _ (Nat.le_refl _), procSetRunning_procSet_of_ge _ _ (Nat.le_refl _),
    procLeaveRunning_procSet_of_ge _ _ _ (Nat.le_refl _), procLeaveRunning_procSet_of_ge _ _ _ (Nat.le_refl _),
    procSleep_procSet_of_ge _ _ _ (Nat.le_refl _), procFree_procSet_of_ge _ _ _ (Nat.le_refl _),
    fun _ _ h => procTrySend_procSet_of_ge _ (Nat.le_refl _) h⟩

/-- Sixteen allocations from boot put pid 16 in slot `MAX_NPROCESS`. The loader's
`proc_set_ready(16)` leaves it loading and `proc_free(16)` does not release it; after that free
the next `proc_alloc` halts with the table full, although only fifteen processes are left. -/
theorem last_slot_lost_to_pid_lookups :
    (match run sampleConfig (init sampleConfig)
        (List.replicate 16 .alloc ++ [.setReady 16, .free 16]) with
      | .ok s => (s.procSet maxNProcess).pid == 16 && (s.procSet maxNProcess).status == .loading
      | .error _ => false) = true ∧
    (match run sampleConfig (init sampleConfig) (List.replicate 16 .alloc ++ [.free 16, .alloc]) with
      | .ok _ => false
      | .error (f, _) => f matches .procLimit) = true := by
  have h16 : (match run sampleConfig (init sampleConfig) (List.replicate 16 .alloc) with
      | .ok s => (s.procSet maxNProcess).pid == 16 && (s.procSet maxNProcess).status == .loading
      | .error _ => false) = true := by decide
  refine ⟨?_, by decide⟩
  rw [run_append]
  revert h16
  cases run sampleConfig (init sampleConfig) (List.replicate 16 .alloc) with
  | error => exact id
  | ok s =>
    -- `proc_set_ready(16)` and `proc_free(16)` both miss slot `MAX_NPROCESS`
    have hkeep := (lookups_skip_last_slot sampleConfig (procSetReady s 16) 16 0).2.2.2.2.2.1.trans
      (lookups_skip_last_slot sampleConfig s 16 0).1
    dsimp only [Except.bind, run, step]
    rw [hkeep]
    exact id

end EgosGrass

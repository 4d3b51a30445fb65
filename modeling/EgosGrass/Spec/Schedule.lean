import EgosGrass.Spec.Mlfq
import EgosGrass.Spec.Accounting
import EgosGrass.Spec.Rendezvous

/-!
# The choice of `proc_yield`

Both scans of `proc_yield` take only a slot that is ready and awake when the scan reaches it
(`eligible`): the first the one of lowest level, the first of them on a tie; the second the first
one. The scans retry the pending system calls as they go, and a retry can release a slot the
scan has passed: a receiver's `proc_try_recv` makes the sender it names runnable. So the chosen
slot is ranked first only among the slots that were already ready when the scans began
(`pickNext_choice`), and not among all slots ready when it is dispatched (`in_scan_release_outranks`).
Going idle is another matter: the first scan leaves no release pending behind the second, so with
distinct pids the second scan ends idle only when no slot is ready and awake (`pickNext_idle`).

A slot asleep when `proc_yield` begins stays asleep through it and is never chosen
(`sleeper_not_dispatched`), but the scans retry its pending record before they test its
`wakeup_time`, so a leftover record of a sleeping process is still acted on
(`sleeper_record_retried`).
-/

namespace EgosGrass

/-- What both scans of `proc_yield` ask of the slot they choose: `PROC_READY` or `PROC_RUNNABLE`,
and not asleep at `now`. -/
def eligible (now : BitVec 64) (p : Process) : Bool :=
  isReady p && !asleep now p

/-- Slot `j` comes before slot `k` in the order of the first scan: a lower `queue_level`, or the
same level and a lower index. -/
def Kernel.RanksBefore (s : Kernel) (j k : Nat) : Prop :=
  (s.procSet j).queueLevel < (s.procSet k).queueLevel ∨
    (s.procSet j).queueLevel = (s.procSet k).queueLevel ∧ j < k

instance (s : Kernel) (j k : Nat) : Decidable (s.RanksBefore j k) :=
  inferInstanceAs (Decidable (_ ∨ _))

/-- A change of the table that keeps the wake-up time of every slot asleep at `now`. -/
def Sleeps (now : BitVec 64) (s s' : Kernel) : Prop :=
  ∀ j, asleep now (s.procSet j) = true → (s'.procSet j).wakeupTime = (s.procSet j).wakeupTime

section Frames

variable {cfg : Config} {now : BitVec 64} {s s' s₁ s₂ s₃ : Kernel} {i j : Nat}

/-- Whether a slot sleeps depends only on its `wakeup_time`. -/
theorem asleep_congr {p q : Process} (h : q.wakeupTime = p.wakeupTime) :
    asleep now q = asleep now p := by
  simp only [asleep, h]

/-- A change that keeps every `wakeup_time` keeps every sleeper asleep. -/
theorem Sleeps.of_wakeupTime (h : ∀ j, (s'.procSet j).wakeupTime = (s.procSet j).wakeupTime) :
    Sleeps now s s' :=
  fun j _ => h j

/-- Stretches that keep sleepers asleep compose. -/
theorem Sleeps.trans (h₁ : Sleeps now s₁ s₂) (h₂ : Sleeps now s₂ s₃) : Sleeps now s₁ s₃ :=
  fun j hj => by
    have e := h₁ j hj
    rw [h₂ j (by rwa [asleep_congr e]), e]

/-- A sleeper stays asleep. -/
theorem Sleeps.asleep (h : Sleeps now s s') (hj : asleep now (s.procSet j) = true) :
    asleep now (s'.procSet j) = true := by
  rwa [asleep_congr (h j hj)]

/-- A scan step keeps a ready and awake slot so, at the same level. -/
theorem ScanFrame.keeps_eligible (hf : ScanFrame s s') (h : eligible now (s.procSet j) = true) :
    eligible now (s'.procSet j) = true ∧ (s'.procSet j).queueLevel = (s.procSet j).queueLevel := by
  simp only [eligible, Bool.and_eq_true, Bool.not_eq_true'] at h ⊢
  obtain ⟨hq, hw⟩ := hf.settled j h.1
  exact ⟨⟨hf.releases.ready h.1, by rw [asleep_congr hw]; exact h.2⟩, hq⟩

/-- A slot ready before a scan step and eligible after it was eligible before, at the same
level. -/
theorem ScanFrame.eligible_of_ready (hf : ScanFrame s s') (hr : isReady (s.procSet j) = true)
    (h : eligible now (s'.procSet j) = true) :
    eligible now (s.procSet j) = true ∧ (s'.procSet j).queueLevel = (s.procSet j).queueLevel := by
  simp only [eligible, Bool.and_eq_true, Bool.not_eq_true'] at h ⊢
  obtain ⟨hq, hw⟩ := hf.settled j hr
  exact ⟨⟨hr, by rw [← asleep_congr hw]; exact h.2⟩, hq⟩

/-- `proc_set_runnable` and `proc_set_pending` keep every `wakeup_time`. -/
theorem procLeaveRunning_wakeupTime (st : ProcStatus) (s : Kernel) (pid : Int) (j : Nat) :
    ((procLeaveRunning st s pid).procSet j).wakeupTime = (s.procSet j).wakeupTime := by
  unfold procLeaveRunning
  split
  · rw [Kernel.modifyProc_procSet]
    split
    · subst_vars; exact (chargeRunning_sameCtl _ _).2.2.2
    · rfl
  · rfl

/-- A retry writes no wake-up time. -/
theorem retry_wakeupTime (h : retry cfg s i = .ok s') (j : Nat) :
    (s'.procSet j).wakeupTime = (s.procSet j).wakeupTime := by
  unfold retry at h
  split at h
  · unfold procTrySyscall at h
    split at h
    · cases h
      unfold procTryRecv
      dsimp only
      split
      · rfl
      · simp only [procSetRunnable, procLeaveRunning_wakeupTime, Kernel.emit_procSet]
    · dsimp only [procTrySend] at h
      split at h
      · split at h <;> cases h
        · rw [Kernel.modifyProc_procSet]; split <;> subst_vars <;> rfl
        · rfl
      · cases h
    · cases h
  · cases h; rfl

/-- The wake-up of the first scan leaves a slot asleep at `now` alone. -/
theorem wakeUp_sleeps (now : BitVec 64) (s : Kernel) (i : Nat) : Sleeps now s (wakeUp now s i) := by
  intro j hj
  dsimp only [wakeUp]
  split
  · rename_i hw
    rw [Kernel.setProc_procSet]
    split
    · subst_vars
      simp only [asleep, Bool.and_eq_true, decide_eq_true_eq] at hj
      exact absurd hj.2 (BitVec.not_lt.2 hw.2.2)
    · rfl
  · rfl

/-- The prologue of `proc_yield` keeps every `wakeup_time`. -/
theorem yieldPrologue_wakeupTime (s : Kernel) (tty : Bool) (j : Nat) :
    ((yieldPrologue cfg s tty).procSet j).wakeupTime = (s.procSet j).wakeupTime := by
  unfold yieldPrologue
  rw [(Kernel.ctl_eq (mlfqResetLevel_ctl cfg _ tty)).2.2.2.1 j]
  split
  · exact procLeaveRunning_wakeupTime _ _ _ j
  · rfl

end Frames

/-! ## The two scans -/

section Scans

variable {cfg : Config} {now : BitVec 64} {s s' : Kernel} {l : List Nat}

/-- The first scan over an increasing list of slots, started with `next_idx = n` and
`min_level = m`, ends with the level `m'` of the slot it keeps: `m` if it keeps `n`, or the level
of an eligible slot of the list below `m`. Every slot of the list eligible at the start has a level
of at least `m'`, and on a tie comes no earlier than the kept slot. Slots asleep at `now` stay
asleep. -/
theorem mlfqScan_choice (hl : l.Pairwise (· < ·)) {n n' : Nat} {m : Int}
    (h : mlfqScan cfg now l s n m = .ok (s', n')) :
    Sleeps now s s' ∧ ∃ m', m' ≤ m ∧
      (n' = n ∧ m' = m ∨ n' ∈ l ∧ eligible now (s'.procSet n') = true ∧
        (s'.procSet n').queueLevel = m' ∧ m' < m) ∧
      ∀ j ∈ l, eligible now (s.procSet j) = true →
        m' ≤ (s.procSet j).queueLevel ∧ ((s.procSet j).queueLevel = m' → m' = m ∨ n' ≤ j) := by
  induction l generalizing s n m with
  | nil => cases h; exact ⟨fun _ _ => rfl, m, le_rfl, .inl ⟨rfl, rfl⟩, nofun⟩
  | cons i l ih =>
    obtain ⟨hi, hl⟩ := List.pairwise_cons.1 hl
    simp only [mlfqScan, bind, Except.bind] at h
    split at h
    · cases h
    rename_i s₁ h₁
    have hf₁ := ((wakeUp_step now s i : ScanStep cfg s _).trans (retry_step h₁)).toScanFrame
    have hz₁ : Sleeps now s s₁ := (wakeUp_sleeps now s i).trans (.of_wakeupTime (retry_wakeupTime h₁))
    split at h
    · -- asleep: skipped
      rename_i ha
      obtain ⟨hz, m', hm, hn, hmin⟩ := ih hl h
      refine ⟨hz₁.trans hz, m', hm, hn.imp_right fun hn => ⟨.tail _ hn.1, hn.2⟩, fun j hj hej => ?_⟩
      obtain ⟨e₁, q₁⟩ := hf₁.keeps_eligible hej
      rcases List.mem_cons.1 hj with rfl | hj
      · simp [eligible, ha] at e₁
      · rw [← q₁]; exact hmin j hj e₁
    rename_i ha
    split at h
    · -- a new candidate
      rename_i hc
      have hf := (mlfqScan_step now l h).1.toScanFrame
      obtain ⟨hz, m', hm, hn, hmin⟩ := ih hl h
      have hei : eligible now (s₁.procSet i) = true := by simp [eligible, hc.1, ha]
      refine ⟨hz₁.trans hz, m', by omega, ?_, fun j hj hej => ?_⟩
      · rcases hn with ⟨rfl, rfl⟩ | hn
        · obtain ⟨e, q⟩ := hf.keeps_eligible hei
          exact .inr ⟨.head _, e, q, hc.2⟩
        · exact .inr ⟨.tail _ hn.1, hn.2.1, hn.2.2.1, by omega⟩
      obtain ⟨e₁, q₁⟩ := hf₁.keeps_eligible hej
      rcases List.mem_cons.1 hj with rfl | hjl
      · refine ⟨by omega, fun e => .inr ?_⟩
        rcases hn with ⟨rfl, -⟩ | hn
        · exact le_rfl
        · omega
      · obtain ⟨h1, h2⟩ := hmin j hjl e₁
        have hij := hi j hjl
        refine ⟨by omega, fun e => .inr ?_⟩
        rcases hn with ⟨rfl, -⟩ | hn
        · exact hij.le
        · omega
    · -- not a candidate
      rename_i hc
      obtain ⟨hz, m', hm, hn, hmin⟩ := ih hl h
      refine ⟨hz₁.trans hz, m', hm, hn.imp_right fun hn => ⟨.tail _ hn.1, hn.2⟩, fun j hj hej => ?_⟩
      obtain ⟨e₁, q₁⟩ := hf₁.keeps_eligible hej
      rcases List.mem_cons.1 hj with rfl | hj
      · have hr : isReady (s₁.procSet j) = true := (Bool.and_eq_true_iff.1 e₁).1
        have : m ≤ (s₁.procSet j).queueLevel := not_lt.1 fun hlt => hc ⟨hr, hlt⟩
        exact ⟨by omega, fun _ => .inl (by omega)⟩
      · rw [← q₁]; exact hmin j hj e₁

/-- The second scan keeps `MAX_NPROCESS`, or a slot of its list eligible when it is kept. Slots
asleep at `now` stay asleep. -/
theorem fallbackScan_choice {n' : Nat} (h : fallbackScan cfg now l s = .ok (s', n')) :
    Sleeps now s s' ∧ (n' = maxNProcess ∨ n' ∈ l ∧ eligible now (s'.procSet n') = true) := by
  induction l generalizing s with
  | nil => cases h; exact ⟨fun _ _ => rfl, .inl rfl⟩
  | cons i l ih =>
    simp only [fallbackScan, bind, Except.bind] at h
    split at h
    · cases h
    rename_i s₁ h₁
    have hz₁ : Sleeps now s s₁ := .of_wakeupTime (retry_wakeupTime h₁)
    split at h
    · obtain ⟨hz, hn⟩ := ih h
      exact ⟨hz₁.trans hz, hn.imp_right fun hn => ⟨.tail _ hn.1, hn.2⟩⟩
    rename_i ha
    split at h
    · cases h
      rename_i hr
      exact ⟨hz₁, .inr ⟨.head _, by simp [eligible, hr, ha]⟩⟩
    · obtain ⟨hz, hn⟩ := ih h
      exact ⟨hz₁.trans hz, hn.imp_right fun hn => ⟨.tail _ hn.1, hn.2⟩⟩

/-- The two scans, from any table: a slot below `MAX_NPROCESS` is kept only if it is eligible when
kept, and slots asleep at `now` stay asleep. -/
theorem pickNext_eligible {k : Nat} (h : pickNext cfg now s = .ok (s', k)) :
    Sleeps now s s' ∧ (k < maxNProcess → k ∈ userSlots ∧ eligible now (s'.procSet k) = true) := by
  obtain ⟨⟨s₁, n₁⟩, h₁, h₂⟩ := bind_eq_ok.1 h
  obtain ⟨hz₁, m', -, hn, -⟩ := mlfqScan_choice (List.pairwise_lt_range' 1 maxNProcess) h₁
  dsimp only at h₂
  split at h₂
  · obtain ⟨hz₂, hk⟩ := fallbackScan_choice h₂
    exact ⟨hz₁.trans hz₂, fun hk' => hk.resolve_left (by omega)⟩
  · rename_i hn₁
    cases h₂
    obtain ⟨hk, he, -⟩ := hn.resolve_left fun e => hn₁ e.1
    exact ⟨hz₁, fun _ => ⟨hk, he⟩⟩

/-- The two scans, from a table whose levels are below the sentinel `MLFQ_LEVELS` and whose slot
`MAX_NPROCESS` is unused or loading. A slot that was ready when the scans began and is eligible at
their end was eligible throughout: then a slot below `MAX_NPROCESS` is kept, and the slot does not
rank before it. -/
theorem pickNext_choice {k : Nat} (hlev : ∀ j, (s.procSet j).queueLevel < mlfqLevels)
    (htop : (s.procSet maxNProcess).status = .unused ∨ (s.procSet maxNProcess).status = .loading)
    (h : pickNext cfg now s = .ok (s', k)) (j : Nat) (hj : j ∈ userSlots)
    (hej : eligible now (s'.procSet j) = true) (hr : isReady (s.procSet j) = true) :
    k < maxNProcess ∧ ¬s'.RanksBefore j k := by
  obtain ⟨⟨s₁, n₁⟩, h₁, h₂⟩ := bind_eq_ok.1 h
  obtain ⟨-, m', hm, hn, hmin⟩ := mlfqScan_choice (List.pairwise_lt_range' 1 maxNProcess) h₁
  have hf₁ := (mlfqScan_step now userSlots h₁).1.toScanFrame
  dsimp only at h₂
  split at h₂
  · -- the first scan kept `MAX_NPROCESS`: no slot was eligible at the start
    rename_i hn₁
    have hf₂ := (fallbackScan_step now userSlots h₂).1.toScanFrame
    have hej₀ := ((hf₁.trans hf₂).eligible_of_ready hr hej).1
    have hlj := (hmin j hj hej₀).1
    have := hlev j
    rcases hn with ⟨-, rfl⟩ | ⟨-, he, -⟩
    · omega
    · have ht := hf₁.moved.top maxNProcess le_rfl (by rcases htop with e | e <;> rw [e] <;> decide)
      rw [hn₁] at he
      rcases htop with e | e <;> simp [eligible, isReady, ht, e] at he
  · -- the first scan kept a slot below `MAX_NPROCESS`
    rename_i hn₁
    cases h₂
    obtain ⟨hk, -, hq, hm'⟩ := hn.resolve_left fun e => hn₁ e.1
    refine ⟨by have := (mem_userSlots.1 hk).2; omega, ?_⟩
    obtain ⟨e, q⟩ := hf₁.eligible_of_ready hr hej
    obtain ⟨h1, h2⟩ := hmin j hj e
    simp only [Kernel.RanksBefore, q, hq]
    omega

end Scans

/-! ## The idle core

A retry in the second scan can release a slot the scan has passed only through the receiver it
retries, whose record names that slot as the sender. The first scan leaves no such receiver
behind it: every sender it retries delivers into the receiver it is stuck with, if any, and a
receiver filled in after its own retry is filled by a sender further on (`SettledBelow`). So,
with distinct pids, the second scan changes no status behind it, and it ends idle only when no
slot is ready and awake (`pickNext_idle`). -/

/-- What the lookups by pid of the scans need of the state they begin from: a nonzero pid is held
by one slot at most, slot 0 holds pid 0, and a blocked slot of `1 .. MAX_NPROCESS` holds a nonzero
pid. Every polite run has them (`PidInv.pidsDistinct`). -/
structure PidsDistinct (s : Kernel) : Prop where
  unique : ∀ i j, (s.procSet i).pid = (s.procSet j).pid → (s.procSet i).pid ≠ 0 → i = j
  idle : (s.procSet 0).pid = 0
  pending : ∀ i ∈ userSlots, (s.procSet i).status = .pendingSyscall → (s.procSet i).pid ≠ 0

/-- `PidsDistinct`, with slot `MAX_NPROCESS` unused or loading: what every state of the scans
keeps. -/
structure ScanPids (s : Kernel) extends PidsDistinct s : Prop where
  top : (s.procSet maxNProcess).status = .unused ∨ (s.procSet maxNProcess).status = .loading

/-- A blocked receiver `m` with a filled-in `SYS_RECV` record names a sender whose slot, as the
lookup of `proc_set_runnable` finds it, is slot 0 or comes after `m`. -/
def SenderAhead (s : Kernel) (m : Nat) : Prop :=
  (s.procSet m).status = .pendingSyscall → (s.procSet m).syscall.type = .sysRecv →
    (s.procSet m).syscall.status ≠ .pending →
    ∀ i, findSlot s.procSet (fun p => p.pid == (s.procSet m).syscall.sender) = some i →
      i = 0 ∨ m < i

/-- What the first scan leaves behind it up to slot `b`: no slot of `1 .. b - 1` is a sender stuck
with a receiver of `1 .. MAX_NPROCESS`, and each of them names a sender ahead of it. -/
def SettledBelow (cfg : Config) (s : Kernel) (b : Nat) : Prop :=
  ∀ d ∈ userSlots, d < b → (∀ m ∈ userSlots, ¬Stuck cfg s d m) ∧ SenderAhead s d

section Idle

variable {cfg : Config} {now : BitVec 64} {s s' : Kernel} {b p j m : Nat}

/-- The pid discipline of a polite run gives distinct pids. -/
theorem PidInv.pidsDistinct (h : PidInv s) : PidsDistinct s :=
  ⟨h.unique, h.idle, fun _ _ hb => (h.pos_of_live (by rw [hb]; decide)).ne'⟩

/-- A scan step keeps the pids and blocks no slot. -/
theorem ScanPids.frame (h : ScanPids s) (hf : ScanFrame s s') : ScanPids s' := by
  have hp := hf.pid
  refine ⟨⟨fun i j e hz => h.unique i j ?_ ?_, (hp 0).trans h.idle, fun i hi hb => ?_⟩, ?_⟩
  · rwa [← hp i, ← hp j]
  · rwa [← hp i]
  · rw [hp]; exact h.pending i hi ((hf.advances i).pending hb)
  · rw [hf.moved.top maxNProcess le_rfl (by rcases h.top with e | e <;> rw [e] <;> decide)]
    exact h.top

/-- A blocked slot of `1 .. MAX_NPROCESS` is below `MAX_NPROCESS`. -/
theorem ScanPids.lt (h : ScanPids s) (hm : m ∈ userSlots)
    (hb : (s.procSet m).status = .pendingSyscall) : m < maxNProcess := by
  refine lt_of_le_of_ne (mem_userSlots.1 hm).2 fun e => ?_
  subst e
  rcases h.top with e | e <;> rw [e] at hb <;> cases hb

/-- The lookup by the pid of a blocked slot finds it. -/
theorem ScanPids.findSlot_pid (h : ScanPids s) (hm : m ∈ userSlots)
    (hb : (s.procSet m).status = .pendingSyscall) :
    findSlot s.procSet (fun p => p.pid == (s.procSet m).pid) = some m :=
  findSlot_of_unique (h.lt hm hb) (by simp) fun j _ hj => by
    have e : (s.procSet j).pid = (s.procSet m).pid := by simpa using hj
    exact h.unique j m e (e ▸ h.pending m hm hb)

/-- The lookup of `proc_try_send` by the pid of a blocked slot finds it. -/
theorem ScanPids.findSlot_live (h : ScanPids s) (hm : m ∈ userSlots)
    (hb : (s.procSet m).status = .pendingSyscall) :
    findSlot s.procSet (fun p => p.pid == (s.procSet m).pid && p.status != .unused) = some m :=
  findSlot_of_unique (h.lt hm hb) (by simp [hb]) fun j _ hj => by
    have e : (s.procSet j).pid = (s.procSet m).pid := by simp at hj; exact hj.1
    exact h.unique j m e (e ▸ h.pending m hm hb)

/-- Whether the scans pick a slot depends only on its status and `wakeup_time`. -/
theorem eligible_congr {p q : Process} (hs : q.status = p.status)
    (hw : q.wakeupTime = p.wakeupTime) : eligible now q = eligible now p := by
  simp only [eligible, isReady, asleep, hs, hw]

/-- The wake-up of the first scan writes no record. -/
theorem wakeUp_syscall (now : BitVec 64) (s : Kernel) (i j : Nat) :
    ((wakeUp now s i).procSet j).syscall = (s.procSet j).syscall := by
  dsimp only [wakeUp]
  split
  · rw [Kernel.setProc_procSet]; split <;> subst_vars <;> rfl
  · rfl

/-- A retry of slot `p` writes a record only by delivering the message of `p`, blocked in a
`SYS_SEND`, into a slot that holds the receiver's pid and accepts it. -/
theorem retry_syscall (hs : retry cfg s p = .ok s') (m : Nat) :
    (s'.procSet m).syscall = (s.procSet m).syscall ∨
      (s.procSet p).status = .pendingSyscall ∧ (s.procSet p).syscall.type = .sysSend ∧
        (s.procSet m).pid = (s.procSet p).syscall.receiver ∧
        accepts cfg (s.procSet m) (s.procSet p).pid = true ∧
        s'.procSet m = deliver (s.procSet p) (s.procSet m) := by
  unfold retry at hs
  split at hs
  · rename_i hp
    unfold procTrySyscall at hs
    split at hs
    · cases hs
      refine .inl ?_
      dsimp only [procTryRecv]
      split
      · rfl
      · simp only [procSetRunnable, procLeaveRunning_syscall, Kernel.emit_procSet]
    · rename_i hty
      dsimp only [procTrySend] at hs
      split at hs
      · rename_i k hk
        split at hs <;> cases hs
        · rename_i ha
          rw [Kernel.modifyProc_procSet]
          split
          · subst_vars
            have hkp := (findSlot_eq_some hk).2
            simp only [Bool.and_eq_true, beq_iff_eq] at hkp
            exact .inr ⟨hp, hty, hkp.1, ha, rfl⟩
          · exact .inl rfl
        · exact .inl rfl
      · cases hs
    · cases hs
  · cases hs; exact .inl rfl

/-- A receiver whose record a scan step leaves alone keeps naming a sender ahead of it. -/
theorem SenderAhead.of_frame (h : SenderAhead s m) (hf : ScanFrame s s')
    (hr : (s'.procSet m).syscall = (s.procSet m).syscall) : SenderAhead s' m := by
  intro hb ht hd i hi
  rw [hr] at ht hd hi
  rw [findSlot_congr (t := s.procSet) fun j => by simp only [hf.pid j]] at hi
  exact h ((hf.advances m).pending hb) ht hd i hi

/-- A retry of sender `p` leaves it stuck with no receiver of `1 .. MAX_NPROCESS`: the lookup of
`proc_try_send` finds the receiver it is stuck with, and the delivery fills its record. -/
theorem ScanPids.retry_unstuck (h : ScanPids s) (hs : retry cfg s p = .ok s')
    (hm : m ∈ userSlots) : ¬Stuck cfg s' p m := by
  intro hst
  obtain ⟨hp, hty, hmb, hpid, ha⟩ := hst.of_advances (retry_step hs).toScanFrame.advances
  have hd : s' = s.modifyProc m (deliver (s.procSet p)) := by
    unfold retry procTrySyscall at hs
    rw [if_pos hp, hty] at hs
    dsimp only [procTrySend] at hs
    rw [← hpid, h.findSlot_live hm hmb] at hs
    dsimp only at hs
    rw [if_pos ha] at hs
    exact (Except.ok.inj hs).symm
  have hr := accepts_pending hst.2.2.2.2
  rw [hd, Kernel.modifyProc_procSet, if_pos rfl] at hr
  cases hr

/-- After its retry a blocked receiver `p` holds an open record: a filled-in one releases it. -/
theorem ScanPids.retry_senderAhead (h : ScanPids s) (hp : p ∈ userSlots)
    (hs : retry cfg s p = .ok s') : SenderAhead s' p := by
  intro hb ht hd
  have hf := (retry_step hs).toScanFrame
  have hb₀ := (hf.advances p).pending hb
  have ht₀ : (s.procSet p).syscall.type = .sysRecv := (hf.typed p).1 ▸ ht
  have hr : (s'.procSet p).syscall = (s.procSet p).syscall := by
    rcases retry_syscall hs p with e | ⟨-, hty, -⟩
    · exact e
    · rw [ht₀] at hty; cases hty
  rw [hr] at hd
  unfold retry procTrySyscall at hs
  rw [if_pos hb₀, ht₀] at hs
  cases hs
  dsimp only [procTryRecv] at hb
  rw [if_neg hd] at hb
  generalize hs₁ : procSetRunnable (s.emit (.copyOut (s.procSet p).pid (s.procSet p).syscall))
    (s.procSet p).pid = s₁ at hb
  have h₁ : (s₁.procSet p).status = .runnable := hs₁ ▸ procSetRunnable_runnable
    (fun i j hi hj => h.unique i j (hi.trans hj.symm) (hi ▸ h.pending p hp hb₀)) (h.lt hp hb₀) rfl
  rcases (procSetRunnable_frame s₁ (s₁.procSet p).syscall.sender).releases p with e | e <;>
    rw [e] at hb
  · rw [h₁] at hb; cases hb
  · cases hb

/-- `proc_set_runnable(x)` leaves alone every slot the lookup of `x` does not find. -/
theorem procLeaveRunning_procSet_of_not_found (st : ProcStatus) {x : Int}
    (hj : ∀ i, findSlot s.procSet (fun p => p.pid == x) = some i → j ≠ i) :
    (procLeaveRunning st s x).procSet j = s.procSet j := by
  unfold procLeaveRunning
  split
  · rename_i i hi
    rw [Kernel.modifyProc_procSet, if_neg (hj i hi)]
  · rfl

/-- A retry of slot `p` that names a sender ahead of it changes no status of `1 .. p - 1`: it
releases only `p` and that sender. -/
theorem ScanPids.retry_status_below (h : ScanPids s) (hp : p ∈ userSlots) (ha : SenderAhead s p)
    (hs : retry cfg s p = .ok s') (hj0 : 0 < j) (hjp : j < p) :
    (s'.procSet j).status = (s.procSet j).status := by
  unfold retry at hs
  split at hs
  · rename_i hb
    unfold procTrySyscall at hs
    split at hs
    · rename_i ht
      cases hs
      dsimp only [procTryRecv]
      split
      · rfl
      rename_i hd
      generalize hs₁ : procSetRunnable (s.emit (.copyOut (s.procSet p).pid (s.procSet p).syscall))
        (s.procSet p).pid = s₁
      have e₁ : s₁.procSet j = s.procSet j := hs₁ ▸ procLeaveRunning_procSet_of_not_found _
        fun i hi => by
          have := (h.findSlot_pid hp hb).symm.trans hi
          simp only [Option.some.injEq] at this
          omega
      have hf₁ : ScanFrame s s₁ := hs₁ ▸ (ScanFrame.emit _ _).trans (procSetRunnable_frame _ _)
      have eσ : (s₁.procSet p).syscall = (s.procSet p).syscall :=
        hs₁ ▸ procLeaveRunning_syscall _ _ _ _
      rw [procSetRunnable, procLeaveRunning_procSet_of_not_found _ fun i hi => ?_, e₁]
      rw [eσ, findSlot_congr (t := s.procSet) fun k => by simp only [hf₁.pid k]] at hi
      rcases ha hb ht hd i hi with rfl | hi <;> omega
    · dsimp only [procTrySend] at hs
      split at hs
      · split at hs <;> cases hs
        · rw [Kernel.modifyProc_procSet]; split <;> subst_vars <;> rfl
        · rfl
      · cases hs
    · cases hs
  · cases hs; rfl

/-- The visit of slot `b` by the first scan, its wake-up and its retry, settles `b` too. -/
theorem SettledBelow.visit (hP : ScanPids s) (hb : b ∈ userSlots) (hS : SettledBelow cfg s b)
    (hs : retry cfg (wakeUp now s b) b = .ok s') : SettledBelow cfg s' (b + 1) := by
  have hfw := (wakeUp_step now s b : ScanStep cfg s _).toScanFrame
  have hfr := (retry_step hs).toScanFrame
  have hPw := hP.frame hfw
  intro d hd hdb
  rcases Nat.lt_or_ge d b with hlt | hge
  · obtain ⟨hst, hsa⟩ := hS d hd hlt
    refine ⟨fun m hm h' => hst m hm (h'.of_advances (hfw.trans hfr).advances), ?_⟩
    have hsa' := hsa.of_frame hfw (wakeUp_syscall now s b d)
    rcases retry_syscall hs d with e | ⟨hpb, -, -, -, e⟩
    · exact hsa'.of_frame hfr e
    · -- `b` delivered into `d`: the record now names `b`
      intro _ _ _ i hi
      rw [e] at hi
      dsimp only [deliver] at hi
      rw [findSlot_congr (t := (wakeUp now s b).procSet) fun k => by simp only [hfr.pid k],
        hPw.findSlot_pid hb hpb] at hi
      cases hi
      exact .inr hlt
  · obtain rfl : d = b := by omega
    exact ⟨fun m hm => hPw.retry_unstuck hs hm, hPw.retry_senderAhead hb hs⟩

/-- Once the first scan is over, a retry keeps message passing settled: with no stuck sender, it
delivers into no blocked receiver. -/
theorem SettledBelow.retried (hS : SettledBelow cfg s (maxNProcess + 1)) (hp : p ∈ userSlots)
    (hs : retry cfg s p = .ok s') : SettledBelow cfg s' (maxNProcess + 1) := by
  have hf := (retry_step hs).toScanFrame
  intro d hd hdb
  obtain ⟨hst, hsa⟩ := hS d hd hdb
  refine ⟨fun m hm h' => hst m hm (h'.of_advances hf.advances), ?_⟩
  rcases retry_syscall hs d with e | ⟨hpb, hty, hpid, ha, -⟩
  · exact hsa.of_frame hf e
  · intro hbd
    have hp16 := (mem_userSlots.1 hp).2
    exact absurd ⟨hpb, hty, (hf.advances d).pending hbd, hpid, ha⟩
      ((hS p hp (by omega)).1 d hd)

/-- The first scan over `b .. b + n - 1` settles message passing below `b + n`. -/
theorem retryAll_settledBelow (hP : ScanPids s) (hS : SettledBelow cfg s b) (hb : 1 ≤ b)
    (hn : b + n ≤ maxNProcess + 1) (h : retryAll cfg now (List.range' b n) s = .ok s') :
    SettledBelow cfg s' (b + n) := by
  induction n generalizing b s with
  | zero => cases h; exact hS
  | succ n ih =>
    rw [List.range'_succ] at h
    obtain ⟨s₁, h₁, h₂⟩ := bind_eq_ok.1 h
    have hbu : b ∈ userSlots := mem_userSlots.2 ⟨hb, by omega⟩
    have hP₁ := hP.frame ((wakeUp_step now s b : ScanStep cfg s _).trans (retry_step h₁)).toScanFrame
    rw [show b + (n + 1) = b + 1 + n by omega]
    exact ih hP₁ (hS.visit hP hbu h₁) (by omega) (by omega) h₂

/-- The second scan over `b .. b + n - 1`, from a settled state, ending idle: it changes no
eligibility below `b`, and leaves no slot of its range ready and awake. -/
theorem fallbackScan_idle (hP : ScanPids s) (hS : SettledBelow cfg s (maxNProcess + 1))
    (hb : 1 ≤ b) (hn : b + n ≤ maxNProcess + 1) {k : Nat} (hk : maxNProcess ≤ k)
    (h : fallbackScan cfg now (List.range' b n) s = .ok (s', k)) :
    (∀ j, 0 < j → j < b → eligible now (s'.procSet j) = eligible now (s.procSet j)) ∧
      ∀ j, b ≤ j → j < b + n → eligible now (s'.procSet j) = false := by
  induction n generalizing b s with
  | zero => cases h; exact ⟨fun _ _ _ => rfl, fun j _ _ => by omega⟩
  | succ n ih =>
    rw [List.range'_succ] at h
    simp only [fallbackScan, bind, Except.bind] at h
    split at h
    · cases h
    rename_i s₁ h₁
    have hbu : b ∈ userSlots := mem_userSlots.2 ⟨hb, by omega⟩
    have hP₁ := hP.frame (retry_step h₁).toScanFrame
    have below : ∀ j, 0 < j → j < b → eligible now (s₁.procSet j) = eligible now (s.procSet j) :=
      fun j hj0 hjb => eligible_congr
        (hP.retry_status_below hbu (hS b hbu (by omega)).2 h₁ hj0 hjb) (retry_wakeupTime h₁ j)
    -- the scan goes on past `b`, which it leaves not ready or asleep
    have hnext : fallbackScan cfg now (List.range' (b + 1) n) s₁ = .ok (s', k) ∧
        eligible now (s₁.procSet b) = false := by
      split at h
      · exact ⟨h, by simp [eligible, *]⟩
      split at h
      · cases h
        rename_i hr
        obtain rfl : k = maxNProcess := by omega
        rcases hP₁.top with e | e <;> simp [isReady, e] at hr
      · exact ⟨h, by simp [eligible, *]⟩
    obtain ⟨ih₁, ih₂⟩ := ih hP₁ (hS.retried hbu h₁) (by omega) (by omega) hnext.1
    refine ⟨fun j hj0 hjb => (ih₁ j hj0 (by omega)).trans (below j hj0 hjb), fun j hj₁ hj₂ => ?_⟩
    rcases Nat.eq_or_lt_of_le hj₁ with rfl | hlt
    · exact (ih₁ b hb (by omega)).trans hnext.2
    · exact ih₂ j (by omega) (by omega)

/-- The two scans, from a table with distinct pids and slot `MAX_NPROCESS` unused or loading, end
idle only when no slot of `1 .. MAX_NPROCESS` is ready and awake, whatever the scans released and
whoever sleeps. -/
theorem pickNext_idle (hP : ScanPids s) {k : Nat} (h : pickNext cfg now s = .ok (s', k))
    (hk : maxNProcess ≤ k) : ∀ j ∈ userSlots, eligible now (s'.procSet j) = false := by
  obtain ⟨⟨s₁, n₁⟩, h₁, h₂⟩ := bind_eq_ok.1 h
  have hr : retryAll cfg now userSlots s = .ok s₁ := by rw [← mlfqScan_fst, h₁]; rfl
  have hS₁ := retryAll_settledBelow hP (b := 1) (fun d hd hd1 => absurd (mem_userSlots.1 hd).1
    (by omega)) le_rfl (by omega) hr
  have hP₁ := hP.frame (mlfqScan_step now userSlots h₁).1.toScanFrame
  dsimp only at h₂
  split at h₂
  · intro j hj
    have := mem_userSlots.1 hj
    exact (fallbackScan_idle hP₁ (by rwa [Nat.add_comm] at hS₁) le_rfl (by omega) hk h₂).2 j
      this.1 (by omega)
  · cases h₂
    rcases (mlfqScan_step now userSlots h₁).2 with e | ⟨hm, -⟩
    · exact absurd e ‹_›
    · have := (mem_userSlots.1 hm).2
      exact absurd (le_antisymm this hk) ‹_›

end Idle

/-! ## The dispatch -/

section Yield

variable {cfg : Config} {s y y₂ : Kernel} {t : Trap} {tty : Bool} {k : Nat}

/-- `proc_yield` dispatches the slot its scans keep if it is below `MAX_NPROCESS`, and goes idle
otherwise. -/
theorem procYield_of_pickNext
    (hk : pickNext cfg (mtimeGet (yieldPrologue cfg y tty)) (yieldPrologue cfg y tty) = .ok (y₂, k)) :
    procYield cfg y tty = .ok (if k < maxNProcess then dispatch cfg y₂ k else goIdle y₂) := by
  simp only [procYield, hk, bind, Except.bind]
  split <;> rfl

/-- The state `proc_yield` starts its scans from, in a kernel entry from a reachable state: the
levels are below `MLFQ_LEVELS` and slot `MAX_NPROCESS` is unused or loading. -/
theorem yield_start (h : Reachable cfg s) (hy : yieldArg cfg (saveContext s t) t = .ok y) :
    (∀ j, ((yieldPrologue cfg y tty).procSet j).queueLevel < mlfqLevels) ∧
    (((yieldPrologue cfg y tty).procSet maxNProcess).status = .unused ∨
      ((yieldPrologue cfg y tty).procSet maxNProcess).status = .loading) := by
  have hm := ((saveContext_tableMoved s t).trans (yieldArg_tableMoved hy)).trans
    (yieldPrologue_tableMoved y : TableMoved y (yieldPrologue cfg y tty))
  refine ⟨fun j => ?_, ?_⟩
  · have : ((yieldPrologue cfg y tty).procSet j).queueLevel ≤ mlfqLevels - 1 :=
      ((h.levelOk j).moved (hm.levels j)).2.1
    omega
  · have ht := h.top
    rwa [hm.top _ le_rfl (by rcases ht with e | e <;> rw [e] <;> decide)]

/-- The trap `recvOn hart filter` presents: `sys_recv(filter)` from user mode on `hart`. -/
def recvTrap (hart : Nat) (filter : Int) : Trap :=
  { hart := hart, mcause := excpIdEcallU, ctx := ⟨0, fun _ => 0⟩,
    syscall := ⟨.sysRecv, filter, 0, [], .pending⟩, ttyEmpty := true }

/-- Pid 2 sends to pid 1 before pid 1 receives: pid 1 runs on core 0 and pid 2 on core 1, pid 1
blocks in a send to pid 2, and pid 2 calls `sys_recv(GPID_ALL)` on core 1. In the `proc_yield` of
that call, the scan delivers pid 1's message at slot 1, then the retry of slot 2 releases slot 2
and the sender in slot 1 behind the scan; slot 2 is kept while slot 1, runnable at the same level,
ranks before it. -/
theorem release_behind_scan :
    ∃ s t y y₂, PoliteReach sampleConfig s ∧ Polite sampleConfig s (.trap t) ∧
      t.hart < sampleConfig.ncores ∧
      yieldArg sampleConfig (saveContext s t) t = .ok y ∧
      pickNext sampleConfig (mtimeGet (yieldPrologue sampleConfig y t.ttyEmpty))
        (yieldPrologue sampleConfig y t.ttyEmpty) = .ok (y₂, 2) ∧
      isReady ((yieldPrologue sampleConfig y t.ttyEmpty).procSet 1) = false ∧
      eligible (mtimeGet y) (y₂.procSet 1) = true ∧ y₂.RanksBefore 1 2 := by
  obtain ⟨s, hs, hp⟩ := politeReach_of_run sampleConfig
    (l := [.alloc, .alloc, .setReady 1, .setReady 2, timerOn 0, timerOn 1, sendOn 0 2 [7]])
    (p := fun s => decide (Polite sampleConfig s (.trap (recvTrap 1 (-1)))) &&
      match yieldArg sampleConfig (saveContext s (recvTrap 1 (-1))) (recvTrap 1 (-1)) with
      | .ok y => !isReady ((yieldPrologue sampleConfig y true).procSet 1) &&
        match pickNext sampleConfig (mtimeGet (yieldPrologue sampleConfig y true))
          (yieldPrologue sampleConfig y true) with
        | .ok (y₂, k) => k == 2 && eligible (mtimeGet y) (y₂.procSet 1) && decide (y₂.RanksBefore 1 2)
        | .error _ => false
      | .error _ => false) (by decide)
  simp only [Bool.and_eq_true, decide_eq_true_eq] at hp
  obtain ⟨hpol, hp⟩ := hp
  revert hp
  cases hy : yieldArg sampleConfig (saveContext s (recvTrap 1 (-1))) (recvTrap 1 (-1)) with
  | error => simp
  | ok y =>
    cases hk : pickNext sampleConfig (mtimeGet (yieldPrologue sampleConfig y true))
        (yieldPrologue sampleConfig y true) with
    | error => simp [hk]
    | ok r =>
      obtain ⟨y₂, k⟩ := r
      simp only [hk, Bool.and_eq_true, Bool.not_eq_true', beq_iff_eq, decide_eq_true_eq]
      rintro ⟨hr, ⟨rfl, he⟩, hb⟩
      exact ⟨s, recvTrap 1 (-1), y, y₂, hs, hpol, by decide, hy, hk, hr, he, hb⟩

/-- In a polite kernel entry the scans begin with distinct pids. -/
theorem yieldPrologue_pidsDistinct (hall : cfg.gpidAll ≤ 0) (h : PoliteReach cfg s)
    (hp : Polite cfg s (.trap t)) (hc : t.hart < cfg.ncores)
    (hy : yieldArg cfg (saveContext s t) t = .ok y) :
    PidsDistinct (yieldPrologue cfg y t.ttyEmpty) := by
  obtain ⟨hi, hcore⟩ := ((h.inv hall).of_ctl (saveContext_ctl s t)).atYield hall (hp hc) hy
  rw [← hcore] at hi
  exact hi.prologue.pid.pidsDistinct

/-- The choice of `proc_yield` in a kernel entry from a reachable state, with `now` its clock. The
entry dispatches the slot `k` the scans keep if `k < MAX_NPROCESS`, and goes idle otherwise.
A dispatched slot is among `1 .. MAX_NPROCESS` and is ready and awake when dispatched. Every slot
of `1 .. MAX_NPROCESS` that is ready and awake at that moment and was already ready when the
scans began makes the entry dispatch, and does not come before `k` in `(queue_level, index)`
order. When the pids are distinct as the scans begin, the entry goes idle only if no slot of
`1 .. MAX_NPROCESS` is ready and awake at that moment, released during the scans or not. -/
theorem yield_choice (h : Reachable cfg s) (hy : yieldArg cfg (saveContext s t) t = .ok y)
    (hk : pickNext cfg (mtimeGet (yieldPrologue cfg y t.ttyEmpty)) (yieldPrologue cfg y t.ttyEmpty) =
      .ok (y₂, k)) :
    procYield cfg y t.ttyEmpty = .ok (if k < maxNProcess then dispatch cfg y₂ k else goIdle y₂) ∧
    (k < maxNProcess → k ∈ userSlots ∧ eligible (mtimeGet y) (y₂.procSet k) = true) ∧
    (∀ j ∈ userSlots, eligible (mtimeGet y) (y₂.procSet j) = true →
      isReady ((yieldPrologue cfg y t.ttyEmpty).procSet j) = true →
        k < maxNProcess ∧ ¬y₂.RanksBefore j k) ∧
    (PidsDistinct (yieldPrologue cfg y t.ttyEmpty) → maxNProcess ≤ k →
      ∀ j ∈ userSlots, eligible (mtimeGet y) (y₂.procSet j) = false) := by
  obtain ⟨hlev, htop⟩ := yield_start h hy
  have hn : mtimeGet (yieldPrologue cfg y t.ttyEmpty) = mtimeGet y := (yieldPrologue_clockKept y).mtime
  refine ⟨procYield_of_pickNext hk, ?_, fun j hj hej hr => ?_, fun hd hidle => ?_⟩
  · rw [← hn]; exact (pickNext_eligible hk).2
  · rw [← hn] at hej; exact pickNext_choice hlev htop hk j hj hej hr
  · rw [← hn]; exact pickNext_idle ⟨hd, htop⟩ hk hidle

/-- Two entries of polite runs. In the in-scan release of `release_behind_scan`, slot 1, released
behind the scan, ranks before the dispatched slot and was not ready when the scans began. When
pid 1, alone and running on core 0, blocks in `sys_recv(GPID_ALL)`, core 0 goes idle with distinct
pids. -/
theorem yield_choice_at_release_and_idle :
    (∃ s t y y₂ k, Reachable sampleConfig s ∧ yieldArg sampleConfig (saveContext s t) t = .ok y ∧
      pickNext sampleConfig (mtimeGet (yieldPrologue sampleConfig y t.ttyEmpty))
        (yieldPrologue sampleConfig y t.ttyEmpty) = .ok (y₂, k) ∧
      isReady ((yieldPrologue sampleConfig y t.ttyEmpty).procSet 1) = false ∧ y₂.RanksBefore 1 k ∧
      (procYield sampleConfig y t.ttyEmpty =
          .ok (if k < maxNProcess then dispatch sampleConfig y₂ k else goIdle y₂) ∧
        (k < maxNProcess → k ∈ userSlots ∧ eligible (mtimeGet y) (y₂.procSet k) = true) ∧
        (∀ j ∈ userSlots, eligible (mtimeGet y) (y₂.procSet j) = true →
          isReady ((yieldPrologue sampleConfig y t.ttyEmpty).procSet j) = true →
            k < maxNProcess ∧ ¬y₂.RanksBefore j k) ∧
        (PidsDistinct (yieldPrologue sampleConfig y t.ttyEmpty) → maxNProcess ≤ k →
          ∀ j ∈ userSlots, eligible (mtimeGet y) (y₂.procSet j) = false))) ∧
    (∃ s t y y₂ k, Reachable sampleConfig s ∧ yieldArg sampleConfig (saveContext s t) t = .ok y ∧
      pickNext sampleConfig (mtimeGet (yieldPrologue sampleConfig y t.ttyEmpty))
        (yieldPrologue sampleConfig y t.ttyEmpty) = .ok (y₂, k) ∧
      maxNProcess ≤ k ∧ PidsDistinct (yieldPrologue sampleConfig y t.ttyEmpty) ∧
      (procYield sampleConfig y t.ttyEmpty =
          .ok (if k < maxNProcess then dispatch sampleConfig y₂ k else goIdle y₂) ∧
        (k < maxNProcess → k ∈ userSlots ∧ eligible (mtimeGet y) (y₂.procSet k) = true) ∧
        (∀ j ∈ userSlots, eligible (mtimeGet y) (y₂.procSet j) = true →
          isReady ((yieldPrologue sampleConfig y t.ttyEmpty).procSet j) = true →
            k < maxNProcess ∧ ¬y₂.RanksBefore j k) ∧
        (PidsDistinct (yieldPrologue sampleConfig y t.ttyEmpty) → maxNProcess ≤ k →
          ∀ j ∈ userSlots, eligible (mtimeGet y) (y₂.procSet j) = false))) := by
  refine ⟨?_, ?_⟩
  · obtain ⟨s, t, y, y₂, hs, -, -, hy, hk, hr, -, hb⟩ := release_behind_scan
    exact ⟨s, t, y, y₂, 2, hs.reachable, hy, hk, hr, hb, yield_choice hs.reachable hy hk⟩
  · obtain ⟨s, hs, hp⟩ := politeReach_of_run sampleConfig
      (l := [.alloc, .setReady 1, timerOn 0])
      (p := fun s => decide (Polite sampleConfig s (.trap (recvTrap 0 (-1)))) &&
        match yieldArg sampleConfig (saveContext s (recvTrap 0 (-1))) (recvTrap 0 (-1)) with
        | .ok y =>
          match pickNext sampleConfig (mtimeGet (yieldPrologue sampleConfig y true))
            (yieldPrologue sampleConfig y true) with
          | .ok (_, k) => decide (maxNProcess ≤ k)
          | .error _ => false
        | .error _ => false) (by decide)
    simp only [Bool.and_eq_true, decide_eq_true_eq] at hp
    obtain ⟨hpol, hp⟩ := hp
    revert hp
    cases hy : yieldArg sampleConfig (saveContext s (recvTrap 0 (-1))) (recvTrap 0 (-1)) with
    | error => simp
    | ok y =>
      cases hk : pickNext sampleConfig (mtimeGet (yieldPrologue sampleConfig y true))
          (yieldPrologue sampleConfig y true) with
      | error => simp [hk]
      | ok r =>
        obtain ⟨y₂, k⟩ := r
        simp only [hk, decide_eq_true_eq]
        intro hidle
        exact ⟨s, recvTrap 0 (-1), y, y₂, k, hs.reachable, hy, hk, hidle,
          yieldPrologue_pidsDistinct (by decide) hs hpol (by decide) hy,
          yield_choice hs.reachable hy hk⟩

/-- A slot released behind the scan outranks the dispatched one, in a polite run: in
`release_behind_scan`, `proc_yield` dispatches slot 2 while slot 1 is runnable, awake and at the
same level. -/
theorem in_scan_release_outranks :
    ∃ s t y y₂ k, PoliteReach sampleConfig s ∧ Polite sampleConfig s (.trap t) ∧
      t.hart < sampleConfig.ncores ∧
      yieldArg sampleConfig (saveContext s t) t = .ok y ∧
      pickNext sampleConfig (mtimeGet (yieldPrologue sampleConfig y t.ttyEmpty))
        (yieldPrologue sampleConfig y t.ttyEmpty) = .ok (y₂, k) ∧
      procYield sampleConfig y t.ttyEmpty = .ok (dispatch sampleConfig y₂ k) ∧
      1 ∈ userSlots ∧ eligible (mtimeGet y) (y₂.procSet 1) = true ∧ y₂.RanksBefore 1 k := by
  obtain ⟨s, t, y, y₂, hs, hpol, hc, hy, hk, -, he, hb⟩ := release_behind_scan
  have hd := procYield_of_pickNext hk
  rw [if_pos (by decide)] at hd
  exact ⟨s, t, y, y₂, 2, hs, hpol, hc, hy, hk, hd, by decide, he, hb⟩

/-- A slot asleep when `proc_yield` begins, whatever its status and record, is not dispatched by
it and is still asleep when the core is dispatched or goes idle. -/
theorem sleeper_not_dispatched {i : Nat} (hi : asleep (mtimeGet y) (y.procSet i) = true)
    (hk : pickNext cfg (mtimeGet (yieldPrologue cfg y tty)) (yieldPrologue cfg y tty) = .ok (y₂, k)) :
    procYield cfg y tty = .ok (if k < maxNProcess then dispatch cfg y₂ k else goIdle y₂) ∧
    (k < maxNProcess → k ≠ i) ∧ asleep (mtimeGet y) (y₂.procSet i) = true := by
  have hn : mtimeGet (yieldPrologue cfg y tty) = mtimeGet y := (yieldPrologue_clockKept y).mtime
  obtain ⟨hz, hk'⟩ := pickNext_eligible hk
  rw [hn] at hz hk'
  have hi₁ : asleep (mtimeGet y) ((yieldPrologue cfg y tty).procSet i) = true :=
    (asleep_congr (yieldPrologue_wakeupTime y tty i)).trans hi
  have hi₂ := hz.asleep hi₁
  refine ⟨procYield_of_pickNext hk, fun h16 e => ?_, hi₂⟩
  subst e
  have := (hk' h16).2
  simp [eligible, hi₂] at this

/-- Pid 1 blocks in a send to pid 2, which does not receive, and is put to sleep for 100
microseconds; the next `proc_yield` retries the send and dispatches pid 2. -/
theorem sleeper_not_dispatched_after_send :
    ∃ y y₂ k, Reachable sampleConfig y ∧ asleep (mtimeGet y) (y.procSet 1) = true ∧
      (y.procSet 1).syscall.type = .sysSend ∧
      pickNext sampleConfig (mtimeGet (yieldPrologue sampleConfig y true))
        (yieldPrologue sampleConfig y true) = .ok (y₂, k) ∧
      (procYield sampleConfig y true =
          .ok (if k < maxNProcess then dispatch sampleConfig y₂ k else goIdle y₂) ∧
        (k < maxNProcess → k ≠ 1) ∧ asleep (mtimeGet y) (y₂.procSet 1) = true) := by
  obtain ⟨y, hs, hp⟩ := reach_of_run sampleConfig
    (l := [.alloc, .alloc, .setReady 1, .setReady 2, timerOn 0, sendOn 0 2 [7], .sleep 1 100])
    (p := fun y => asleep (mtimeGet y) (y.procSet 1) && (y.procSet 1).syscall.type == .sysSend &&
      match pickNext sampleConfig (mtimeGet (yieldPrologue sampleConfig y true))
        (yieldPrologue sampleConfig y true) with
      | .ok _ => true
      | .error _ => false) (by decide)
  revert hp
  cases hk : pickNext sampleConfig (mtimeGet (yieldPrologue sampleConfig y true))
      (yieldPrologue sampleConfig y true) with
  | error => simp
  | ok r =>
    obtain ⟨y₂, k⟩ := r
    simp only [Bool.and_eq_true, beq_iff_eq, and_true]
    rintro ⟨ha, hty⟩
    exact ⟨y, y₂, k, hs, ha, hty, hk, sleeper_not_dispatched ha hk⟩

/-- The scans retry a sleeping process's record before they test its `wakeup_time`. Pid 1 runs on
core 0 and is put to sleep for 100 microseconds, still holding the all-zero record of its slot;
the next timer interrupt on core 0 halts in `proc_try_syscall` on that record's type, while pid 1
is asleep. -/
theorem sleeper_record_retried :
    ∃ s s', Reachable sampleConfig s ∧ asleep (mtimeGet s) (s.procSet 1) = true ∧
      step sampleConfig s (timerOn 0) = .error (.unknownSyscall (s.procSet 1).syscall.type, s') := by
  obtain ⟨s, hs, hp⟩ := reach_of_run sampleConfig (l := [.alloc, .setReady 1, timerOn 0, .sleep 1 100])
    (p := fun s => asleep (mtimeGet s) (s.procSet 1) &&
      match step sampleConfig s (timerOn 0) with
      | .error (.unknownSyscall ty, _) => ty == (s.procSet 1).syscall.type
      | _ => false) (by decide)
  revert hp
  cases h : step sampleConfig s (timerOn 0) with
  | ok => simp
  | error e =>
    obtain ⟨f, s'⟩ := e
    cases f with
    | unknownSyscall ty =>
      simp only [Bool.and_eq_true, beq_iff_eq]
      rintro ⟨ha, rfl⟩
      exact ⟨s, s', hs, ha, h⟩
    | _ => simp

end Yield

end EgosGrass

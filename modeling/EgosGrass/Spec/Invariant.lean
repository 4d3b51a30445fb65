import EgosGrass.Spec.Polite

/-!
# The table invariant of polite runs

Three groups of facts hold in every state a polite run reaches (`PoliteReach`), proved in
`InvariantOps` and `InvariantTrap`:

* `PidInv`: pids lie between 0 and the counter, a nonzero pid is held by one slot at most, and a
  slot with pid 0, such as slot 0, is unused. So a pid-addressed lookup of a live pid finds its
  slot.
* `CoreInv`: a core's `core_to_proc_idx` is below `MAX_NPROCESS`, two cores never share a nonzero
  one, and the slot a core points to is `PROC_RUNNING`. Inside a kernel entry the core in the
  kernel is exempt (`busy`), since `proc_yield` first takes its process out of `PROC_RUNNING`.
* `IpcInv`: no slot sleeps, slot `MAX_NPROCESS` never gets past `PROC_LOADING`, and a receiver
  blocked with a delivered message (`Collectable`) holds the message of the sender it names, which
  is still blocked in its `SYS_SEND` to it or has been freed (`Delivered`); no two such receivers
  name the same sender.

All three read only the pid, status, record and `wakeup_time` of each slot, the core map and the
counter (`Kernel.ctl`). The kernel changes these in four ways only: the status of one slot
(`Kernel.withStatus`), the record of one slot, one entry of the core map, and `proc_alloc`. This
module proves, for each group, which changes of the first three kinds keep it.
-/

namespace EgosGrass

/-! ## The fields the invariant reads -/

/-- The table with slot `i`'s status set to `st`. -/
def Kernel.withStatus (s : Kernel) (i : Nat) (st : ProcStatus) : Kernel :=
  s.modifyProc i fun p => { p with status := st }

/-- The table with slot `i`'s system-call record set to `m`. -/
def Kernel.withSyscall (s : Kernel) (i : Nat) (m : Syscall) : Kernel :=
  s.modifyProc i fun p => { p with syscall := m }

/-- Two versions of a slot that agree on what the invariant reads. -/
def Process.SameCtl (p q : Process) : Prop :=
  q.pid = p.pid ∧ q.status = p.status ∧ q.syscall = p.syscall ∧ q.wakeupTime = p.wakeupTime

/-- A process has its own control fields. -/
theorem Process.SameCtl.refl (p : Process) : p.SameCtl p := ⟨rfl, rfl, rfl, rfl⟩

/-- The record `proc_try_send` leaves in receiver `j` for the sender in slot `i`. -/
theorem modifyProc_deliver (s : Kernel) (i j : Nat) :
    s.modifyProc j (deliver (s.procSet i)) = s.withSyscall j { (s.procSet j).syscall with
      status := .done, sender := (s.procSet i).pid, content := (s.procSet i).syscall.content } :=
  rfl

/-- Each slot's pid, status, record and `wakeup_time`, the core map and the pid counter. -/
def Kernel.ctl (s : Kernel) :
    (Nat → Int × ProcStatus × Syscall × BitVec 64) × (Nat → Nat) × BitVec 32 :=
  (fun i => ((s.procSet i).pid, (s.procSet i).status, (s.procSet i).syscall,
    (s.procSet i).wakeupTime), s.coreToProcIdx, s.currPid)

namespace Kernel

variable {s : Kernel} {i j : Nat} {st : ProcStatus}

/-- A status write keeps every pid. -/
@[simp] theorem withStatus_pid : ((s.withStatus i st).procSet j).pid = (s.procSet j).pid := by
  simp only [withStatus, modifyProc_procSet]; split <;> simp_all

/-- A status write keeps every record. -/
@[simp] theorem withStatus_syscall :
    ((s.withStatus i st).procSet j).syscall = (s.procSet j).syscall := by
  simp only [withStatus, modifyProc_procSet]; split <;> simp_all

/-- A status write keeps every `wakeup_time`. -/
@[simp] theorem withStatus_wakeupTime :
    ((s.withStatus i st).procSet j).wakeupTime = (s.procSet j).wakeupTime := by
  simp only [withStatus, modifyProc_procSet]; split <;> simp_all

/-- A status write changes the status of its slot only. -/
theorem withStatus_status :
    ((s.withStatus i st).procSet j).status = if j = i then st else (s.procSet j).status := by
  simp only [withStatus, modifyProc_procSet]; split <;> simp_all

/-- A record write keeps every pid. -/
@[simp] theorem withSyscall_pid {m : Syscall} :
    ((s.withSyscall i m).procSet j).pid = (s.procSet j).pid := by
  simp only [withSyscall, modifyProc_procSet]; split <;> simp_all

/-- A record write keeps every status. -/
@[simp] theorem withSyscall_status {m : Syscall} :
    ((s.withSyscall i m).procSet j).status = (s.procSet j).status := by
  simp only [withSyscall, modifyProc_procSet]; split <;> simp_all

/-- A record write keeps every `wakeup_time`. -/
@[simp] theorem withSyscall_wakeupTime {m : Syscall} :
    ((s.withSyscall i m).procSet j).wakeupTime = (s.procSet j).wakeupTime := by
  simp only [withSyscall, modifyProc_procSet]; split <;> simp_all

/-- A record write puts the record in its slot. -/
@[simp] theorem withSyscall_syscall_self {m : Syscall} :
    ((s.withSyscall i m).procSet i).syscall = m := by
  simp [withSyscall]

/-- A record write changes the record of its slot only. -/
theorem withSyscall_syscall {m : Syscall} :
    ((s.withSyscall i m).procSet j).syscall = if j = i then m else (s.procSet j).syscall := by
  simp only [withSyscall, modifyProc_procSet]; split <;> simp_all

/-- A record write keeps the pid counter. -/
@[simp] theorem withSyscall_currPid {m : Syscall} : (s.withSyscall i m).currPid = s.currPid := rfl

/-- A status write keeps the core map. -/
@[simp] theorem withStatus_coreToProcIdx : (s.withStatus i st).coreToProcIdx = s.coreToProcIdx :=
  rfl

/-- A status write keeps the pid counter. -/
@[simp] theorem withStatus_currPid : (s.withStatus i st).currPid = s.currPid := rfl

/-- Equal views, field by field. -/
theorem ctl_eq {s' : Kernel} (h : s'.ctl = s.ctl) :
    (∀ i, (s'.procSet i).pid = (s.procSet i).pid) ∧
    (∀ i, (s'.procSet i).status = (s.procSet i).status) ∧
    (∀ i, (s'.procSet i).syscall = (s.procSet i).syscall) ∧
    (∀ i, (s'.procSet i).wakeupTime = (s.procSet i).wakeupTime) ∧
    s'.coreToProcIdx = s.coreToProcIdx ∧ s'.currPid = s.currPid := by
  simp only [ctl, Prod.mk.injEq, funext_iff] at h
  exact ⟨fun i => (h.1 i).1, fun i => (h.1 i).2.1, fun i => (h.1 i).2.2.1, fun i => (h.1 i).2.2.2,
    funext h.2.1, h.2.2⟩

/-- Two changes of slot `i` that agree on the four fields give the same view. -/
theorem ctl_modifyProc_congr {f g : Process → Process} (hfg : ∀ p : Process, (f p).SameCtl (g p)) :
    (s.modifyProc i g).ctl = (s.modifyProc i f).ctl := by
  simp only [ctl, modifyProc_procSet, modifyProc_coreToProcIdx, modifyProc_currPid]
  congr; funext j; split
  · obtain ⟨h1, h2, h3, h4⟩ := hfg (s.procSet i); simp [h1, h2, h3, h4]
  · rfl

/-- A change of slot `i` that keeps the four fields keeps the view. -/
theorem ctl_modifyProc {f : Process → Process} (hf : ∀ p : Process, p.SameCtl (f p)) :
    (s.modifyProc i f).ctl = s.ctl := by
  rw [ctl_modifyProc_congr (f := id) hf]
  simp only [ctl, modifyProc_procSet, modifyProc_coreToProcIdx, modifyProc_currPid]
  congr; funext j; split <;> simp_all

/-- Logging an event keeps the control view. -/
@[simp] theorem ctl_emit (e : Event) : (s.emit e).ctl = s.ctl := rfl

end Kernel

/-! ## The invariant -/

/-- The pid discipline of a polite run. -/
structure PidInv (s : Kernel) : Prop where
  /-- The counter stays below the sign bit of `int`. -/
  counter : s.currPid.toNat < 2 ^ 31
  nonneg : ∀ i, 0 ≤ (s.procSet i).pid
  le_counter : ∀ i, (s.procSet i).pid ≤ s.currPid.toNat
  /-- A nonzero pid is held by one slot at most, live or not. -/
  unique : ∀ i j, (s.procSet i).pid = (s.procSet j).pid → (s.procSet i).pid ≠ 0 → i = j
  /-- A slot with pid 0 is unused: slot 0, the slots beyond `MAX_NPROCESS`, and the slots never
  allocated keep pid 0. -/
  zero_unused : ∀ i, (s.procSet i).pid = 0 → (s.procSet i).status = .unused
  beyond : ∀ i, maxNProcess < i → (s.procSet i).pid = 0
  idle : (s.procSet 0).pid = 0

/-- The core map, with the cores `busy` does not hold exempt from pointing at a running slot. -/
structure CoreInv (cfg : Config) (s : Kernel) (busy : Nat → Prop) : Prop where
  bound : ∀ c, s.coreToProcIdx c < maxNProcess
  idle_beyond : ∀ c, cfg.ncores ≤ c → s.coreToProcIdx c = 0
  running : ∀ c, busy c → s.coreToProcIdx c ≠ 0 →
    (s.procSet (s.coreToProcIdx c)).status = .running
  injective : ∀ c d, c ≠ d → s.coreToProcIdx c = s.coreToProcIdx d → s.coreToProcIdx c = 0

/-- A receiver blocked in `SYS_RECV` whose record a sender has filled in. -/
def Collectable (s : Kernel) (r : Nat) : Prop :=
  (s.procSet r).status = .pendingSyscall ∧ (s.procSet r).syscall.status = .done

/-- What a collectable receiver `r` says about the sender it names: its record is a `SYS_RECV`
naming a positive pid below the counter, and every slot below `MAX_NPROCESS` holding that pid is
unused or is still blocked in a `SYS_SEND` to `r` with the message `r` holds. -/
def Delivered (s : Kernel) (r : Nat) : Prop :=
  (s.procSet r).syscall.type = .sysRecv ∧ 0 < (s.procSet r).syscall.sender ∧
  (s.procSet r).syscall.sender ≤ s.currPid.toNat ∧
  ∀ j < maxNProcess, (s.procSet j).pid = (s.procSet r).syscall.sender →
    (s.procSet j).status = .unused ∨
    ((s.procSet j).status = .pendingSyscall ∧ (s.procSet j).syscall.type = .sysSend ∧
      (s.procSet j).syscall.receiver = (s.procSet r).pid ∧
      (s.procSet j).syscall.content = (s.procSet r).syscall.content)

/-- Sleep, the last slot, and message passing in a polite run. -/
structure IpcInv (s : Kernel) : Prop where
  no_sleep : ∀ i, (s.procSet i).wakeupTime = 0
  last_slot : (s.procSet maxNProcess).status = .unused ∨ (s.procSet maxNProcess).status = .loading
  delivered : ∀ r, Collectable s r → Delivered s r
  sender_unique : ∀ r r', Collectable s r → Collectable s r' →
    (s.procSet r).syscall.sender = (s.procSet r').syscall.sender → r = r'

/-- The invariant, with the cores `busy` does not hold exempt from `CoreInv.running`. -/
structure Inv (cfg : Config) (s : Kernel) (busy : Nat → Prop) : Prop where
  pid : PidInv s
  core : CoreInv cfg s busy
  ipc : IpcInv s

/-! ## What the invariant gives -/

section Consequences

variable {cfg : Config} {s : Kernel} {i : Nat}

/-- A live slot holds a positive pid. -/
theorem PidInv.pos_of_live (h : PidInv s) (hl : (s.procSet i).status ≠ .unused) :
    0 < (s.procSet i).pid :=
  lt_of_le_of_ne (h.nonneg i) fun h0 => hl (h.zero_unused i h0.symm)

/-- A slot other than unused or loading is below `MAX_NPROCESS`: slot `MAX_NPROCESS` never gets
past `PROC_LOADING`, and the slots beyond it are unused. -/
theorem IpcInv.lt_of_active (h : IpcInv s) (hp : PidInv s) (hu : (s.procSet i).status ≠ .unused)
    (hl : (s.procSet i).status ≠ .loading) : i < maxNProcess := by
  rcases Nat.lt_trichotomy i maxNProcess with hi | rfl | hi
  · exact hi
  · rcases h.last_slot with h' | h' <;> contradiction
  · exact absurd (hp.zero_unused i (hp.beyond i hi)) hu

/-- A lookup by the pid of a live slot below `MAX_NPROCESS` finds that slot. -/
theorem PidInv.findSlot_pid (h : PidInv s) (hi : i < maxNProcess)
    (hl : (s.procSet i).status ≠ .unused) :
    findSlot s.procSet (fun p => p.pid == (s.procSet i).pid) = some i :=
  findSlot_of_unique hi (by simp) fun j _ hj => by
    have e : (s.procSet j).pid = (s.procSet i).pid := by simpa using hj
    exact h.unique j i e (e ▸ (h.pos_of_live hl).ne')

/-- A slot a held core points to is not unused. -/
theorem CoreInv.live {busy : Nat → Prop} (h : CoreInv cfg s busy) {c : Nat} (hc : busy c)
    (h0 : s.coreToProcIdx c ≠ 0) : (s.procSet (s.coreToProcIdx c)).status ≠ .unused := by
  rw [h.running c hc h0]; decide

end Consequences

/-! ## Changes that keep the invariant -/

section Keep

variable {cfg : Config} {s s' : Kernel} {busy : Nat → Prop} {i : Nat} {st : ProcStatus}

/-- `Inv` reads only the control view. -/
theorem Inv.of_ctl (h : s'.ctl = s.ctl) (hi : Inv cfg s busy) : Inv cfg s' busy := by
  obtain ⟨hp, hs, hr, hw, hc, hn⟩ := Kernel.ctl_eq h
  obtain ⟨⟨p1, p2, p3, p4, p5, p6, p7⟩, ⟨c1, c2, c3, c4⟩, ⟨i1, i2, i3, i4⟩⟩ := hi
  refine ⟨⟨?_, ?_, ?_, ?_, ?_, ?_, ?_⟩, ⟨?_, ?_, ?_, ?_⟩, ⟨?_, ?_, ?_, ?_⟩⟩ <;>
    simp only [Collectable, Delivered, hp, hs, hr, hw, hc, hn] <;> assumption

/-- A status write keeps the pid invariant unless it brings pid 0 to life. -/
theorem PidInv.withStatus (h : PidInv s) (hz : (s.procSet i).pid = 0 → st = .unused) :
    PidInv (s.withStatus i st) := by
  refine ⟨h.counter, by simpa using h.nonneg, by simpa using h.le_counter, by simpa using h.unique,
    fun j hj => ?_, by simpa using h.beyond, by simpa using h.idle⟩
  rw [Kernel.withStatus_pid] at hj
  rw [Kernel.withStatus_status]
  split
  · subst_vars; exact hz hj
  · exact h.zero_unused j hj

/-- A status change keeps the core map's invariant unless it takes a slot a held core points to
out of `PROC_RUNNING`. -/
theorem CoreInv.withStatus (h : CoreInv cfg s busy)
    (hc : ∀ c, busy c → s.coreToProcIdx c ≠ 0 → s.coreToProcIdx c = i → st = .running) :
    CoreInv cfg (s.withStatus i st) busy := by
  refine ⟨h.bound, h.idle_beyond, fun c hb h0 => ?_, h.injective⟩
  simp only [Kernel.withStatus_coreToProcIdx, Kernel.withStatus_status] at h0 ⊢
  split
  · exact hc c hb h0 ‹_›
  · exact h.running c hb h0

/-- A status change keeps the message-passing invariant when it takes slot `MAX_NPROCESS` no
further than loading, blocks a slot only if its record is pending or it was blocked already, and
takes a slot that some other collectable receiver names as its sender only to unused. -/
theorem IpcInv.withStatus (h : IpcInv s)
    (h16 : i = maxNProcess → st = .unused ∨ st = .loading)
    (hpend : st = .pendingSyscall →
      (s.procSet i).syscall.status = .pending ∨ (s.procSet i).status = .pendingSyscall)
    (hsend : st = .unused ∨
      ∀ r, r ≠ i → Collectable s r → (s.procSet r).syscall.sender ≠ (s.procSet i).pid) :
    IpcInv (s.withStatus i st) := by
  have hcoll : ∀ r, Collectable (s.withStatus i st) r → Collectable s r := by
    intro r ⟨hr1, hr2⟩
    rw [Kernel.withStatus_status] at hr1
    rw [Kernel.withStatus_syscall] at hr2
    split at hr1
    · subst_vars
      rcases hpend rfl with h' | h'
      · rw [h'] at hr2; cases hr2
      · exact ⟨h', hr2⟩
    · exact ⟨hr1, hr2⟩
  refine ⟨by simpa using h.no_sleep, ?_, fun r hr => ?_, fun r r' hr hr' e =>
    h.sender_unique r r' (hcoll r hr) (hcoll r' hr') (by simpa using e)⟩
  · rw [Kernel.withStatus_status]
    split
    · exact h16 (by omega)
    · exact h.last_slot
  · obtain ⟨ht, hpos, hle, hj⟩ := h.delivered r (hcoll r hr)
    simp only [Delivered, Kernel.withStatus_syscall, Kernel.withStatus_pid,
      Kernel.withStatus_currPid, Kernel.withStatus_status]
    refine ⟨ht, hpos, hle, fun j hj16 hpj => ?_⟩
    split
    · subst_vars
      rcases hsend with hu | hs
      · exact .inl hu
      · by_cases hri : r = j
        · subst hri
          rcases hj r hj16 hpj with hu | ⟨-, hty, -⟩
          · exact absurd (hcoll r hr).1 (by rw [hu]; decide)
          · rw [ht] at hty; cases hty
        · exact absurd hpj.symm (hs r hri (hcoll r hr))
    · exact hj j hj16 hpj

/-- Writing the record of a slot that is not blocked and that no collectable receiver names as
its sender keeps the message-passing invariant. -/
theorem IpcInv.withSyscall (h : IpcInv s) {m : Syscall}
    (hi : (s.procSet i).status ≠ .pendingSyscall)
    (hs : ∀ r, Collectable s r → (s.procSet r).syscall.sender ≠ (s.procSet i).pid) :
    IpcInv (s.withSyscall i m) := by
  have hsys : ∀ r, Collectable s r → ((s.withSyscall i m).procSet r).syscall =
      (s.procSet r).syscall := fun r hr => by
    rw [Kernel.withSyscall_syscall, if_neg fun (e : r = i) => hi (e ▸ hr.1)]
  have hcoll : ∀ r, Collectable (s.withSyscall i m) r → Collectable s r := by
    intro r ⟨hr1, hr2⟩
    rw [Kernel.withSyscall_status] at hr1
    refine ⟨hr1, ?_⟩
    rwa [Kernel.withSyscall_syscall, if_neg fun (e : r = i) => hi (e ▸ hr1)] at hr2
  refine ⟨by simpa using h.no_sleep, by simpa using h.last_slot, fun r hr => ?_,
    fun r r' hr hr' e => h.sender_unique r r' (hcoll r hr) (hcoll r' hr') ?_⟩
  · have hr0 := hcoll r hr
    obtain ⟨ht, hpos, hle, hj⟩ := h.delivered r hr0
    simp only [Delivered, hsys r hr0, Kernel.withSyscall_pid, Kernel.withSyscall_status,
      Kernel.withSyscall_currPid]
    refine ⟨ht, hpos, hle, fun j hj16 hpj => ?_⟩
    rw [Kernel.withSyscall_syscall, if_neg fun (e : j = i) => hs r hr0 (e ▸ hpj).symm]
    exact hj j hj16 hpj
  · rwa [hsys r (hcoll r hr), hsys r' (hcoll r' hr')] at e

/-- Writing into the record of a live receiver `j` whose record is a pending `SYS_RECV` the
message of the blocked sender `i` it names, with `i`'s pid as sender and status `DONE`, keeps the
message-passing invariant: `j` now holds `i`'s message and names `i`, which is still blocked. -/
theorem IpcInv.deliverInto (h : IpcInv s) (hp : PidInv s) {j : Nat} {m : Syscall}
    (hi : (s.procSet i).status = .pendingSyscall) (hty : (s.procSet i).syscall.type = .sysSend)
    (hj : (s.procSet j).pid = (s.procSet i).syscall.receiver)
    (hjl : (s.procSet j).status ≠ .unused) (hjt : (s.procSet j).syscall.type = .sysRecv)
    (hjs : (s.procSet j).syscall.status = .pending) (hmt : m.type = .sysRecv)
    (hms : m.sender = (s.procSet i).pid) (hmc : m.content = (s.procSet i).syscall.content) :
    IpcInv (s.withSyscall j m) := by
  have hij : i ≠ j := fun e => by subst e; rw [hty] at hjt; cases hjt
  have hi16 : i < maxNProcess := h.lt_of_active hp (by rw [hi]; decide) (by rw [hi]; decide)
  have hpi := hp.pos_of_live (i := i) (by rw [hi]; decide)
  -- records: only `j`'s changes
  have hsys : ∀ r, r ≠ j → ((s.withSyscall j m).procSet r).syscall = (s.procSet r).syscall :=
    fun r hr => by rw [Kernel.withSyscall_syscall, if_neg hr]
  have hcoll : ∀ r, r ≠ j → Collectable (s.withSyscall j m) r → Collectable s r :=
    fun r hr ⟨h1, h2⟩ => ⟨by simpa using h1, by rwa [hsys r hr] at h2⟩
  -- `j` is no slot's sender: its record is a `SYS_RECV`
  have hjns : ∀ r, Collectable s r → j < maxNProcess →
      (s.procSet r).syscall.sender ≠ (s.procSet j).pid := by
    intro r hr hj16 e
    rcases (h.delivered r hr).2.2.2 j hj16 e.symm with hu | ⟨-, ht, -⟩
    · exact hjl hu
    · rw [hjt] at ht; cases ht
  refine ⟨by simpa using h.no_sleep, by simpa using h.last_slot, fun r hr => ?_,
    fun r r' hr hr' e => ?_⟩
  · by_cases hrj : r = j
    · subst hrj
      simp only [Delivered, Kernel.withSyscall_syscall_self, Kernel.withSyscall_pid,
        Kernel.withSyscall_status, Kernel.withSyscall_currPid]
      rw [hmt, hms, hmc]
      refine ⟨rfl, hpi, hp.le_counter i, fun k _ hk => .inr ?_⟩
      have hki : k = i := hp.unique k i hk (by omega)
      subst hki
      rw [hsys k hij]
      exact ⟨hi, hty, hj.symm, rfl⟩
    · obtain ⟨ht, hpos, hle, hk⟩ := h.delivered r (hcoll r hrj hr)
      simp only [Delivered, hsys r hrj, Kernel.withSyscall_pid, Kernel.withSyscall_status,
        Kernel.withSyscall_currPid]
      refine ⟨ht, hpos, hle, fun k hk16 hpk => ?_⟩
      rw [Kernel.withSyscall_syscall,
        if_neg fun (e : k = j) => hjns r (hcoll r hrj hr) (e ▸ hk16) (e ▸ hpk).symm]
      exact hk k hk16 hpk
  · -- a second receiver naming `i` would be `j` itself
    have key : ∀ r', r' ≠ j → Collectable s r' → (s.procSet r').syscall.sender ≠ (s.procSet i).pid :=
      fun r' hr' hc e' => by
        rcases (h.delivered r' hc).2.2.2 i hi16 e'.symm with hu | ⟨-, -, hrec, -⟩
        · rw [hi] at hu; cases hu
        · exact hr' (hp.unique r' j (by rw [hj, hrec])
            (hp.pos_of_live (i := r') (by rw [hc.1]; decide)).ne')
    by_cases hrj : r = j <;> by_cases hrj' : r' = j
    · rw [hrj, hrj']
    · subst hrj
      rw [Kernel.withSyscall_syscall_self, hsys r' hrj', hms] at e
      exact absurd e.symm (key r' hrj' (hcoll r' hrj' hr'))
    · subst hrj'
      rw [Kernel.withSyscall_syscall_self, hsys r hrj, hms] at e
      exact absurd e (key r hrj (hcoll r hrj hr))
    · rw [hsys r hrj, hsys r' hrj'] at e
      exact h.sender_unique r r' (hcoll r hrj hr) (hcoll r' hrj' hr') e

/-- `proc_try_send`'s delivery, as `deliverInto`. -/
theorem IpcInv.deliver (h : IpcInv s) (hp : PidInv s) {j : Nat}
    (hi : (s.procSet i).status = .pendingSyscall) (hty : (s.procSet i).syscall.type = .sysSend)
    (hj : (s.procSet j).pid = (s.procSet i).syscall.receiver)
    (hjl : (s.procSet j).status ≠ .unused) (hjt : (s.procSet j).syscall.type = .sysRecv)
    (hjs : (s.procSet j).syscall.status = .pending) :
    IpcInv (s.modifyProc j (deliver (s.procSet i))) := by
  rw [modifyProc_deliver]
  exact h.deliverInto hp hi hty hj hjl hjt hjs hjt rfl rfl

/-- Fewer held cores, weaker invariant. -/
theorem CoreInv.mono {busy' : Nat → Prop} (h : CoreInv cfg s busy) (hb : ∀ c, busy' c → busy c) :
    CoreInv cfg s busy' :=
  ⟨h.bound, h.idle_beyond, fun c hc => h.running c (hb c hc), h.injective⟩

/-- Pointing the exempt core `c` at a slot no other core points to. -/
theorem CoreInv.setCoreIdx {c k : Nat} (h : CoreInv cfg s (· ≠ c)) (hc : c < cfg.ncores)
    (hk : k < maxNProcess) (hfree : k ≠ 0 → ∀ d, d ≠ c → s.coreToProcIdx d ≠ k) :
    CoreInv cfg (s.setCoreIdx c k) (· ≠ c) := by
  refine ⟨fun d => ?_, fun d hd => ?_, fun d hd h0 => ?_, fun d e hde hi => ?_⟩ <;>
    simp only [Kernel.setCoreIdx_coreToProcIdx, Kernel.setCoreIdx_procSet] at *
  · split
    · exact hk
    · exact h.bound d
  · rw [if_neg (by omega)]; exact h.idle_beyond d hd
  · rw [if_neg hd] at h0 ⊢; exact h.running d hd h0
  · by_cases hdc : d = c <;> by_cases hec : e = c
    · exact absurd (hdc.trans hec.symm) hde
    · rw [if_pos hdc, if_neg hec] at hi; rw [if_pos hdc]
      by_contra hk0; exact hfree hk0 e hec hi.symm
    · rw [if_neg hdc, if_pos hec] at hi; rw [if_neg hdc]
      exact by_contra fun hk0 => hfree (hi ▸ hk0) d hdc hi
    · rw [if_neg hdc, if_neg hec] at hi; rw [if_neg hdc]; exact h.injective d e hde hi

/-- Once the exempt core points at a running slot or at none, every core is held. -/
theorem CoreInv.close {c : Nat} (h : CoreInv cfg s (· ≠ c))
    (hc : s.coreToProcIdx c ≠ 0 → (s.procSet (s.coreToProcIdx c)).status = .running) :
    CoreInv cfg s fun _ => True := by
  refine ⟨h.bound, h.idle_beyond, fun d _ h0 => ?_, h.injective⟩
  by_cases hd : d = c
  · subst hd; exact hc h0
  · exact h.running d hd h0

end Keep

end EgosGrass

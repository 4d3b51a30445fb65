import EgosGrass.Native.Process

/-!
# `kernel.c`: trap entry, scheduling and message passing

`kernelEntry` is `kernel_entry`: it saves the trapped context into the current slot, runs
`intr_entry` or `excp_entry`, and hands back the context of whatever slot is current afterwards.
Both handlers end in `proc_yield`, which

* takes the current process out of `PROC_RUNNING`,
* runs `mlfq_reset_level`,
* scans slots `1 .. MAX_NPROCESS` once (`mlfqScan`), waking sleepers, retrying the pending system
  calls, and keeping the ready slot of lowest level,
* scans them again (`fallbackScan`) if the first scan chose nothing, retrying once more and
  taking the first ready slot,
* dispatches the chosen slot if its index is below `MAX_NPROCESS`, and goes idle otherwise.

Message passing is `procTrySend` / `procTryRecv`: a send is delivered into a receiver whose record
is a pending receive accepting the sender, and the receiver's retry copies the delivered record
out and releases both processes.
-/

namespace EgosGrass

/-- What the hardware and the trap stub present to `kernel_entry`. -/
structure Trap where
  /-- `mhartid`. -/
  hart : Nat
  /-- `mcause`. -/
  mcause : BitVec 32
  /-- The registers the stub spilled to `SAVED_REGISTER_ADDR`, and `mepc`. -/
  ctx : Context
  /-- The record at `SYSCALL_ARG` in the trapping process's memory. -/
  syscall : Syscall
  /-- What `earth->tty_input_empty()` answers during this entry. -/
  ttyEmpty : Bool

section Config

variable (cfg : Config)

/-! ## Message passing -/

/-- The record `proc_try_send` leaves in the receiver: `DONE`, the actual sender, the payload. -/
def deliver (sender : Process) (dst : Process) : Process :=
  { dst with syscall := { dst.syscall with
      status := .done, sender := sender.pid, content := sender.syscall.content } }

/-- Whether a receiver's record takes a message from `sender`: a pending `SYS_RECV` naming
`GPID_ALL` or `sender`. -/
def accepts (dst : Process) (sender : Int) : Bool :=
  dst.syscall.type == .sysRecv && dst.syscall.status == .pending &&
    (dst.syscall.sender == cfg.gpidAll || dst.syscall.sender == sender)

/-- `proc_try_send` for the sender in slot `i`: the first live slot of `lowSlots` holding the
named receiver gets the message if it accepts it; no such slot is fatal. -/
def procTrySend (s : Kernel) (i : Nat) : Except Halt Kernel :=
  let sender := s.procSet i
  match findSlot s.procSet (fun p => p.pid == sender.syscall.receiver && p.status != .unused) with
  | some j =>
    if accepts cfg (s.procSet j) sender.pid then .ok (s.modifyProc j (deliver sender))
    else .ok s
  | none => .error (.unknownReceiver sender.syscall.receiver, s)

/-- `proc_try_recv` for the receiver in slot `i`: once the record is `DONE`, copy it to user
memory and make the receiver and the sender it names runnable. -/
def procTryRecv (s : Kernel) (i : Nat) : Kernel :=
  let r := s.procSet i
  if r.syscall.status = .pending then s
  else
    let s := procSetRunnable (s.emit (.copyOut r.pid r.syscall)) r.pid
    procSetRunnable s (s.procSet i).syscall.sender

/-- `proc_try_syscall` for slot `i`. -/
def procTrySyscall (s : Kernel) (i : Nat) : Except Halt Kernel :=
  match (s.procSet i).syscall.type with
  | .sysRecv => .ok (procTryRecv s i)
  | .sysSend => procTrySend cfg s i
  | .other code => .error (.unknownSyscall (.other code), s)

/-! ## `proc_yield` -/

/-- The wake-up of the first scan for slot `i`: a `PROC_PENDING_SYSCALL` process whose
`wakeup_time` is set and has passed becomes runnable. -/
def wakeUp (now : BitVec 64) (s : Kernel) (i : Nat) : Kernel :=
  let p := s.procSet i
  if p.status = .pendingSyscall ∧ p.wakeupTime > 0 ∧ now ≥ p.wakeupTime then
    s.setProc i { p with wakeupTime := 0, status := .runnable }
  else s

/-- `if (p->status == PROC_PENDING_SYSCALL) proc_try_syscall(p);` -/
def retry (s : Kernel) (i : Nat) : Except Halt Kernel :=
  if (s.procSet i).status = .pendingSyscall then procTrySyscall cfg s i else .ok s

/-- The sleep test of both scans: `p->wakeup_time > 0 && current_time < p->wakeup_time`. -/
def asleep (now : BitVec 64) (p : Process) : Bool :=
  p.wakeupTime > 0 && now < p.wakeupTime

/-- `p->status == PROC_READY || p->status == PROC_RUNNABLE`. -/
def isReady (p : Process) : Bool :=
  p.status == .ready || p.status == .runnable

/-- The first scan of `proc_yield` over the remaining slots, with `next_idx` and `min_level`. -/
def mlfqScan (now : BitVec 64) : List Nat → Kernel → Nat → Int → Except Halt (Kernel × Nat)
  | [], s, nextIdx, _ => .ok (s, nextIdx)
  | i :: is, s, nextIdx, minLevel => do
    let s ← retry cfg (wakeUp now s i) i
    let p := s.procSet i
    if asleep now p then mlfqScan now is s nextIdx minLevel
    else if isReady p ∧ p.queueLevel < minLevel then mlfqScan now is s i p.queueLevel
    else mlfqScan now is s nextIdx minLevel

/-- The second scan of `proc_yield` over the remaining slots: the first ready slot, or
`MAX_NPROCESS` when there is none. -/
def fallbackScan (now : BitVec 64) : List Nat → Kernel → Except Halt (Kernel × Nat)
  | [], s => .ok (s, maxNProcess)
  | i :: is, s => do
    let s ← retry cfg s i
    let p := s.procSet i
    if asleep now p then fallbackScan now is s
    else if isReady p then .ok (s, i)
    else fallbackScan now is s

/-- The registers and `mepc` a process starts from: `argc`/`argv` and `APPS_ENTRY`. -/
def prime (p : Process) : Process :=
  { p with
    savedRegisters := Function.update
      (Function.update p.savedRegisters ⟨0, by decide⟩ cfg.appsArg) ⟨1, by decide⟩ (cfg.appsArg + 4)
    mepc := cfg.appsEntry }

/-- The branch `next_idx < MAX_NPROCESS` of `proc_yield` for slot `k`: the schedule times, and
`mstatus.MPP` from the pid. -/
def stampNext (s : Kernel) (k : Nat) : Kernel :=
  let s := s.modifyProc k fun p =>
    { p with
      firstScheduleTime := if p.firstScheduleTime = 0 then mtimeGet s else p.firstScheduleTime
      lastScheduleTime := mtimeGet s }
  s.emit (.mpp s.coreInKernel (if (s.procSet k).pid ≥ cfg.gpidUserStart then .user else .machine))

/-- `if (curr_status == PROC_READY)`: set up `argc`, `argv` and the entry point of slot `k`. -/
def primeIfReady (s : Kernel) (k : Nat) : Kernel :=
  if (s.procSet k).status = .ready then s.modifyProc k (prime cfg) else s

/-- The end of `proc_yield` once slot `k` is chosen: the core switches to it, and it runs. -/
def switchTo (s : Kernel) (k : Nat) : Kernel :=
  let core := s.coreInKernel
  let s := primeIfReady cfg (((s.setCoreIdx core k).emit (.mmuSwitch core (s.procSet k).pid)).emit
    (.mmuFlushCache core)) k
  (procSetRunning s (s.procSet k).pid).emit (.timerReset core)

/-- The dispatch branch of `proc_yield` for slot `k`. -/
def dispatch (s : Kernel) (k : Nat) : Kernel :=
  switchTo cfg (stampNext cfg s k) k

/-- The idle branch of `proc_yield`. -/
def goIdle (s : Kernel) : Kernel :=
  let core := s.coreInKernel
  ((s.setCoreIdx core 0).emit (.timerReset core)).emit (.idle core)

/-- The start of `proc_yield`: the current process leaves `PROC_RUNNING`, then
`mlfq_reset_level` runs. -/
def yieldPrologue (s : Kernel) (ttyEmpty : Bool) : Kernel :=
  let curr := s.procSet s.currIdx
  mlfqResetLevel cfg (if curr.status = .running then procSetRunnable s curr.pid else s) ttyEmpty

/-- The two scans of `proc_yield`: `next_idx` after the first, or after the second when the first
left it at `MAX_NPROCESS`. -/
def pickNext (now : BitVec 64) (s : Kernel) : Except Halt (Kernel × Nat) := do
  let (s, nextIdx) ← mlfqScan cfg now userSlots s maxNProcess mlfqLevels
  if nextIdx = maxNProcess then fallbackScan cfg now userSlots s else .ok (s, nextIdx)

/-- `proc_yield`. -/
def procYield (s : Kernel) (ttyEmpty : Bool) : Except Halt Kernel := do
  let s := yieldPrologue cfg s ttyEmpty
  let (s, nextIdx) ← pickNext cfg (mtimeGet s) s
  if nextIdx < maxNProcess then .ok (dispatch cfg s nextIdx) else .ok (goIdle s)

/-! ## Trap handlers -/

/-- The statistics `intr_entry` records for the current process: one more timer interrupt, a CPU
charge if `last_schedule_time > 0`, and `last_schedule_time = now`. -/
def timerCharge (now : BitVec 64) (p : Process) : Process :=
  let p := { p with timerInterruptCount := p.timerInterruptCount + 1 }
  { (if p.lastScheduleTime > 0 then charge now p else p) with lastScheduleTime := now }

/-- `intr_entry(id)`. -/
def intrEntry (s : Kernel) (id : BitVec 32) (ttyEmpty : Bool) : Except Halt Kernel :=
  if id ≠ intrIdTimer then .error (.kernelInterrupt id, s)
  else
    let k := s.currIdx
    let s := if 0 < k ∧ k ≤ maxNProcess then s.modifyProc k (timerCharge (mtimeGet s)) else s
    procYield cfg s ttyEmpty

/-- The start of the system-call branch of `excp_entry`: copy the record into the current slot as
`PENDING`, block the caller, and step its `mepc` over the `ecall`. -/
def blockCaller (s : Kernel) (rec : Syscall) : Kernel :=
  let k := s.currIdx
  let s := s.modifyProc k fun p => { p with syscall := { rec with status := .pending } }
  let s := procSetPending s (s.procSet k).pid
  s.modifyProc k fun p => { p with mepc := p.mepc + 4 }

/-- The system-call part of `excp_entry`: block the caller, then try the call once. -/
def ecall (s : Kernel) (rec : Syscall) : Except Halt Kernel :=
  procTrySyscall cfg (blockCaller s rec) s.currIdx

/-- `excp_entry(id)`. -/
def excpEntry (s : Kernel) (id : BitVec 32) (rec : Syscall) (ttyEmpty : Bool) :
    Except Halt Kernel :=
  if excpIdEcallU ≤ id ∧ id ≤ excpIdEcallM then do
    let s ← ecall cfg s rec
    procYield cfg s ttyEmpty
  else
    let pid := (s.procSet s.currIdx).pid
    if pid ≥ cfg.gpidUserStart then procYield cfg (procFree cfg (s.emit (.killed pid id)) pid) ttyEmpty
    else .error (.kernelException id, s)

/-- The start of `kernel_entry`: note the core, and save the trapped context into its slot. -/
def saveContext (s : Kernel) (t : Trap) : Kernel :=
  let s := { s with coreInKernel := t.hart }
  s.modifyProc s.currIdx fun p => { p with mepc := t.ctx.mepc, savedRegisters := t.ctx.regs }

/-- The branch on `mcause` of `kernel_entry`. -/
def trapHandler (s : Kernel) (t : Trap) : Except Halt Kernel :=
  if t.mcause.getLsbD 31 then intrEntry cfg s (t.mcause &&& 0x3FF) t.ttyEmpty
  else excpEntry cfg s t.mcause t.syscall t.ttyEmpty

/-- The end of `kernel_entry`: hand the context of the current slot back to `mret`. -/
def restoreContext (s : Kernel) : Kernel :=
  let p := s.procSet s.currIdx
  s.emit (.restore s.coreInKernel ⟨p.mepc, p.savedRegisters⟩)

/-- `kernel_entry()`. -/
def kernelEntry (s : Kernel) (t : Trap) : Except Halt Kernel :=
  (trapHandler cfg (saveContext s t) t).map restoreContext

end Config

end EgosGrass

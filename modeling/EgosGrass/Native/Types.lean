import Mathlib.Logic.Function.Basic
import Mathlib.Algebra.Order.Ring.Nat
import Mathlib.Algebra.Order.Ring.Int

/-!
# Process control blocks and the kernel state

The data model of the egos-2000 `grass` kernel as `process.h` and `kernel.c` declare it: the
process status enumeration, the inline system-call record, the process control block, and the
kernel's global state — `proc_set`, `core_to_proc_idx`, `core_in_kernel`, and the two
function-local statics `curr_pid` of `proc_alloc` and `MLFQ_last_reset_time` of
`mlfq_reset_level`.

`process.h` takes `NCORES`, the well-known pids, `APPS_ARG`, `APPS_ENTRY` and the layout of
`struct syscall` from `egos.h` and `syscall.h`, which are not part of the source. The constants
are the fields of `Config`; the record keeps exactly the fields `kernel.c` reads and writes.

Fixed-width C types are `BitVec`s (`uint` is `BitVec 32`, `unsigned long long` is `BitVec 64`);
`int` fields whose values stay small (pids, queue levels, counters) are `Int`. The platform timer
behind `mtime_get` is a field of the state: every read inside one kernel call sees one value, and
the environment moves it forward between calls.

Every call the kernel makes into the hardware layer (`earth->mmu_switch`, `earth->timer_reset`,
...), every line it prints, and every context it hands back to `mret` is appended to `log`.
-/

namespace EgosGrass

/-! ## Constants of `process.h` and `process.c` -/

/-- `MAX_NPROCESS`: the table has `MAX_NPROCESS + 1` slots, slot 0 being the idle place holder. -/
def maxNProcess : Nat := 16

/-- `SAVED_REGISTER_NUM`. -/
def savedRegisterNum : Nat := 32

/-- `MLFQ_NLEVELS` (`process.c`; `process.h` has the same value as `MLFQ_LEVELS`). -/
def mlfqNLevels : Int := 5

/-- `MLFQ_LEVELS` (`process.h`), the `min_level` sentinel of `proc_yield`. -/
def mlfqLevels : Int := 5

/-- `MLFQ_RESET_PERIOD`: ten seconds of `mtime_get` microseconds. -/
def mlfqResetPeriod : BitVec 64 := 10000000

/-- `MLFQ_LEVEL_RUNTIME(x)`, the `int` expression `(x + 1) * 100000`. -/
def mlfqLevelRuntime (x : Int) : Int := (x + 1) * 100000

/-- `INTR_ID_TIMER`. -/
def intrIdTimer : BitVec 32 := 7

/-- `EXCP_ID_ECALL_U`. -/
def excpIdEcallU : BitVec 32 := 8

/-- `EXCP_ID_ECALL_M`. -/
def excpIdEcallM : BitVec 32 := 11

/-! ## Records -/

/-- `enum proc_status`. -/
inductive ProcStatus
  | unused | loading | ready | running | runnable | pendingSyscall
  deriving DecidableEq, Repr

/-- The `type` field of a system-call record. The record is copied from user memory, so the field
holds whatever the process wrote: a value other than `SYS_RECV` and `SYS_SEND` keeps its code. -/
inductive SyscallType
  | sysRecv | sysSend | other (code : Int)
  deriving DecidableEq, Repr

/-- The `status` field of a system-call record: `PENDING` or `DONE`. -/
inductive SyscallStatus
  | pending | done
  deriving DecidableEq, Repr

/-- `struct syscall` as `kernel.c` uses it: `content` is the `SYSCALL_MSG_LEN`-byte payload,
which the kernel only ever copies whole. -/
structure Syscall where
  type : SyscallType
  sender : Int
  receiver : Int
  content : List UInt8
  status : SyscallStatus
  deriving DecidableEq, Repr

/-- The `SAVED_REGISTER_NUM` general-purpose registers of a trap frame. -/
abbrev Regs := Fin savedRegisterNum → BitVec 32

/-- What `kernel_entry` saves on entry and restores on exit: `mepc` and the spilled registers. -/
structure Context where
  mepc : BitVec 32
  regs : Regs

/-- `struct process`. -/
structure Process where
  pid : Int
  syscall : Syscall
  status : ProcStatus
  mepc : BitVec 32
  savedRegisters : Regs
  creationTime : BitVec 64
  firstScheduleTime : BitVec 64
  totalCpuTime : BitVec 64
  terminationTime : BitVec 64
  /-- `int timer_interrupt_count`: a 32-bit two's-complement counter, so `++` wraps. -/
  timerInterruptCount : BitVec 32
  queueLevel : Int
  queueTime : BitVec 64
  lastScheduleTime : BitVec 64
  wakeupTime : BitVec 64

/-- The privilege level `proc_yield` writes into `mstatus.MPP` before `mret`. -/
inductive Privilege
  | user | machine
  deriving DecidableEq, Repr

/-- The six values of the termination report of `proc_free`, after the `(int)` casts and the
clamps to zero. -/
structure Report where
  turnaroundMs : Int
  responseMs : Int
  cpuMs : Int
  waitMs : Int
  timerInterrupts : Int
  finalQueueLevel : Int
  deriving DecidableEq, Repr

/-- The lines `proc_free` prints for a report. -/
def Report.lines (pid : Int) (r : Report) : List String :=
  let turnaround := r.turnaroundMs
  let response := r.responseMs
  let cpu := r.cpuMs
  let wait := r.waitMs
  let interrupts := r.timerInterrupts
  let level := r.finalQueueLevel
  [s!"Process {pid} terminated:", s!"  Turnaround time: {turnaround} ms",
    s!"  Response time: {response} ms", s!"  Total CPU time: {cpu} ms",
    s!"  Waiting time: {wait} ms", s!"  Timer interrupts: {interrupts}",
    s!"  Final queue level: {level}"]

/-- What the kernel hands to the outside world. -/
inductive Event
  /-- `proc_try_recv` copies the kernel record to `SYSCALL_ARG` in the receiver's memory. -/
  | copyOut (pid : Int) (rec : Syscall)
  /-- `earth->mmu_switch(pid)` on a core. -/
  | mmuSwitch (core : Nat) (pid : Int)
  /-- `earth->mmu_flush_cache()` on a core. -/
  | mmuFlushCache (core : Nat)
  /-- `earth->mmu_free(pid)`. -/
  | mmuFree (pid : Int)
  /-- `earth->timer_reset(core)`. -/
  | timerReset (core : Nat)
  /-- `mstatus.MPP` set before `mret`. -/
  | mpp (core : Nat) (mode : Privilege)
  /-- `mstatus.MIE` set and `wfi` issued: the core goes idle. -/
  | idle (core : Nat)
  /-- `"Process %d killed due to exception %d"`. -/
  | killed (pid : Int) (id : BitVec 32)
  /-- The termination report of `proc_free`. -/
  | terminated (pid : Int) (r : Report)
  /-- The pid `proc_alloc` returns to its caller. -/
  | allocated (pid : Int)
  /-- The `mepc` and registers `kernel_entry` writes back before the stub's `mret`. -/
  | restore (core : Nat) (ctx : Context)

/-- The `FATAL` calls of the kernel. -/
inductive Fatal
  | kernelException (id : BitVec 32)
  | kernelInterrupt (id : BitVec 32)
  | procLimit
  | unknownReceiver (pid : Int)
  | unknownSyscall (type : SyscallType)

/-- The constants `process.h` takes from `egos.h` and `syscall.h`. -/
structure Config where
  /-- `NCORES`. -/
  ncores : Nat
  /-- `GPID_ALL`, the wildcard pid. -/
  gpidAll : Int
  /-- `GPID_SHELL`, the target of the interactive boost. -/
  gpidShell : Int
  /-- `GPID_USER_START`, the smallest pid run in user mode. -/
  gpidUserStart : Int
  /-- `APPS_ARG`. -/
  appsArg : BitVec 32
  /-- `APPS_ENTRY`. -/
  appsEntry : BitVec 32
  /-- The all-zero `struct syscall` of a slot that was never written, as its fields read it. -/
  zeroSyscall : Syscall

/-- The message `FATAL` prints. -/
def Fatal.message : Fatal → String
  | .kernelException id => let n := id.toNat; s!"excp_entry: kernel got exception {n}"
  | .kernelInterrupt id => let n := id.toNat; s!"excp_entry: kernel got interrupt {n}"
  | .procLimit => let n := maxNProcess; s!"proc_alloc: reach the limit of {n} processes"
  | .unknownReceiver pid => s!"proc_try_send: unknown receiver pid={pid}"
  | .unknownSyscall type =>
    let n : Int := match type with | .other code => code | _ => 0
    s!"proc_try_syscall: unknown syscall type={n}"

/-- The kernel's global state. `proc_set` is indexed by `Nat`; only indices `0 .. MAX_NPROCESS`
are ever read or written. -/
structure Kernel where
  procSet : Nat → Process
  coreToProcIdx : Nat → Nat
  coreInKernel : Nat
  /-- `static uint curr_pid` of `proc_alloc`. -/
  currPid : BitVec 32
  /-- `static unsigned long long MLFQ_last_reset_time` of `mlfq_reset_level`. -/
  mlfqLastResetTime : BitVec 64
  /-- The platform timer behind `mtime_get`. -/
  mtime : BitVec 64
  log : List Event

/-- A kernel call either returns or halts in `FATAL` with the state at that point. -/
abbrev Halt := Fatal × Kernel

namespace Kernel

/-- `proc_set[i] = p`. -/
def setProc (s : Kernel) (i : Nat) (p : Process) : Kernel :=
  { s with procSet := fun j => if j = i then p else s.procSet j }

/-- Apply `f` to `proc_set[i]`. -/
def modifyProc (s : Kernel) (i : Nat) (f : Process → Process) : Kernel :=
  s.setProc i (f (s.procSet i))

/-- `core_to_proc_idx[core] = k`. -/
def setCoreIdx (s : Kernel) (core k : Nat) : Kernel :=
  { s with coreToProcIdx := fun c => if c = core then k else s.coreToProcIdx c }

/-- Append an event to the log. -/
def emit (s : Kernel) (e : Event) : Kernel :=
  { s with log := s.log ++ [e] }

/-- `curr_proc_idx`, that is `core_to_proc_idx[core_in_kernel]`. -/
def currIdx (s : Kernel) : Nat := s.coreToProcIdx s.coreInKernel

/-- Replacing slot `i` puts the new process there. -/
@[simp] theorem setProc_procSet_self (s : Kernel) (i : Nat) (p : Process) :
    (s.setProc i p).procSet i = p := by
  simp [setProc]

/-- Replacing slot `i` leaves every other slot. -/
@[simp] theorem setProc_procSet_ne (s : Kernel) {i j : Nat} (p : Process) (h : j ≠ i) :
    (s.setProc i p).procSet j = s.procSet j := by
  simp [setProc, h]

/-- Replacing slot `i`, slot by slot. -/
theorem setProc_procSet (s : Kernel) (i j : Nat) (p : Process) :
    (s.setProc i p).procSet j = if j = i then p else s.procSet j := by
  by_cases h : j = i <;> simp [h]

/-- Updating slot `i`, slot by slot. -/
@[simp] theorem modifyProc_procSet (s : Kernel) (i j : Nat) (f : Process → Process) :
    (s.modifyProc i f).procSet j = if j = i then f (s.procSet i) else s.procSet j := by
  simp [modifyProc, setProc_procSet]

/-- Replacing a slot keeps the core map. -/
@[simp] theorem setProc_coreToProcIdx (s : Kernel) (i : Nat) (p : Process) :
    (s.setProc i p).coreToProcIdx = s.coreToProcIdx := rfl

/-- Replacing a slot keeps the core in the kernel. -/
@[simp] theorem setProc_coreInKernel (s : Kernel) (i : Nat) (p : Process) :
    (s.setProc i p).coreInKernel = s.coreInKernel := rfl

/-- Replacing a slot keeps the pid counter. -/
@[simp] theorem setProc_currPid (s : Kernel) (i : Nat) (p : Process) :
    (s.setProc i p).currPid = s.currPid := rfl

/-- Replacing a slot keeps the clock. -/
@[simp] theorem setProc_mtime (s : Kernel) (i : Nat) (p : Process) :
    (s.setProc i p).mtime = s.mtime := rfl

/-- Replacing a slot logs nothing. -/
@[simp] theorem setProc_log (s : Kernel) (i : Nat) (p : Process) :
    (s.setProc i p).log = s.log := rfl

/-- Updating a slot keeps the core map. -/
@[simp] theorem modifyProc_coreToProcIdx (s : Kernel) (i : Nat) (f : Process → Process) :
    (s.modifyProc i f).coreToProcIdx = s.coreToProcIdx := rfl

/-- Updating a slot keeps the core in the kernel. -/
@[simp] theorem modifyProc_coreInKernel (s : Kernel) (i : Nat) (f : Process → Process) :
    (s.modifyProc i f).coreInKernel = s.coreInKernel := rfl

/-- Updating a slot keeps the pid counter. -/
@[simp] theorem modifyProc_currPid (s : Kernel) (i : Nat) (f : Process → Process) :
    (s.modifyProc i f).currPid = s.currPid := rfl

/-- Updating a slot keeps the clock. -/
@[simp] theorem modifyProc_mtime (s : Kernel) (i : Nat) (f : Process → Process) :
    (s.modifyProc i f).mtime = s.mtime := rfl

/-- Updating a slot logs nothing. -/
@[simp] theorem modifyProc_log (s : Kernel) (i : Nat) (f : Process → Process) :
    (s.modifyProc i f).log = s.log := rfl

/-- Pointing a core at a slot keeps the table. -/
@[simp] theorem setCoreIdx_procSet (s : Kernel) (c k : Nat) :
    (s.setCoreIdx c k).procSet = s.procSet := rfl

/-- Pointing core `c` at slot `k` changes the entry of `c` only. -/
@[simp] theorem setCoreIdx_coreToProcIdx (s : Kernel) (c k d : Nat) :
    (s.setCoreIdx c k).coreToProcIdx d = if d = c then k else s.coreToProcIdx d := rfl

/-- Pointing a core at a slot keeps the core in the kernel. -/
@[simp] theorem setCoreIdx_coreInKernel (s : Kernel) (c k : Nat) :
    (s.setCoreIdx c k).coreInKernel = s.coreInKernel := rfl

/-- Pointing a core at a slot keeps the pid counter. -/
@[simp] theorem setCoreIdx_currPid (s : Kernel) (c k : Nat) :
    (s.setCoreIdx c k).currPid = s.currPid := rfl

/-- Pointing a core at a slot keeps the clock. -/
@[simp] theorem setCoreIdx_mtime (s : Kernel) (c k : Nat) :
    (s.setCoreIdx c k).mtime = s.mtime := rfl

/-- Pointing a core at a slot logs nothing. -/
@[simp] theorem setCoreIdx_log (s : Kernel) (c k : Nat) : (s.setCoreIdx c k).log = s.log := rfl

/-- Logging an event keeps the table. -/
@[simp] theorem emit_procSet (s : Kernel) (e : Event) : (s.emit e).procSet = s.procSet := rfl

/-- Logging an event keeps the core map. -/
@[simp] theorem emit_coreToProcIdx (s : Kernel) (e : Event) :
    (s.emit e).coreToProcIdx = s.coreToProcIdx := rfl

/-- Logging an event keeps the core in the kernel. -/
@[simp] theorem emit_coreInKernel (s : Kernel) (e : Event) :
    (s.emit e).coreInKernel = s.coreInKernel := rfl

/-- Logging an event keeps the pid counter. -/
@[simp] theorem emit_currPid (s : Kernel) (e : Event) : (s.emit e).currPid = s.currPid := rfl

/-- Logging an event keeps the clock. -/
@[simp] theorem emit_mtime (s : Kernel) (e : Event) : (s.emit e).mtime = s.mtime := rfl

/-- Logging an event appends it. -/
@[simp] theorem emit_log (s : Kernel) (e : Event) : (s.emit e).log = s.log ++ [e] := rfl

end Kernel

end EgosGrass

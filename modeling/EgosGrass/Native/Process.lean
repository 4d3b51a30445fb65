import EgosGrass.Native.Types

/-!
# `process.c`: the process table operations

The pid-addressed operations of `process.c` (`proc_set_ready`, `proc_set_running`,
`proc_set_runnable`, `proc_set_pending`, `proc_free`, `proc_sleep`, the shell boost of
`mlfq_reset_level`) all scan `for (uint i = 0; i < MAX_NPROCESS; i++)` and act on the first slot
that matches; `findSlot` is that scan. `proc_alloc` scans `for (uint i = 1; i <= MAX_NPROCESS; i++)`
instead, so the two ranges differ in slots `0` and `MAX_NPROCESS`.

The MLFQ policy is `mlfqUpdateLevel` (demotion on quantum exhaustion) and `mlfqResetLevel`
(interactive boost and periodic reset). CPU time is charged by `charge`, which the three charge
sites share: the timer interrupt in `kernel.c`, and `proc_set_runnable` / `proc_set_pending` when
they take a process out of `PROC_RUNNING`.
-/

namespace EgosGrass

/-- The slots visited by `for (uint i = 0; i < MAX_NPROCESS; i++)`. -/
def lowSlots : List Nat := List.range maxNProcess

/-- The slots visited by `for (uint i = 1; i <= MAX_NPROCESS; i++)`. -/
def userSlots : List Nat := List.range' 1 maxNProcess

/-- The slot a loop `for (uint i = 0; i < MAX_NPROCESS; i++) if (...) { ...; return; }` acts on:
the first of `lowSlots` whose process satisfies `p`. -/
def findSlot (t : Nat → Process) (p : Process → Bool) : Option Nat :=
  lowSlots.find? fun i => p (t i)

/-- `mtime_get()`. The clock is part of the state and only a tick moves it, so every call within one
step reads the same time, where the code reads the timer afresh at each call. -/
def mtimeGet (s : Kernel) : BitVec 64 := s.mtime

/-! ## Status transitions -/

/-- `proc_set_status`: every slot of `lowSlots` that holds `pid` gets `status`; the loop does not
stop at the first match. -/
def procSetStatus (s : Kernel) (pid : Int) (status : ProcStatus) : Kernel :=
  { s with procSet := fun i =>
      if i < maxNProcess ∧ (s.procSet i).pid = pid then { s.procSet i with status := status }
      else s.procSet i }

/-- `proc_set_ready`. -/
def procSetReady (s : Kernel) (pid : Int) : Kernel :=
  match findSlot s.procSet (fun p => p.pid == pid) with
  | some i => s.modifyProc i fun p => { p with status := .ready }
  | none => s

/-- `proc_set_running`: stamps `first_schedule_time` on the first call and `last_schedule_time`
on every call. -/
def procSetRunning (s : Kernel) (pid : Int) : Kernel :=
  match findSlot s.procSet (fun p => p.pid == pid) with
  | some i => s.modifyProc i fun p =>
      { p with
        firstScheduleTime := if p.firstScheduleTime = 0 then mtimeGet s else p.firstScheduleTime
        lastScheduleTime := mtimeGet s
        status := .running }
  | none => s

/-- `mlfq_update_level(p, runtime)`: below the bottom level, add `runtime` to `queue_time` and
demote once the level's quantum `MLFQ_LEVEL_RUNTIME(queue_level)` is used up. -/
def mlfqUpdateLevel (p : Process) (runtime : BitVec 64) : Process :=
  if p.queueLevel ≥ mlfqNLevels - 1 then p
  else
    let queueTime := p.queueTime + runtime
    let quantum := BitVec.ofInt 64 (mlfqLevelRuntime p.queueLevel)
    if queueTime ≥ quantum then { p with queueLevel := p.queueLevel + 1, queueTime := 0 }
    else { p with queueTime := queueTime }

/-- One CPU-time charge at `now`: `runtime = now - last_schedule_time` is added to
`total_cpu_time` and passed to `mlfq_update_level`. -/
def charge (now : BitVec 64) (p : Process) : Process :=
  let runtime := now - p.lastScheduleTime
  mlfqUpdateLevel { p with totalCpuTime := p.totalCpuTime + runtime } runtime

/-- What `proc_set_runnable` and `proc_set_pending` do to the slot they find before setting its
status: a `PROC_RUNNING` process with `last_schedule_time > 0` is charged. -/
def chargeRunning (now : BitVec 64) (p : Process) : Process :=
  if p.status = .running ∧ p.lastScheduleTime > 0 then charge now p else p

/-- The common body of `proc_set_runnable` and `proc_set_pending`. -/
def procLeaveRunning (status : ProcStatus) (s : Kernel) (pid : Int) : Kernel :=
  match findSlot s.procSet (fun p => p.pid == pid) with
  | some i => s.modifyProc i fun p => { chargeRunning (mtimeGet s) p with status := status }
  | none => s

/-- `proc_set_runnable`. -/
def procSetRunnable (s : Kernel) (pid : Int) : Kernel :=
  procLeaveRunning .runnable s pid

/-- `proc_set_pending`. -/
def procSetPending (s : Kernel) (pid : Int) : Kernel :=
  procLeaveRunning .pendingSyscall s pid

/-! ## Allocation and termination -/

/-- The fields `proc_alloc` writes into the slot it hands out. The system-call record, `mepc` and
the saved registers keep what the slot's previous occupant left. -/
def allocFields (pid : Int) (now : BitVec 64) (p : Process) : Process :=
  { p with
    pid := pid, status := .loading, creationTime := now, firstScheduleTime := 0,
    totalCpuTime := 0, terminationTime := 0, timerInterruptCount := 0,
    queueLevel := 0, queueTime := 0, lastScheduleTime := 0, wakeupTime := 0 }

/-- `proc_alloc`: the first unused slot among `1 .. MAX_NPROCESS` gets pid `++curr_pid` (a `uint`
stored into the `int` field). -/
def procAlloc (s : Kernel) : Except Halt (Int × Kernel) :=
  match userSlots.find? fun i => (s.procSet i).status == .unused with
  | some i =>
    let currPid := s.currPid + 1
    let s := { s with currPid := currPid }.modifyProc i (allocFields currPid.toInt (mtimeGet s))
    .ok (currPid.toInt, s.emit (.allocated currPid.toInt))
  | none => .error (.procLimit, s)

/-- The `(int)` cast of an `unsigned long long`: its low 32 bits read as a signed value. -/
def toCInt (x : BitVec 64) : Int := (x.setWidth 32).toInt

/-- The statistics `proc_free` prints for `p` terminated at `now`, in milliseconds. The comment
above the clamp says the response time is capped at the turnaround; the code replaces it by half
the turnaround. -/
def terminationReport (p : Process) (now : BitVec 64) : Report :=
  let turnaround := now - p.creationTime
  let response :=
    if p.firstScheduleTime > p.creationTime then p.firstScheduleTime - p.creationTime else 0
  let response := if response > turnaround ∨ response > 10000000 then turnaround / 2 else response
  let waiting :=
    if turnaround > response + p.totalCpuTime then turnaround - response - p.totalCpuTime
    else 0
  { turnaroundMs := max 0 (toCInt (turnaround / 1000))
    responseMs := max 0 (toCInt (response / 1000))
    cpuMs := max 0 (toCInt (p.totalCpuTime / 1000))
    waitMs := max 0 (toCInt (waiting / 1000))
    timerInterrupts := p.timerInterruptCount.toInt
    finalQueueLevel := p.queueLevel }

/-- The part of `proc_free` common to both branches, for slot `i`: stamp `termination_time`,
print the report, and call `earth->mmu_free`. Marking the slot unused is left to the caller. -/
def terminate (s : Kernel) (i : Nat) : Kernel :=
  let p := { s.procSet i with terminationTime := mtimeGet s }
  ((s.setProc i p).emit (.terminated p.pid (terminationReport p (mtimeGet s)))).emit
    (.mmuFree p.pid)

section Config

variable (cfg : Config)

/-- `proc_free(pid)`. For a pid, the first live slot holding it is reported and then
`proc_set_status(pid, PROC_UNUSED)` runs; for `GPID_ALL`, every live slot of `lowSlots` with a
pid of at least `GPID_USER_START` is reported and marked unused. -/
def procFree (s : Kernel) (pid : Int) : Kernel :=
  if pid ≠ cfg.gpidAll then
    match findSlot s.procSet (fun p => p.pid == pid && p.status != .unused) with
    | some i => procSetStatus (terminate s i) pid .unused
    | none => s
  else
    lowSlots.foldl (fun s i =>
      if (s.procSet i).pid ≥ cfg.gpidUserStart ∧ (s.procSet i).status ≠ .unused then
        (terminate s i).modifyProc i fun p => { p with status := .unused }
      else s) s

/-! ## MLFQ resets -/

/-- The interactive boost of `mlfq_reset_level`: with keyboard input pending, the first live slot
holding `GPID_SHELL` goes back to level 0. -/
def shellBoost (s : Kernel) (ttyEmpty : Bool) : Kernel :=
  if ttyEmpty then s
  else
    match findSlot s.procSet (fun p => p.pid == cfg.gpidShell && p.status != .unused) with
    | some i => s.modifyProc i fun p => { p with queueLevel := 0, queueTime := 0 }
    | none => s

/-- The periodic reset of `mlfq_reset_level`: every `MLFQ_RESET_PERIOD` microseconds, every live
slot of `lowSlots` goes back to level 0. -/
def periodicReset (s : Kernel) : Kernel :=
  if mtimeGet s - s.mlfqLastResetTime ≥ mlfqResetPeriod then
    { s with
      procSet := fun i =>
        if i < maxNProcess ∧ (s.procSet i).status ≠ .unused then
          { s.procSet i with queueLevel := 0, queueTime := 0 }
        else s.procSet i
      mlfqLastResetTime := mtimeGet s }
  else s

/-- `mlfq_reset_level()`, given what `earth->tty_input_empty()` answers. -/
def mlfqResetLevel (s : Kernel) (ttyEmpty : Bool) : Kernel :=
  periodicReset (shellBoost cfg s ttyEmpty)

end Config

/-- `proc_sleep(pid, usec)`: the first live slot holding `pid` sleeps until
`mtime_get() + usec`. -/
def procSleep (s : Kernel) (pid : Int) (usec : BitVec 32) : Kernel :=
  match findSlot s.procSet (fun p => p.pid == pid && p.status != .unused) with
  | some i => s.modifyProc i fun p =>
      { p with wakeupTime := mtimeGet s + usec.setWidth 64, status := .pendingSyscall }
  | none => s

/-- A line `proc_coresinfo` prints. -/
inductive CoreLine
  /-- `"Core information:\n"`. -/
  | header
  /-- `"  Core %d: Process %d\n"`. -/
  | process (core : Nat) (pid : Int)
  /-- `"  Core %d: Idle\n"`. -/
  | idle (core : Nat)
  deriving DecidableEq, Repr

/-- `proc_coresinfo()`: a line per core, with the pid of the slot the core points to when that
slot is below `MAX_NPROCESS` and `PROC_RUNNING`. -/
def procCoresinfo (cfg : Config) (s : Kernel) : List CoreLine :=
  .header :: (List.range cfg.ncores).map fun i =>
    if s.coreToProcIdx i < maxNProcess ∧ (s.procSet (s.coreToProcIdx i)).status = .running then
      .process i (s.procSet (s.coreToProcIdx i)).pid
    else .idle i

end EgosGrass

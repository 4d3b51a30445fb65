import EgosGrass.Native.Kernel

/-!
# Runs of the system

The kernel is driven from two sides. Hardware traps enter `kernel_entry` on any core, one at a
time under the kernel lock. The process server and the loader call `proc_alloc`,
`proc_set_ready`, `proc_free` and `proc_sleep` directly. Between any two of these the platform
timer may move forward. `step` is one of these events; a run is a list of them, executed from
the boot state `init` until the first `FATAL`.

`Reachable` is the set of states some run reaches. `run_reachable` turns a concrete run into a
reachable state, so that a counterexample is a run the kernel checks by evaluation.
-/

namespace EgosGrass

/-- One event of the system. -/
inductive Step
  /-- `proc_alloc()`. -/
  | alloc
  /-- `proc_set_ready(pid)`, as the loader calls it. -/
  | setReady (pid : Int)
  /-- `proc_free(pid)`, `GPID_ALL` included. -/
  | free (pid : Int)
  /-- `proc_sleep(pid, usec)`. -/
  | sleep (pid : Int) (usec : BitVec 32)
  /-- A trap into `kernel_entry`. -/
  | trap (t : Trap)
  /-- The platform timer reads `now` from here on; it never goes back. -/
  | tick (now : BitVec 64)

section Config

variable (cfg : Config)

/-- A slot that was never written: every field zero, so status `PROC_UNUSED` and pid 0. -/
def blank : Process :=
  { pid := 0, syscall := cfg.zeroSyscall, status := .unused, mepc := 0,
    savedRegisters := fun _ => 0, creationTime := 0, firstScheduleTime := 0, totalCpuTime := 0,
    terminationTime := 0, timerInterruptCount := 0, queueLevel := 0, queueTime := 0,
    lastScheduleTime := 0, wakeupTime := 0 }

/-- The boot state: the zero-initialised globals of `kernel.c` and `process.c`. -/
def init : Kernel :=
  { procSet := fun _ => blank cfg, coreToProcIdx := fun _ => 0, coreInKernel := 0, currPid := 0,
    mlfqLastResetTime := 0, mtime := 0, log := [] }

/-- One event. A trap names a hart below `NCORES`; any other hart does not exist. -/
def step (s : Kernel) : Step → Except Halt Kernel
  | .alloc => (procAlloc s).map Prod.snd
  | .setReady pid => .ok (procSetReady s pid)
  | .free pid => .ok (procFree cfg s pid)
  | .sleep pid usec => .ok (procSleep s pid usec)
  | .trap t => if t.hart < cfg.ncores then kernelEntry cfg s t else .ok s
  | .tick now => .ok (if s.mtime ≤ now then { s with mtime := now } else s)

/-- The states that some run from `init` reaches without halting. -/
inductive Reachable : Kernel → Prop
  | init : Reachable (init cfg)
  | step {s s' : Kernel} {l : Step} : Reachable s → step cfg s l = .ok s' → Reachable s'

/-- Execute a run from `s`, stopping at the first `FATAL`. -/
def run : Kernel → List Step → Except Halt Kernel
  | s, [] => .ok s
  | s, l :: ls => (step cfg s l).bind fun s => run s ls

/-- A run that does not halt from a reachable state ends in a reachable state. -/
theorem run_reachable {s s' : Kernel} {ls : List Step} (hs : Reachable cfg s)
    (h : run cfg s ls = .ok s') : Reachable cfg s' := by
  induction ls generalizing s with
  | nil => cases h; exact hs
  | cons l ls ih =>
    simp only [run] at h
    cases hl : step cfg s l with
    | error e => simp [hl, Except.bind] at h
    | ok s₁ =>
      simp only [hl, Except.bind] at h
      exact ih (hs.step hl) h

/-- A run from boot that ends in a state where `p` holds gives a reachable state where `p`
holds. -/
theorem reach_of_run {l : List Step} {p : Kernel → Bool}
    (h : (match run cfg (init cfg) l with | .ok s => p s | .error _ => false) = true) :
    ∃ s, Reachable cfg s ∧ p s = true := by
  cases hr : run cfg (init cfg) l with
  | error e => simp [hr] at h
  | ok s => simp only [hr] at h; exact ⟨s, run_reachable cfg Reachable.init hr, h⟩

/-- A run of two parts is the second part run from where the first ends. -/
theorem run_append (s : Kernel) (l₁ l₂ : List Step) :
    run cfg s (l₁ ++ l₂) = (run cfg s l₁).bind fun s => run cfg s l₂ := by
  induction l₁ generalizing s with
  | nil => rfl
  | cons l l₁ ih =>
    simp only [List.cons_append, run]
    cases step cfg s l with
    | error e => rfl
    | ok s₁ => exact ih s₁

end Config

/-- Values for the constants of `Config`, to replay concrete runs: two cores, the wildcard
`GPID_ALL = -1`, the shell at pid 4, user processes from pid 5, and a never-written record whose
type is neither `SYS_RECV` nor `SYS_SEND`. -/
def sampleConfig : Config :=
  { ncores := 2, gpidAll := -1, gpidShell := 4, gpidUserStart := 5, appsArg := 0x80400000,
    appsEntry := 0x80400008, zeroSyscall := ⟨.other 0, 0, 0, [], .pending⟩ }

/-- A trap on `hart` with cause `mcause`, trapped context `ctx` and submitted record `rec`, taken
while the keyboard buffer is empty. -/
def trapAt (hart : Nat) (mcause : BitVec 32) (ctx : Context) (rec : Syscall) : Step :=
  .trap { hart := hart, mcause := mcause, ctx := ctx, syscall := rec, ttyEmpty := true }

/-- What a timer interrupt on `hart` presents, with an all-zero trapped context. -/
def timerTrap (hart : Nat) : Trap :=
  { hart := hart, mcause := 0x80000007, ctx := ⟨0, fun _ => 0⟩, syscall := sampleConfig.zeroSyscall,
    ttyEmpty := true }

/-- A timer interrupt on `hart`. -/
def timerOn (hart : Nat) : Step := .trap (timerTrap hart)

/-- `sys_send(receiver, msg)` from user mode on `hart`. -/
def sendOn (hart : Nat) (receiver : Int) (msg : List UInt8) : Step :=
  trapAt hart excpIdEcallU ⟨0, fun _ => 0⟩ ⟨.sysSend, 0, receiver, msg, .pending⟩

/-- `sys_recv(filter)` from user mode on `hart`. -/
def recvOn (hart : Nat) (filter : Int) : Step :=
  trapAt hart excpIdEcallU ⟨0, fun _ => 0⟩ ⟨.sysRecv, filter, 0, [], .pending⟩

end EgosGrass

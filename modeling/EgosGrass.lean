import EgosGrass.Native.Types
import EgosGrass.Native.Process
import EgosGrass.Native.Kernel
import EgosGrass.Native.Run
import EgosGrass.Native.Apps
import EgosGrass.Spec.Lookup
import EgosGrass.Spec.Pids
import EgosGrass.Spec.Polite
import EgosGrass.Spec.Invariant
import EgosGrass.Spec.InvariantOps
import EgosGrass.Spec.CpuTime
import EgosGrass.Spec.Levels
import EgosGrass.Spec.InvariantTrap
import EgosGrass.Spec.InvariantEntry
import EgosGrass.Spec.Cores
import EgosGrass.Spec.Running
import EgosGrass.Spec.Fatal
import EgosGrass.Spec.Lifecycle
import EgosGrass.Spec.Context
import EgosGrass.Spec.Rendezvous
import EgosGrass.Spec.Release
import EgosGrass.Spec.Accounting
import EgosGrass.Spec.Mlfq
import EgosGrass.Spec.Schedule
import EgosGrass.Spec.Progress
import EgosGrass.Spec.Preemption
import EgosGrass.Spec.Report
import EgosGrass.Spec.Free
import EgosGrass.Spec.Grep
import EgosGrass.Spec.Wcl
import EgosGrass.Spec.Interrupts

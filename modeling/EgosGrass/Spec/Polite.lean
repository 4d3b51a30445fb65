import EgosGrass.Spec.Pids

/-!
# Polite runs

`Run.lean` lets the environment call `proc_set_ready`, `proc_free` and `proc_sleep` on any pid at
any moment, and lets any core trap with any cause. Several properties of the kernel hold only when
the environment keeps to the way the rest of egos-2000 calls these entry points. A step is
*polite* (`Polite`) when it

* allocates only while the pid counter stays below `2^31 - 1`, so that every pid is positive,
* marks ready only a process that is still `PROC_LOADING`, as the loader does,
* frees only a process that no core is running, and `GPID_ALL` only when no core runs a user
  process,
* is not a call of `proc_sleep`,
* is an exception only on a core that runs a process: an idle core waits in `wfi` and takes
  interrupts only.

`PoliteReach` is the set of states polite runs reach. `Polite` is decidable, so a concrete polite
run is checked by evaluation (`politeRun`, `politeReach_of_run`).
-/

namespace EgosGrass

section Config

variable (cfg : Config)

/-- Whether the next event keeps to the way the rest of egos-2000 calls the kernel. -/
def Polite (s : Kernel) : Step → Prop
  | .alloc => s.currPid.toNat + 1 < 2 ^ 31
  | .setReady pid =>
    ∀ i < maxNProcess, (s.procSet i).pid = pid → (s.procSet i).status = .loading
  | .free pid =>
    ∀ c < cfg.ncores, s.coreToProcIdx c ≠ 0 →
      if pid = cfg.gpidAll then (s.procSet (s.coreToProcIdx c)).pid < cfg.gpidUserStart
      else (s.procSet (s.coreToProcIdx c)).pid ≠ pid
  | .sleep _ _ => False
  | .trap t => t.hart < cfg.ncores → t.mcause.getLsbD 31 = false → s.coreToProcIdx t.hart ≠ 0
  | .tick _ => True

instance (s : Kernel) : (l : Step) → Decidable (Polite cfg s l)
  | .alloc => inferInstanceAs (Decidable (s.currPid.toNat + 1 < 2 ^ 31))
  | .setReady pid => inferInstanceAs (Decidable
      (∀ i < maxNProcess, (s.procSet i).pid = pid → (s.procSet i).status = .loading))
  | .free pid => inferInstanceAs (Decidable
      (∀ c < cfg.ncores, s.coreToProcIdx c ≠ 0 →
        if pid = cfg.gpidAll then (s.procSet (s.coreToProcIdx c)).pid < cfg.gpidUserStart
        else (s.procSet (s.coreToProcIdx c)).pid ≠ pid))
  | .sleep _ _ => inferInstanceAs (Decidable False)
  | .trap t => inferInstanceAs (Decidable
      (t.hart < cfg.ncores → t.mcause.getLsbD 31 = false → s.coreToProcIdx t.hart ≠ 0))
  | .tick _ => inferInstanceAs (Decidable True)

/-- The states some polite run from `init` reaches. -/
inductive PoliteReach : Kernel → Prop
  | init : PoliteReach (init cfg)
  | step {s s' : Kernel} {l : Step} :
    PoliteReach s → Polite cfg s l → step cfg s l = .ok s' → PoliteReach s'

/-- A state of a polite run is reachable. -/
theorem PoliteReach.reachable {s : Kernel} (h : PoliteReach cfg s) : Reachable cfg s := by
  induction h with
  | init => exact .init
  | step _ _ hs ih => exact ih.step hs

/-- Execute a run from `s` while every step is polite; `none` at the first impolite step or
`FATAL`. -/
def politeRun : Kernel → List Step → Option Kernel
  | s, [] => some s
  | s, l :: ls =>
    if Polite cfg s l then
      match step cfg s l with
      | .ok s' => politeRun s' ls
      | .error _ => none
    else none

/-- A polite run from a state of a polite run ends in one. -/
theorem politeRun_reach {s s' : Kernel} {ls : List Step} (hs : PoliteReach cfg s)
    (h : politeRun cfg s ls = some s') : PoliteReach cfg s' := by
  induction ls generalizing s with
  | nil => cases h; exact hs
  | cons l ls ih =>
    simp only [politeRun] at h
    split at h
    · rename_i hp
      split at h
      · rename_i s₁ h₁
        exact ih (hs.step hp h₁) h
      · cases h
    · cases h

/-- A polite run from boot that ends in a state where `p` holds gives a polite reachable state
where `p` holds. -/
theorem politeReach_of_run {l : List Step} {p : Kernel → Bool}
    (h : (match politeRun cfg (init cfg) l with | some s => p s | none => false) = true) :
    ∃ s, PoliteReach cfg s ∧ p s = true := by
  cases hr : politeRun cfg (init cfg) l with
  | none => simp [hr] at h
  | some s => simp only [hr] at h; exact ⟨s, politeRun_reach cfg .init hr, h⟩

end Config

end EgosGrass

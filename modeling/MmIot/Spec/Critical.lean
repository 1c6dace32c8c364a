import Mathlib.Logic.Function.Basic
import MmIot.Lib.Transition

/-! The critical sections of `mmosal.c`, which keep one lock key for all threads, on the
assumption that no section yields or nests. An IRQ lock of Zephyr is the thread's own: it does
not hold while the thread is swapped out. -/

namespace MmIot

/-- `irqLockKey` is what `irq_lock` found. `depth` counts the sections a thread is in, and
`nested` is whether the last one that was entered is inside another of its thread. -/
structure CriticalState (T : Type) where
  locked : T → Bool
  irqLockKey : Option Bool
  depth : T → ℕ
  nested : Bool

inductive CriticalAction (T : Type) where
  | enter (t : T)
  | exit (t : T)

variable {T : Type} [DecidableEq T]

/-- `mmosal_task_enter_critical` and `mmosal_task_exit_critical`: the thread is locked where the
key is stored or loaded, so that neither is cut in two. -/
def criticalStep (s : CriticalState T) : CriticalAction T → Option (CriticalState T)
  | .enter t => some
      { locked := Function.update s.locked t true
        irqLockKey := some (s.locked t)
        depth := Function.update s.depth t (s.depth t + 1)
        nested := 0 < s.depth t }
  | .exit t =>
    if s.depth t = 0 then none
    else s.irqLockKey.map fun key => { s with
      locked := Function.update s.locked t key
      depth := Function.update s.depth t (s.depth t - 1) }

def CriticalStart (s : CriticalState T) : Prop :=
  s.irqLockKey = none ∧ s.nested = false ∧ ∀ t, s.locked t = false ∧ s.depth t = 0

/-- Interrupts are locked in the sections and nowhere else. -/
def CriticalState.Exact (s : CriticalState T) : Prop := ∀ t, s.locked t = true ↔ 0 < s.depth t

/-- No section nests. -/
def Flat (s : CriticalState T) (a : CriticalAction T) : Prop := ∀ t, a = .enter t → s.depth t = 0

/-- The section that is left is inside another exactly if the last one entered was. -/
def Restores (s : CriticalState T) (a : CriticalAction T) : Prop :=
  ∀ t, a = .exit t → (s.nested = true ↔ 1 < s.depth t)

/-- No section yields: only the thread that has the interrupts locked moves. -/
def Unyielding (s : CriticalState T) (a : CriticalAction T) : Prop :=
  ∀ t, s.locked t = true → a = .enter t ∨ a = .exit t

end MmIot

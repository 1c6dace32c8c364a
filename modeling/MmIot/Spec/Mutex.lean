import Mathlib.Logic.Function.Basic
import MmIot.Lib.Transition

/-! The mutex shim of `mmosal.c` on Zephyr's recursive `k_mutex`, for tasks of any
type. A get or release is a kernel step followed by the store to `owner`, and the
steps of different tasks interleave freely. -/

namespace MmIot

variable {τ : Type*} [DecidableEq τ]

/-- `struct k_mutex`: its owner, how often it is locked and who waits for it. -/
structure KMutex (τ : Type*) where
  owner : Option τ
  lockCount : ℕ
  waiters : List τ

/-- `k_mutex_lock` takes a free mutex or one's own, and otherwise waits. -/
def KMutex.lock (k : KMutex τ) (t : τ) : Bool × KMutex τ :=
  if k.owner = none ∨ k.owner = some t then
    (true, { k with owner := some t, lockCount := k.lockCount + 1 })
  else (false, { k with waiters := t :: k.waiters })

/-- The last unlock: the scheduler picks a waiting task, if there is one. -/
def KMutex.handOver (k : KMutex τ) : Option τ → Option (KMutex τ)
  | none => if k.waiters = [] then some { k with owner := none, lockCount := 0 } else none
  | some u =>
    if u ∈ k.waiters then
      some { owner := some u, lockCount := 1, waiters := k.waiters.filter (· ≠ u) }
    else none

/-- Where a task is in the shim: outside of it, in `k_mutex_lock`, or past the kernel
call of a get or of a release. -/
inductive MutexPc where
  | idle | waiting | locked | unlocked
  deriving DecidableEq

/-- A task with the number of gets and releases that returned true to it. -/
structure MutexTask where
  pc : MutexPc
  gets : ℕ
  releases : ℕ

structure MutexState (τ : Type*) where
  kernel : KMutex τ
  /-- `mutex->owner` -/
  owner : Option τ
  tasks : τ → MutexTask

inductive MutexAction (τ : Type*) where
  | lock (t : τ)
  | timeout (t : τ)
  | setOwner (t : τ)
  | unlock (t : τ) (next : Option τ)
  | clearOwner (t : τ)

def MutexState.setPc (s : MutexState τ) (t : τ) (pc : MutexPc) : MutexState τ :=
  { s with tasks := Function.update s.tasks t { s.tasks t with pc } }

def mutexStep (s : MutexState τ) : MutexAction τ → Option (MutexState τ)
  | .lock t =>
    if (s.tasks t).pc ≠ .idle then none
    else match s.kernel.lock t with
      | (true, kernel) => some ({ s with kernel }.setPc t .locked)
      | (false, kernel) => some ({ s with kernel }.setPc t .waiting)
  | .timeout t =>
    if (s.tasks t).pc ≠ .waiting then none
    else some ({ s with kernel.waiters := s.kernel.waiters.filter (· ≠ t) }.setPc t .idle)
  | .setOwner t =>
    if (s.tasks t).pc ≠ .locked then none
    else some { s with
      owner := some t
      tasks := Function.update s.tasks t
        { s.tasks t with pc := .idle, gets := (s.tasks t).gets + 1 } }
  | .unlock t next =>
    if (s.tasks t).pc ≠ .idle then none
    -- the kernel refuses, and release returns false
    else if s.kernel.owner ≠ some t then some s
    else if 1 < s.kernel.lockCount then
      some ({ s with kernel.lockCount := s.kernel.lockCount - 1 }.setPc t .unlocked)
    else match s.kernel.handOver next with
      | none => none
      | some kernel =>
        let s := { s with kernel }.setPc t .unlocked
        match next with
        | none => some s
        | some u => some (s.setPc u .locked)
  | .clearOwner t =>
    if (s.tasks t).pc ≠ .unlocked then none
    else some { s with
      owner := none
      tasks := Function.update s.tasks t
        { s.tasks t with pc := .idle, releases := (s.tasks t).releases + 1 } }

/-- `mmosal_mutex_is_held_by_active_task` called from task `t`. -/
def MutexState.isHeldByActiveTask (s : MutexState τ) (t : τ) : Bool := s.owner = some t

/-- `mmosal_mutex_create` -/
def mutexCreate : MutexState τ where
  kernel := { owner := none, lockCount := 0, waiters := [] }
  owner := none
  tasks := fun _ => { pc := .idle, gets := 0, releases := 0 }

end MmIot

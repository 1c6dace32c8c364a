import MmIot.Lib.Transition
import Mathlib.Data.Int.Notation

/-! The counting and binary semaphores of `mmosal.c` on Zephyr's `k_sem`. A give reads
the count before it calls the kernel, and other calls may come in between; the variants
for interrupt handlers are the same functions. -/

namespace MmIot

structure KSem where
  count : ℕ
  limit : ℕ
  deriving DecidableEq

/-- `k_sem_init` refuses a limit of zero and a count above the limit. -/
def KSem.init (initialCount limit : ℕ) : Option KSem :=
  if limit = 0 ∨ limit < initialCount then none else some ⟨initialCount, limit⟩

/-- `k_sem_give` does nothing at the limit. -/
def KSem.give (k : KSem) : KSem := if k.count = k.limit then k else { k with count := k.count + 1 }

/-- `k_sem_take` without a timeout. -/
def KSem.take (k : KSem) : Option KSem :=
  if k.count = 0 then none else some { k with count := k.count - 1 }

/-- A semaphore, the count its give compares with, and the calls on it: `toGive` gives
stand before `k_sem_give`, `gives` and `waits` have returned true. -/
structure SemState where
  sem : KSem
  maximum : ℕ
  initial : ℕ
  toGive : ℕ
  gives : ℕ
  waits : ℕ
  deriving DecidableEq

/-- What the two create functions share; `alloc` tells whether `k_malloc` finds memory. -/
def semCreate (alloc : Bool) (maximum initialCount : ℕ) : Option SemState :=
  if ¬ alloc then none
  else (KSem.init initialCount maximum).map fun sem => ⟨sem, maximum, initialCount, 0, 0, 0⟩

def mmosalSemCreate (alloc : Bool) (maxCount initialCount : ℕ) : Option SemState :=
  semCreate alloc maxCount initialCount

/-- `mmosal_semb_give` compares with 1. -/
def mmosalSembCreate (alloc : Bool) : Option SemState := semCreate alloc 1 0

/-- The two steps of a give, and a wait. -/
inductive SemAction where
  | readCount
  | give
  | wait

def semStep (s : SemState) : SemAction → Option SemState
  | .readCount => if s.sem.count = s.maximum then some s else some { s with toGive := s.toGive + 1 }
  | .give =>
    if s.toGive = 0 then none
    else some { s with sem := s.sem.give, toGive := s.toGive - 1, gives := s.gives + 1 }
  | .wait =>
    match s.sem.take with
    | none => some s
    | some sem => some { s with sem, waits := s.waits + 1 }

/-- Freshly created, of either kind. -/
inductive SemCreated : SemState → Prop
  | sem {alloc : Bool} {maxCount initialCount : ℕ} {s : SemState}
      (h : mmosalSemCreate alloc maxCount initialCount = some s) : SemCreated s
  | semb {alloc : Bool} {s : SemState} (h : mmosalSembCreate alloc = some s) : SemCreated s

end MmIot

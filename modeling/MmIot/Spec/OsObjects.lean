import MmIot.Lib.Ownership

/-! The objects of `mmosal.c` and the memory behind them: how the shims make and delete
mutexes, semaphores, queues, timers and tasks, one kernel call at a time. -/

namespace MmIot

open Ownership

/-- `k_malloc`, `k_thread_stack_alloc`, and what a NULL pointer points to, which nobody can
allocate. -/
inductive OsMem where
  | heap | stack | null
  deriving DecidableEq

/-- The kernel calls whose result the shims look at. -/
inductive OsCall where
  | kMutexInit | kMutexUnlock | kSemInit
  deriving DecidableEq

/-- What a shim returns: NULL, or an object by the memory that it is in. A task has its
metadata, which the thread itself is part of, and its stack. -/
inductive OsObject where
  | null
  | mutex (mutex : ℕ)
  | sem (sem : ℕ)
  | semb (sem : ℕ)
  | queue (queue buffer : ℕ)
  | timer (timer : ℕ)
  | task (data stack : ℕ)
  deriving DecidableEq

def OsObject.memory : OsObject → Finset (OsMem × ℕ)
  | .null => ∅
  | .mutex b | .sem b | .semb b | .timer b => {(.heap, b)}
  | .queue b buffer => {(.heap, b), (.heap, buffer)}
  | .task data stack => {(.heap, data), (.stack, stack)}

abbrev OsProg := Prog OsMem Unit Empty OsObject OsCall fun _ => ℤ

def mmosalMutexCreateProg : OsProg :=
  .acquire .heap fun
    | none => .ret .null
    | some mutex =>
      .touch (.heap, mutex) <| .ask .kMutexInit fun err =>
        if err ≠ 0 then .release (.heap, mutex) (.ret .null) else .ret (.mutex mutex)

/-- `mmosal_mutex_release` comes first, which stores to the mutex if it unlocked it. -/
def mmosalMutexDeleteProg : Option ℕ → OsProg
  | none => .ret .null
  | some mutex =>
    .touch (.heap, mutex) <| .ask .kMutexUnlock fun err =>
      if err < 0 then .release (.heap, mutex) (.ret .null)
      else .touch (.heap, mutex) <| .release (.heap, mutex) (.ret .null)

/-- Both kinds of semaphore. -/
def semCreateProg (object : ℕ → OsObject) : OsProg :=
  .acquire .heap fun
    | none => .ret .null
    | some sem =>
      .touch (.heap, sem) <| .ask .kSemInit fun err =>
        if err ≠ 0 then .release (.heap, sem) (.ret .null) else .ret (object sem)

def mmosalSemCreateProg : OsProg := semCreateProg .sem

def mmosalSembCreateProg : OsProg := semCreateProg .semb

/-- The object is stopped or reset, and its memory freed. -/
def resetAndFree : Option ℕ → OsProg
  | none => .ret .null
  | some object => .touch (.heap, object) <| .release (.heap, object) (.ret .null)

def mmosalSemDeleteProg : Option ℕ → OsProg := resetAndFree

def mmosalSembDeleteProg : Option ℕ → OsProg := resetAndFree

def mmosalQueueCreateProg : OsProg :=
  .acquire .heap fun
    | none => .ret .null
    | some queue =>
      .acquire .heap fun
        | none => .touch (.heap, queue) <| .release (.heap, queue) (.ret .null)
        | some buffer =>
          .touch (.heap, queue) <| .touch (.heap, buffer) <| .ret (.queue queue buffer)

/-- NULL is not looked for: `queue->buffer` is read first. What comes of that is not known. -/
def mmosalQueueDeleteProg : Option (ℕ × ℕ) → OsProg
  | none => .touch (.null, 0) (.ret .null)
  | some (queue, buffer) =>
    .touch (.heap, queue) <| .release (.heap, buffer) <| .touch (.heap, queue) <|
      .release (.heap, queue) (.ret .null)

def mmosalTimerCreateProg : OsProg :=
  .acquire .heap fun
    | none => .ret .null
    | some timer => .touch (.heap, timer) (.ret (.timer timer))

def mmosalTimerDeleteProg : Option ℕ → OsProg := resetAndFree

/-- With `mmosal_task_metadata_create` and `mmosal_task_metadata_delete`. -/
def mmosalTaskCreateProg : OsProg :=
  .acquire .heap fun
    | none => .ret .null
    | some data =>
      .touch (.heap, data) <| .acquire .stack fun
        | none => .touch (.heap, data) <| .release (.heap, data) (.ret .null)
        | some stack =>
          .touch (.heap, data) <| .touch (.stack, stack) <| .touch (.heap, data) <|
            .ret (.task data stack)

/-- The custom data of a thread: none, another's, or that of a task. -/
inductive CustomData where
  | null
  | other
  | mmosal (data stack : ℕ)

/-- `thread_abort_hook`, when a thread ends or is aborted. -/
def threadAbortHook : CustomData → OsProg
  | .null => .ret .null
  | .other => .ret .null
  | .mmosal data stack =>
    .touch (.heap, data) <| .release (.stack, stack) <| .touch (.heap, data) <|
      .release (.heap, data) (.ret .null)

/-- `k_thread_abort` looks at the thread before the hook runs. NULL stands for the thread that
calls, whose custom data is `self`. -/
def mmosalTaskDeleteProg (self : CustomData) : Option (ℕ × ℕ) → OsProg
  | none => threadAbortHook self
  | some (data, stack) => .touch (.heap, data) <| threadAbortHook (.mmosal data stack)

/-- What can start at any time: a shim that makes an object or is called with NULL, and the end
of a thread that is not a task of the shims. -/
inductive OsStart where
  | mutexCreate | semCreate | sembCreate | queueCreate | timerCreate | taskCreate
  | mutexDeleteNull | semDeleteNull | sembDeleteNull | queueDeleteNull | timerDeleteNull
  | taskDeleteNull (other : Bool)
  | threadEnds (other : Bool)

/-- A thread that is not a task of the shims. -/
def CustomData.ofOther (other : Bool) : CustomData := if other then .other else .null

def OsStart.prog : OsStart → OsProg
  | .mutexCreate => mmosalMutexCreateProg
  | .semCreate => mmosalSemCreateProg
  | .sembCreate => mmosalSembCreateProg
  | .queueCreate => mmosalQueueCreateProg
  | .timerCreate => mmosalTimerCreateProg
  | .taskCreate => mmosalTaskCreateProg
  | .mutexDeleteNull => mmosalMutexDeleteProg none
  | .semDeleteNull => mmosalSemDeleteProg none
  | .sembDeleteNull => mmosalSembDeleteProg none
  | .queueDeleteNull => mmosalQueueDeleteProg none
  | .timerDeleteNull => mmosalTimerDeleteProg none
  | .taskDeleteNull other => mmosalTaskDeleteProg (.ofOther other) none
  | .threadEnds other => threadAbortHook (.ofOther other)

/-- How an object ends: a shim deletes it, a task deletes itself, or its thread ends. -/
inductive OsEnd where
  | delete | taskDeleteNull | threadEnds

def OsObject.delete : OsObject → OsEnd → Option OsProg
  | .mutex b, .delete => some (mmosalMutexDeleteProg (some b))
  | .sem b, .delete => some (mmosalSemDeleteProg (some b))
  | .semb b, .delete => some (mmosalSembDeleteProg (some b))
  | .queue b buffer, .delete => some (mmosalQueueDeleteProg (some (b, buffer)))
  | .timer b, .delete => some (mmosalTimerDeleteProg (some b))
  | .task data stack, .delete => some (mmosalTaskDeleteProg .null (some (data, stack)))
  | .task data stack, .taskDeleteNull => some (mmosalTaskDeleteProg (.mmosal data stack) none)
  | .task data stack, .threadEnds => some (threadAbortHook (.mmosal data stack))
  | _, _ => none

abbrev OsPool := Pool OsMem Unit Empty OsObject OsCall fun _ => ℤ

abbrev OsAct := Act OsMem Unit Empty OsObject OsCall (fun _ => ℤ) OsEnd

def osStep : OsPool → OsAct → Option OsPool := Pool.step OsObject.delete

def osBoot : OsPool := Pool.empty fun _ => ()

/-- Only the shims' own code starts, and no queue is deleted that is NULL. An object that is
deleted, or a task that has ended, is not deleted once more. -/
def osGuard (_ : OsPool) (a : OsAct) : Prop :=
  ∀ p, a = .start p → ∃ o : OsStart, o ≠ .queueDeleteNull ∧ p = o.prog

end MmIot

import MyRedis.Lib.Atomic

/-!
# The blocking queue

`ConcurrentQueue.h` of v1, which is `concurrent_queue.h` of v2: a queue, a mutex and a condition
variable.  Any number of threads call `Push` and `Pop`.

Each step is one operation on the mutex, on the queue or on the condition variable.
`is_empty_.wait(lock, pred)` is the loop `while (!pred()) is_empty_.wait(lock)`; to go to sleep
and to unlock is one step.  `notify_one` wakes one of the threads that sleep, and any of them may
also wake without a reason.  The `history` of calls and returns is a record.
-/

set_option autoImplicit false

namespace MyRedis.Model

open MyRedis.Lib

namespace ConcurrentQueue

/-- Where a thread is: the name says what it does next.
SOURCE: ConcurrentQueue.h:10-23 -/
inductive Thread (α : Type) where
  | outside
  | pushLock (value : α)
  | pushing (value : α)
  | pushUnlock
  | notifying
  | popLock
  | testing
  | asleep
  | woken
  | popping
  /-- the destructor of `lock` -/
  | popUnlock (value : α)
  /-- `queue_.front()` of an empty queue -/
  | undefined
  deriving DecidableEq

def Thread.sleeps {α : Type} : Thread α → Bool
  | .asleep => true
  | _ => false

/-- `ConcurrentQueue` and `n` threads that use it.
SOURCE: ConcurrentQueue.h:25-28 -/
structure State (α : Type) (n : ℕ) where
  queue : List α
  mutex : Option (Fin n)
  threads : Fin n → Thread α
  history : List (CallEvent (Fin n) (QueueOp α) (Option α))

inductive Action (α : Type) (n : ℕ) where
  | call (i : Fin n) (op : QueueOp α)
  | proceed (i : Fin n)
  /-- with the thread that is woken, if any sleeps -/
  | notifyOne (i : Fin n) (target : Option (Fin n))
  | spuriousWakeup (i : Fin n)
  deriving DecidableEq

namespace State

variable {α : Type} {n : ℕ}

def init : State α n := ⟨[], none, fun _ => .outside, []⟩

def setThread (s : State α n) (i : Fin n) (thread : Thread α) : State α n :=
  { s with threads := Function.update s.threads i thread }

def record (s : State α n) (event : CallEvent (Fin n) (QueueOp α) (Option α)) : State α n :=
  { s with history := s.history ++ [event] }

/-- A thread calls `Push` or `Pop`. -/
def call (s : State α n) (i : Fin n) (op : QueueOp α) : Option (State α n) :=
  match s.threads i with
  | .outside =>
    match op with
    | .push value => some ((s.record (.call i op)).setThread i (.pushLock value))
    | .pop => some ((s.record (.call i op)).setThread i .popLock)
  | _ => none

/-- The thread locks the mutex, if nobody has it. -/
def lock (s : State α n) (i : Fin n) (thread : Thread α) : Option (State α n) :=
  match s.mutex with
  | none => some ({ s with mutex := some i }.setThread i thread)
  | some _ => none

/-- The next step of a thread, other than `notify_one`.
SOURCE: ConcurrentQueue.h:10-23 -/
def proceed (s : State α n) (i : Fin n) : Option (State α n) :=
  match s.threads i with
  | .pushLock value => s.lock i (.pushing value)
  | .pushing value => some ({ s with queue := s.queue ++ [value] }.setThread i .pushUnlock)
  | .pushUnlock => some ({ s with mutex := none }.setThread i .notifying)
  | .popLock | .woken => s.lock i .testing
  | .testing =>
    if s.queue = [] then some ({ s with mutex := none }.setThread i .asleep)
    else some (s.setThread i .popping)
  | .popping =>
    match s.queue with
    | [] => some (s.setThread i .undefined)
    | value :: queue => some ({ s with queue }.setThread i (.popUnlock value))
  | .popUnlock value =>
    some (({ s with mutex := none }.record (.answer i (some value))).setThread i .outside)
  | .outside | .notifying | .asleep | .undefined => none

/-- `is_empty_.notify_one()`, and the return of `Push`.
SOURCE: ConcurrentQueue.h:14 -/
def notifyOne (s : State α n) (i : Fin n) (target : Option (Fin n)) : Option (State α n) :=
  match s.threads i with
  | .notifying =>
    let s := (s.record (.answer i none)).setThread i .outside
    match target with
    | none => if ∃ j, (s.threads j).sleeps then none else some s
    | some j => if (s.threads j).sleeps then some (s.setThread j .woken) else none
  | _ => none

def step (s : State α n) : Action α n → Option (State α n)
  | .call i op => s.call i op
  | .proceed i => s.proceed i
  | .notifyOne i target => s.notifyOne i target
  | .spuriousWakeup i =>
    match s.threads i with
    | .asleep => some (s.setThread i .woken)
    | _ => none

end State

end ConcurrentQueue

end MyRedis.Model

import MyRedis.Lib.TransitionSystem
import Mathlib.Data.Fin.Basic
import Mathlib.Logic.Function.Basic

/-!
# The queue between the main thread and an IO thread

`single_consumer_producer_queue.h`: a ring of `N + 1` slots with the index of the oldest
element and of the next free slot.  One thread calls `Push` and one calls `Pop`; their steps
interleave.

Loads and stores of `head_` and `tail_` are single steps.  The accesses to a slot are not
atomic, so each takes two steps, and a slot is `torn` while it is being assigned to or
reset.  `Pop` hands on the content of the slot whatever it is.  The state also has the
results of all calls so far.
-/

set_option autoImplicit false

namespace MyRedis.Model

/-- A `std::optional<T>` of the buffer, as a thread may find it. -/
inductive Slot (α : Type) where
  | disengaged
  | engaged (a : α)
  | movedFrom
  | torn
  deriving DecidableEq

/-- `SingleConsumerProducerQueue`
SOURCE: single_consumer_producer_queue.h:9-13 -/
structure SingleConsumerProducerQueue (α : Type) (N : ℕ) where
  buffer : Fin (N + 1) → Slot α
  head : Fin (N + 1)
  tail : Fin (N + 1)

namespace SingleConsumerProducerQueue

variable {α : Type} {N : ℕ}

/-- A queue as the constructor leaves it. -/
def empty : SingleConsumerProducerQueue α N := ⟨fun _ => .disengaged, 0, 0⟩

/-- `increment`
SOURCE: single_consumer_producer_queue.h:15-17 -/
def increment (n : Fin (N + 1)) : Fin (N + 1) := ⟨(n.val + 1) % (N + 1), Nat.mod_lt _ N.succ_pos⟩

/-- Where the producer is in `Push`.  The names say what it did last. -/
inductive Producer (α : Type) (N : ℕ) where
  | idle
  | loadedTail (element : α) (t : Fin (N + 1))
  | loadedHead (element : α) (t : Fin (N + 1))
  | writing (element : α) (t : Fin (N + 1))
  | written (element : α) (t : Fin (N + 1))
  deriving DecidableEq

/-- Where the consumer is in `Pop`. -/
inductive Consumer (α : Type) (N : ℕ) where
  | idle
  | loadedHead (h : Fin (N + 1))
  | loadedTail (h : Fin (N + 1))
  | taking (h : Fin (N + 1))
  | taken (h : Fin (N + 1)) (element : Slot α)
  | resetting (h : Fin (N + 1)) (element : Slot α)
  | reset (h : Fin (N + 1)) (element : Slot α)
  deriving DecidableEq

/-- The queue, its two threads and the results of their calls so far. -/
structure State (α : Type) (N : ℕ) where
  queue : SingleConsumerProducerQueue α N
  producer : Producer α N
  consumer : Consumer α N
  pushes : List (α × Bool)
  pops : List (Option (Slot α))

/-- An empty queue, and no call made yet. -/
def init : State α N := ⟨empty, .idle, .idle, [], []⟩

/-- The steps of `Push`; the first one is the call. -/
inductive ProducerStep (α : Type) where
  | loadTail (element : α)
  | loadHead
  | beginWrite
  | endWrite
  | storeTail
  deriving DecidableEq

/-- The steps of `Pop`. -/
inductive ConsumerStep where
  | loadHead
  | loadTail
  | beginTake
  | endTake
  | beginReset
  | endReset
  | storeHead
  deriving DecidableEq

/-- `buffer_[i] = content` -/
def setSlot (q : SingleConsumerProducerQueue α N) (i : Fin (N + 1)) (content : Slot α) :
    SingleConsumerProducerQueue α N :=
  { q with buffer := Function.update q.buffer i content }

/-- `Push`, step by step.
SOURCE: single_consumer_producer_queue.h:20-29 -/
def push (s : State α N) (label : ProducerStep α) : Option (State α N) :=
  match label, s.producer with
  | .loadTail element, .idle => some { s with producer := .loadedTail element s.queue.tail }
  | .loadHead, .loadedTail element t =>
    if increment t = s.queue.head then
      some { s with producer := .idle, pushes := s.pushes ++ [(element, false)] }
    else some { s with producer := .loadedHead element t }
  | .beginWrite, .loadedHead element t =>
    some { s with queue := s.queue.setSlot t .torn, producer := .writing element t }
  | .endWrite, .writing element t =>
    some { s with queue := s.queue.setSlot t (.engaged element), producer := .written element t }
  | .storeTail, .written element t =>
    some { s with
      queue := { s.queue with tail := increment t }
      producer := .idle
      pushes := s.pushes ++ [(element, true)] }
  | _, _ => none

/-- `Pop`, step by step.  Moving out of the slot leaves it engaged.
SOURCE: single_consumer_producer_queue.h:31-41 -/
def pop (s : State α N) (label : ConsumerStep) : Option (State α N) :=
  match label, s.consumer with
  | .loadHead, .idle => some { s with consumer := .loadedHead s.queue.head }
  | .loadTail, .loadedHead h =>
    if h = s.queue.tail then some { s with consumer := .idle, pops := s.pops ++ [none] }
    else some { s with consumer := .loadedTail h }
  | .beginTake, .loadedTail h => some { s with consumer := .taking h }
  | .endTake, .taking h =>
    some { s with queue := s.queue.setSlot h .movedFrom, consumer := .taken h (s.queue.buffer h) }
  | .beginReset, .taken h element =>
    some { s with queue := s.queue.setSlot h .torn, consumer := .resetting h element }
  | .endReset, .resetting h element =>
    some { s with queue := s.queue.setSlot h .disengaged, consumer := .reset h element }
  | .storeHead, .reset h element =>
    some { s with
      queue := { s.queue with head := increment h }
      consumer := .idle
      pops := s.pops ++ [some element] }
  | _, _ => none

/-- A step of one of the two threads. -/
def step (s : State α N) : ProducerStep α ⊕ ConsumerStep → Option (State α N)
  | .inl label => push s label
  | .inr label => pop s label

/-- The elements for which `Push` has returned true. -/
def State.accepted (s : State α N) : List α :=
  s.pushes.filterMap fun r => if r.2 then some r.1 else none

/-- What `Pop` has returned, apart from `nullopt`. -/
def State.popped (s : State α N) : List (Slot α) := s.pops.filterMap id

/-- The states that interleavings of the two threads lead to. -/
def Reachable (s : State α N) : Prop :=
  Lib.Reaches (fun s label s' => step s label = some s') (fun _ _ => True) init s

end SingleConsumerProducerQueue

end MyRedis.Model

import MyRedis.Lib.ReleaseAcquire
import MyRedis.Model.SingleConsumerProducerQueue

/-!
# The queue between the threads, with its memory orders

`single_consumer_producer_queue.h` again, on memory that is not sequentially consistent: `tail_`
is stored by the producer only and `head_` by the consumer only, each with release order; a
thread loads its own index relaxed and the other one's with acquire order, and may read an old
value of it.  The slots of the buffer are not atomic.  Moving out of a slot and resetting it are
accesses that change it, as assigning to it is.

Where a load may read more than one store the step says which one it reads.
-/

set_option autoImplicit false

namespace MyRedis.Model

open MyRedis.Lib

namespace QueueMemoryOrder

open SingleConsumerProducerQueue (increment)

/-- The two threads; `tail_` is the producer's variable and `head_` the consumer's. -/
inductive Side where
  | producer
  | consumer
  deriving DecidableEq

instance : Fintype Side := ⟨{.producer, .consumer}, fun side => by cases side <;> decide⟩

/-- `buffer_`, `head_` and `tail_`
SOURCE: single_consumer_producer_queue.h:11-13 -/
abbrev Memory (α : Type) (N : ℕ) : Type := WeakMemory Side (Fin (N + 1)) (Fin (N + 1)) (Slot α)

/-- Where the producer is in `Push`.  The names say what it did last. -/
inductive Producer (α : Type) (N : ℕ) where
  | idle
  | loadedTail (element : α) (t : Fin (N + 1))
  | loadedHead (element : α) (t : Fin (N + 1))
  | written (element : α) (t : Fin (N + 1))

/-- Where the consumer is in `Pop`. -/
inductive Consumer (α : Type) (N : ℕ) where
  | idle
  | loadedHead (h : Fin (N + 1))
  | loadedTail (h : Fin (N + 1))
  | taken (h : Fin (N + 1)) (element : Slot α)
  | reset (h : Fin (N + 1)) (element : Slot α)

/-- The memory, the two threads and the results of their calls so far. -/
structure State (α : Type) (N : ℕ) where
  memory : Memory α N
  producer : Producer α N
  consumer : Consumer α N
  pushes : List (α × Bool)
  pops : List (Option (Slot α))

variable {α : Type} {N : ℕ}

/-- An empty queue, and no call made yet. -/
def init : State α N := ⟨.start ⟨0, N.succ_pos⟩ .disengaged, .idle, .idle, [], []⟩

/-- The steps of `Push`; the first one is the call. -/
inductive ProducerStep (α : Type) where
  | loadTail (element : α) (k : ℕ)
  | loadHead (k : ℕ)
  | write
  | storeTail

/-- The steps of `Pop`. -/
inductive ConsumerStep where
  | loadHead (k : ℕ)
  | loadTail (k : ℕ)
  | take
  | reset
  | storeHead

/-- `Push`, step by step.
SOURCE: single_consumer_producer_queue.h:20-29 -/
def push (s : State α N) (label : ProducerStep α) : Option (State α N) :=
  match label, s.producer with
  | .loadTail element k, .idle =>
    (s.memory.loadRelaxed .producer .producer k).map fun (t, memory) =>
      { s with memory, producer := .loadedTail element t }
  | .loadHead k, .loadedTail element t =>
    (s.memory.loadAcquire .producer .consumer k).map fun (h, memory) =>
      if increment t = h then
        { s with memory, producer := .idle, pushes := s.pushes ++ [(element, false)] }
      else { s with memory, producer := .loadedHead element t }
  | .write, .loadedHead element t =>
    some { s with
      memory := s.memory.access .producer t (.engaged element)
      producer := .written element t }
  | .storeTail, .written element t =>
    some { s with
      memory := s.memory.storeRelease .producer (increment t)
      producer := .idle
      pushes := s.pushes ++ [(element, true)] }
  | _, _ => none

/-- `Pop`, step by step.  Moving out of the slot leaves it engaged.
SOURCE: single_consumer_producer_queue.h:31-41 -/
def pop (s : State α N) (label : ConsumerStep) : Option (State α N) :=
  match label, s.consumer with
  | .loadHead k, .idle =>
    (s.memory.loadRelaxed .consumer .consumer k).map fun (h, memory) =>
      { s with memory, consumer := .loadedHead h }
  | .loadTail k, .loadedHead h =>
    (s.memory.loadAcquire .consumer .producer k).map fun (t, memory) =>
      if h = t then { s with memory, consumer := .idle, pops := s.pops ++ [none] }
      else { s with memory, consumer := .loadedTail h }
  | .take, .loadedTail h =>
    some { s with
      memory := s.memory.access .consumer h .movedFrom
      consumer := .taken h (s.memory.cells h) }
  | .reset, .taken h element =>
    some { s with
      memory := s.memory.access .consumer h .disengaged
      consumer := .reset h element }
  | .storeHead, .reset h element =>
    some { s with
      memory := s.memory.storeRelease .consumer (increment h)
      consumer := .idle
      pops := s.pops ++ [some element] }
  | _, _ => none

/-- A step of one of the two threads. -/
def step (s : State α N) : ProducerStep α ⊕ ConsumerStep → Option (State α N)
  | .inl label => push s label
  | .inr label => pop s label

/-- The elements for which `Push` has returned true. -/
def State.accepted (s : State α N) : List α :=
  s.pushes.filterMap fun r => if r.2 then some r.1 else none

/-- What `Pop` has returned, apart from `nullopt`. -/
def State.popped (s : State α N) : List (Slot α) := s.pops.filterMap id

end QueueMemoryOrder

end MyRedis.Model

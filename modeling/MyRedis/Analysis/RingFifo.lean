import MyRedis.Lib.BoundedQueue
import MyRedis.Lib.Ring
import MyRedis.Model.SingleConsumerProducerQueue
import Mathlib.Data.List.Basic

/-!
# The ring is a bounded queue

Every state that interleavings of one `Push`ing and one `Pop`ping thread lead to is linked
(`Linked`) to the sequence of accepted elements: the positions from the number of popped
elements to the number of accepted ones lie in the ring in order, the index each thread has
loaded is still the current one, and a thread that passed its check keeps what it checked
whatever the other one does.  From this follow the order of the elements, the bound, that
the threads never access the same slot, and when a call that runs alone fails
(`boundedFifo`).
-/

set_option autoImplicit false

namespace MyRedis.Analysis

open MyRedis.Model MyRedis.Lib SingleConsumerProducerQueue

variable {α : Type} {N : ℕ}

/-- The elements in the queue: accepted and not popped. -/
def held (s : State α N) : List α := s.accepted.drop s.popped.length

/-- The slot the producer is accessing. -/
def Writes : Producer α N → Fin (N + 1) → Prop
  | .writing _ t, i => i = t
  | _, _ => False

/-- The slot the consumer is accessing. -/
def Takes : Consumer α N → Fin (N + 1) → Prop
  | .taking h, i => i = h
  | .resetting h _, i => i = h
  | _, _ => False

/-! ## The linking invariant -/

section Linking

variable (q : SingleConsumerProducerQueue α N) (accepted : List α) (popped : List (Slot α))

/-- What holds of the queue while the producer is in this phase. -/
def ProducerLinked : Producer α N → Prop
  | .idle => True
  | .loadedTail _ t => t = q.tail
  | .loadedHead _ t => t = q.tail ∧ accepted.length < popped.length + N
  | .writing _ t => t = q.tail ∧ accepted.length < popped.length + N
  | .written element t =>
    t = q.tail ∧ accepted.length < popped.length + N ∧ q.buffer t = .engaged element

/-- The oldest element is in its slot. -/
def Front : Prop := ∀ a, accepted[popped.length]? = some a → q.buffer q.head = .engaged a

/-- The consumer has moved the oldest element out of its slot. -/
def Taken (h : Fin (N + 1)) (element : Slot α) : Prop :=
  h = q.head ∧ ∃ a, accepted[popped.length]? = some a ∧ element = .engaged a

/-- What holds of the queue while the consumer is in this phase. -/
def ConsumerLinked : Consumer α N → Prop
  | .idle => Front q accepted popped
  | .loadedHead h => h = q.head ∧ Front q accepted popped
  | .loadedTail h => h = q.head ∧ Front q accepted popped ∧ popped.length < accepted.length
  | .taking h => h = q.head ∧ Front q accepted popped ∧ popped.length < accepted.length
  | .taken h element => Taken q accepted popped h element
  | .resetting h element => Taken q accepted popped h element
  | .reset h element => Taken q accepted popped h element

/-- The ring and the sequence of accepted elements. -/
structure Linked (producer : Producer α N) (consumer : Consumer α N) : Prop where
  popped_eq : popped = (accepted.take popped.length).map .engaged
  order : popped.length ≤ accepted.length
  bounded : accepted.length ≤ popped.length + N
  head : q.head = slot N popped.length
  tail : q.tail = slot N accepted.length
  behind : ∀ i a, popped.length < i → accepted[i]? = some a → q.buffer (slot N i) = .engaged a
  producer : ProducerLinked q accepted popped producer
  consumer : ConsumerLinked q accepted popped consumer

end Linking

section Steps

variable {q : SingleConsumerProducerQueue α N} {accepted : List α} {popped : List (Slot α)}
  {p p' : Producer α N} {c c' : Consumer α N}

/-- The next position is in the next slot.
SOURCE: single_consumer_producer_queue.h:15-17 -/
theorem increment_slot (i : ℕ) : increment (slot N i) = slot N (i + 1) :=
  Fin.ext slot_succ.symm

/-- An accepted element has a position in the sequence.
SOURCE: single_consumer_producer_queue.h:20-41 -/
theorem getElem?_lt {i : ℕ} {a : α} (h : accepted[i]? = some a) : i < accepted.length :=
  (List.getElem?_eq_some_iff.mp h).1

/-- What the consumer relies on: the producer may add elements, but neither touches the slot
of the oldest one nor moves the head.
SOURCE: single_consumer_producer_queue.h:31-41 -/
theorem ConsumerLinked.mono {q' : SingleConsumerProducerQueue α N} {accepted' : List α}
    (hconsumer : ConsumerLinked q accepted popped c) (hhead : q'.head = q.head)
    (hfront : Front q accepted popped → Front q' accepted' popped)
    (hmore : accepted <+: accepted') : ConsumerLinked q' accepted' popped c := by
  have hlength := hmore.length_le
  have htaken {h : Fin (N + 1)} {element : Slot α} (htaken : Taken q accepted popped h element) :
      Taken q' accepted' popped h element := by
    obtain ⟨hh, a, ha, helement⟩ := htaken
    refine ⟨hh.trans hhead.symm, a, ?_, helement⟩
    obtain ⟨more, rfl⟩ := hmore
    rw [List.getElem?_append_left (getElem?_lt ha)]
    exact ha
  cases c with
  | idle => exact hfront hconsumer
  | loadedHead h => exact ⟨hconsumer.1.trans hhead.symm, hfront hconsumer.2⟩
  | loadedTail h | taking h =>
    obtain ⟨hh, hold, hlt⟩ := hconsumer
    exact ⟨hh.trans hhead.symm, hfront hold, by omega⟩
  | taken h element | resetting h element | reset h element => exact htaken hconsumer

/-- What the producer relies on: the consumer may pop elements, but neither touches the slot
of the next one nor moves the tail.
SOURCE: single_consumer_producer_queue.h:20-29 -/
theorem ProducerLinked.mono {q' : SingleConsumerProducerQueue α N} {popped' : List (Slot α)}
    (hproducer : ProducerLinked q accepted popped p) (htail : q'.tail = q.tail)
    (hslot : q'.buffer q.tail = q.buffer q.tail) (hmore : popped.length ≤ popped'.length) :
    ProducerLinked q' accepted popped' p := by
  cases p with
  | idle => trivial
  | loadedTail element t => exact hproducer.trans htail.symm
  | loadedHead element t | writing element t =>
    obtain ⟨ht, hroom⟩ := hproducer
    exact ⟨ht.trans htail.symm, by omega⟩
  | written element t =>
    obtain ⟨rfl, hroom, hwritten⟩ := hproducer
    exact ⟨htail.symm, by omega, hslot.trans hwritten⟩

/-! ### The producer -/

/-- Writing to the slot of the producer leaves the elements alone.
SOURCE: single_consumer_producer_queue.h:26 -/
theorem Linked.slot_tail (hlinked : Linked q accepted popped p c) (content : Slot α) {i : ℕ} {a : α}
    (hi : popped.length ≤ i) (ha : accepted[i]? = some a) :
    (q.setSlot q.tail content).buffer (slot N i) = q.buffer (slot N i) := by
  have hlt := getElem?_lt ha
  have hbounded := hlinked.bounded
  rw [setSlot, hlinked.tail]
  exact update_slot q.buffer content (by omega) (by omega) (by omega)

/-- The producer writes to its slot.
SOURCE: single_consumer_producer_queue.h:26 -/
theorem Linked.write (hlinked : Linked q accepted popped p c) (content : Slot α)
    (hproducer : ProducerLinked (q.setSlot q.tail content) accepted popped p') :
    Linked (q.setSlot q.tail content) accepted popped p' c := by
  refine ⟨hlinked.popped_eq, hlinked.order, hlinked.bounded, hlinked.head, hlinked.tail, ?_,
    hproducer, hlinked.consumer.mono rfl ?_ List.prefix_rfl⟩
  · intro i a hi ha
    rw [hlinked.slot_tail content hi.le ha]
    exact hlinked.behind i a hi ha
  · intro hfront a ha
    have hkept := hlinked.slot_tail content le_rfl ha
    rw [← hlinked.head] at hkept
    exact hkept.trans (hfront a ha)

/-- The producer moves the tail: its element is accepted.
SOURCE: single_consumer_producer_queue.h:27 -/
theorem Linked.storeTail {element : α} {t : Fin (N + 1)}
    (hlinked : Linked q accepted popped (.written element t) c) :
    Linked { q with tail := increment t } (accepted ++ [element]) popped .idle c := by
  obtain ⟨rfl, hroom, hwritten⟩ := hlinked.producer
  have horder := hlinked.order
  rw [hlinked.tail] at hwritten
  -- an element that was not there before is the one just written
  have hcases {i : ℕ} {a : α} (ha : (accepted ++ [element])[i]? = some a) :
      accepted[i]? = some a ∨ q.buffer (slot N i) = .engaged a := by
    have hi := getElem?_lt ha
    rw [List.length_append, List.length_singleton] at hi
    obtain hlt | rfl := Nat.lt_succ_iff_lt_or_eq.mp hi
    · rw [List.getElem?_append_left hlt] at ha
      exact Or.inl ha
    · rw [List.getElem?_concat_length] at ha
      cases ha
      exact Or.inr hwritten
  refine ⟨?_, ?_, ?_, hlinked.head, ?_, ?_, trivial,
    hlinked.consumer.mono rfl ?_ (List.prefix_append accepted [element])⟩
  · rw [List.take_append_of_le_length horder]
    exact hlinked.popped_eq
  · rw [List.length_append]
    omega
  · rw [List.length_append, List.length_singleton]
    omega
  · rw [List.length_append, List.length_singleton, ← increment_slot, ← hlinked.tail]
  · intro i a hi ha
    exact (hcases ha).elim (hlinked.behind i a hi) id
  · intro hfront a ha
    refine (hcases ha).elim (hfront a) fun hslot => ?_
    show q.buffer q.head = _
    rw [hlinked.head]
    exact hslot

/-! ### The consumer -/

/-- The consumer empties the slot of the oldest element.
SOURCE: single_consumer_producer_queue.h:37-38 -/
theorem Linked.empty (hlinked : Linked q accepted popped p c) (content : Slot α)
    (hlt : popped.length < accepted.length)
    (hconsumer : ConsumerLinked (q.setSlot q.head content) accepted popped c') :
    Linked (q.setSlot q.head content) accepted popped p c' := by
  have hbounded := hlinked.bounded
  have hkept {i : ℕ} (hi : popped.length < i) (hle : i ≤ accepted.length) :
      (q.setSlot q.head content).buffer (slot N i) = q.buffer (slot N i) := by
    rw [setSlot, hlinked.head]
    exact update_slot q.buffer content (by omega) (by omega) (by omega)
  refine ⟨hlinked.popped_eq, hlinked.order, hlinked.bounded, hlinked.head, hlinked.tail, ?_,
    hlinked.producer.mono rfl ?_ le_rfl, hconsumer⟩
  · intro i a hi ha
    rw [hkept hi (getElem?_lt ha).le]
    exact hlinked.behind i a hi ha
  · rw [hlinked.tail]
    exact hkept hlt le_rfl

/-- The consumer moves the head: its element is popped.
SOURCE: single_consumer_producer_queue.h:39 -/
theorem Linked.storeHead {element : Slot α} {h : Fin (N + 1)}
    (hlinked : Linked q accepted popped p (.reset h element)) :
    Linked { q with head := increment h } accepted (popped ++ [element]) p .idle := by
  obtain ⟨rfl, a, ha, rfl⟩ := hlinked.consumer
  have hlt := getElem?_lt ha
  have hbounded := hlinked.bounded
  have hlength : (popped ++ [Slot.engaged a]).length = popped.length + 1 := by
    rw [List.length_append, List.length_singleton]
  have hhead : increment q.head = slot N (popped ++ [Slot.engaged a]).length := by
    rw [hlength, hlinked.head, increment_slot]
  refine ⟨?_, ?_, ?_, hhead, hlinked.tail, ?_, hlinked.producer.mono rfl rfl ?_, ?_⟩
  · rw [hlength, List.take_add_one, ha, List.map_append, ← hlinked.popped_eq]
    rfl
  · rw [hlength]
    omega
  · rw [hlength]
    omega
  · intro i b hi hb
    rw [hlength] at hi
    exact hlinked.behind i b (by omega) hb
  · rw [hlength]
    omega
  · intro b hb
    show q.buffer (increment q.head) = _
    rw [hlength] at hb
    rw [hhead, hlength]
    exact hlinked.behind _ b (Nat.lt_succ_self _) hb

end Steps

/-! ## Whole runs -/

section Runs

variable {s s' : State α N}

/-- The invariant on a state. -/
def StateLinked (s : State α N) : Prop :=
  Linked s.queue s.accepted s.popped s.producer s.consumer

/-- A `Push` that returns true adds its element to the sequence.
SOURCE: single_consumer_producer_queue.h:20-29 -/
theorem accepted_append {element : α} {returned : Bool}
    (h : s'.pushes = s.pushes ++ [(element, returned)]) :
    s'.accepted = s.accepted ++ if returned then [element] else [] := by
  rw [State.accepted, h, List.filterMap_append]
  cases returned with
  | false => rfl
  | true => rfl

/-- A `Pop` that returns an element adds it to those popped.
SOURCE: single_consumer_producer_queue.h:31-41 -/
theorem popped_append {element : Option (Slot α)} (h : s'.pops = s.pops ++ [element]) :
    s'.popped = s.popped ++ element.toList := by
  rw [State.popped, h, List.filterMap_append]
  cases element with
  | none => rfl
  | some element => rfl

/-- At the start the ring is empty.
SOURCE: single_consumer_producer_queue.h:11-13 -/
theorem stateLinked_init : StateLinked (init : State α N) := by
  refine ⟨rfl, le_rfl, Nat.zero_le _, rfl, rfl, ?_, trivial, ?_⟩
  · intro i a _ ha
    cases ha
  · intro a ha
    cases ha

/-- The check of `Push` fails exactly when the queue is full.
SOURCE: single_consumer_producer_queue.h:22 -/
theorem increment_tail_eq_head {q : SingleConsumerProducerQueue α N} {accepted : List α}
    {popped : List (Slot α)} {p : Producer α N} {c : Consumer α N}
    (hlinked : Linked q accepted popped p c) :
    increment q.tail = q.head ↔ accepted.length = popped.length + N := by
  have horder := hlinked.order
  have hbounded := hlinked.bounded
  rw [hlinked.tail, hlinked.head, increment_slot]
  constructor
  · intro hslot
    by_contra hroom
    have heq := slot_inj (by omega) (by omega) hslot.symm
    omega
  · intro hfull
    rw [hfull, slot_round]

/-- The check of `Pop` fails exactly when the queue is empty.
SOURCE: single_consumer_producer_queue.h:33 -/
theorem head_eq_tail {q : SingleConsumerProducerQueue α N} {accepted : List α}
    {popped : List (Slot α)} {p : Producer α N} {c : Consumer α N}
    (hlinked : Linked q accepted popped p c) :
    q.head = q.tail ↔ popped.length = accepted.length := by
  rw [hlinked.tail, hlinked.head]
  constructor
  · exact slot_inj hlinked.order hlinked.bounded
  · exact congrArg (slot N)

/-- Every step of `Push` keeps the link.
SOURCE: single_consumer_producer_queue.h:20-29 -/
theorem stateLinked_push {label : ProducerStep α} (hlinked : StateLinked s)
    (h : push s label = some s') : StateLinked s' := by
  have hproducer := hlinked.producer
  unfold push at h
  split at h
  · cases h
    exact { hlinked with producer := rfl }
  · rename_i element t hphase
    rw [hphase] at hproducer
    cases (show t = s.queue.tail from hproducer)
    split_ifs at h with hfull
    · cases h
      unfold StateLinked
      rw [accepted_append rfl]
      simp only [Bool.false_eq_true, if_false, List.append_nil]
      exact { hlinked with producer := trivial }
    · cases h
      have hroom : s.accepted.length < s.popped.length + N :=
        lt_of_le_of_ne hlinked.bounded fun heq => hfull ((increment_tail_eq_head hlinked).mpr heq)
      exact { hlinked with producer := ⟨rfl, hroom⟩ }
  · rename_i element t hphase
    rw [hphase] at hproducer
    obtain ⟨rfl, hroom⟩ := hproducer
    cases h
    exact hlinked.write .torn ⟨rfl, hroom⟩
  · rename_i element t hphase
    rw [hphase] at hproducer
    obtain ⟨rfl, hroom⟩ := hproducer
    cases h
    exact hlinked.write (.engaged element) ⟨rfl, hroom, Function.update_self ..⟩
  · rename_i element t hphase
    cases h
    unfold StateLinked
    rw [accepted_append rfl, if_pos rfl]
    unfold StateLinked at hlinked
    rw [hphase] at hlinked
    exact hlinked.storeTail
  · cases h

/-- Every step of `Pop` keeps the link.
SOURCE: single_consumer_producer_queue.h:31-41 -/
theorem stateLinked_pop {label : ConsumerStep} (hlinked : StateLinked s)
    (h : pop s label = some s') : StateLinked s' := by
  have hconsumer := hlinked.consumer
  unfold pop at h
  split at h
  · rename_i hphase
    rw [hphase] at hconsumer
    cases h
    exact { hlinked with consumer := ⟨rfl, hconsumer⟩ }
  · rename_i i hphase
    rw [hphase] at hconsumer
    obtain ⟨rfl, hfront⟩ := hconsumer
    split_ifs at h with hempty
    · cases h
      unfold StateLinked
      rw [popped_append rfl, Option.toList_none, List.append_nil]
      exact { hlinked with consumer := hfront }
    · cases h
      have hlt : s.popped.length < s.accepted.length :=
        lt_of_le_of_ne hlinked.order fun heq => hempty ((head_eq_tail hlinked).mpr heq)
      exact { hlinked with consumer := ⟨rfl, hfront, hlt⟩ }
  · rename_i i hphase
    rw [hphase] at hconsumer
    cases h
    exact { hlinked with consumer := hconsumer }
  · rename_i i hphase
    rw [hphase] at hconsumer
    obtain ⟨rfl, hfront, hlt⟩ := hconsumer
    cases h
    have helement := List.getElem?_eq_getElem hlt
    exact hlinked.empty .movedFrom hlt ⟨rfl, _, helement, hfront _ helement⟩
  · rename_i i element hphase
    rw [hphase] at hconsumer
    obtain ⟨rfl, a, ha, helement⟩ := hconsumer
    cases h
    exact hlinked.empty .torn (getElem?_lt ha) ⟨rfl, a, ha, helement⟩
  · rename_i i element hphase
    rw [hphase] at hconsumer
    obtain ⟨rfl, a, ha, helement⟩ := hconsumer
    cases h
    exact hlinked.empty .disengaged (getElem?_lt ha) ⟨rfl, a, ha, helement⟩
  · rename_i i element hphase
    cases h
    unfold StateLinked at hlinked ⊢
    rw [hphase] at hlinked
    rw [popped_append rfl]
    exact hlinked.storeHead
  · cases h

/-- Every step keeps the link.
SOURCE: single_consumer_producer_queue.h:20-41 -/
theorem stateLinked_step {label : ProducerStep α ⊕ ConsumerStep} (hlinked : StateLinked s)
    (h : step s label = some s') : StateLinked s' := by
  cases label with
  | inl label => exact stateLinked_push hlinked h
  | inr label => exact stateLinked_pop hlinked h

/-- **The ring is linked to the sequence in every state of every interleaving.**
SOURCE: single_consumer_producer_queue.h:20-41 -/
theorem stateLinked (h : Reachable s) : StateLinked s :=
  h.invariant stateLinked_init fun _ _ _ hlinked _ hstep => stateLinked_step hlinked hstep

/-! ## The queue as its callers see it -/

/-- Steps one after another, with no other step in between. -/
def runAlone (s : State α N) (labels : List (ProducerStep α ⊕ ConsumerStep)) : Option (State α N) :=
  runAll step (fun _ _ => True) s labels

/-- What its callers expect of the queue in a state: the elements come out in the order in
which they went in, each as it was put in; at most `N` are held; no slot is accessed by both
threads at once; a `Push` that runs alone returns false exactly when `N` elements are held,
and a `Pop` that runs alone returns `nullopt` exactly when none is. -/
structure BoundedFifo (s : State α N) : Prop where
  fifo : s.popped <+: s.accepted.map .engaged
  bounded : (held s).length ≤ N
  raceFree : ∀ i, ¬ (Writes s.producer i ∧ Takes s.consumer i)
  push_full : s.producer = .idle → (held s).length = N → ∀ element,
    runAlone s [.inl (.loadTail element), .inl .loadHead] =
      some { s with pushes := s.pushes ++ [(element, false)] }
  push_room : s.producer = .idle → (held s).length ≠ N → ∀ element,
    ∃ s', runAlone s [.inl (.loadTail element), .inl .loadHead, .inl .beginWrite, .inl .endWrite,
        .inl .storeTail] = some s' ∧
      s'.producer = .idle ∧ s'.pushes = s.pushes ++ [(element, true)]
  pop_empty : s.consumer = .idle → held s = [] →
    runAlone s [.inr .loadHead, .inr .loadTail] = some { s with pops := s.pops ++ [none] }
  pop_some : s.consumer = .idle → ∀ element rest, held s = element :: rest →
    ∃ s', runAlone s [.inr .loadHead, .inr .loadTail, .inr .beginTake, .inr .endTake,
        .inr .beginReset, .inr .endReset, .inr .storeHead] = some s' ∧
      s'.consumer = .idle ∧ s'.pops = s.pops ++ [some (.engaged element)]

/-- How many elements are held.
SOURCE: single_consumer_producer_queue.h:20-41 -/
theorem length_held (s : State α N) :
    (held s).length = s.accepted.length - s.popped.length := List.length_drop

/-- No more are held than the ring is for.
SOURCE: single_consumer_producer_queue.h:20-41 -/
theorem StateLinked.length_held_le (hlinked : StateLinked s) : (held s).length ≤ N := by
  have hbounded := hlinked.bounded
  rw [length_held]
  omega

/-- The ring is full when it holds that many.
SOURCE: single_consumer_producer_queue.h:22 -/
theorem StateLinked.full_iff (hlinked : StateLinked s) :
    increment s.queue.tail = s.queue.head ↔ (held s).length = N := by
  have horder := hlinked.order
  rw [increment_tail_eq_head hlinked, length_held]
  omega

/-- The ring is empty when it holds no element.
SOURCE: single_consumer_producer_queue.h:33 -/
theorem StateLinked.empty_iff (hlinked : StateLinked s) :
    s.queue.head = s.queue.tail ↔ held s = [] := by
  have horder := hlinked.order
  rw [head_eq_tail hlinked, ← List.length_eq_zero_iff, length_held]
  omega

/-- Producer and consumer are never at one slot.
SOURCE: single_consumer_producer_queue.h:26, 37-38 -/
theorem StateLinked.raceFree (hlinked : StateLinked s) (i : Fin (N + 1)) :
    ¬ (Writes s.producer i ∧ Takes s.consumer i) := by
  have hapart : s.popped.length < s.accepted.length → s.queue.head ≠ s.queue.tail :=
    fun hlt heq => absurd ((head_eq_tail hlinked).mp heq) hlt.ne
  have hproducer := hlinked.producer
  have hconsumer := hlinked.consumer
  rintro ⟨hwrites, htakes⟩
  cases hp : s.producer with
  | writing element t =>
    rw [hp] at hwrites hproducer
    obtain rfl : i = t := hwrites
    obtain ⟨rfl, -⟩ := hproducer
    cases hc : s.consumer with
    | taking h =>
      rw [hc] at htakes hconsumer
      obtain ⟨rfl, -, hlt⟩ := hconsumer
      exact hapart hlt htakes.symm
    | resetting h element =>
      rw [hc] at htakes hconsumer
      obtain ⟨rfl, a, ha, -⟩ := hconsumer
      exact hapart (getElem?_lt ha) htakes.symm
    | _ =>
      rw [hc] at htakes
      exact htakes
  | _ =>
    rw [hp] at hwrites
    exact hwrites

/-- **The ring is a bounded queue**, for every capacity and every interleaving.
SOURCE: single_consumer_producer_queue.h:9-42 -/
theorem boundedFifo (h : Reachable s) : BoundedFifo s := by
  have hlinked := stateLinked h
  refine ⟨?_, ?_, hlinked.raceFree, ?_, ?_, ?_, ?_⟩
  · rw [hlinked.popped_eq]
    exact (List.take_prefix _ _).map _
  · exact hlinked.length_held_le
  · intro hidle hfull element
    have hcheck := hlinked.full_iff.mpr hfull
    simp [runAlone, runAll, step, push, hidle, hcheck]
  · intro hidle hroom element
    have hcheck := mt hlinked.full_iff.mp hroom
    simp [runAlone, runAll, step, push, hidle, hcheck]
  · intro hidle hempty
    have hcheck := hlinked.empty_iff.mpr hempty
    simp [runAlone, runAll, step, pop, hidle, hcheck]
  · intro hidle element rest hheld
    have hcheck : s.queue.head ≠ s.queue.tail := by
      intro heq
      rw [hlinked.empty_iff.mp heq] at hheld
      cases hheld
    have hfront : s.queue.buffer s.queue.head = .engaged element := by
      have hconsumer := hlinked.consumer
      rw [hidle] at hconsumer
      apply hconsumer
      rw [← List.head?_drop]
      exact congrArg List.head? hheld
    simp [runAlone, runAll, step, pop, hidle, hcheck, hfront]

/-- A `Push` has gone through, and a `Pop` has passed its check. -/
def pushedOnce : List (ProducerStep ℕ ⊕ ConsumerStep) :=
  [.inl (.loadTail 7), .inr .loadHead, .inl .loadHead, .inl .beginWrite, .inl .endWrite,
    .inl .storeTail, .inr .loadTail]

/-- One element was pushed, and a `Pop` has found that there is one.
SOURCE: single_consumer_producer_queue.h:20-41 -/
theorem boundedFifo_pushedOnce :
    ∃ s : State ℕ 1, Reachable s ∧ held s = [7] ∧ s.consumer = .loadedTail 0 ∧ BoundedFifo s := by
  obtain ⟨s, hrun, hheld, hconsumer⟩ : ∃ s : State ℕ 1,
      runAll step (fun _ _ => True) init pushedOnce = some s ∧ held s = [7] ∧
        s.consumer = .loadedTail 0 := ⟨_, rfl, rfl, rfl⟩
  have hreach : Reachable s := reaches_of_runAll hrun
  exact ⟨s, hreach, hheld, hconsumer, boundedFifo hreach⟩

/-! ## The queue of the server's model -/

/-- A step of `Push` logs at most its own return.
SOURCE: single_consumer_producer_queue.h:20-29 -/
theorem push_log {label : ProducerStep α} (h : push s label = some s') :
    s'.pops = s.pops ∧ (s'.pushes = s.pushes ∨
      ∃ element returned, s'.pushes = s.pushes ++ [(element, returned)]) := by
  unfold push at h
  split at h
  · cases h
    exact ⟨rfl, Or.inl rfl⟩
  · split_ifs at h
    · cases h
      exact ⟨rfl, Or.inr ⟨_, _, rfl⟩⟩
    · cases h
      exact ⟨rfl, Or.inl rfl⟩
  · cases h
    exact ⟨rfl, Or.inl rfl⟩
  · cases h
    exact ⟨rfl, Or.inl rfl⟩
  · cases h
    exact ⟨rfl, Or.inr ⟨_, _, rfl⟩⟩
  · cases h

/-- A step of `Pop` logs at most its own return.
SOURCE: single_consumer_producer_queue.h:31-41 -/
theorem pop_log {label : ConsumerStep} (h : pop s label = some s') :
    s'.pushes = s.pushes ∧ (s'.pops = s.pops ∨ ∃ element, s'.pops = s.pops ++ [element]) := by
  unfold pop at h
  split at h
  · cases h
    exact ⟨rfl, Or.inl rfl⟩
  · split_ifs at h
    · cases h
      exact ⟨rfl, Or.inr ⟨_, rfl⟩⟩
    · cases h
      exact ⟨rfl, Or.inl rfl⟩
  · cases h
    exact ⟨rfl, Or.inl rfl⟩
  · cases h
    exact ⟨rfl, Or.inl rfl⟩
  · cases h
    exact ⟨rfl, Or.inl rfl⟩
  · cases h
    exact ⟨rfl, Or.inl rfl⟩
  · cases h
    exact ⟨rfl, Or.inr ⟨_, rfl⟩⟩
  · cases h

/-- A step of `Push` adds an element behind those held, or nothing.
SOURCE: single_consumer_producer_queue.h:20-29 -/
theorem held_push {label : ProducerStep α} (hlinked : StateLinked s)
    (h : push s label = some s') : held s' = held s ∨ ∃ a, held s' = held s ++ [a] := by
  obtain ⟨hpops, hpushes⟩ := push_log h
  have hpopped : s'.popped = s.popped := congrArg (List.filterMap id) hpops
  unfold held
  rw [hpopped]
  obtain hsame | ⟨element, returned, hone⟩ := hpushes
  · rw [State.accepted, hsame]
    exact Or.inl rfl
  · rw [accepted_append hone, List.drop_append_of_le_length hlinked.order]
    cases returned with
    | false => exact Or.inl (List.append_nil _)
    | true => exact Or.inr ⟨element, rfl⟩

/-- A step of `Pop` takes the first of those held, or nothing.
SOURCE: single_consumer_producer_queue.h:31-41 -/
theorem held_pop {label : ConsumerStep} (hlinked : StateLinked s) (h : pop s label = some s') :
    held s' = held s ∨ ∃ a, held s = a :: held s' := by
  obtain ⟨hpushes, hpops⟩ := pop_log h
  have haccepted : s'.accepted = s.accepted := by rw [State.accepted, hpushes]; rfl
  have horder := (stateLinked_pop hlinked h).order
  unfold held
  rw [haccepted] at horder ⊢
  obtain hsame | ⟨element, hone⟩ := hpops
  · rw [State.popped, hsame]
    exact Or.inl rfl
  · rw [popped_append hone] at horder ⊢
    cases element with
    | none =>
      rw [Option.toList_none, List.append_nil]
      exact Or.inl rfl
    | some element =>
      rw [Option.toList_some, List.length_append, List.length_singleton] at horder ⊢
      exact Or.inr ⟨_, List.drop_eq_getElem_cons horder⟩

/-- **The ring refines a queue with atomic operations**: a step does nothing to the elements
held, or it is the one in which a `Push` or a `Pop` takes effect.
SOURCE: single_consumer_producer_queue.h:20-41 -/
theorem step_refines {label : ProducerStep α ⊕ ConsumerStep} {queue : BoundedQueue α N}
    (hreach : Reachable s) (hqueue : queue.items = held s) (h : step s label = some s') :
    ∃ queue', queue'.items = held s' ∧
      (queue' = queue ∨ ∃ a, queue.push a = some queue' ∨ queue.pop = some (a, queue')) := by
  have hlinked := stateLinked hreach
  have hbounded : (held s').length ≤ N := (stateLinked_step hlinked h).length_held_le
  cases label with
  | inl label =>
    obtain hsame | ⟨a, hpush⟩ := held_push hlinked h
    · exact ⟨queue, hqueue.trans hsame.symm, Or.inl rfl⟩
    · rw [hpush, List.length_append, List.length_singleton, ← hqueue] at hbounded
      obtain ⟨queue', hqueue', hitems⟩ := queue.exists_push a hbounded
      exact ⟨queue', by rw [hitems, hpush, hqueue], Or.inr ⟨a, Or.inl hqueue'⟩⟩
  | inr label =>
    obtain hsame | ⟨a, hpop⟩ := held_pop hlinked h
    · exact ⟨queue, hqueue.trans hsame.symm, Or.inl rfl⟩
    · obtain ⟨queue', hqueue', hitems⟩ := queue.exists_pop (hqueue.trans hpop)
      exact ⟨queue', hitems, Or.inr ⟨a, Or.inr hqueue'⟩⟩

end Runs

end MyRedis.Analysis

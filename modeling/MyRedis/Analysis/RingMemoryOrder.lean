import MyRedis.Analysis.RingFifo
import MyRedis.Model.QueueMemoryOrder
import Mathlib.Data.Nat.Count

/-!
# The ring needs no more than its memory orders

A thread may read an old value of the other one's index.  What it has read is still enough: the
producer that knows of `h` pops has room if fewer than `N` elements were pushed since, and the
slot it writes to was last accessed by one of these `h` pops, all of which happen before; the
consumer that knows of `t` pushes takes the element of one of them.  So no two accesses to a slot
race, no element is lost, duplicated or reordered, and the queue holds at most `N`
(`ring_race_free`).
-/

set_option autoImplicit false

namespace MyRedis.Analysis

open MyRedis.Model MyRedis.Lib
open MyRedis.Model.QueueMemoryOrder
open MyRedis.Model.SingleConsumerProducerQueue (increment)

namespace RingOrder

variable {α : Type} {N : ℕ}

/-! ## Visits of a slot -/

/-- How many of the first `k` positions are in a slot. -/
def visits (N : ℕ) (x : Fin (N + 1)) (k : ℕ) : ℕ := Nat.count (fun i => slot N i = x) k

section Visits

variable {x : Fin (N + 1)} {k k' : ℕ}

/-- A position is one more visit of its own slot.
SOURCE: single_consumer_producer_queue.h:20-41 -/
theorem visits_succ_self : visits N (slot N k) (k + 1) = visits N (slot N k) k + 1 := by
  rw [visits, Nat.count_succ, if_pos rfl]
  rfl

/-- A position is no visit of another slot.
SOURCE: single_consumer_producer_queue.h:20-41 -/
theorem visits_succ_of_ne (h : slot N k ≠ x) : visits N x (k + 1) = visits N x k := by
  rw [visits, Nat.count_succ, if_neg h]
  rfl

/-- No position in between is in the slot.
SOURCE: single_consumer_producer_queue.h:20-41 -/
theorem visits_eq (hle : k ≤ k') (h : ∀ i, k ≤ i → i < k' → slot N i ≠ x) :
    visits N x k' = visits N x k := by
  induction k', hle using Nat.le_induction with
  | base => rfl
  | succ k' hle ih =>
    rw [visits_succ_of_ne (h k' hle (Nat.lt_succ_self k')),
      ih fun i hi hlt => h i hi (Nat.lt_succ_of_lt hlt)]

end Visits

/-- The accesses to a slot before the `k`-th store of a thread: one for each push and two for each
pop. -/
def progress : Side → ℕ → Fin (N + 1) → ℕ
  | .producer, k, x => visits N x k
  | .consumer, k, x => 2 * visits N x k

/-! ## The invariant -/

section Linking

variable (m : Memory α N) (accepted : List α) (popped : List (Slot α))

/-- How many pops the producer knows of, and how many pushes the consumer. -/
def knownPops : ℕ := (m.views .producer).stores .consumer

def knownPushes : ℕ := (m.views .consumer).stores .producer

/-- What holds while the producer is in this phase. -/
def ProducerOk : Producer α N → Prop
  | .idle => ∀ x, m.accesses x .producer = visits N x accepted.length
  | .loadedTail _ t =>
    t = slot N accepted.length ∧ ∀ x, m.accesses x .producer = visits N x accepted.length
  | .loadedHead _ t => t = slot N accepted.length ∧ accepted.length < knownPops m + N ∧
      ∀ x, m.accesses x .producer = visits N x accepted.length
  | .written element t => t = slot N accepted.length ∧ accepted.length < knownPops m + N ∧
      m.cells t = .engaged element ∧
      ∀ x, m.accesses x .producer = visits N x (accepted.length + 1)

/-- The elements from this position on are in their slots. -/
def Stored (start : ℕ) : Prop :=
  ∀ i a, start ≤ i → accepted[i]? = some a → m.cells (slot N i) = .engaged a

/-- The consumer has moved the oldest element out of its slot. -/
def Taken (h : Fin (N + 1)) (element : Slot α) : Prop :=
  h = slot N popped.length ∧ popped.length < knownPushes m ∧
    ∃ a, accepted[popped.length]? = some a ∧ element = .engaged a

/-- What holds while the consumer is in this phase. -/
def ConsumerOk : Consumer α N → Prop
  | .idle => Stored m accepted popped.length ∧
      ∀ x, m.accesses x .consumer = 2 * visits N x popped.length
  | .loadedHead h => h = slot N popped.length ∧ Stored m accepted popped.length ∧
      ∀ x, m.accesses x .consumer = 2 * visits N x popped.length
  | .loadedTail h => h = slot N popped.length ∧ popped.length < knownPushes m ∧
      Stored m accepted popped.length ∧
      ∀ x, m.accesses x .consumer = 2 * visits N x popped.length
  | .taken h element => Taken m accepted popped h element ∧
      Stored m accepted (popped.length + 1) ∧
      ∀ x, m.accesses x .consumer = visits N x popped.length + visits N x (popped.length + 1)
  | .reset h element => Taken m accepted popped h element ∧
      Stored m accepted (popped.length + 1) ∧
      ∀ x, m.accesses x .consumer = 2 * visits N x (popped.length + 1)

/-- The memory and the sequence of accepted elements. -/
structure InOrder (producer : Producer α N) (consumer : Consumer α N) : Prop where
  synced : Synced (fun _ k => slot N k) progress m
  raced : m.raced = false
  pushCount : (m.views .producer).stores .producer = accepted.length
  popCount : (m.views .consumer).stores .consumer = popped.length
  popped_eq : popped = (accepted.take popped.length).map .engaged
  order : popped.length ≤ knownPushes m
  bounded : accepted.length ≤ knownPops m + N
  producer : ProducerOk m accepted producer
  consumer : ConsumerOk m accepted popped consumer

end Linking

section Facts

variable {m m' : Memory α N} {accepted : List α} {popped : List (Slot α)} {p p' : Producer α N}
  {c c' : Consumer α N}

/-- Neither knows of more than there is.
SOURCE: single_consumer_producer_queue.h:20-41 -/
theorem InOrder.window (h : InOrder m accepted popped p c) :
    knownPops m ≤ popped.length ∧ knownPushes m ≤ accepted.length := by
  have hpops := h.synced.le_own .producer .consumer
  have hpushes := h.synced.le_own .consumer .producer
  rw [h.popCount] at hpops
  rw [h.pushCount] at hpushes
  exact ⟨hpops, hpushes⟩

/-- Positions less than a round apart are in different slots.
SOURCE: single_consumer_producer_queue.h:20-41 -/
theorem slot_ne {i j : ℕ} (hlt : i < j) (hnear : j ≤ i + N) : slot N i ≠ slot N j := fun heq =>
  Nat.ne_of_lt hlt (slot_inj (Nat.le_of_lt hlt) hnear heq)

/-- **What the producer knows of the slot it writes to**: all accesses of the consumer.
SOURCE: single_consumer_producer_queue.h:22, 26, 39 -/
theorem InOrder.known_consumer (h : InOrder m accepted popped p c)
    (hroom : accepted.length < knownPops m + N) :
    m.accesses (slot N accepted.length) .consumer ≤
      (m.views .producer).accesses (slot N accepted.length) .consumer := by
  obtain ⟨hpops, hpushes⟩ := h.window
  have horder := h.order
  have hconsistent : 2 * visits N (slot N accepted.length) (knownPops m) ≤
      (m.views .producer).accesses (slot N accepted.length) .consumer :=
    h.synced.known .producer .consumer _
  have hsame : visits N (slot N accepted.length) popped.length =
      visits N (slot N accepted.length) (knownPops m) :=
    visits_eq hpops fun i hi hlt => slot_ne (by omega) (by omega)
  have hnext (hlt : popped.length < knownPushes m) :
      visits N (slot N accepted.length) (popped.length + 1) =
        visits N (slot N accepted.length) popped.length :=
    visits_succ_of_ne (slot_ne (by omega) (by omega))
  have hconsumer := h.consumer
  cases c with
  | idle => rw [hconsumer.2, hsame]; exact hconsistent
  | loadedHead => rw [hconsumer.2.2, hsame]; exact hconsistent
  | loadedTail => rw [hconsumer.2.2.2, hsame]; exact hconsistent
  | taken =>
    rw [hconsumer.2.2, hnext hconsumer.1.2.1, hsame]
    omega
  | reset =>
    rw [hconsumer.2.2, hnext hconsumer.1.2.1, hsame]
    exact hconsistent

/-- **What the consumer knows of the slot it takes from**: all accesses of the producer.
SOURCE: single_consumer_producer_queue.h:27, 33, 37 -/
theorem InOrder.known_producer (h : InOrder m accepted popped p c)
    (hlt : popped.length < knownPushes m) :
    m.accesses (slot N popped.length) .producer ≤
      (m.views .consumer).accesses (slot N popped.length) .producer := by
  obtain ⟨hpops, hpushes⟩ := h.window
  have hbounded := h.bounded
  have hconsistent : visits N (slot N popped.length) (knownPushes m) ≤
      (m.views .consumer).accesses (slot N popped.length) .producer :=
    h.synced.known .consumer .producer _
  have hsame : visits N (slot N popped.length) accepted.length =
      visits N (slot N popped.length) (knownPushes m) :=
    visits_eq hpushes fun i hi hi' => (slot_ne (by omega) (by omega)).symm
  have hproducer := h.producer
  cases p with
  | idle => rw [hproducer, hsame]; exact hconsistent
  | loadedTail => rw [hproducer.2, hsame]; exact hconsistent
  | loadedHead => rw [hproducer.2.2, hsame]; exact hconsistent
  | written =>
    have hnext : visits N (slot N popped.length) (accepted.length + 1) =
        visits N (slot N popped.length) accepted.length :=
      visits_succ_of_ne (slot_ne (by omega) (by omega)).symm
    rw [hproducer.2.2.2, hnext, hsame]
    exact hconsistent

/-- What the consumer has depends on its view, the cells of the elements and its accesses.
SOURCE: single_consumer_producer_queue.h:20-41 -/
theorem ConsumerOk.congr {accepted' : List α} (h : ConsumerOk m accepted popped c)
    (hknown : knownPushes m' = knownPushes m)
    (hstored : ∀ start, popped.length ≤ start → Stored m accepted start →
      Stored m' accepted' start)
    (hmore : accepted <+: accepted')
    (haccesses : ∀ x, m'.accesses x .consumer = m.accesses x .consumer) :
    ConsumerOk m' accepted' popped c := by
  have htaken {x : Fin (N + 1)} {element : Slot α} (htaken : Taken m accepted popped x element) :
      Taken m' accepted' popped x element := by
    obtain ⟨hx, hlt, a, ha, helement⟩ := htaken
    refine ⟨hx, hknown ▸ hlt, a, ?_, helement⟩
    obtain ⟨more, rfl⟩ := hmore
    rw [List.getElem?_append_left (getElem?_lt ha)]
    exact ha
  cases c with
  | idle => exact ⟨hstored _ le_rfl h.1, fun x => (haccesses x).trans (h.2 x)⟩
  | loadedHead => exact ⟨h.1, hstored _ le_rfl h.2.1, fun x => (haccesses x).trans (h.2.2 x)⟩
  | loadedTail =>
    exact ⟨h.1, hknown ▸ h.2.1, hstored _ le_rfl h.2.2.1,
      fun x => (haccesses x).trans (h.2.2.2 x)⟩
  | taken | reset =>
    exact ⟨htaken h.1, hstored _ (Nat.le_succ _) h.2.1, fun x => (haccesses x).trans (h.2.2 x)⟩

/-- What the producer has depends on its view, the cell it has written and its accesses.
SOURCE: single_consumer_producer_queue.h:20-41 -/
theorem ProducerOk.congr (h : ProducerOk m accepted p) (hknown : knownPops m' = knownPops m)
    (hcell : accepted.length < knownPops m + N →
      m'.cells (slot N accepted.length) = m.cells (slot N accepted.length))
    (haccesses : ∀ x, m'.accesses x .producer = m.accesses x .producer) :
    ProducerOk m' accepted p := by
  cases p with
  | idle => exact fun x => (haccesses x).trans (h x)
  | loadedTail => exact ⟨h.1, fun x => (haccesses x).trans (h.2 x)⟩
  | loadedHead => exact ⟨h.1, hknown ▸ h.2.1, fun x => (haccesses x).trans (h.2.2 x)⟩
  | written element t =>
    obtain ⟨rfl, hroom, hwritten, hvisits⟩ := h
    exact ⟨rfl, hknown ▸ hroom, (hcell hroom).trans hwritten,
      fun x => (haccesses x).trans (hvisits x)⟩

end Facts

/-! ## The steps of `Push` -/

section Steps

variable {m m' : Memory α N} {accepted : List α} {popped : List (Slot α)} {p p' : Producer α N}
  {c c' : Consumer α N}

/-- The producer acquires: it knows of more pops.
SOURCE: single_consumer_producer_queue.h:22 -/
theorem InOrder.acquireHead (h : InOrder m accepted popped p c) {k : ℕ} {v : Fin (N + 1)}
    (hload : m.loadAcquire .producer .consumer k = some (v, m'))
    (hproducer : knownPops m' = k → k ≤ accepted.length → accepted.length ≤ k + N →
      v = slot N k → (∀ x, m'.accesses x .producer = m.accesses x .producer) →
      ProducerOk m' accepted p') :
    InOrder m' accepted popped p' c := by
  obtain ⟨hvalue, hsynced, hacquired⟩ := h.synced.loadAcquire hload
  have hconsumer : m'.views .consumer = m.views .consumer := hacquired.others .consumer (by decide)
  have hknown : knownPops m' = k := hacquired.stores
  have hpushes : knownPushes m' = knownPushes m := by rw [knownPushes, hconsumer]; rfl
  obtain ⟨-, hpushesLe⟩ := h.window
  have hleast : knownPops m ≤ k := hacquired.least
  have hmost : k ≤ popped.length := hacquired.most.trans_eq h.popCount
  have horder := h.order
  have hbounded := h.bounded
  have haccesses (x : Fin (N + 1)) (side : Side) : m'.accesses x side = m.accesses x side := by
    rw [hacquired.accesses]
  refine ⟨hsynced, hacquired.raced.trans h.raced, hacquired.own.trans h.pushCount, ?_, h.popped_eq,
    ?_, ?_, hproducer hknown (by omega) (by omega) hvalue fun x => haccesses x .producer, ?_⟩
  · rw [hconsumer]
    exact h.popCount
  · rw [hpushes]
    exact horder
  · rw [hknown]
    omega
  · refine h.consumer.congr hpushes (fun start _ hstored i a hi ha => ?_) List.prefix_rfl
      fun x => haccesses x .consumer
    rw [hacquired.cells]
    exact hstored i a hi ha

/-- The producer reads some head that it may read: its `Push` fails, or goes on.
SOURCE: single_consumer_producer_queue.h:22 -/
theorem InOrder.loadHead (h : InOrder m accepted popped p c) {k : ℕ} {v t : Fin (N + 1)}
    {element : α} (hphase : p = .loadedTail element t)
    (hload : m.loadAcquire .producer .consumer k = some (v, m')) :
    (increment t = v → InOrder m' accepted popped .idle c) ∧
      (increment t ≠ v → InOrder m' accepted popped (.loadedHead element t) c) := by
  subst hphase
  obtain ⟨ht, hvisits⟩ := h.producer
  refine ⟨fun _ => h.acquireHead hload fun _ _ _ _ haccesses x => ?_,
    fun hne => h.acquireHead hload fun hknown _ hbound hv haccesses => ⟨ht, ?_, fun x => ?_⟩⟩
  · exact (haccesses x).trans (hvisits x)
  · -- a whole round of elements would bring the indices together
    rw [hknown]
    refine lt_of_le_of_ne hbound fun heq => hne ?_
    rw [ht, increment_slot, hv, heq]
    exact slot_round
  · exact (haccesses x).trans (hvisits x)

/-- A `Push` that fails has read of all but `N` of its elements that they were popped.
SOURCE: single_consumer_producer_queue.h:22-24 -/
theorem InOrder.refused_push (h : InOrder m accepted popped p c) {k : ℕ} {v t : Fin (N + 1)}
    {element : α} (hphase : p = .loadedTail element t)
    (hload : m.loadAcquire .producer .consumer k = some (v, m')) (hfull : increment t = v) :
    accepted.length = k + N := by
  subst hphase
  obtain ⟨ht, -⟩ := h.producer
  obtain ⟨hvalue, -, hacquired⟩ := h.synced.loadAcquire hload
  obtain ⟨-, hpushes⟩ := h.window
  have hleast : knownPops m ≤ k := hacquired.least
  have hmost : k ≤ popped.length := hacquired.most.trans_eq h.popCount
  have horder := h.order
  have hbounded := h.bounded
  have hslots : slot N k = slot N (accepted.length + 1) := by
    rw [← increment_slot, ← ht, hfull, hvalue]
  by_contra hne
  have heq := slot_inj (by omega) (by omega) hslots
  omega

/-- An access to another slot leaves the elements as they are.
SOURCE: single_consumer_producer_queue.h:20-41 -/
theorem stored_access {i : ℕ} {side : Side} {content : Slot α} {start : ℕ}
    (h : Stored m accepted start)
    (hne : ∀ j, start ≤ j → j < accepted.length → slot N j ≠ slot N i) :
    Stored (m.access side (slot N i) content) accepted start := by
  intro j a hj ha
  have hcell : (m.access side (slot N i) content).cells (slot N j) = m.cells (slot N j) :=
    Function.update_of_ne (hne j hj (getElem?_lt ha)) _ _
  rw [hcell]
  exact h j a hj ha

/-- An access counts for its own side and slot only.
SOURCE: single_consumer_producer_queue.h:20-41 -/
theorem access_accesses_of_ne {side side' : Side} {x x' : Fin (N + 1)} {content : Slot α}
    (hne : x' ≠ x ∨ side' ≠ side) :
    (m.access side x content).accesses x' side' = m.accesses x' side' :=
  countAccess_of_ne m.accesses hne

/-- An access counts once for its own side and slot.
SOURCE: single_consumer_producer_queue.h:20-41 -/
theorem access_accesses_self {side : Side} {x : Fin (N + 1)} {content : Slot α} :
    (m.access side x content).accesses x side = m.accesses x side + 1 :=
  countAccess_self m.accesses x side

/-- An access tells the producer of no more pops.
SOURCE: single_consumer_producer_queue.h:20-41 -/
theorem knownPops_access {side : Side} {x : Fin (N + 1)} {content : Slot α} :
    knownPops (m.access side x content) = knownPops m := access_stores _ _ _ _ _

/-- An access tells the consumer of no more pushes.
SOURCE: single_consumer_producer_queue.h:20-41 -/
theorem knownPushes_access {side : Side} {x : Fin (N + 1)} {content : Slot α} :
    knownPushes (m.access side x content) = knownPushes m := access_stores _ _ _ _ _

/-- The producer writes its element, with all accesses to the slot known to it.
SOURCE: single_consumer_producer_queue.h:26 -/
theorem InOrder.write (h : InOrder m accepted popped p c) {t : Fin (N + 1)} {element : α}
    (hphase : p = .loadedHead element t) :
    InOrder (m.access .producer t (.engaged element)) accepted popped (.written element t) c := by
  subst hphase
  obtain ⟨rfl, hroom, hvisits⟩ := h.producer
  obtain ⟨hpops, hpushes⟩ := h.window
  refine ⟨h.synced.access _ _ _, raced_access h.raced ?_ _, ?_, ?_, h.popped_eq, ?_, ?_, ?_, ?_⟩
  · intro side hside
    cases side with
    | producer => exact absurd rfl hside
    | consumer => exact h.known_consumer hroom
  · rw [access_stores]
    exact h.pushCount
  · rw [access_stores]
    exact h.popCount
  · rw [knownPushes_access]
    exact h.order
  · rw [knownPops_access]
    exact h.bounded
  · refine ⟨rfl, by rw [knownPops_access]; exact hroom, Function.update_self _ _ _, fun x => ?_⟩
    by_cases hx : x = slot N accepted.length
    · subst hx
      rw [access_accesses_self, hvisits, visits_succ_self]
    · rw [access_accesses_of_ne (Or.inl hx), hvisits, visits_succ_of_ne (Ne.symm hx)]
  · refine h.consumer.congr knownPushes_access (fun start hstart hstored => ?_) List.prefix_rfl
      fun x => access_accesses_of_ne (Or.inr (by decide))
    exact stored_access hstored fun j hj hlt => slot_ne hlt (by omega)

/-- A release does not change what the other side knows. -/
theorem storeRelease_other {side side' : Side} {v : Fin (N + 1)} (hne : side' ≠ side) :
    (m.storeRelease side v).views side' = m.views side' := Function.update_of_ne hne _ _

/-- A release does not change what its side knows of the other. -/
theorem storeRelease_stores {side side' : Side} {v : Fin (N + 1)} (hne : side' ≠ side) :
    ((m.storeRelease side v).views side).stores side' = (m.views side).stores side' := by
  rw [WeakMemory.storeRelease]
  simp only [Function.update_self, WeakMemory.readView, Function.update_of_ne hne]

/-- A side knows its own stores. -/
theorem storeRelease_own {side : Side} {v : Fin (N + 1)} :
    ((m.storeRelease side v).views side).stores side = (m.messages side).length := by
  rw [WeakMemory.storeRelease]
  simp only [Function.update_self, WeakMemory.readView]

/-- The producer releases the tail: its element is accepted.
SOURCE: single_consumer_producer_queue.h:27 -/
theorem InOrder.storeTail (h : InOrder m accepted popped p c) {t : Fin (N + 1)} {element : α}
    (hphase : p = .written element t) :
    InOrder (m.storeRelease .producer (increment t)) (accepted ++ [element]) popped .idle c := by
  subst hphase
  obtain ⟨rfl, hroom, hwritten, hvisits⟩ := h.producer
  obtain ⟨hpops, hpushes⟩ := h.window
  have horder := h.order
  have hlength : (accepted ++ [element]).length = accepted.length + 1 := List.length_append
  have hsynced := h.synced.storeRelease h.pushCount fun x => (hvisits x).ge
  rw [increment_slot]
  have hknownPops : knownPops (m.storeRelease .producer (slot N (accepted.length + 1))) =
      knownPops m := storeRelease_stores (by decide)
  have hconsumer : (m.storeRelease .producer (slot N (accepted.length + 1))).views .consumer =
      m.views .consumer := storeRelease_other (by decide)
  have hknownPushes : knownPushes (m.storeRelease .producer (slot N (accepted.length + 1))) =
      knownPushes m := by rw [knownPushes, hconsumer]; rfl
  refine ⟨hsynced, h.raced, ?_, ?_, ?_, ?_, ?_, ?_, ?_⟩
  · rw [storeRelease_own, h.synced.own, h.pushCount, hlength]
  · rw [hconsumer]
    exact h.popCount
  · rw [List.take_append_of_le_length (by omega)]
    exact h.popped_eq
  · rw [hknownPushes]
    exact horder
  · rw [hknownPops, hlength]
    omega
  · intro x
    rw [hlength]
    exact hvisits x
  · refine h.consumer.congr hknownPushes (fun start _ hstored i a hi ha => ?_)
      (List.prefix_append _ _) fun _ => rfl
    rw [List.getElem?_append] at ha
    split_ifs at ha with hlt
    · exact hstored i a hi ha
    · obtain ⟨hindex, rfl⟩ := List.getElem?_eq_some_iff.mp ha
      rw [List.length_singleton] at hindex
      obtain rfl : i = accepted.length := by omega
      simp only [Nat.sub_self, List.getElem_cons_zero]
      exact hwritten

/-! ## The steps of `Pop` -/

/-- The consumer reads some tail that it may read: its `Pop` fails, or goes on.
SOURCE: single_consumer_producer_queue.h:33 -/
theorem InOrder.loadTail (h : InOrder m accepted popped p c) {k : ℕ} {v x : Fin (N + 1)}
    (hphase : c = .loadedHead x)
    (hload : m.loadAcquire .consumer .producer k = some (v, m')) :
    (x = v → InOrder m' accepted popped p .idle) ∧
      (x ≠ v → InOrder m' accepted popped p (.loadedTail x)) := by
  subst hphase
  obtain ⟨hx, hstored, hvisits⟩ := h.consumer
  obtain ⟨hvalue, hsynced, hacquired⟩ := h.synced.loadAcquire hload
  have hproducer : m'.views .producer = m.views .producer := hacquired.others .producer (by decide)
  have hknown : knownPushes m' = k := hacquired.stores
  have hpops : knownPops m' = knownPops m := by rw [knownPops, hproducer]; rfl
  have hleast : knownPushes m ≤ k := hacquired.least
  have horder := h.order
  have hstored' : Stored m' accepted popped.length := by
    intro i a hi ha
    rw [hacquired.cells]
    exact hstored i a hi ha
  have hvisits' (x : Fin (N + 1)) :
      m'.accesses x .consumer = 2 * visits N x popped.length := by
    rw [hacquired.accesses]
    exact hvisits x
  have hrest {c' : Consumer α N} (hconsumer : ConsumerOk m' accepted popped c') :
      InOrder m' accepted popped p c' := by
    refine ⟨hsynced, hacquired.raced.trans h.raced, ?_, hacquired.own.trans h.popCount,
      h.popped_eq, ?_, ?_, ?_, hconsumer⟩
    · rw [hproducer]
      exact h.pushCount
    · rw [hknown]
      omega
    · rw [hpops]
      exact h.bounded
    · exact h.producer.congr hpops (fun _ => by rw [hacquired.cells])
        fun x => by rw [hacquired.accesses]
  refine ⟨fun _ => hrest ⟨hstored', hvisits'⟩, fun hne => hrest ⟨hx, ?_, hstored', hvisits'⟩⟩
  rw [hknown]
  refine lt_of_le_of_ne (by omega) fun heq => hne ?_
  rw [hx, heq, hvalue]

/-- A `Pop` that fails has popped all elements it has read of.
SOURCE: single_consumer_producer_queue.h:33-35 -/
theorem InOrder.refused_pop (h : InOrder m accepted popped p c) {k : ℕ} {v x : Fin (N + 1)}
    (hphase : c = .loadedHead x)
    (hload : m.loadAcquire .consumer .producer k = some (v, m')) (hempty : x = v) :
    popped.length = k := by
  subst hphase
  obtain ⟨hx, -⟩ := h.consumer
  obtain ⟨hvalue, -, hacquired⟩ := h.synced.loadAcquire hload
  obtain ⟨hpops, -⟩ := h.window
  have hleast : knownPushes m ≤ k := hacquired.least
  have hmost : k ≤ accepted.length := hacquired.most.trans_eq h.pushCount
  have horder := h.order
  have hbounded := h.bounded
  have hslots : slot N popped.length = slot N k := by rw [← hx, hempty, hvalue]
  exact slot_inj (by omega) (by omega) hslots

/-- The consumer accesses the slot of the oldest element.
SOURCE: single_consumer_producer_queue.h:37-38 -/
theorem InOrder.accessFront (h : InOrder m accepted popped p c)
    (hlt : popped.length < knownPushes m) (content : Slot α)
    (hconsumer : ConsumerOk (m.access .consumer (slot N popped.length) content) accepted popped
      c') :
    InOrder (m.access .consumer (slot N popped.length) content) accepted popped p c' := by
  obtain ⟨hpops, hpushes⟩ := h.window
  have hbounded := h.bounded
  refine ⟨h.synced.access _ _ _, raced_access h.raced ?_ _, ?_, ?_, h.popped_eq, ?_, ?_, ?_,
    hconsumer⟩
  · intro side hside
    cases side with
    | producer => exact h.known_producer hlt
    | consumer => exact absurd rfl hside
  · rw [access_stores]
    exact h.pushCount
  · rw [access_stores]
    exact h.popCount
  · rw [knownPushes_access]
    exact h.order
  · rw [knownPops_access]
    exact hbounded
  · refine h.producer.congr knownPops_access (fun hroom => ?_)
      fun x => access_accesses_of_ne (Or.inr (by decide))
    exact Function.update_of_ne (slot_ne (by omega) (by omega)).symm _ _

/-- The other elements stay in their slots.
SOURCE: single_consumer_producer_queue.h:37-38 -/
theorem InOrder.stored_front (h : InOrder m accepted popped p c) {content : Slot α}
    (hstored : Stored m accepted (popped.length + 1)) :
    Stored (m.access .consumer (slot N popped.length) content) accepted (popped.length + 1) := by
  have hbounded := h.bounded
  obtain ⟨hpops, -⟩ := h.window
  exact stored_access hstored fun j hj hlt => (slot_ne (by omega) (by omega)).symm

/-- The consumer moves the oldest element out of its slot.
SOURCE: single_consumer_producer_queue.h:37 -/
theorem InOrder.take (h : InOrder m accepted popped p c) {x : Fin (N + 1)}
    (hphase : c = .loadedTail x) :
    InOrder (m.access .consumer x .movedFrom) accepted popped p (.taken x (m.cells x)) := by
  subst hphase
  obtain ⟨rfl, hlt, hstored, hvisits⟩ := h.consumer
  obtain ⟨-, hpushes⟩ := h.window
  have hget := List.getElem?_eq_getElem (hlt.trans_le hpushes)
  refine h.accessFront hlt _
    ⟨⟨rfl, hlt.trans_eq knownPushes_access.symm, _, hget, hstored _ _ le_rfl hget⟩,
    h.stored_front fun i a hi ha => hstored i a (by omega) ha, fun y => ?_⟩
  by_cases hy : y = slot N popped.length
  · subst hy
    rw [access_accesses_self, hvisits, visits_succ_self]
    omega
  · rw [access_accesses_of_ne (Or.inl hy), hvisits, visits_succ_of_ne (Ne.symm hy)]
    omega

/-- The consumer empties the slot.
SOURCE: single_consumer_producer_queue.h:38 -/
theorem InOrder.reset (h : InOrder m accepted popped p c) {x : Fin (N + 1)} {element : Slot α}
    (hphase : c = .taken x element) :
    InOrder (m.access .consumer x .disengaged) accepted popped p (.reset x element) := by
  subst hphase
  obtain ⟨⟨rfl, hlt, htaken⟩, hstored, hvisits⟩ := h.consumer
  refine h.accessFront hlt _ ⟨⟨rfl, hlt.trans_eq knownPushes_access.symm, htaken⟩,
    h.stored_front hstored, fun y => ?_⟩
  by_cases hy : y = slot N popped.length
  · subst hy
    rw [access_accesses_self, hvisits, visits_succ_self]
    omega
  · rw [access_accesses_of_ne (Or.inl hy), hvisits, visits_succ_of_ne (Ne.symm hy)]
    omega

/-- The consumer releases the head: the element is popped.
SOURCE: single_consumer_producer_queue.h:39 -/
theorem InOrder.storeHead (h : InOrder m accepted popped p c) {x : Fin (N + 1)} {element : Slot α}
    (hphase : c = .reset x element) :
    InOrder (m.storeRelease .consumer (increment x)) accepted (popped ++ [element]) p .idle := by
  subst hphase
  obtain ⟨⟨rfl, hlt, a, ha, rfl⟩, hstored, hvisits⟩ := h.consumer
  have hlength : (popped ++ [Slot.engaged a]).length = popped.length + 1 := List.length_append
  have hsynced := h.synced.storeRelease h.popCount fun x => (hvisits x).ge
  rw [increment_slot]
  have hknownPushes : knownPushes (m.storeRelease .consumer (slot N (popped.length + 1))) =
      knownPushes m := storeRelease_stores (by decide)
  have hproducer : (m.storeRelease .consumer (slot N (popped.length + 1))).views .producer =
      m.views .producer := storeRelease_other (by decide)
  have hknownPops : knownPops (m.storeRelease .consumer (slot N (popped.length + 1))) =
      knownPops m := by rw [knownPops, hproducer]; rfl
  refine ⟨hsynced, h.raced, ?_, ?_, ?_, ?_, ?_, ?_, ?_⟩
  · rw [hproducer]
    exact h.pushCount
  · rw [storeRelease_own, h.synced.own, h.popCount, hlength]
  · rw [hlength, List.take_add_one, ha, Option.toList_some, List.map_append, ← h.popped_eq]
    rfl
  · rw [hknownPushes, hlength]
    exact hlt
  · rw [hknownPops]
    exact h.bounded
  · exact h.producer.congr hknownPops (fun _ => rfl) fun _ => rfl
  · rw [ConsumerOk, hlength]
    exact ⟨hstored, hvisits⟩

end Steps

/-! ## Every run -/

section Runs

variable {s s' : State α N}

def InOrderState (s : State α N) : Prop :=
  InOrder s.memory s.accepted s.popped s.producer s.consumer

/-- At the start nothing has been written or read.
SOURCE: single_consumer_producer_queue.h:11-13 -/
theorem inOrderState_init : InOrderState (init : State α N) where
  synced := by
    refine ⟨fun _ => rfl, fun _ side x => ?_, fun _ _ => Nat.zero_lt_one, ?_, fun _ _ => le_rfl⟩
    · cases side with
      | producer => exact le_rfl
      | consumer => exact le_rfl
    · intro i k message hmessage
      obtain ⟨hindex, rfl⟩ := List.getElem?_eq_some_iff.mp hmessage
      obtain rfl : k = 0 := Nat.lt_one_iff.mp hindex
      refine ⟨rfl, rfl, fun side x => ?_, fun _ => Nat.zero_lt_one⟩
      cases side with
      | producer => exact le_rfl
      | consumer => exact le_rfl
  raced := rfl
  pushCount := rfl
  popCount := rfl
  popped_eq := rfl
  order := le_rfl
  bounded := Nat.zero_le _
  producer := fun _ => rfl
  consumer := ⟨fun i a _ ha => by simp [State.accepted, init] at ha, fun _ => rfl⟩

/-- A `Push` that returns true adds its element to those accepted.
SOURCE: single_consumer_producer_queue.h:20-29 -/
theorem accepted_of_pushes {element : α} {returned : Bool}
    (h : s'.pushes = s.pushes ++ [(element, returned)]) :
    s'.accepted = if returned then s.accepted ++ [element] else s.accepted := by
  cases returned with
  | true => simp [State.accepted, h, List.filterMap_append]
  | false => simp [State.accepted, h, List.filterMap_append]

/-- A `Pop` that returns an element adds it to those popped.
SOURCE: single_consumer_producer_queue.h:31-41 -/
theorem popped_of_pops {element : Option (Slot α)} (h : s'.pops = s.pops ++ [element]) :
    s'.popped = s.popped ++ element.toList := by
  cases element with
  | none => simp [State.popped, h, List.filterMap_append]
  | some element => simp [State.popped, h, List.filterMap_append]

/-- Every step of `Push` keeps the order.
SOURCE: single_consumer_producer_queue.h:20-29 -/
theorem inOrderState_push {label : ProducerStep α} (h : InOrderState s)
    (hstep : push s label = some s') : InOrderState s' := by
  unfold push at hstep
  split at hstep
  · rename_i element k hphase
    obtain ⟨⟨t, memory⟩, hload, rfl⟩ := Option.map_eq_some_iff.mp hstep
    obtain ⟨rfl, rfl⟩ := h.synced.loadRelaxed hload
    have hproducer := h.producer
    rw [hphase] at hproducer
    have ht : slot N ((s.memory.views .producer).stores .producer) = slot N s.accepted.length := by
      rw [h.pushCount]
    exact ⟨h.synced, h.raced, h.pushCount, h.popCount, h.popped_eq, h.order, h.bounded,
      ⟨ht, hproducer⟩, h.consumer⟩
  · rename_i k element t hphase
    obtain ⟨⟨x, memory⟩, hload, rfl⟩ := Option.map_eq_some_iff.mp hstep
    obtain ⟨hfull, hroom⟩ := InOrder.loadHead h hphase hload
    dsimp only
    split_ifs with hx
    · unfold InOrderState
      rw [accepted_of_pushes rfl]
      exact hfull hx
    · exact hroom hx
  · rename_i element t hphase
    cases hstep
    exact InOrder.write h hphase
  · rename_i element t hphase
    cases hstep
    unfold InOrderState
    rw [accepted_of_pushes rfl]
    exact InOrder.storeTail h hphase
  · cases hstep

/-- Every step of `Pop` keeps the order.
SOURCE: single_consumer_producer_queue.h:31-41 -/
theorem inOrderState_pop {label : ConsumerStep} (h : InOrderState s)
    (hstep : pop s label = some s') : InOrderState s' := by
  unfold pop at hstep
  split at hstep
  · rename_i k hphase
    obtain ⟨⟨x, memory⟩, hload, rfl⟩ := Option.map_eq_some_iff.mp hstep
    obtain ⟨rfl, rfl⟩ := h.synced.loadRelaxed hload
    have hconsumer := h.consumer
    rw [hphase] at hconsumer
    have hx : slot N ((s.memory.views .consumer).stores .consumer) = slot N s.popped.length := by
      rw [h.popCount]
    exact ⟨h.synced, h.raced, h.pushCount, h.popCount, h.popped_eq, h.order, h.bounded,
      h.producer, hx, hconsumer⟩
  · rename_i k x hphase
    obtain ⟨⟨t, memory⟩, hload, rfl⟩ := Option.map_eq_some_iff.mp hstep
    obtain ⟨hempty, hmore⟩ := InOrder.loadTail h hphase hload
    dsimp only
    split_ifs with hx
    · unfold InOrderState
      rw [popped_of_pops rfl, Option.toList_none, List.append_nil]
      exact hempty hx
    · exact hmore hx
  · rename_i x hphase
    cases hstep
    exact InOrder.take h hphase
  · rename_i x element hphase
    cases hstep
    exact InOrder.reset h hphase
  · rename_i x element hphase
    cases hstep
    unfold InOrderState
    rw [popped_of_pops rfl]
    exact InOrder.storeHead h hphase
  · cases hstep

/-- The states that interleavings of the two threads lead to, whichever stores their loads
read. -/
abbrev Reachable (s : State α N) : Prop :=
  Reaches (fun s label s' => step s label = some s') (fun _ _ => True) init s

/-- **The order is kept in every run**, whichever messages the loads read.
SOURCE: single_consumer_producer_queue.h:20-41 -/
theorem inOrderState (h : Reachable s) : InOrderState s := by
  refine h.invariant inOrderState_init fun s label s' h _ hstep => ?_
  cases label with
  | inl label => exact inOrderState_push h hstep
  | inr label => exact inOrderState_pop h hstep

/-- **Release and acquire are enough.**  Whichever stores the loads read: no two accesses to a slot
race; what was popped is what was pushed, in order, none lost and none twice; at most `N` elements
are in the queue; and a `Push` fails only if `N` elements were not popped by the pops it has read
of, a `Pop` only if it has popped all elements it has read of.
SOURCE: single_consumer_producer_queue.h:10-41 -/
theorem ring_race_free (h : Reachable s) :
    s.memory.raced = false ∧
      s.popped = (s.accepted.take s.popped.length).map .engaged ∧
      s.popped.length ≤ s.accepted.length ∧ s.accepted.length ≤ s.popped.length + N ∧
      (∀ k s', push s (.loadHead k) = some s' → s'.pushes ≠ s.pushes →
        s.accepted.length = k + N) ∧
      ∀ k s', pop s (.loadTail k) = some s' → s'.pops ≠ s.pops → s.popped.length = k := by
  have hinOrder := inOrderState h
  obtain ⟨hpops, hpushes⟩ := InOrder.window hinOrder
  have horder := hinOrder.order
  have hbounded := hinOrder.bounded
  refine ⟨hinOrder.raced, hinOrder.popped_eq, by omega, by omega, ?_, ?_⟩
  · intro k s' hstep hrefused
    cases hphase : s.producer with
    | loadedTail element t =>
      simp only [push, hphase] at hstep
      obtain ⟨⟨v, memory⟩, hload, rfl⟩ := Option.map_eq_some_iff.mp hstep
      by_cases hfull : increment t = v
      · exact InOrder.refused_push hinOrder hphase hload hfull
      · rw [if_neg hfull] at hrefused
        exact absurd rfl hrefused
    | idle | loadedHead | written =>
      simp only [push, hphase] at hstep
      cases hstep
  · intro k s' hstep hrefused
    cases hphase : s.consumer with
    | loadedHead x =>
      simp only [pop, hphase] at hstep
      obtain ⟨⟨v, memory⟩, hload, rfl⟩ := Option.map_eq_some_iff.mp hstep
      by_cases hempty : x = v
      · exact InOrder.refused_pop hinOrder hphase hload hempty
      · rw [if_neg hempty] at hrefused
        exact absurd rfl hrefused
    | idle | loadedTail | taken | reset =>
      simp only [pop, hphase] at hstep
      cases hstep

/-- The second element is pushed with an old value of `head_`: with room for one element it is
refused, although the first one has been popped. -/
def staleHead : List (ProducerStep ℕ ⊕ ConsumerStep) :=
  [.inl (.loadTail 7 0), .inl (.loadHead 0), .inl .write, .inl .storeTail,
    .inr (.loadHead 0), .inr (.loadTail 1), .inr .take, .inr .reset, .inr .storeHead,
    .inl (.loadTail 8 1), .inl (.loadHead 0)]

/-- The second `Push` reads an old head and fails, although its slot is free.
SOURCE: single_consumer_producer_queue.h:20-41 -/
theorem ring_race_free_staleHead :
    ∃ s : State ℕ 1, runAll step (fun _ _ => True) init staleHead = some s ∧
      s.pushes = [(7, true), (8, false)] ∧ s.popped = [.engaged 7] ∧
      s.memory.raced = false := by
  have hrun : (runAll step (fun _ _ => True) (init : State ℕ 1) staleHead).map
      (fun s => (s.pushes, s.popped)) = some ([(7, true), (8, false)], [.engaged 7]) := by
    decide +kernel
  obtain ⟨s, hs, heq⟩ := Option.map_eq_some_iff.mp hrun
  rw [Prod.mk.injEq] at heq
  exact ⟨s, hs, heq.1, heq.2, (ring_race_free (reaches_of_runAll hs)).1⟩

end Runs

end RingOrder

end MyRedis.Analysis

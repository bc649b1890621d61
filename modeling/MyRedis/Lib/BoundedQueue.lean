import Mathlib.Data.List.Basic

/-!
# Queues of bounded length

A first-in first-out queue that holds at most `cap` elements.  `push` fails on a full queue
and `pop` on an empty one; neither changes the queue then.
-/

set_option autoImplicit false

namespace MyRedis.Lib

/-- A queue of at most `cap` elements, oldest first. -/
structure BoundedQueue (α : Type) (cap : ℕ) where
  items : List α
  bounded : items.length ≤ cap

namespace BoundedQueue

variable {α : Type} {cap : ℕ}

/-- The queue without elements. -/
def empty : BoundedQueue α cap := ⟨[], Nat.zero_le cap⟩

/-- The queue with `a` behind its elements, if there is room. -/
def push (q : BoundedQueue α cap) (a : α) : Option (BoundedQueue α cap) :=
  if h : q.items.length < cap then
    some ⟨q.items ++ [a], by rw [List.length_append, List.length_singleton]; omega⟩
  else none

/-- The oldest element, and the queue without it. -/
def pop (q : BoundedQueue α cap) : Option (α × BoundedQueue α cap) :=
  match q with
  | ⟨[], _⟩ => none
  | ⟨a :: rest, h⟩ => some (a, ⟨rest, Nat.le_of_succ_le h⟩)

variable {q q' : BoundedQueue α cap} {a : α}

/-- What was pushed stands behind the rest, and there was room for it. -/
theorem push_eq_some (h : q.push a = some q') :
    q.items.length < cap ∧ q'.items = q.items ++ [a] := by
  unfold push at h
  split_ifs at h with hroom
  cases h
  exact ⟨hroom, rfl⟩

/-- A push is refused exactly when the queue is full. -/
theorem push_eq_none : q.push a = none ↔ q.items.length = cap := by
  have hbound := q.bounded
  unfold push
  split_ifs with hroom
  · simp only [false_iff]
    omega
  · simp only [true_iff]
    omega

/-- A queue that is not full takes an element. -/
theorem exists_push (a : α) (h : q.items.length < cap) :
    ∃ q', q.push a = some q' ∧ q'.items = q.items ++ [a] :=
  ⟨⟨q.items ++ [a], by rw [List.length_append, List.length_singleton]; omega⟩,
    by rw [push, dif_pos h], rfl⟩

/-- A pop that gives nothing has found the queue empty. -/
theorem pop_eq_none (h : q.pop = none) : q.items = [] := by
  obtain ⟨items, hbound⟩ := q
  cases items with
  | nil => rfl
  | cons b rest => cases h

/-- What is popped stood at the front. -/
theorem pop_eq_some (h : q.pop = some (a, q')) : q.items = a :: q'.items := by
  obtain ⟨items, hbound⟩ := q
  cases items with
  | nil => cases h
  | cons b rest =>
    cases h
    rfl

/-- The front of a queue that is not empty can be popped. -/
theorem exists_pop {rest : List α} (h : q.items = a :: rest) :
    ∃ q', q.pop = some (a, q') ∧ q'.items = rest := by
  obtain ⟨items, hbound⟩ := q
  cases h
  exact ⟨⟨rest, Nat.le_of_succ_le hbound⟩, rfl, rfl⟩

end BoundedQueue

end MyRedis.Lib

import Mathlib.Data.List.Nodup
import Mathlib.Logic.Function.Basic

/-!
# Numbered elements

A map whose elements come and go, each with a number of its own: they are numbered in the order
in which they came, and the numbers of those that are gone are listed.  `Numbered` says that every
number given out belongs to one element of the map or is listed once.  It is kept when an element
comes (`Numbered.enter`) and when one goes (`Numbered.leave`).
-/

set_option autoImplicit false

namespace MyRedis.Lib

variable {K : Type}

/-- What an updated map holds. -/
theorem of_update_eq_some {V : Type} [DecidableEq K] {m : K → Option V} {o : Option V} {k k' : K}
    {v : V} (h : Function.update m k o k' = some v) :
    k' = k ∧ o = some v ∨ k' ≠ k ∧ m k' = some v := by
  by_cases hk : k' = k
  · subst hk
    rw [Function.update_self] at h
    exact Or.inl ⟨rfl, h⟩
  · rw [Function.update_of_ne hk] at h
    exact Or.inr ⟨hk, h⟩

/-- The numbers of the elements of a map, how many there have been and those that are gone. -/
structure Numbered (ids : K → Option ℕ) (created : ℕ) (gone : List ℕ) : Prop where
  bound : ∀ {k n}, ids k = some n → n < created
  unique : ∀ {k k' n}, ids k = some n → ids k' = some n → k = k'
  apart : ∀ {k n}, ids k = some n → n ∉ gone
  settled : ∀ {n}, n < created → (∃ k, ids k = some n) ∨ n ∈ gone
  known : ∀ {n}, n ∈ gone → n < created
  nodup : gone.Nodup

namespace Numbered

variable {ids : K → Option ℕ} {created n : ℕ} {gone : List ℕ} {k : K}

/-- At the start no number has been given. -/
theorem empty : Numbered (fun _ : K => none) 0 [] where
  bound h := by cases h
  unique h := by cases h
  apart h := by cases h
  settled h := absurd h (Nat.not_lt_zero _)
  known h := absurd h List.not_mem_nil
  nodup := List.nodup_nil

/-- A number that is in use is not among those that are gone. -/
theorem count_of_mem (h : Numbered ids created gone) (hk : ids k = some n) : gone.count n = 0 :=
  List.count_eq_zero.mpr (h.apart hk)

/-- Every number is that of an element, or of one that has gone once. -/
theorem count_of_lt (h : Numbered ids created gone) (hn : n < created) :
    (∃ k, ids k = some n) ∨ gone.count n = 1 :=
  (h.settled hn).imp_right fun hmem => List.count_eq_one_of_mem h.nodup hmem

variable [DecidableEq K]

/-- **An element comes.** -/
theorem enter (h : Numbered ids created gone) (hk : ids k = none) :
    Numbered (Function.update ids k (some created)) (created + 1) gone where
  bound hn := by
    obtain ⟨-, heq⟩ | ⟨-, hn⟩ := of_update_eq_some hn
    · cases heq
      exact Nat.lt_succ_self _
    · exact Nat.lt_succ_of_lt (h.bound hn)
  unique hn hn' := by
    obtain ⟨rfl, heq⟩ | ⟨-, hn⟩ := of_update_eq_some hn
    · cases heq
      obtain ⟨rfl, -⟩ | ⟨-, hn'⟩ := of_update_eq_some hn'
      · rfl
      · exact absurd (h.bound hn') (Nat.lt_irrefl _)
    · obtain ⟨-, heq⟩ | ⟨-, hn'⟩ := of_update_eq_some hn'
      · cases heq
        exact absurd (h.bound hn) (Nat.lt_irrefl _)
      · exact h.unique hn hn'
  apart hn hmem := by
    obtain ⟨-, heq⟩ | ⟨-, hn⟩ := of_update_eq_some hn
    · cases heq
      exact absurd (h.known hmem) (Nat.lt_irrefl _)
    · exact h.apart hn hmem
  settled hn := by
    obtain hlt | rfl := Nat.lt_succ_iff_lt_or_eq.mp hn
    · obtain ⟨k', hk'⟩ | hmem := h.settled hlt
      · refine Or.inl ⟨k', ?_⟩
        rw [Function.update_of_ne, hk']
        rintro rfl
        cases hk.symm.trans hk'
      · exact Or.inr hmem
    · exact Or.inl ⟨k, Function.update_self ..⟩
  known hmem := Nat.lt_succ_of_lt (h.known hmem)
  nodup := h.nodup

/-- **An element goes.** -/
theorem leave (h : Numbered ids created gone) (hk : ids k = some n) :
    Numbered (Function.update ids k none) created (gone ++ [n]) where
  bound hm := by
    obtain ⟨-, heq⟩ | ⟨-, hm⟩ := of_update_eq_some hm
    · cases heq
    · exact h.bound hm
  unique hm hm' := by
    obtain ⟨-, heq⟩ | ⟨-, hm⟩ := of_update_eq_some hm
    · cases heq
    obtain ⟨-, heq⟩ | ⟨-, hm'⟩ := of_update_eq_some hm'
    · cases heq
    exact h.unique hm hm'
  apart hm hmem := by
    obtain ⟨-, heq⟩ | ⟨hne, hm⟩ := of_update_eq_some hm
    · cases heq
    obtain hmem | hmem := List.mem_append.mp hmem
    · exact h.apart hm hmem
    · rw [List.mem_singleton] at hmem
      subst hmem
      exact hne (h.unique hm hk)
  settled hm := by
    obtain ⟨k', hk'⟩ | hmem := h.settled hm
    · by_cases hne : k' = k
      · subst hne
        cases hk.symm.trans hk'
        exact Or.inr (List.mem_append_right _ (List.mem_singleton_self _))
      · exact Or.inl ⟨k', by rw [Function.update_of_ne hne, hk']⟩
    · exact Or.inr (List.mem_append_left _ hmem)
  known hmem := by
    obtain hmem | hmem := List.mem_append.mp hmem
    · exact h.known hmem
    · rw [List.mem_singleton] at hmem
      exact hmem ▸ h.bound hk
  nodup := by
    rw [List.nodup_append]
    refine ⟨h.nodup, List.nodup_singleton n, ?_⟩
    intro a ha b hb
    rw [List.mem_singleton] at hb
    rintro rfl
    exact h.apart hk (hb ▸ ha)

end Numbered

end MyRedis.Lib

import Mathlib.Data.List.Basic

/-!
# Merged sequences

A list of tagged elements is a merge of sequences, one for each tag: `ofTag t` picks the
elements tagged `t`, in their order.
-/

set_option autoImplicit false

namespace MyRedis.Lib

variable {τ α β : Type} [DecidableEq τ]

/-- The elements tagged `t`. -/
def ofTag (t : τ) (l : List (τ × α)) : List α :=
  l.filterMap fun p => if p.1 = t then some p.2 else none

/-- Nothing is selected from nothing. -/
@[simp] theorem ofTag_nil (t : τ) : ofTag t ([] : List (τ × α)) = [] := rfl

/-- Elements are selected part by part. -/
@[simp] theorem ofTag_append (t : τ) (l l' : List (τ × α)) :
    ofTag t (l ++ l') = ofTag t l ++ ofTag t l' :=
  List.filterMap_append

/-- An element with the tag at the front is the first one with the tag. -/
@[simp] theorem ofTag_cons_self (t : τ) (a : α) (l : List (τ × α)) :
    ofTag t ((t, a) :: l) = a :: ofTag t l := by
  simp only [ofTag, List.filterMap_cons, if_true]

/-- An element with another tag at the front is not seen. -/
theorem ofTag_cons_of_ne {t t' : τ} (h : t' ≠ t) (a : α) (l : List (τ × α)) :
    ofTag t ((t', a) :: l) = ofTag t l := by
  simp only [ofTag, List.filterMap_cons, if_neg h]

/-- An element with the tag at the end is the last one with the tag. -/
theorem ofTag_concat_self (t : τ) (a : α) (l : List (τ × α)) :
    ofTag t (l ++ [(t, a)]) = ofTag t l ++ [a] := by
  rw [ofTag_append, ofTag_cons_self, ofTag_nil]

/-- An element with another tag at the end is not seen. -/
theorem ofTag_concat_of_ne {t t' : τ} (h : t' ≠ t) (a : α) (l : List (τ × α)) :
    ofTag t (l ++ [(t', a)]) = ofTag t l := by
  rw [ofTag_append, ofTag_cons_of_ne h, ofTag_nil, List.append_nil]

/-- To change the elements and to select those with a tag commute. -/
theorem ofTag_map (t : τ) (f : α → β) (l : List (τ × α)) :
    ofTag t (l.map fun p => (p.1, f p.2)) = (ofTag t l).map f := by
  induction l with
  | nil => rfl
  | cons p l ih =>
    obtain ⟨t', a⟩ := p
    by_cases h : t' = t
    · subst h
      simp only [List.map_cons, ofTag_cons_self, ih]
    · simp only [List.map_cons, ofTag_cons_of_ne h, ih]

/-- A tag that does not occur has no elements. -/
theorem ofTag_eq_nil {t : τ} {l : List (τ × α)} (h : ∀ p ∈ l, p.1 ≠ t) : ofTag t l = [] := by
  apply List.filterMap_eq_nil_iff.mpr
  intro p hp
  exact if_neg (h p hp)

/-- Elements that all get one tag. -/
theorem ofTag_map_self (t : τ) (l : List α) : ofTag t (l.map fun a => (t, a)) = l := by
  induction l with
  | nil => rfl
  | cons a l ih => rw [List.map_cons, ofTag_cons_self, ih]

/-- All elements have one tag. -/
theorem eq_map_ofTag {t : τ} {l : List (τ × α)} (h : ∀ t', t' ≠ t → ofTag t' l = []) :
    l = (ofTag t l).map fun a => (t, a) := by
  induction l with
  | nil => rfl
  | cons p l ih =>
    obtain ⟨t', a⟩ := p
    obtain rfl : t' = t := by
      by_contra hne
      have hnil := h t' hne
      rw [ofTag_cons_self] at hnil
      cases hnil
    rw [ofTag_cons_self, List.map_cons, ← ih]
    intro t₁ hne
    rw [← h t₁ hne, ofTag_cons_of_ne hne.symm]

end MyRedis.Lib

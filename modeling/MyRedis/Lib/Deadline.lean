import Mathlib.Order.Bounds.Defs
import Mathlib.Order.MinMax
import Mathlib.Order.WithBot

/-!
# Optional deadlines

A deadline is a time, or `⊤` where there is none: never comes after every time.  A new time
replaces the old deadline where a rule accepts it.  Two of the rules compare the two, and
replacing by them is taking the smaller and the larger one (`replace_ifEarlier`,
`replace_ifLater`); after a sequence of them the deadline is the earliest, or the latest, of all
(`isEarliest_foldl_replace`, `isLatest_foldl_replace`), in whatever order they came.
-/

set_option autoImplicit false

namespace MyRedis.Lib

/-- It is past the deadline. -/
def Passed {T : Type} [LinearOrder T] (d : WithTop T) (now : T) : Prop := d < now

instance {T : Type} [LinearOrder T] (d : WithTop T) (now : T) : Decidable (Passed d now) :=
  inferInstanceAs (Decidable (d < now))

/-- It is past a time when it is later. -/
theorem passed_coe {T : Type} [LinearOrder T] {t now : T} :
    Passed (t : WithTop T) now ↔ t < now := WithTop.coe_lt_coe

/-- The earliest of the deadlines. -/
def IsEarliest {T : Type} [LinearOrder T] (ds : Set (WithTop T)) (d : WithTop T) : Prop :=
  IsLeast ds d

/-- The latest of the deadlines. -/
def IsLatest {T : Type} [LinearOrder T] (ds : Set (WithTop T)) (d : WithTop T) : Prop :=
  IsGreatest ds d

/-- When a new time replaces a deadline. -/
inductive DeadlineRule where
  | always
  | ifNone
  | ifSome
  | ifLater
  | ifEarlier

namespace DeadlineRule

variable {T : Type} [LinearOrder T]

/-- The rule accepts the time `t` in place of the deadline `d`. -/
def Accepts (rule : DeadlineRule) (d : WithTop T) (t : T) : Prop :=
  match rule with
  | .always => True
  | .ifNone => d = ⊤
  | .ifSome => d ≠ ⊤
  | .ifLater => d < t
  | .ifEarlier => t < d

instance (rule : DeadlineRule) (d : WithTop T) (t : T) : Decidable (rule.Accepts d t) :=
  match rule with
  | .always => inferInstanceAs (Decidable True)
  | .ifNone => inferInstanceAs (Decidable (d = ⊤))
  | .ifSome => inferInstanceAs (Decidable (d ≠ ⊤))
  | .ifLater => inferInstanceAs (Decidable (d < t))
  | .ifEarlier => inferInstanceAs (Decidable (t < d))

/-- The deadline after `t` was offered. -/
def replace (rule : DeadlineRule) (d : WithTop T) (t : T) : WithTop T :=
  if rule.Accepts d t then t else d

/-- To replace a deadline by an earlier time only is to take the smaller one. -/
theorem replace_ifEarlier (d : WithTop T) (t : T) : ifEarlier.replace d t = min d t := by
  unfold replace
  split_ifs with h
  · exact (min_eq_right (le_of_lt h)).symm
  · exact (min_eq_left (le_of_not_gt h)).symm

/-- To replace a deadline by a later time only is to take the larger one; no deadline stays none. -/
theorem replace_ifLater (d : WithTop T) (t : T) : ifLater.replace d t = max d t := by
  unfold replace
  split_ifs with h
  · exact (max_eq_right (le_of_lt h)).symm
  · exact (max_eq_left (le_of_not_gt h)).symm

/-- **Earlier times only: the deadline is the earliest of all.** -/
theorem isEarliest_foldl_replace (d : WithTop T) (ts : List T) :
    IsEarliest {x | x = d ∨ ∃ t ∈ ts, x = t} (ts.foldl ifEarlier.replace d) := by
  induction ts generalizing d with
  | nil => simp [IsEarliest, IsLeast, lowerBounds]
  | cons t ts ih =>
    rw [List.foldl_cons, replace_ifEarlier]
    obtain ⟨hmem, hbound⟩ := ih (min d t)
    constructor
    · rcases hmem with heq | ⟨t', ht', heq⟩
      · rw [heq]
        rcases min_choice d (t : WithTop T) with hmin | hmin
        · exact Or.inl hmin
        · exact Or.inr ⟨t, List.mem_cons_self, hmin⟩
      · exact Or.inr ⟨t', List.mem_cons_of_mem t ht', heq⟩
    · intro x hx
      have hle := hbound (Or.inl rfl)
      rcases hx with rfl | ⟨t', ht', rfl⟩
      · exact hle.trans (min_le_left _ _)
      · rcases List.mem_cons.mp ht' with rfl | ht'
        · exact hle.trans (min_le_right _ _)
        · exact hbound (Or.inr ⟨t', ht', rfl⟩)

/-- **Later times only: the deadline is the latest of all.** -/
theorem isLatest_foldl_replace (d : WithTop T) (ts : List T) :
    IsLatest {x | x = d ∨ ∃ t ∈ ts, x = t} (ts.foldl ifLater.replace d) := by
  induction ts generalizing d with
  | nil => simp [IsLatest, IsGreatest, upperBounds]
  | cons t ts ih =>
    rw [List.foldl_cons, replace_ifLater]
    obtain ⟨hmem, hbound⟩ := ih (max d t)
    constructor
    · rcases hmem with heq | ⟨t', ht', heq⟩
      · rw [heq]
        rcases max_choice d (t : WithTop T) with hmax | hmax
        · exact Or.inl hmax
        · exact Or.inr ⟨t, List.mem_cons_self, hmax⟩
      · exact Or.inr ⟨t', List.mem_cons_of_mem t ht', heq⟩
    · intro x hx
      have hle := hbound (Or.inl rfl)
      rcases hx with rfl | ⟨t', ht', rfl⟩
      · exact (le_max_left _ _).trans hle
      · rcases List.mem_cons.mp ht' with rfl | ht'
        · exact (le_max_right _ _).trans hle
        · exact hbound (Or.inr ⟨t', ht', rfl⟩)

end DeadlineRule

end MyRedis.Lib

import Mathlib.Data.Nat.Find

/-!
# Walking round a ring of slots

`walk` starts in a slot and goes on to the next one, round the ring, until it is in a slot
where it has to stop or has made the given number of steps.  After as many steps as there
are slots it is back where it started, so a walk without that limit would never end.
-/

set_option autoImplicit false

namespace MyRedis.Lib

/-- The slot in which a walk through `n` slots stops, within `steps` steps. -/
def walk (n : ℕ) (stop : ℕ → Bool) : (steps i : ℕ) → Option ℕ
  | 0, _ => none
  | steps + 1, i => if stop i then some i else walk n stop steps ((i + 1) % n)

variable {n start : ℕ} {stop : ℕ → Bool}

/-- A walk stops in the first slot where it has to. -/
theorem walk_eq_some {steps j : ℕ} (hj : j < steps) (hstop : stop ((start + j) % n) = true)
    (hpass : ∀ i < j, stop ((start + i) % n) = false) :
    walk n stop steps (start % n) = some ((start + j) % n) := by
  induction j generalizing start steps with
  | zero =>
    obtain ⟨steps, rfl⟩ := Nat.exists_eq_succ_of_ne_zero (Nat.ne_of_gt hj)
    rw [Nat.add_zero] at hstop ⊢
    rw [walk, if_pos hstop]
  | succ j ih =>
    obtain ⟨steps, rfl⟩ := Nat.exists_eq_succ_of_ne_zero (Nat.ne_of_gt (Nat.zero_lt_of_lt hj))
    have hfirst : ¬ stop (start % n) = true := by
      rw [Bool.not_eq_true]
      exact hpass 0 j.succ_pos
    have hnext : (start % n + 1) % n = (start + 1) % n := Nat.mod_add_mod start n 1
    have hshift (i : ℕ) : start + 1 + i = start + (i + 1) := by omega
    rw [walk, if_neg hfirst, hnext, ih (Nat.lt_of_succ_lt_succ hj), hshift]
    · rw [hshift]
      exact hstop
    · intro i hi
      rw [hshift]
      exact hpass (i + 1) (Nat.succ_lt_succ hi)

/-- A walk past buckets at none of which it stops comes to no end. -/
theorem walk_eq_none {steps : ℕ} (hpass : ∀ i < steps, stop ((start + i) % n) = false) :
    walk n stop steps (start % n) = none := by
  induction steps generalizing start with
  | zero => rfl
  | succ steps ih =>
    have hfirst : ¬ stop (start % n) = true := by
      rw [Bool.not_eq_true]
      exact hpass 0 steps.succ_pos
    have hnext : (start % n + 1) % n = (start + 1) % n := Nat.mod_add_mod start n 1
    rw [walk, if_neg hfirst, hnext, ih]
    intro i hi
    have hshift : start + 1 + i = start + (i + 1) := by omega
    rw [hshift]
    exact hpass (i + 1) (Nat.succ_lt_succ hi)

/-- Either a walk stops in the first slot where it has to, or there is none. -/
theorem walk_cases (n start : ℕ) (stop : ℕ → Bool) (steps : ℕ) :
    (∃ j < steps, walk n stop steps (start % n) = some ((start + j) % n) ∧
        stop ((start + j) % n) = true ∧ ∀ i < j, stop ((start + i) % n) = false) ∨
      walk n stop steps (start % n) = none ∧ ∀ i < steps, stop ((start + i) % n) = false := by
  by_cases h : ∃ j, j < steps ∧ stop ((start + j) % n) = true
  · obtain ⟨hj, hstop⟩ := Nat.find_spec h
    have hpass (i : ℕ) (hi : i < Nat.find h) : stop ((start + i) % n) = false := by
      have hmin := Nat.find_min h hi
      rw [not_and, Bool.not_eq_true] at hmin
      exact hmin (Nat.lt_trans hi hj)
    exact Or.inl ⟨Nat.find h, hj, walk_eq_some hj hstop hpass, hstop, hpass⟩
  · have hpass (i : ℕ) (hi : i < steps) : stop ((start + i) % n) = false := by
      rw [← Bool.not_eq_true]
      exact fun hstop => h ⟨i, hi, hstop⟩
    exact Or.inr ⟨walk_eq_none hpass, hpass⟩

/-- A walk of `n` steps comes to every slot. -/
theorem exists_walk_step {i : ℕ} (hi : i < n) (start : ℕ) : ∃ j < n, (start + j) % n = i := by
  have hpos : 0 < n := Nat.zero_lt_of_lt hi
  refine ⟨(i + (n - start % n)) % n, Nat.mod_lt _ hpos, ?_⟩
  have hlt : start % n < n := Nat.mod_lt start hpos
  rw [Nat.add_mod_mod, ← Nat.mod_add_mod]
  have hround : start % n + (i + (n - start % n)) = i + n := by omega
  rw [hround, Nat.add_mod_right, Nat.mod_eq_of_lt hi]

end MyRedis.Lib

import Mathlib.Data.Fin.Basic
import Mathlib.Logic.Function.Basic

/-!
# Positions in a ring

A sequence whose positions are counted from the start is laid out in a ring of `n + 1` slots:
position `i` is in slot `i % (n + 1)`.  Positions less than `n + 1` apart are in different
slots (`slot_inj`), so writing to one of them leaves the other alone (`update_slot`).
-/

set_option autoImplicit false

namespace MyRedis.Lib

/-- The slot of position `i` in a ring of `n + 1` slots. -/
def slot (n i : ℕ) : Fin (n + 1) := ⟨i % (n + 1), Nat.mod_lt i n.succ_pos⟩

variable {n i j : ℕ}

/-- The next position is in the next slot, and behind the last slot in the first one. -/
theorem slot_succ : (slot n (i + 1)).val = ((slot n i).val + 1) % (n + 1) := by
  show (i + 1) % (n + 1) = (i % (n + 1) + 1) % (n + 1)
  rw [Nat.mod_add_mod]

/-- A whole round later the slot is the same. -/
theorem slot_round : slot n (i + n + 1) = slot n i := Fin.ext (Nat.add_mod_right i (n + 1))

/-- Two positions in one slot are equal or a round apart. -/
theorem slot_inj (hle : i ≤ j) (hnear : j ≤ i + n) (h : slot n i = slot n j) : i = j := by
  have hmod : i % (n + 1) = j % (n + 1) := congrArg Fin.val h
  have hdistance : (j - i) % (n + 1) = 0 := Nat.sub_mod_eq_zero_of_mod_eq hmod.symm
  rw [Nat.mod_eq_of_lt (by omega)] at hdistance
  omega

/-- Writing to one position leaves the others in the window alone. -/
theorem update_slot {β : Type} (buffer : Fin (n + 1) → β) (b : β) (hne : i ≠ j)
    (hi : i ≤ j + n) (hj : j ≤ i + n) :
    Function.update buffer (slot n j) b (slot n i) = buffer (slot n i) := by
  apply Function.update_of_ne
  intro h
  obtain hle | hle := Nat.le_total i j
  · exact hne (slot_inj hle hj h)
  · exact hne (slot_inj hle hi h.symm).symm

end MyRedis.Lib

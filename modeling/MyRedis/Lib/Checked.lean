import Mathlib.Algebra.Ring.Nat
import Mathlib.Tactic.ByContra
import Mathlib.Tactic.SplitIfs

/-!
# Programs with checked steps

A program that indexes into a list, computes with 64-bit sizes, asserts what it relies on and
may not come to an end.  A `Checked` program stops with a `Fault` where one of these goes wrong;
otherwise it throws an exception or has a value.  Running out of the steps it was given is
a fault as well, so that a program without one has come to its end.

`Yields` compares a program with the outcome it should have, one step at a time.
-/

set_option autoImplicit false

namespace MyRedis.Lib

/-- What a checked step may find. -/
inductive Fault where
  /-- an index that is not below the length -/
  | outOfBounds
  /-- a sum or a difference of sizes that is not one -/
  | wrapped
  /-- an assertion that does not hold -/
  | failedAssert
  /-- no steps left -/
  | unfinished
  deriving DecidableEq, Repr

/-- A program that may throw an `ε`. -/
abbrev Checked (ε α : Type) : Type := ExceptT ε (Except Fault) α

namespace Checked

variable {ε α β : Type}

/-- The program stops with a fault. -/
def fault (f : Fault) : Checked ε α := ExceptT.mk (.error f)

/-- A computation without checks. -/
def call (r : Except ε α) : Checked ε α := ExceptT.mk (.ok r)

/-- `s[i]` -/
def getAt (s : List α) (i : ℕ) : Checked ε α :=
  match s[i]? with
  | some a => pure a
  | none => fault .outOfBounds

/-- The sum of two sizes. -/
def addSize (a b : ℕ) : Checked ε ℕ := if a + b < 2 ^ 64 then pure (a + b) else fault .wrapped

/-- The difference of two sizes. -/
def subSize (a b : ℕ) : Checked ε ℕ := if b ≤ a then pure (a - b) else fault .wrapped

/-- `assert(c)` -/
def ensure (c : Prop) [Decidable c] : Checked ε Unit :=
  if c then pure () else fault .failedAssert

/-! ## What a program yields -/

/-- The program has the outcome `r`.  Where `W` holds it may instead have stopped at a size that
wrapped. -/
def Yields (W : Prop) (m : Checked ε α) (r : Except ε α) : Prop :=
  m.run = .ok r ∨ W ∧ m.run = .error .wrapped

namespace Yields

variable {W : Prop} {m m' : Checked ε α} {r r' : Except ε α}

/-- A value. -/
theorem pure (a : α) : Yields W (Pure.pure a : Checked ε α) (.ok a) := Or.inl rfl

/-- An exception, which the caller may catch. -/
theorem throw (e : ε) : Yields W (MonadExcept.throw e : Checked ε α) (.error e) := Or.inl rfl

/-- A computation without memory accesses yields what it computes. -/
theorem call (r : Except ε α) : Yields W (Checked.call r) r := Or.inl rfl

/-- A read inside the bounds yields the element. -/
theorem getAt {s : List α} {i : ℕ} {a : α} (h : s[i]? = some a) :
    Yields W (Checked.getAt s i : Checked ε α) (.ok a) := by
  rw [Checked.getAt, h]
  exact pure a

/-- A sum of sizes yields the sum, unless it wraps where this is allowed. -/
theorem addSize {a b : ℕ} (h : ¬ W → a + b < 2 ^ 64) :
    Yields W (Checked.addSize a b : Checked ε ℕ) (.ok (a + b)) := by
  rw [Checked.addSize]
  split_ifs with hfits
  · exact pure (a + b)
  · refine Or.inr ⟨?_, rfl⟩
    by_contra hW
    exact hfits (h hW)

/-- A difference of sizes yields the difference if it is not negative. -/
theorem subSize {a b : ℕ} (h : b ≤ a) :
    Yields W (Checked.subSize a b : Checked ε ℕ) (.ok (a - b)) := by
  rw [Checked.subSize, if_pos h]
  exact pure (a - b)

/-- A check that succeeds. -/
theorem ensure {c : Prop} [Decidable c] (h : c) :
    Yields W (Checked.ensure c : Checked ε Unit) (.ok ()) := by
  rw [Checked.ensure, if_pos h]
  exact pure ()

/-- One program after another. -/
theorem bind {k : α → Checked ε β} {s : α → Except ε β} (hm : Yields W m r)
    (hk : ∀ a, r = .ok a → Yields W (k a) (s a)) : Yields W (m >>= k) (r >>= s) := by
  obtain hm | ⟨hW, hm⟩ := hm
  · rw [ExceptT.run] at hm
    subst hm
    cases r with
    | error e => exact Or.inl rfl
    | ok a => exact hk a rfl
  · rw [ExceptT.run] at hm
    subst hm
    exact Or.inr ⟨hW, rfl⟩

/-- The outcome of a program, changed by a function. -/
theorem map {f : α → β} {k : α → Checked ε β} (hm : Yields W m r)
    (hk : ∀ a, r = .ok a → Yields W (k a) (.ok (f a))) : Yields W (m >>= k) (r.map f) := by
  have hmap : r.map f = r >>= fun a => .ok (f a) := by cases r <;> rfl
  rw [hmap]
  exact bind hm hk

/-- One program after another, with the outcome of both changed by a function. -/
theorem bind_map {γ : Type} {f : β → γ} {k : α → Checked ε γ} {s : α → Except ε β}
    (hm : Yields W m r) (hk : ∀ a, r = .ok a → Yields W (k a) ((s a).map f)) :
    Yields W (m >>= k) ((r >>= s).map f) := by
  have hmap : (r >>= s).map f = r >>= fun a => (s a).map f := by cases r <;> rfl
  rw [hmap]
  exact bind hm hk

/-- A step that has a value, and the program behind it. -/
theorem step {k : α → Checked ε β} {a : α} {s : Except ε β} (hm : Yields W m (.ok a))
    (hk : Yields W (k a) s) : Yields W (m >>= k) s := by
  apply bind (s := fun _ => s) hm
  rintro _ ⟨⟩
  exact hk

/-- Both branches of a test. -/
theorem ite {c : Prop} [Decidable c] (hpos : c → Yields W m r) (hneg : ¬ c → Yields W m' r') :
    Yields W (if c then m else m') (if c then r else r') := by
  split_ifs with h
  · exact hpos h
  · exact hneg h

/-- Without a size that wraps the outcome is the one it should be. -/
theorem run_eq (h : Yields W m r) (hW : ¬ W) : m.run = .ok r :=
  h.resolve_right fun hwrapped => hW hwrapped.1

end Yields

end Checked

end MyRedis.Lib

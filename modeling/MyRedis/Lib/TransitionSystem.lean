import Mathlib.Data.List.Basic

/-!
# Runs of a transition system

`Reaches step guard s₀ s`: some run from `s₀` ends in `s`, and every step of it was taken
in a state and with a label that `guard` allows.  A property that holds in `s₀` and is kept
by every allowed step holds in every state reached (`Reaches.invariant`); a system whose
allowed steps are allowed steps of another one, seen through `v`, or are not seen at
all, reaches only what the other one reaches (`Reaches.simulate`).
-/

set_option autoImplicit false

namespace MyRedis.Lib

variable {σ τ α β : Type}

/-- The states some run from `s₀` ends in, all of whose steps are allowed. -/
inductive Reaches (step : σ → α → σ → Prop) (guard : σ → α → Prop) (s₀ : σ) : σ → Prop where
  | refl : Reaches step guard s₀ s₀
  | tail {s s' : σ} {a : α} : Reaches step guard s₀ s → guard s a → step s a s' →
      Reaches step guard s₀ s'

namespace Reaches

variable {step : σ → α → σ → Prop} {guard : σ → α → Prop} {s₀ s s' : σ}

/-- **The rule of invariants.** -/
theorem invariant {I : σ → Prop} (hinit : I s₀)
    (hstep : ∀ s a s', I s → guard s a → step s a s' → I s')
    (h : Reaches step guard s₀ s) : I s := by
  induction h with
  | refl => exact hinit
  | tail _ hguard hs ih => exact hstep _ _ _ ih hguard hs

/-- One run after another. -/
theorem trans (h : Reaches step guard s₀ s) (h' : Reaches step guard s s') :
    Reaches step guard s₀ s' := by
  induction h' with
  | refl => exact h
  | tail _ hguard hs ih => exact ih.tail hguard hs

/-- A run whose steps are allowed by a narrower guard. -/
theorem mono {guard' : σ → α → Prop} (hguard : ∀ s a, guard s a → guard' s a)
    (h : Reaches step guard s₀ s) : Reaches step guard' s₀ s := by
  induction h with
  | refl => exact .refl
  | tail _ hallowed hs ih => exact ih.tail (hguard _ _ hallowed) hs

/-- **Forward simulation**, of the states that satisfy an invariant. -/
theorem simulate {stepT : τ → β → τ → Prop} {guardT : τ → β → Prop} {v : σ → τ}
    {I : σ → Prop} (hinv : ∀ s, Reaches step guard s₀ s → I s)
    (hsim : ∀ s a s', I s → guard s a → step s a s' →
      v s' = v s ∨ ∃ b, guardT (v s) b ∧ stepT (v s) b (v s'))
    (h : Reaches step guard s₀ s) : Reaches stepT guardT (v s₀) (v s) := by
  induction h with
  | refl => exact .refl
  | tail hreach hguard hs ih =>
    obtain heq | ⟨b, hb, hstep⟩ := hsim _ _ _ (hinv _ hreach) hguard hs
    · rw [heq]
      exact ih
    · exact ih.tail hb hstep

end Reaches

/-- The state after a sequence of labels, if all its steps are allowed and possible, of a
system in which a label leads to at most one state. -/
def runAll (step : σ → α → Option σ) (guard : σ → α → Prop) [∀ s a, Decidable (guard s a)] :
    σ → List α → Option σ
  | s, [] => some s
  | s, a :: as => if guard s a then (step s a).bind fun s' => runAll step guard s' as else none

/-- A sequence of labels, and then another one. -/
theorem runAll_append (step : σ → α → Option σ) (guard : σ → α → Prop)
    [∀ s a, Decidable (guard s a)] (s : σ) (as bs : List α) :
    runAll step guard s (as ++ bs) =
      (runAll step guard s as).bind fun s' => runAll step guard s' bs := by
  induction as generalizing s with
  | nil => rfl
  | cons a as ih =>
    rw [List.cons_append, runAll, runAll]
    split_ifs
    · rw [Option.bind_assoc]
      congr 1
      funext s'
      exact ih s'
    · rfl

/-- What a sequence of labels leads to is reached. -/
theorem reaches_of_runAll {step : σ → α → Option σ} {guard : σ → α → Prop}
    [∀ s a, Decidable (guard s a)] {s₀ s : σ} {as : List α}
    (h : runAll step guard s₀ as = some s) :
    Reaches (fun s a s' => step s a = some s') guard s₀ s := by
  induction as generalizing s₀ with
  | nil =>
    cases h
    exact .refl
  | cons a as ih =>
    unfold runAll at h
    split_ifs at h with hguard
    obtain ⟨s₁, hs₁, hrest⟩ := Option.bind_eq_some_iff.mp h
    exact (Reaches.refl.tail hguard hs₁).trans (ih hrest)

end MyRedis.Lib

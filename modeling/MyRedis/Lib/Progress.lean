import Mathlib.Algebra.BigOperators.Fin
import Mathlib.Data.Fintype.BigOperators
import MyRedis.Lib.TransitionSystem

/-!
# Runs that come to an end

`Run` counts the steps of a run.  If every step lowers a rank, a run has no more steps than its
first state has rank (`Run.length_le`, and `Run.length_le_of_invariant` where that is so only of
states with an invariant).  For a system of threads the rank is a sum over them, and
a step of one thread changes it by the ranks of that thread (`total_update`).
-/

set_option autoImplicit false

namespace MyRedis.Lib

section Run

variable {σ α : Type}

/-- Some run of this many allowed steps leads from `s` to the other state. -/
inductive Run (step : σ → α → σ → Prop) (guard : σ → α → Prop) (s : σ) : ℕ → σ → Prop where
  | refl : Run step guard s 0 s
  | tail {k : ℕ} {s' s'' : σ} {a : α} : Run step guard s k s' → guard s' a → step s' a s'' →
      Run step guard s (k + 1) s''

variable {step : σ → α → σ → Prop} {guard : σ → α → Prop} {s s' s'' : σ} {k : ℕ}

/-- A step before a run. -/
theorem Run.head {a : α} (hguard : guard s a) (hstep : step s a s')
    (h : Run step guard s' k s'') : Run step guard s (k + 1) s'' := by
  induction h with
  | refl => exact .tail .refl hguard hstep
  | tail _ hguard' hstep' ih => exact .tail ih hguard' hstep'

/-- A run stays one when more steps are allowed. -/
theorem Run.mono {guard' : σ → α → Prop} (h : Run step guard s k s')
    (hguard : ∀ s a, guard s a → guard' s a) : Run step guard' s k s' := by
  induction h with
  | refl => exact .refl
  | tail _ hallowed hstep ih => exact .tail ih (hguard _ _ hallowed) hstep

/-- What a sequence of labels leads to, each of which is allowed whatever the state. -/
theorem run_of_runAll {step : σ → α → Option σ} {label : α → Prop} [∀ s a, Decidable (guard s a)]
    {as : List α} (h : runAll step guard s as = some s') (hlabels : ∀ a ∈ as, label a) :
    Run (fun s a s' => step s a = some s') (fun s a => label a ∧ guard s a) s as.length s' := by
  induction as generalizing s with
  | nil =>
    cases h
    exact .refl
  | cons a as ih =>
    unfold runAll at h
    split_ifs at h with hguard
    obtain ⟨s₁, hs₁, hrest⟩ := Option.bind_eq_some_iff.mp h
    exact .head ⟨hlabels a List.mem_cons_self, hguard⟩ hs₁
      (ih hrest fun a ha => hlabels a (List.mem_cons_of_mem _ ha))

/-- **A run is no longer than the rank of its first state**, if every step from a state that
satisfies the invariant lowers the rank. -/
theorem Run.length_le_of_invariant {I : σ → Prop} (h : Run step guard s k s') (rank : σ → ℕ)
    (hinit : I s) (hkeep : ∀ s a s', I s → guard s a → step s a s' → I s')
    (hlower : ∀ s a s', I s → guard s a → step s a s' → rank s' < rank s) :
    I s' ∧ k + rank s' ≤ rank s := by
  induction h with
  | refl => exact ⟨hinit, (Nat.zero_add _).le⟩
  | tail _ hguard hstep ih =>
    have hlt := hlower _ _ _ ih.1 hguard hstep
    exact ⟨hkeep _ _ _ ih.1 hguard hstep, by omega⟩

/-- **A run is no longer than the rank of its first state**, if every step lowers the rank. -/
theorem Run.length_le (h : Run step guard s k s') (rank : σ → ℕ)
    (hlower : ∀ s a s', guard s a → step s a s' → rank s' < rank s) :
    k + rank s' ≤ rank s :=
  (h.length_le_of_invariant (I := fun _ => True) rank trivial (fun _ _ _ _ _ _ => trivial)
    fun s a s' _ => hlower s a s').2

end Run

section Total

variable {ι τ : Type} [Fintype ι] [DecidableEq ι]

/-- The sum of a weight over all threads. -/
def total (weight : τ → ℕ) (threads : ι → τ) : ℕ := ∑ i, weight (threads i)

/-- **One thread moves.** -/
theorem total_update (weight : τ → ℕ) (threads : ι → τ) (i : ι) (thread : τ) :
    total weight (Function.update threads i thread) + weight (threads i) =
      total weight threads + weight thread := by
  have hrest : ∀ j ∈ Finset.univ.erase i,
      weight (Function.update threads i thread j) = weight (threads j) := by
    intro j hj
    rw [Function.update_of_ne (Finset.ne_of_mem_erase hj)]
  unfold total
  rw [← Finset.add_sum_erase Finset.univ _ (Finset.mem_univ i),
    ← Finset.add_sum_erase Finset.univ (fun j => weight (threads j)) (Finset.mem_univ i),
    Finset.sum_congr rfl hrest, Function.update_self]
  omega

omit [DecidableEq ι] in
/-- A sum of weights is zero only if every thread has none. -/
theorem total_eq_zero {weight : τ → ℕ} {threads : ι → τ} :
    total weight threads = 0 ↔ ∀ i, weight (threads i) = 0 := by
  unfold total
  rw [Finset.sum_eq_zero_iff]
  simp only [Finset.mem_univ, true_imp_iff]

end Total

/-- One summand changes. -/
theorem sum_map_set {α : Type} (f : α → ℕ) {l : List α} {k : ℕ} {a : α} (h : l[k]? = some a)
    (b : α) : ((l.set k b).map f).sum + f a = (l.map f).sum + f b := by
  induction l generalizing k with
  | nil => cases h
  | cons x l ih =>
    cases k with
    | zero =>
      cases h
      simp only [List.set_cons_zero, List.map_cons, List.sum_cons]
      omega
    | succ k =>
      have hrest := ih h
      simp only [List.set_cons_succ, List.map_cons, List.sum_cons]
      omega

end MyRedis.Lib

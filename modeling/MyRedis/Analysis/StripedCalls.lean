import Mathlib.Algebra.Order.BigOperators.Group.Finset
import MyRedis.Model.StripedLocks

/-!
# Calls of the striped maps exclude each other and return

All methods take their locks in ascending order, also `Insert`, because it gives its own lock back
before `Resize` takes all.  So whatever `size_` reads as: what two threads do at the same time on
one map is on different stripes, and `Resize` and `ForEach` run alone; no call waits for ever, and
each is over after at most `2 n + 7` steps of its own, for `n` locks (`striped_calls_return`).
-/

set_option autoImplicit false

namespace MyRedis.Analysis

open MyRedis.Lib MyRedis.Lib.LockProgram MyRedis.Model MyRedis.Model.StripedLocks

namespace StripedCalls

variable {T M K : Type} {n : ℕ} [LinearOrder M]

/-- The locks under which a piece of work is done. -/
def needs (work : M × Work n) : Set (Lock M n) :=
  {l | (ofLex l).1 = work.1 ∧ ∀ stripe, work.2.stripe = some stripe → (ofLex l).2 = stripe}

omit [LinearOrder M] in
/-- Which locks some work needs.
SOURCE: StripedHashmap.h:52-148 -/
theorem mem_needs {m : M} {w : Work n} {i : Fin n} :
    toLex (m, i) ∈ needs (m, w) ↔ ∀ stripe, w.stripe = some stripe → i = stripe :=
  and_iff_right rfl

omit [LinearOrder M] in
/-- Work that has no lock in common is on different stripes.
SOURCE: StripedHashmap.h:52-148 -/
theorem stripes_ne [NeZero n] {m : M} {w w' : Work n}
    (h : ∀ l ∈ needs (m, w), l ∉ needs (m, w')) :
    ∃ stripe stripe', w.stripe = some stripe ∧ w'.stripe = some stripe' ∧ stripe ≠ stripe' := by
  have hdisjoint : ∀ i : Fin n, toLex (m, i) ∈ needs (m, w) → toLex (m, i) ∉ needs (m, w') :=
    fun i => h (toLex (m, i))
  simp only [mem_needs] at hdisjoint
  cases hw : w.stripe with
  | none =>
    -- the stripe of the other one, or any
    obtain hw' | ⟨stripe', hw'⟩ := Option.eq_none_or_eq_some w'.stripe
    · exact absurd (by simp [hw']) (hdisjoint 0 (by simp [hw]))
    · exact absurd (by simp [hw']) (hdisjoint stripe' (by simp [hw]))
  | some stripe =>
    cases hw' : w'.stripe with
    | none => exact absurd (by simp [hw']) (hdisjoint stripe (by simp [hw]))
    | some stripe' =>
      refine ⟨stripe, stripe', rfl, rfl, ?_⟩
      rintro rfl
      exact hdisjoint stripe (by simp [hw]) (by simp [hw'])

/-! ## The programs of the methods -/

omit [LinearOrder M] in
/-- The locks that are taken for all stripes are those of the map.
SOURCE: StripedHashmap.h:54-56, 136-138 -/
theorem mem_locks {m : M} {l : Lock M n} : l ∈ locks m ↔ (ofLex l).1 = m := by
  refine List.mem_map.trans ⟨?_, ?_⟩
  · rintro ⟨i, -, rfl⟩
    rfl
  · rintro rfl
    exact ⟨(ofLex l).2, List.mem_finRange _, rfl⟩

/-- They are taken in their order.
SOURCE: StripedHashmap.h:54-56, 136-138 -/
theorem sorted_locks (m : M) : (locks m : List (Lock M n)).Pairwise (· < ·) := by
  refine List.Pairwise.map _ ?_ (List.pairwise_lt_finRange n)
  intro i j hlt
  exact Prod.Lex.toLex_lt_toLex.mpr (Or.inr ⟨rfl, hlt⟩)

omit [LinearOrder M] in
/-- There are `n` of them.
SOURCE: StripedHashmap.h:84 -/
theorem length_locks (m : M) : (locks m : List (Lock M n)).length = n := by
  rw [locks, List.length_map, List.length_finRange]

omit [LinearOrder M] in
/-- The lock of a stripe is all that work on the stripe needs.
SOURCE: StripedHashmap.h:87, 114 -/
theorem needs_subset {m : M} {stripe : Fin n} {w : Work n} (h : w.stripe = some stripe) :
    needs (m, w) ⊆ {toLex (m, stripe)} := by
  rintro l ⟨rfl, hstripe⟩
  rw [Set.mem_singleton_iff, ← hstripe stripe h]
  rfl

/-- The end of a method on one stripe: the last work, and the lock is given back.
SOURCE: StripedHashmap.h:86-99, 113-132 -/
theorem ordered_last (m : M) {stripe : Fin n} {w : Work n} (h : w.stripe = some stripe) :
    KeepsOrder needs {toLex (m, stripe)}
      (.work (m, w) fun _ => .unlock (toLex (m, stripe)) .done) :=
  ⟨needs_subset h, fun _ => ⟨rfl, Set.sdiff_self⟩⟩

/-- The lock of one stripe is taken, while none is held.
SOURCE: StripedHashmap.h:87, 114 -/
theorem ordered_lock (m : M) {stripe : Fin n} {rest : Program M n}
    (h : KeepsOrder needs {toLex (m, stripe)} rest) :
    KeepsOrder needs ∅ (.lock (toLex (m, stripe)) rest) := by
  refine ⟨fun l hl => absurd hl (Set.notMem_empty l), ?_⟩
  rwa [insert_empty_eq]

/-- All stripes are locked, for work on any of them.
SOURCE: StripedHashmap.h:54-56, 136-138 -/
theorem ordered_exclusively (m : M) (w : Work n) {rest : Program M n}
    (hrest : KeepsOrder needs ∅ rest) : KeepsOrder needs ∅ (exclusively m w rest) := by
  refine ordered_lockAll (sorted_locks m) (fun h hh => absurd hh (Set.notMem_empty h)) ?_
  rw [Set.empty_union]
  refine ⟨fun l hl => mem_locks.mpr hl.1, fun _ => ?_⟩
  refine ordered_unlockAll (sorted_locks m).nodup (fun _ hl => hl) ?_
  rwa [Set.sdiff_self]

/-- `Insert` holds nothing while `Resize` takes all locks.
SOURCE: StripedHashmap.h:101-111 -/
theorem ordered_insert [NeZero n] (m : M) (stripe : Fin n) :
    KeepsOrder needs ∅ (StripedLocks.insert m stripe) := by
  refine ordered_lock m ⟨needs_subset rfl, fun overloaded => ?_⟩
  cases overloaded with
  | false => exact ordered_last m rfl
  | true =>
    refine ⟨rfl, ?_⟩
    rw [Set.sdiff_self]
    exact ordered_exclusively m _ (ordered_lock m (ordered_last m rfl))

/-- **Every method** takes its locks in their order, and works on what it has locked.
SOURCE: StripedHashmap.h:86-148 -/
theorem ordered_program [NeZero n] (hash : K → ℕ) (m : M) (method : Method K) :
    KeepsOrder needs ∅ (program hash m method : Program M n) := by
  cases method with
  | lookUp key => exact ordered_lock m (ordered_last m rfl)
  | insert key => exact ordered_insert m _
  | remove key => exact ordered_lock m (ordered_last m rfl)
  | forEach => exact ordered_exclusively m _ rfl

omit [LinearOrder M] in
/-- How many steps it takes to lock all stripes, to do the work and to unlock them.
SOURCE: StripedHashmap.h:54-56, 136-138 -/
theorem steps_exclusively (m : M) (w : Work n) (rest : Program M n) :
    (exclusively m w rest).steps = 2 * n + 1 + rest.steps := by
  rw [exclusively, steps_lockAll, steps, steps_unlockAll, max_self, length_locks]
  omega

omit [LinearOrder M] in
/-- How long a call takes at most.
SOURCE: StripedHashmap.h:86-148 -/
theorem steps_program [NeZero n] (hash : K → ℕ) (m : M) (method : Method K) :
    (program hash m method : Program M n).steps ≤ 2 * n + 7 := by
  cases method with
  | lookUp key => exact Nat.le_add_left 3 (2 * n + 4)
  | remove key => exact Nat.le_add_left 3 (2 * n + 4)
  | forEach =>
    change (exclusively m _ _).steps ≤ _
    rw [steps_exclusively, steps]
    omega
  | insert key =>
    have hresize := steps_exclusively m Work.resize (.lock (toLex (m, getLockIndex n hash key))
      (.work (m, .insertWithoutResize (getLockIndex n hash key)) fun _ =>
        .unlock (toLex (m, getLockIndex n hash key)) .done))
    simp only [program, StripedLocks.insert, steps, max_self, if_true, Bool.false_eq_true,
      if_false] at hresize ⊢
    omega

/-! ## Runs -/

section Runs

variable [DecidableEq T] {hash : K → ℕ} {s s' : State T M n}

/-- The states that calls by any threads lead to. -/
def Reachable [NeZero n] (hash : K → ℕ) : State T M n → Prop :=
  Reaches (fun s a s' => step hash s a = some s') (fun _ _ => True) init

/-- Some steps of the calls that have been made. -/
def Continues (s : State T M n) : ℕ → State T M n → Prop :=
  Run (fun s (a : T × Bool) s' => s.advance a.1 a.2 = some s') (fun _ _ => True) s

/-- The programs are ordered, and not longer than a call. -/
def Sound (s : State T M n) : Prop :=
  Disciplined needs s ∧ ∀ t, (s.programs t).steps ≤ 2 * n + 7

/-- A step of a call keeps the order of the locks.
SOURCE: StripedHashmap.h:86-148 -/
theorem Sound.advance (h : Sound s) {t : T} {answer : Bool}
    (hstep : s.advance t answer = some s') : Sound s' := by
  refine ⟨h.1.advance hstep, fun t' => ?_⟩
  obtain ⟨program, heq, hlt⟩ := steps_advance hstep
  rw [heq, Function.update_apply]
  split_ifs
  · exact hlt.le.trans (h.2 t)
  · exact h.2 t'

/-- A new call keeps the order of the locks.
SOURCE: StripedHashmap.h:86-148 -/
theorem Sound.call [NeZero n] (h : Sound s) {t : T} {m : M} {method : Method K}
    (hstep : step hash s (.call t m method) = some s') : Sound s' := by
  cases hidle : s.programs t with
  | done =>
    simp only [step, hidle] at hstep
    cases hstep
    refine ⟨h.1.call hidle (ordered_program hash m method), fun t' => ?_⟩
    simp only [Function.update_apply]
    split_ifs
    · exact steps_program hash m method
    · exact h.2 t'
  | lock | unlock | work =>
    simp only [step, hidle] at hstep
    cases hstep

omit [DecidableEq T] in
/-- At the start nobody has called.
SOURCE: StripedHashmap.h:52-148 -/
theorem sound_init : Sound (init : State T M n) := by
  refine ⟨fun t => ?_, fun t => Nat.zero_le _⟩
  exact Set.eq_empty_iff_forall_notMem.mpr fun l hl => by cases hl

/-- The order is kept in every state.
SOURCE: StripedHashmap.h:86-148 -/
theorem sound_of_reachable [NeZero n] (h : Reachable hash s) : Sound s := by
  refine h.invariant sound_init ?_
  intro s a s' hs _ hstep
  cases a with
  | call t m method => exact hs.call hstep
  | advance t answer => exact hs.advance hstep

/-- The order is kept while the calls go on.
SOURCE: StripedHashmap.h:86-148 -/
theorem Sound.continues (h : Sound s) {k : ℕ} (hrun : Continues s k s') : Sound s' := by
  induction hrun with
  | refl => exact h
  | tail _ _ hstep ih => exact ih.advance hstep

omit [DecidableEq T] in
/-- The calls of all threads take no more than this.
SOURCE: StripedHashmap.h:86-148 -/
theorem Sound.total_le [Fintype T] (h : Sound s) :
    total steps s.programs ≤ Fintype.card T * (2 * n + 7) := by
  unfold total
  calc ∑ t, (s.programs t).steps ≤ ∑ _t : T, (2 * n + 7) := Finset.sum_le_sum fun t _ => h.2 t
    _ = Fintype.card T * (2 * n + 7) := by
      rw [Finset.sum_const, smul_eq_mul, Finset.card_univ]

/-- **The calls exclude each other, and all return.**  What two threads do at the same time on one
map is on different stripes; the calls that have been made take no more than `2 n + 7` steps each,
and as long as one has not returned some thread can take a step.
SOURCE: StripedHashmap.h:52-149 -/
theorem striped_calls_return [Fintype T] [NeZero n] (h : Reachable hash s) :
    (∀ t t' m w w' next next', t ≠ t' → s.programs t = .work (m, w) next →
        s.programs t' = .work (m, w') next' →
        ∃ stripe stripe', w.stripe = some stripe ∧ w'.stripe = some stripe' ∧ stripe ≠ stripe') ∧
      ∀ k s', Continues s k s' → k ≤ Fintype.card T * (2 * n + 7) ∧
        ((∀ t answer, s'.advance t answer = none) → ∀ t, s'.programs t = .done) := by
  have hsound := sound_of_reachable h
  refine ⟨?_, ?_⟩
  · intro t t' m w w' next next' hne hwork hwork'
    exact stripes_ne (hsound.1.disjoint hne hwork hwork')
  · intro k s' hrun
    refine ⟨?_, ?_⟩
    · have hle := Run.length_le hrun (fun s => total steps s.programs)
        fun s a s' _ hstep => total_advance hstep
      have htotal := hsound.total_le
      omega
    · intro hstuck t
      by_contra hactive
      obtain ⟨t', answer, s'', hstep⟩ := (hsound.continues hrun).1.exists_step hactive
      rw [hstuck t' answer] at hstep
      cases hstep

end Runs

/-- Two threads, each with the lock of its key. -/
def twoCalls : List (Action Bool Unit ℕ) :=
  [.call false () (.insert 0), .advance false false, .call true () (.lookUp 1),
    .advance true false]

/-- Two calls, each of which holds one of two stripes.
SOURCE: StripedHashmap.h:86-148 -/
theorem striped_calls_return_twoCalls :
    ∃ s : State Bool Unit 2, runAll (step id) (fun _ _ => True) init twoCalls = some s ∧
      s.owner (toLex ((), 0)) = some false ∧ s.owner (toLex ((), 1)) = some true ∧
      ∀ k s', Continues s k s' → k ≤ 22 := by
  have hrun : (runAll (step id) (fun _ _ => True) (init : State Bool Unit 2) twoCalls).map
      (fun s => (s.owner (toLex ((), 0)), s.owner (toLex ((), 1)))) =
      some (some false, some true) := by
    decide +kernel
  obtain ⟨s, hs, howners⟩ := Option.map_eq_some_iff.mp hrun
  rw [Prod.mk.injEq] at howners
  refine ⟨s, hs, howners.1, howners.2, fun k s' hcontinues => ?_⟩
  exact ((striped_calls_return (reaches_of_runAll hs)).2 k s' hcontinues).1

end StripedCalls

end MyRedis.Analysis

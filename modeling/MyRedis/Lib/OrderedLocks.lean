import Mathlib.Data.Fintype.Lattice
import Mathlib.Order.WithBot
import MyRedis.Lib.Progress

/-!
# Threads that take locks in order

A thread runs a program that takes and releases locks and does pieces of work between; what a piece
of work returns may decide how the program goes on.  A program keeps the order (`KeepsOrder`) if it
takes a lock only while all the locks it holds are smaller, releases only locks that it holds, does
its work only under the locks that the work needs, and holds none at the end.

If the programs of all threads keep it, then two threads that are at work need no common lock
(`Disciplined.disjoint`), and some thread can go on as long as any has not finished
(`Disciplined.exists_step`): the thread that waits for the greatest lock would have to be waited
for by its owner, which waits for a greater one.
-/

set_option autoImplicit false

namespace MyRedis.Lib

/-- What is left of a program. -/
inductive LockProgram (L W : Type) where
  | done
  | lock (l : L) (rest : LockProgram L W)
  | unlock (l : L) (rest : LockProgram L W)
  | work (w : W) (next : Bool → LockProgram L W)

namespace LockProgram

variable {L W : Type}

/-- The steps that a program takes at most. -/
def steps : LockProgram L W → ℕ
  | done => 0
  | lock _ rest => rest.steps + 1
  | unlock _ rest => rest.steps + 1
  | work _ next => max (next true).steps (next false).steps + 1

/-- The work is one step, whatever it answers. -/
theorem steps_next_lt (w : W) (next : Bool → LockProgram L W) (answer : Bool) :
    (next answer).steps < (work w next).steps := by
  cases answer
  · exact Nat.lt_succ_of_le (le_max_right _ _)
  · exact Nat.lt_succ_of_le (le_max_left _ _)

/-- The lock that a program takes next. -/
def wanted : LockProgram L W → WithBot L
  | lock l _ => l
  | _ => ⊥

/-- Take these locks one after another. -/
def lockAll (ls : List L) (rest : LockProgram L W) : LockProgram L W := ls.foldr lock rest

/-- Release these locks one after another. -/
def unlockAll (ls : List L) (rest : LockProgram L W) : LockProgram L W := ls.foldr unlock rest

/-- To lock one after another takes one step each. -/
theorem steps_lockAll (ls : List L) (rest : LockProgram L W) :
    (lockAll ls rest).steps = ls.length + rest.steps := by
  induction ls with
  | nil => exact (Nat.zero_add _).symm
  | cons l ls ih =>
    change (lockAll ls rest).steps + 1 = _
    rw [ih, List.length_cons]
    omega

/-- To unlock one after another takes one step each. -/
theorem steps_unlockAll (ls : List L) (rest : LockProgram L W) :
    (unlockAll ls rest).steps = ls.length + rest.steps := by
  induction ls with
  | nil => exact (Nat.zero_add _).symm
  | cons l ls ih =>
    change (unlockAll ls rest).steps + 1 = _
    rw [ih, List.length_cons]
    omega

section Order

variable [LinearOrder L] (needs : W → Set L)

/-- A program that keeps the order, for a thread that holds these locks. -/
def KeepsOrder (held : Set L) : LockProgram L W → Prop
  | done => held = ∅
  | lock l rest => (∀ h ∈ held, h < l) ∧ KeepsOrder (insert l held) rest
  | unlock l rest => l ∈ held ∧ KeepsOrder (held \ {l}) rest
  | work w next => needs w ⊆ held ∧ ∀ answer, KeepsOrder held (next answer)

variable {needs}

/-- Locks are taken in ascending order, above those that are held. -/
theorem ordered_lockAll {held : Set L} {ls : List L} {rest : LockProgram L W}
    (hsorted : ls.Pairwise (· < ·)) (habove : ∀ h ∈ held, ∀ l ∈ ls, h < l)
    (hrest : KeepsOrder needs (held ∪ {l | l ∈ ls}) rest) :
    KeepsOrder needs held (lockAll ls rest) := by
  induction ls generalizing held with
  | nil => simpa [lockAll] using hrest
  | cons l ls ih =>
    obtain ⟨hfirst, hsorted⟩ := List.pairwise_cons.mp hsorted
    refine ⟨fun h hh => habove h hh l List.mem_cons_self, ih hsorted ?_ ?_⟩
    · rintro h (rfl | hh) l' hl'
      · exact hfirst l' hl'
      · exact habove h hh l' (List.mem_cons_of_mem _ hl')
    · convert hrest using 1
      ext x
      simp only [Set.mem_union, Set.mem_insert_iff, Set.mem_ofPred_eq, List.mem_cons]
      tauto

/-- Locks that are held are released in any order. -/
theorem ordered_unlockAll {held : Set L} {ls : List L} {rest : LockProgram L W}
    (hnodup : ls.Nodup) (hheld : ∀ l ∈ ls, l ∈ held)
    (hrest : KeepsOrder needs (held \ {l | l ∈ ls}) rest) :
    KeepsOrder needs held (unlockAll ls rest) := by
  induction ls generalizing held with
  | nil => simpa [unlockAll] using hrest
  | cons l ls ih =>
    obtain ⟨hfirst, hnodup⟩ := List.nodup_cons.mp hnodup
    refine ⟨hheld l List.mem_cons_self, ih hnodup ?_ ?_⟩
    · intro l' hl'
      exact ⟨hheld l' (List.mem_cons_of_mem _ hl'), fun heq => hfirst (heq ▸ hl')⟩
    · convert hrest using 1
      ext x
      simp only [Set.mem_sdiff, Set.mem_singleton_iff, Set.mem_ofPred_eq, List.mem_cons]
      tauto

end Order

end LockProgram

open LockProgram

/-! ## Threads -/

section Threads

variable {T L W : Type} [LinearOrder L]

/-- Who holds each lock, and what each thread has left to do. -/
structure LockState (T L W : Type) where
  owner : L → Option T
  programs : T → LockProgram L W

/-- A step of a thread; `answer` is what a piece of work returns. -/
def LockState.advance [DecidableEq T] (s : LockState T L W) (t : T) (answer : Bool) :
    Option (LockState T L W) :=
  match s.programs t with
  | .done => none
  | .lock l rest =>
    if s.owner l = none then
      some ⟨Function.update s.owner l (some t), Function.update s.programs t rest⟩
    else none
  | .unlock l rest => some ⟨Function.update s.owner l none, Function.update s.programs t rest⟩
  | .work _ next => some ⟨s.owner, Function.update s.programs t (next answer)⟩

/-- The locks that a thread holds. -/
def LockState.held (s : LockState T L W) (t : T) : Set L := {l | s.owner l = some t}

/-- Every thread has an ordered program left. -/
def Disciplined (needs : W → Set L) (s : LockState T L W) : Prop :=
  ∀ t, KeepsOrder needs (s.held t) (s.programs t)

variable {needs : W → Set L} {s s' : LockState T L W} {t : T}

/-- Nobody else holds less or more when a free lock is taken or an own one released. -/
theorem held_update_of_ne {owner : L → Option T} {l : L} {o : Option T} {t' : T} (hne : t' ≠ t)
    (hbefore : owner l = none ∨ owner l = some t) (hafter : o = none ∨ o = some t) :
    {l' | Function.update owner l o l' = some t'} = {l' | owner l' = some t'} := by
  ext l'
  by_cases hl : l' = l
  · subst hl
    simp only [Set.mem_ofPred_eq, Function.update_self]
    refine iff_of_false ?_ ?_
    · rcases hafter with rfl | rfl <;> simp [hne.symm]
    · rcases hbefore with h | h <;> simp [h, hne.symm]
  · simp only [Set.mem_ofPred_eq, Function.update_of_ne hl]

/-- A thread that acquires a lock holds it besides its others. -/
theorem held_acquire (owner : L → Option T) (l : L) :
    {l' | Function.update owner l (some t) l' = some t} = insert l {l' | owner l' = some t} := by
  ext l'
  by_cases hl : l' = l <;> simp [hl]

/-- A thread that releases a lock holds its others. -/
theorem held_release (owner : L → Option T) (l : L) :
    {l' | Function.update owner l none l' = some t} = {l' | owner l' = some t} \ {l} := by
  ext l'
  by_cases hl : l' = l <;> simp [hl]

/-- **Two threads at work need no common lock.** -/
theorem Disciplined.disjoint (h : Disciplined needs s) {t' : T} (hne : t ≠ t') {w w' : W}
    {next next' : Bool → LockProgram L W} (hwork : s.programs t = .work w next)
    (hwork' : s.programs t' = .work w' next') : ∀ l ∈ needs w, l ∉ needs w' := by
  have ht := h t
  have ht' := h t'
  rw [hwork] at ht
  rw [hwork'] at ht'
  intro l hl hl'
  have howner : s.owner l = some t := ht.1 hl
  have howner' : s.owner l = some t' := ht'.1 hl'
  exact hne (Option.some.inj (howner.symm.trans howner'))

variable [DecidableEq T]

/-- What a step does. -/
theorem advance_cases {answer : Bool} (h : s.advance t answer = some s') :
    (∃ l rest, s.programs t = .lock l rest ∧ s.owner l = none ∧
        s' = ⟨Function.update s.owner l (some t), Function.update s.programs t rest⟩) ∨
      (∃ l rest, s.programs t = .unlock l rest ∧
        s' = ⟨Function.update s.owner l none, Function.update s.programs t rest⟩) ∨
      ∃ w next, s.programs t = .work w next ∧
        s' = ⟨s.owner, Function.update s.programs t (next answer)⟩ := by
  unfold LockState.advance at h
  cases hprogram : s.programs t with
  | done =>
    rw [hprogram] at h
    cases h
  | lock l rest =>
    simp only [hprogram] at h
    split_ifs at h with hfree
    cases h
    exact Or.inl ⟨l, rest, rfl, hfree, rfl⟩
  | unlock l rest =>
    rw [hprogram] at h
    cases h
    exact Or.inr (Or.inl ⟨l, rest, rfl, rfl⟩)
  | work w next =>
    rw [hprogram] at h
    cases h
    exact Or.inr (Or.inr ⟨w, next, rfl, rfl⟩)

/-- A thread that holds these locks gets this program; the others hold what they held. -/
theorem Disciplined.update (h : Disciplined needs s) {owner : L → Option T}
    {program : LockProgram L W} (hself : KeepsOrder needs {l | owner l = some t} program)
    (hothers : ∀ t', t' ≠ t → {l | owner l = some t'} = {l | s.owner l = some t'}) :
    Disciplined needs ⟨owner, Function.update s.programs t program⟩ := by
  intro t'
  simp only [LockState.held]
  by_cases ht : t' = t
  · subst ht
    rwa [Function.update_self]
  · rw [Function.update_of_ne ht, hothers t' ht]
    exact h t'

/-- A thread that starts another program holds nothing. -/
theorem Disciplined.call (h : Disciplined needs s) (hidle : s.programs t = .done)
    {program : LockProgram L W} (hprogram : KeepsOrder needs ∅ program) :
    Disciplined needs ⟨s.owner, Function.update s.programs t program⟩ := by
  have hnone := h t
  rw [hidle] at hnone
  refine h.update ?_ fun _ _ => rfl
  change KeepsOrder needs (s.held t) program
  rwa [show s.held t = ∅ from hnone]

/-- **A step keeps the discipline.** -/
theorem Disciplined.advance (h : Disciplined needs s) {answer : Bool}
    (hstep : s.advance t answer = some s') : Disciplined needs s' := by
  have ht := h t
  obtain ⟨l, rest, hprogram, hfree, rfl⟩ | ⟨l, rest, hprogram, rfl⟩ | ⟨w, next, hprogram, rfl⟩ :=
    advance_cases hstep
  · rw [hprogram] at ht
    refine h.update ?_ fun t' hne => held_update_of_ne hne (.inl hfree) (.inr rfl)
    rw [held_acquire]
    exact ht.2
  · rw [hprogram] at ht
    refine h.update ?_ fun t' hne => held_update_of_ne hne (.inr ht.1) (.inl rfl)
    rw [held_release]
    exact ht.2
  · rw [hprogram] at ht
    exact h.update (ht.2 answer) fun _ _ => rfl

/-- A thread that cannot go on waits for a lock that another one holds. -/
theorem waits_of_stuck (hactive : s.programs t ≠ .done)
    (hstuck : ∀ answer, s.advance t answer = none) :
    ∃ l rest t', s.programs t = .lock l rest ∧ s.owner l = some t' := by
  have hstuck := hstuck true
  unfold LockState.advance at hstuck
  cases hprogram : s.programs t with
  | done => exact absurd hprogram hactive
  | lock l rest =>
    simp only [hprogram] at hstuck
    split_ifs at hstuck with hfree
    obtain ⟨t', howner⟩ := Option.ne_none_iff_exists'.mp hfree
    exact ⟨l, rest, t', rfl, howner⟩
  | unlock l rest =>
    rw [hprogram] at hstuck
    cases hstuck
  | work w next =>
    rw [hprogram] at hstuck
    cases hstuck

/-- **No deadlock**: as long as a thread has not finished, some thread can go on. -/
theorem Disciplined.exists_step [Finite T] (h : Disciplined needs s)
    (hactive : s.programs t ≠ .done) : ∃ t answer s', s.advance t answer = some s' := by
  by_contra hnone
  push Not at hnone
  have hstuck : ∀ t answer, s.advance t answer = none := fun t answer =>
    Option.eq_none_iff_forall_ne_some.mpr (hnone t answer)
  have : Nonempty T := ⟨t⟩
  -- the thread that waits for the greatest lock
  obtain ⟨t₁, hmax⟩ := Finite.exists_max fun t => (s.programs t).wanted
  have hactive₁ : s.programs t₁ ≠ .done := by
    obtain ⟨l, rest, -, hprogram, -⟩ := waits_of_stuck hactive (hstuck t)
    intro hdone
    have hle := hmax t
    rw [hprogram, hdone] at hle
    exact WithBot.not_coe_le_bot l hle
  obtain ⟨l₁, rest₁, t₂, hprogram₁, howner⟩ := waits_of_stuck hactive₁ (hstuck t₁)
  have ht₂ := h t₂
  have hheld : l₁ ∈ s.held t₂ := howner
  have hactive₂ : s.programs t₂ ≠ .done := by
    intro hdone
    rw [hdone] at ht₂
    exact Set.eq_empty_iff_forall_notMem.mp ht₂ l₁ hheld
  obtain ⟨l₂, rest₂, -, hprogram₂, -⟩ := waits_of_stuck hactive₂ (hstuck t₂)
  rw [hprogram₂] at ht₂
  have hle := hmax t₂
  rw [hprogram₁, hprogram₂] at hle
  exact (ht₂.1 l₁ hheld).not_ge (WithBot.coe_le_coe.mp hle)

/-- A step uses up one of the steps that its thread has left. -/
theorem steps_advance {answer : Bool} (hstep : s.advance t answer = some s') :
    ∃ program, s'.programs = Function.update s.programs t program ∧
      program.steps < (s.programs t).steps := by
  obtain ⟨l, rest, hprogram, -, rfl⟩ | ⟨l, rest, hprogram, rfl⟩ | ⟨w, next, hprogram, rfl⟩ :=
    advance_cases hstep
  · exact ⟨rest, rfl, by rw [hprogram]; exact Nat.lt_succ_self _⟩
  · exact ⟨rest, rfl, by rw [hprogram]; exact Nat.lt_succ_self _⟩
  · exact ⟨next answer, rfl, by rw [hprogram]; exact steps_next_lt w next answer⟩

/-- The steps that all threads together have left. -/
theorem total_advance [Fintype T] {answer : Bool} (hstep : s.advance t answer = some s') :
    total steps s'.programs < total steps s.programs := by
  obtain ⟨program, heq, hlt⟩ := steps_advance hstep
  have htotal := total_update steps s.programs t program
  rw [← heq] at htotal
  omega

end Threads

end MyRedis.Lib

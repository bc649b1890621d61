import MyRedis.Lib.Progress
import MyRedis.Model.ConcurrentQueue

/-!
# The blocking queue is a queue, and wakes those that wait

The mutex is held by the thread that is in one of the sections (`Guarded.mutex`), so a thread
that has found an element still finds it when it takes it.  To the callers the queue is one whose
operations are atomic: an element is added when it is pushed under the mutex and taken when it is
popped under the mutex (`queue_linearizable`).

`Push` notifies after it has unlocked the mutex, and a notification when nobody sleeps is lost.
No `Pop` sleeps through it for that: while a thread sleeps, there are at least as many threads
that are about to notify, or are awake and about to take an element, as there are elements
(`Guarded.awake`).  So when nothing moves any more, whoever still sleeps waits for an element
that has not been pushed, and without new calls this is reached (`pop_not_forgotten`).
-/

set_option autoImplicit false

namespace MyRedis.Analysis

open MyRedis.Model MyRedis.Lib
open MyRedis.Model.ConcurrentQueue (Thread State Action)

namespace BlockingQueue

variable {α : Type} {n : ℕ} {s s' : State α n} {i : Fin n} {a : Action α n}

/-! ## The steps -/

/-- To lock the mutex takes a thread from one place to the next. -/
inductive Locks : Thread α → Thread α → Prop where
  | push (value : α) : Locks (.pushLock value) (.pushing value)
  | pop : Locks .popLock .testing
  | woken : Locks .woken .testing

/-- All that a step can do. -/
inductive Moves (s : State α n) : Action α n → State α n → Prop where
  | callPush (i : Fin n) (value : α) : s.threads i = .outside →
      Moves s (.call i (.push value))
        ((s.record (.call i (.push value))).setThread i (.pushLock value))
  | callPop (i : Fin n) : s.threads i = .outside →
      Moves s (.call i .pop) ((s.record (.call i .pop)).setThread i .popLock)
  | lock (i : Fin n) (before after : Thread α) : s.threads i = before → Locks before after →
      s.mutex = none →
      Moves s (.proceed i) ({ s with mutex := some i }.setThread i after)
  | push (i : Fin n) (value : α) : s.threads i = .pushing value →
      Moves s (.proceed i) ({ s with queue := s.queue ++ [value] }.setThread i .pushUnlock)
  | unlock (i : Fin n) : s.threads i = .pushUnlock →
      Moves s (.proceed i) ({ s with mutex := none }.setThread i .notifying)
  | sleep (i : Fin n) : s.threads i = .testing → s.queue = [] →
      Moves s (.proceed i) ({ s with mutex := none }.setThread i .asleep)
  | find (i : Fin n) : s.threads i = .testing → s.queue ≠ [] →
      Moves s (.proceed i) (s.setThread i .popping)
  | pop (i : Fin n) (value : α) (queue : List α) : s.threads i = .popping →
      s.queue = value :: queue →
      Moves s (.proceed i) ({ s with queue }.setThread i (.popUnlock value))
  | popEmpty (i : Fin n) : s.threads i = .popping → s.queue = [] →
      Moves s (.proceed i) (s.setThread i .undefined)
  | finish (i : Fin n) (value : α) : s.threads i = .popUnlock value →
      Moves s (.proceed i)
        (({ s with mutex := none }.record (.answer i (some value))).setThread i .outside)
  | notifyNobody (i : Fin n) : s.threads i = .notifying → (∀ j, s.threads j ≠ .asleep) →
      Moves s (.notifyOne i none) ((s.record (.answer i none)).setThread i .outside)
  | notify (i j : Fin n) : s.threads i = .notifying → s.threads j = .asleep → j ≠ i →
      Moves s (.notifyOne i (some j))
        (((s.record (.answer i none)).setThread i .outside).setThread j .woken)
  | wake (i : Fin n) : s.threads i = .asleep → Moves s (.spuriousWakeup i) (s.setThread i .woken)

/-- Only a thread in `wait` sleeps.
SOURCE: ConcurrentQueue.h:10-23 -/
theorem sleeps_iff {thread : Thread α} : thread.sleeps = true ↔ thread = .asleep := by
  cases thread <;> simp [Thread.sleeps]

/-- A thread locks the mutex only while nobody has it.
SOURCE: ConcurrentQueue.h:11, 18-19 -/
theorem moves_of_lock {before after : Thread α} (hthread : s.threads i = before)
    (hlocks : Locks before after) (hstep : s.lock i after = some s') : Moves s (.proceed i) s' := by
  rw [State.lock] at hstep
  split at hstep
  · rename_i hfree
    cases hstep
    exact .lock i before after hthread hlocks hfree
  · cases hstep

/-- Each place in `Push` and `Pop` has its own next step.
SOURCE: ConcurrentQueue.h:10-23 -/
theorem moves_of_proceed (hstep : s.proceed i = some s') : Moves s (.proceed i) s' := by
  rw [State.proceed] at hstep
  split at hstep
  · rename_i value hthread
    exact moves_of_lock hthread (.push value) hstep
  · rename_i value hthread
    cases hstep
    exact .push i value hthread
  · rename_i hthread
    cases hstep
    exact .unlock i hthread
  · rename_i hthread
    exact moves_of_lock hthread .pop hstep
  · rename_i hthread
    exact moves_of_lock hthread .woken hstep
  · rename_i hthread
    split_ifs at hstep with hempty
    · cases hstep
      exact .sleep i hthread hempty
    · cases hstep
      exact .find i hthread hempty
  · rename_i hthread
    split at hstep
    · rename_i hempty
      cases hstep
      exact .popEmpty i hthread hempty
    · rename_i value queue hqueue
      cases hstep
      exact .pop i value queue hthread hqueue
  · rename_i value hthread
    cases hstep
    exact .finish i value hthread
  all_goals cases hstep

/-- `notify_one` wakes one thread that sleeps, and does nothing only if there is none.
SOURCE: ConcurrentQueue.h:14 -/
theorem moves_of_notifyOne {target : Option (Fin n)} (hstep : s.notifyOne i target = some s') :
    Moves s (.notifyOne i target) s' := by
  rw [State.notifyOne] at hstep
  split at hstep
  · rename_i hthread
    have hself : ¬ ((Function.update s.threads i .outside : Fin n → Thread α) i).sleeps = true := by
      rw [Function.update_self]
      exact Bool.false_ne_true
    have hother {j : Fin n} (hj : j ≠ i) :
        (Function.update s.threads i .outside : Fin n → Thread α) j = s.threads j :=
      Function.update_of_ne hj _ _
    cases target with
    | none =>
      dsimp only at hstep
      split_ifs at hstep with hasleep
      cases hstep
      refine .notifyNobody i hthread fun j hj => hasleep ⟨j, ?_⟩
      have hne : j ≠ i := by
        rintro rfl
        rw [hthread] at hj
        cases hj
      exact sleeps_iff.mpr ((hother hne).trans hj)
    | some j =>
      dsimp only at hstep
      split_ifs at hstep with hasleep
      cases hstep
      have hne : j ≠ i := by
        rintro rfl
        exact hself hasleep
      exact .notify i j hthread ((hother hne).symm.trans (sleeps_iff.mp hasleep)) hne
  · cases hstep

/-- The steps of the model are those listed in `Moves`.
SOURCE: ConcurrentQueue.h:10-23 -/
theorem moves_of_step (hstep : s.step a = some s') : Moves s a s' := by
  cases a with
  | call i op =>
    rw [State.step] at hstep
    unfold State.call at hstep
    split at hstep
    · rename_i hthread
      cases op with
      | push value =>
        cases hstep
        exact .callPush i value hthread
      | pop =>
        cases hstep
        exact .callPop i hthread
    · cases hstep
  | proceed i => exact moves_of_proceed hstep
  | notifyOne i target => exact moves_of_notifyOne hstep
  | spuriousWakeup i =>
    rw [State.step] at hstep
    split at hstep
    · rename_i hthread
      cases hstep
      exact .wake i hthread
    · cases hstep

/-! ## The mutex -/

/-- The thread is in a section. -/
def holds : Thread α → Bool
  | .pushing _ | .pushUnlock | .testing | .popping | .popUnlock _ | .undefined => true
  | .outside | .pushLock _ | .notifying | .popLock | .asleep | .woken => false

/-- The thread that is in a section has the mutex. -/
def OneHolder (threads : Fin n → Thread α) (mutex : Option (Fin n)) : Prop :=
  ∀ j, holds (threads j) = true ↔ mutex = some j

section OneHolder

variable {threads : Fin n → Thread α} {mutex : Option (Fin n)} {thread : Thread α}

/-- A thread moves inside its section, or outside of one.
SOURCE: ConcurrentQueue.h:10-23 -/
theorem OneHolder.keep (h : OneHolder threads mutex) (hsame : holds thread = holds (threads i)) :
    OneHolder (Function.update threads i thread) mutex := by
  intro j
  by_cases hj : j = i
  · rw [hj, Function.update_self, hsame]
    exact h i
  · rw [Function.update_of_ne hj]
    exact h j

/-- A thread enters a section with a mutex that was free.
SOURCE: ConcurrentQueue.h:11, 18-19 -/
theorem OneHolder.acquire (h : OneHolder threads none) (hthread : holds thread = true) :
    OneHolder (Function.update threads i thread) (some i) := by
  intro j
  by_cases hj : j = i
  · rw [hj, Function.update_self, hthread]
    simp only
  · rw [Function.update_of_ne hj]
    have hnot : ¬ holds (threads j) = true := fun hholds => by cases (h j).mp hholds
    exact ⟨fun hholds => absurd hholds hnot, fun heq => absurd (Option.some.inj heq).symm hj⟩

/-- The thread that has the mutex leaves its section and gives the mutex back.
SOURCE: ConcurrentQueue.h:13, 19, 23 -/
theorem OneHolder.release (h : OneHolder threads mutex) (hi : holds (threads i) = true)
    (hthread : holds thread = false) : OneHolder (Function.update threads i thread) none := by
  intro j
  have hnot : ¬ holds (Function.update threads i thread j) = true := by
    by_cases hj : j = i
    · rw [hj, Function.update_self, hthread]
      exact Bool.false_ne_true
    · rw [Function.update_of_ne hj]
      intro hholds
      exact hj (Option.some.inj (((h j).mp hholds).symm.trans ((h i).mp hi)))
  exact ⟨fun hholds => absurd hholds hnot, fun heq => by cases heq⟩

/-- **Mutual exclusion**: after every step the thread in a section is the one that has the mutex.
SOURCE: ConcurrentQueue.h:10-23 -/
theorem oneHolder_step (h : OneHolder s.threads s.mutex) (hmoves : Moves s a s') :
    OneHolder s'.threads s'.mutex := by
  cases hmoves with
  | callPush i value hthread | callPop i hthread => exact h.keep (by rw [hthread]; rfl)
  | lock i before after hthread hlocks hfree =>
    have hnone : OneHolder s.threads none := hfree ▸ h
    refine hnone.acquire ?_
    cases hlocks <;> rfl
  | push i value hthread => exact h.keep (by rw [hthread]; rfl)
  | unlock i hthread | sleep i hthread => exact h.release (by rw [hthread]; rfl) rfl
  | find i hthread | pop i value queue hthread | popEmpty i hthread =>
    exact h.keep (by rw [hthread]; rfl)
  | finish i value hthread => exact h.release (by rw [hthread]; rfl) rfl
  | notifyNobody i hthread => exact h.keep (by rw [hthread]; rfl)
  | notify i j hthread hasleep hne =>
    have hafter : OneHolder (Function.update s.threads i .outside) s.mutex :=
      h.keep (by rw [hthread]; rfl)
    exact hafter.keep (by rw [Function.update_of_ne hne, hasleep]; rfl)
  | wake i hthread => exact h.keep (by rw [hthread]; rfl)

end OneHolder

/-! ## Those that are awake -/

/-- The threads that will notify, or will take an element if they find one. -/
def signals : Thread α → ℕ
  | .pushUnlock | .notifying | .woken | .testing | .popping => 1
  | .outside | .pushLock _ | .pushing _ | .popLock | .asleep | .popUnlock _ | .undefined => 0

/-- What holds in every state. -/
structure Guarded (s : State α n) : Prop where
  mutex : OneHolder s.threads s.mutex
  found : ∀ i, s.threads i = .popping → s.queue ≠ []
  defined : ∀ i, s.threads i ≠ .undefined
  awake : (∃ i, s.threads i = .asleep) → s.queue.length ≤ total signals s.threads

/-- A place that the moving thread did not go to was there before. -/
theorem exists_of_update {threads : Fin n → Thread α} {thread x : Thread α} (hne : thread ≠ x)
    (h : ∃ j, Function.update threads i thread j = x) : ∃ j, threads j = x := by
  obtain ⟨j, hj⟩ := h
  by_cases hji : j = i
  · rw [hji, Function.update_self] at hj
    exact absurd hj hne
  · rw [Function.update_of_ne hji] at hj
    exact ⟨j, hj⟩

/-- A thread moves on that does not go to sleep, and the queue grows by no more than its signals.
SOURCE: ConcurrentQueue.h:10-23 -/
theorem Guarded.awake_update (h : Guarded s) {queue : List α} {thread : Thread α}
    (hthread : thread ≠ .asleep)
    (hle : queue.length + signals (s.threads i) ≤ s.queue.length + signals thread)
    (hasleep : ∃ j, Function.update s.threads i thread j = .asleep) :
    queue.length ≤ total signals (Function.update s.threads i thread) := by
  have hold := h.awake (exists_of_update hthread hasleep)
  have htotal := total_update signals s.threads i thread
  omega

/-- While a thread sleeps, no step leaves more elements than there are threads that will notify or
are awake to take one: a new element comes with its notification, and `notify_one` hands it on.
SOURCE: ConcurrentQueue.h:10-23 -/
theorem Guarded.awake_step (h : Guarded s) (hmoves : Moves s a s')
    (hasleep : ∃ i, s'.threads i = .asleep) : s'.queue.length ≤ total signals s'.threads := by
  cases hmoves with
  | callPush i value hthread =>
    exact h.awake_update (by simp) (by rw [hthread]; exact le_rfl) hasleep
  | callPop i hthread =>
    exact h.awake_update (by simp) (by rw [hthread]; exact le_rfl) hasleep
  | lock i before after hthread hlocks hfree =>
    refine h.awake_update ?_ ?_ hasleep
    · rintro rfl
      cases hlocks
    · rw [hthread]
      cases hlocks with
      | push value => exact le_rfl
      | pop => exact Nat.le_succ _
      | woken => exact le_rfl
  | push i value hthread =>
    refine h.awake_update (by simp) ?_ hasleep
    have hlength : (s.queue ++ [value]).length = s.queue.length + 1 := List.length_append
    rw [hthread]
    exact hlength.le
  | unlock i hthread =>
    exact h.awake_update (by simp) (by rw [hthread]; exact le_rfl) hasleep
  | sleep i hthread hempty =>
    show s.queue.length ≤ _
    rw [hempty]
    exact Nat.zero_le _
  | find i hthread hne =>
    exact h.awake_update (by simp) (by rw [hthread]; exact le_rfl) hasleep
  | pop i value queue hthread hqueue =>
    refine h.awake_update (by simp) ?_ hasleep
    rw [hthread, hqueue]
    exact le_rfl
  | popEmpty i hthread hempty => exact absurd hempty (h.found i hthread)
  | finish i value hthread =>
    exact h.awake_update (by simp) (by rw [hthread]; exact le_rfl) hasleep
  | notifyNobody i hthread hnobody =>
    obtain ⟨j, hj⟩ := exists_of_update (by simp) hasleep
    exact absurd hj (hnobody j)
  | notify i j hthread hj hne =>
    -- one thread less that will notify, one more that is awake
    have hold := h.awake ⟨j, hj⟩
    have hfirst := total_update signals s.threads i .outside
    have hsecond := total_update signals (Function.update s.threads i .outside) j .woken
    rw [Function.update_of_ne hne, hj] at hsecond
    rw [hthread] at hfirst
    simp only [signals] at hfirst hsecond
    show s.queue.length ≤ total signals (Function.update (Function.update s.threads i _) j _)
    omega
  | wake i hthread =>
    exact h.awake_update (by simp) (by rw [hthread]; exact Nat.le_succ _) hasleep

/-- What a thread has found is still there.
SOURCE: ConcurrentQueue.h:19-21 -/
theorem Guarded.found_step (h : Guarded s) (hmoves : Moves s a s') (j : Fin n)
    (hj : s'.threads j = .popping) : s'.queue ≠ [] := by
  have hkept {i : Fin n} {thread : Thread α} (hne : thread ≠ .popping)
      (hupdate : Function.update s.threads i thread j = .popping) :
      j ≠ i ∧ s.threads j = .popping := by
    by_cases hji : j = i
    · rw [hji, Function.update_self] at hupdate
      exact absurd hupdate hne
    · rw [Function.update_of_ne hji] at hupdate
      exact ⟨hji, hupdate⟩
  cases hmoves with
  | callPush | callPop | unlock | sleep | finish | notifyNobody | wake =>
    exact h.found j (hkept (by simp) hj).2
  | lock i before after hthread hlocks hfree =>
    refine h.found j (hkept ?_ hj).2
    rintro rfl
    cases hlocks
  | push i value hthread => exact List.concat_ne_nil value s.queue
  | find i hthread hne => exact hne
  | pop i value queue hthread hqueue =>
    -- two threads would have the mutex
    obtain ⟨hji, hpopping⟩ := hkept (by simp) hj
    have hmine : s.mutex = some j := (h.mutex j).mp (by rw [hpopping]; rfl)
    have hother : s.mutex = some i := (h.mutex i).mp (by rw [hthread]; rfl)
    exact absurd (Option.some.inj (hmine.symm.trans hother)) hji
  | popEmpty i hthread hempty => exact absurd hempty (h.found i hthread)
  | notify i k hthread hk hne =>
    by_cases hjk : j = k
    · subst hjk
      rw [show (((s.record _).setThread i .outside).setThread j .woken).threads j = .woken from
        Function.update_self _ _ _] at hj
      cases hj
    · have hfirst : Function.update s.threads i .outside j = .popping :=
        (Function.update_of_ne hjk _ _).symm.trans hj
      exact h.found j (hkept (by simp) hfirst).2

/-- `front` is called on a queue that is not empty, since what the thread has found is still there.
SOURCE: ConcurrentQueue.h:20 -/
theorem Guarded.defined_step (h : Guarded s) (hmoves : Moves s a s') (j : Fin n) :
    s'.threads j ≠ .undefined := by
  have hkept {threads : Fin n → Thread α} {i : Fin n} {thread : Thread α}
      (hne : thread ≠ .undefined) (hold : ∀ j, threads j ≠ .undefined) (j : Fin n) :
      Function.update threads i thread j ≠ .undefined := fun hj =>
    (exists_of_update hne ⟨j, hj⟩).elim hold
  cases hmoves with
  | callPush | callPop | push | unlock | sleep | find | pop | finish | notifyNobody | wake =>
    exact hkept (by simp) h.defined j
  | lock i before after hthread hlocks hfree =>
    refine hkept ?_ h.defined j
    rintro rfl
    cases hlocks
  | popEmpty i hthread hempty => exact absurd hempty (h.found i hthread)
  | notify i k => exact hkept (by simp) (hkept (by simp) h.defined) j

/-- **Every step keeps it.**
SOURCE: ConcurrentQueue.h:10-23 -/
theorem Guarded.step (h : Guarded s) (hmoves : Moves s a s') : Guarded s' :=
  ⟨oneHolder_step h.mutex hmoves, h.found_step hmoves, h.defined_step hmoves,
    h.awake_step hmoves⟩

/-- Nobody has called yet, and the queue is empty.
SOURCE: ConcurrentQueue.h:25-28 -/
theorem guarded_init : Guarded (State.init : State α n) where
  mutex j := ⟨Bool.noConfusion, fun h => by cases h⟩
  found j hj := by cases hj
  defined j hj := by cases hj
  awake hasleep := Nat.zero_le _

/-- The states that the threads lead to. -/
abbrev Reachable (s : State α n) : Prop :=
  Reaches (fun s a s' => s.step a = some s') (fun _ _ => True) State.init s

/-- All this holds in every state.
SOURCE: ConcurrentQueue.h:10-23 -/
theorem guarded (h : Reachable s) : Guarded s :=
  h.invariant guarded_init fun _ _ _ h _ hstep => h.step (moves_of_step hstep)

/-! ## The atomic queue -/

/-- How far a call has come: it has taken effect or not. -/
def callState : Thread α → CallState (QueueOp α) (Option α)
  | .outside => .idle
  | .pushLock value | .pushing value => .pending (.push value)
  | .pushUnlock | .notifying => .done none
  | .popLock | .testing | .asleep | .woken | .popping | .undefined => .pending .pop
  | .popUnlock value => .done (some value)

/-- The atomic queue, when these operations have taken effect. -/
def atomic (s : State α n) (effects : List (QueueOp α × Option α)) :
    Atomic (Fin n) (List α) (QueueOp α) (Option α) :=
  ⟨s.queue, fun i => callState (s.threads i), s.history, effects⟩

section Atomic

variable {thread : Thread α} {effects : List (QueueOp α × Option α)}

/-- What the callers see of a thread that moves: how far its call has come.
SOURCE: ConcurrentQueue.h:10-23 -/
theorem atomic_setThread (s : State α n) (i : Fin n) (thread : Thread α)
    (effects : List (QueueOp α × Option α)) :
    atomic (s.setThread i thread) effects = { atomic s effects with
      calls := Function.update (atomic s effects).calls i (callState thread) } := by
  have hcalls : (fun j => callState (Function.update s.threads i thread j)) =
      Function.update (fun j => callState (s.threads j)) i (callState thread) := by
    funext j
    by_cases hj : j = i
    · rw [hj, Function.update_self, Function.update_self]
    · rw [Function.update_of_ne hj, Function.update_of_ne hj]
  simp only [atomic, State.setThread, hcalls]

/-- The callers do not see a step in which the call comes no further.
SOURCE: ConcurrentQueue.h:10-23 -/
theorem atomic_setThread_same (hsame : callState thread = callState (s.threads i)) :
    atomic (s.setThread i thread) effects = atomic s effects := by
  have hcalls : (atomic s effects).calls i = callState (s.threads i) := rfl
  rw [atomic_setThread, hsame, ← hcalls, Function.update_eq_self]

/-- A call begins.
SOURCE: ConcurrentQueue.h:10, 17 -/
theorem atomic_call (hidle : s.threads i = .outside) {op : QueueOp α}
    (hop : callState thread = .pending op) :
    (atomic s effects).step QueueOp.apply (.call i op) =
      some (atomic ((s.record (.call i op)).setThread i thread) effects) := by
  rw [Atomic.step_call (congrArg callState hidle), atomic_setThread, hop]
  rfl

/-- A call takes effect when the queue changes under the mutex.
SOURCE: ConcurrentQueue.h:12, 20-21 -/
theorem atomic_commit {op : QueueOp α} {queue : List α} {res : Option α}
    (hpending : callState (s.threads i) = .pending op)
    (happly : QueueOp.apply s.queue op = some (queue, res))
    (hdone : callState thread = .done res) :
    (atomic s effects).step QueueOp.apply (.commit i) =
      some (atomic ({ s with queue }.setThread i thread) (effects ++ [(op, res)])) := by
  rw [Atomic.step_commit (a := atomic s effects) hpending happly, atomic_setThread, hdone]
  rfl

/-- A call returns what it had when it took effect.
SOURCE: ConcurrentQueue.h:15, 22-23 -/
theorem atomic_answer {res : Option α} (hdone : callState (s.threads i) = .done res) :
    (atomic s effects).step QueueOp.apply (.answer i) =
      some (atomic ((s.record (.answer i res)).setThread i .outside) effects) := by
  rw [Atomic.step_answer (a := atomic s effects) hdone, atomic_setThread]
  rfl

end Atomic

/-- **Each step is one of the atomic queue, or is not seen.**
SOURCE: ConcurrentQueue.h:10-23 -/
theorem Guarded.simulates (h : Guarded s) (hmoves : Moves s a s')
    (effects : List (QueueOp α × Option α)) :
    (∃ label effects', (atomic s effects).step QueueOp.apply label = some (atomic s' effects')) ∨
      atomic s' effects = atomic s effects := by
  cases hmoves with
  | callPush i value hthread => exact Or.inl ⟨_, _, atomic_call hthread rfl⟩
  | callPop i hthread => exact Or.inl ⟨_, _, atomic_call hthread rfl⟩
  | lock i before after hthread hlocks hfree =>
    refine Or.inr (atomic_setThread_same (s := { s with mutex := some i }) ?_)
    rw [hthread]
    cases hlocks <;> rfl
  | push i value hthread =>
    exact Or.inl ⟨_, _, atomic_commit (by rw [hthread]; rfl) rfl rfl⟩
  | unlock i hthread =>
    refine Or.inr (atomic_setThread_same (s := { s with mutex := none }) ?_)
    rw [hthread]
    rfl
  | sleep i hthread hempty =>
    refine Or.inr (atomic_setThread_same (s := { s with mutex := none }) ?_)
    rw [hthread]
    rfl
  | find i hthread hne => exact Or.inr (atomic_setThread_same (by rw [hthread]; rfl))
  | pop i value queue hthread hqueue =>
    exact Or.inl ⟨_, _, atomic_commit (by rw [hthread]; rfl) (by rw [hqueue]; rfl) rfl⟩
  | popEmpty i hthread hempty => exact absurd hempty (h.found i hthread)
  | finish i value hthread =>
    exact Or.inl ⟨_, _, atomic_answer (s := { s with mutex := none }) (by rw [hthread]; rfl)⟩
  | notifyNobody i hthread hnobody =>
    exact Or.inl ⟨_, _, atomic_answer (by rw [hthread]; rfl)⟩
  | notify i j hthread hj hne =>
    refine Or.inl ⟨_, effects, (atomic_answer (by rw [hthread]; rfl)).trans (congrArg some ?_)⟩
    refine (atomic_setThread_same ?_).symm
    rw [show ((s.record _).setThread i .outside).threads j = s.threads j from
      Function.update_of_ne hne _ _, hj]
    rfl
  | wake i hthread => exact Or.inr (atomic_setThread_same (by rw [hthread]; rfl))

/-- **The blocking queue is linearizable**: what its callers see in any run of any number of
threads is what an atomic queue may show them, which holds the same elements; what was popped,
followed by what is in the queue, is what was pushed, in that order.
SOURCE: ConcurrentQueue.h:8-29, concurrent_queue.h:9-30 -/
theorem queue_linearizable (h : Reachable s) :
    ∃ q : Atomic (Fin n) (List α) (QueueOp α) (Option α),
      q.Reachable QueueOp.apply [] ∧ q.history = s.history ∧ q.value = s.queue ∧
      QueueOp.pushed q.effects = QueueOp.popped q.effects ++ s.queue := by
  have hsimulated : Guarded s ∧ ∃ effects, (atomic s effects).Reachable QueueOp.apply [] := by
    refine h.invariant (I := fun s => Guarded s ∧
      ∃ effects, (atomic s effects).Reachable QueueOp.apply []) ⟨guarded_init, [], .refl⟩ ?_
    rintro s a s' ⟨hguarded, effects, hreach⟩ - hstep
    have hmoves := moves_of_step hstep
    refine ⟨hguarded.step hmoves, ?_⟩
    obtain ⟨label, effects', hatomic⟩ | hsame := hguarded.simulates hmoves effects
    · exact ⟨effects', hreach.tail trivial hatomic⟩
    · exact ⟨effects, hsame ▸ hreach⟩
  obtain ⟨-, effects, hreach⟩ := hsimulated
  exact ⟨_, hreach, rfl, rfl, QueueOp.pushed_eq (Atomic.legal hreach)⟩

/-- One thread pushes while another one waits for an element. -/
def handedOver (i j : Fin n) : List (Action ℕ n) :=
  [.call j .pop, .proceed j, .proceed j, .call i (.push 7), .proceed i, .proceed i, .proceed i,
    .notifyOne i (some j), .proceed j, .proceed j, .proceed j, .proceed j]

/-- An element that is pushed while another thread waits for one.
SOURCE: ConcurrentQueue.h:10-23 -/
theorem queue_linearizable_handedOver :
    ∃ s : State ℕ 2, runAll State.step (fun _ _ => True) State.init (handedOver 0 1) = some s ∧
      ∃ q : Atomic (Fin 2) (List ℕ) (QueueOp ℕ) (Option ℕ), q.Reachable QueueOp.apply [] ∧
        q.history = [.call 1 .pop, .call 0 (.push 7), .answer 0 none, .answer 1 (some 7)] ∧
        q.value = [] := by
  have hrun : (runAll State.step (fun _ _ => True) (State.init : State ℕ 2)
      (handedOver 0 1)).isSome := rfl
  obtain ⟨s, hs⟩ := Option.isSome_iff_exists.mp hrun
  obtain ⟨q, hreach, hhistory, hvalue, -⟩ := queue_linearizable (reaches_of_runAll hs)
  have hseen : (runAll State.step (fun _ _ => True) (State.init : State ℕ 2) (handedOver 0 1)).map
      (fun s => (s.history, s.queue)) =
      some ([.call 1 .pop, .call 0 (.push 7), .answer 0 none, .answer 1 (some 7)], []) := rfl
  rw [hs, Option.map_some, Option.some.injEq, Prod.mk.injEq] at hseen
  exact ⟨s, hs, q, hreach, hhistory.trans hseen.1, hvalue.trans hseen.2⟩

/-! ## Nobody is forgotten -/

/-- The steps of the calls that have been made. -/
def Internal : Action α n → Prop
  | .proceed _ | .notifyOne _ _ => True
  | .call _ _ | .spuriousWakeup _ => False

/-- How many steps a thread may still cause: `notify_one` makes another thread take three. -/
def rank : Thread α → ℕ
  | .pushLock _ => 8
  | .pushing _ => 7
  | .pushUnlock => 6
  | .notifying => 5
  | .popLock | .woken => 4
  | .testing => 3
  | .popping => 2
  | .popUnlock _ => 1
  | .outside | .asleep | .undefined => 0

/-- Every step of a call that has been made leaves fewer of them: `notify_one` is worth the three
steps of the thread that it wakes.
SOURCE: ConcurrentQueue.h:10-23 -/
theorem rank_step (hinternal : Internal a) (hmoves : Moves s a s') :
    total rank s'.threads < total rank s.threads := by
  have hlower {i : Fin n} {thread : Thread α} (h : rank thread < rank (s.threads i)) :
      total rank (Function.update s.threads i thread) < total rank s.threads := by
    have htotal := total_update rank s.threads i thread
    omega
  cases hmoves with
  | callPush | callPop | wake => exact hinternal.elim
  | lock i before after hthread hlocks hfree =>
    apply hlower
    rw [hthread]
    cases hlocks <;> simp only [rank] <;> omega
  | push i value hthread | unlock i hthread | sleep i hthread | find i hthread
  | pop i value queue hthread | popEmpty i hthread | finish i value hthread
  | notifyNobody i hthread =>
    apply hlower
    rw [hthread]
    simp only [rank]
    omega
  | notify i j hthread hj hne =>
    have hfirst := total_update rank s.threads i .outside
    have hsecond := total_update rank (Function.update s.threads i .outside) j .woken
    rw [Function.update_of_ne hne, hj] at hsecond
    rw [hthread] at hfirst
    simp only [rank] at hfirst hsecond
    show total rank (Function.update (Function.update s.threads i _) j _) < _
    omega

/-- No step of the calls that have been made is possible. -/
def AtRest (s : State α n) : Prop := ∀ a, Internal a → s.step a = none

/-- A thread that is in a section can go on.
SOURCE: ConcurrentQueue.h:10-23 -/
theorem not_atRest_of_holds (hguarded : Guarded s) (hholds : holds (s.threads i) = true) :
    ¬ AtRest s := by
  intro hrest
  have hproceed : s.proceed i = none := hrest (.proceed i) trivial
  have hdefined := hguarded.defined i
  rw [State.proceed] at hproceed
  cases hthread : s.threads i with
  | outside | pushLock | notifying | popLock | asleep | woken =>
    rw [hthread] at hholds
    cases hholds
  | pushing | pushUnlock | popUnlock =>
    simp only [hthread] at hproceed
    cases hproceed
  | testing =>
    simp only [hthread] at hproceed
    split_ifs at hproceed
  | popping =>
    simp only [hthread] at hproceed
    split at hproceed <;> cases hproceed
  | undefined => exact hdefined hthread

/-- **At rest every thread is outside, or sleeps.**
SOURCE: ConcurrentQueue.h:10-23 -/
theorem outside_or_asleep (hguarded : Guarded s) (hrest : AtRest s) (i : Fin n) :
    s.threads i = .outside ∨ s.threads i = .asleep := by
  have hfree : s.mutex = none := by
    cases hmutex : s.mutex with
    | none => rfl
    | some j => exact absurd hrest (not_atRest_of_holds hguarded ((hguarded.mutex j).mpr hmutex))
  have hproceed : s.proceed i = none := hrest (.proceed i) trivial
  have hlock (thread : Thread α) : s.lock i thread ≠ none := by
    rw [State.lock, hfree]
    exact Option.some_ne_none _
  cases hthread : s.threads i with
  | outside => exact Or.inl rfl
  | asleep => exact Or.inr rfl
  | pushing | pushUnlock | testing | popping | popUnlock | undefined =>
    exact absurd hrest (not_atRest_of_holds hguarded (by rw [hthread]; rfl))
  | pushLock | popLock | woken =>
    rw [State.proceed] at hproceed
    simp only [hthread] at hproceed
    exact absurd hproceed (hlock _)
  | notifying =>
    exfalso
    by_cases hasleep : ∃ j, (s.threads j).sleeps = true
    · obtain ⟨j, hj⟩ := hasleep
      have hne : j ≠ i := by
        rintro rfl
        rw [hthread] at hj
        cases hj
      have hsame : ((s.record (.answer i none)).setThread i .outside).threads j = s.threads j :=
        Function.update_of_ne hne _ _
      have hnotify := hrest (.notifyOne i (some j)) trivial
      simp only [State.step, State.notifyOne, hthread, hsame, hj, if_true] at hnotify
      cases hnotify
    · have hnotify := hrest (.notifyOne i none) trivial
      simp only [State.step, State.notifyOne, hthread] at hnotify
      rw [if_neg] at hnotify
      · cases hnotify
      · rintro ⟨j, hj⟩
        obtain ⟨k, hk⟩ := exists_of_update (by simp) ⟨j, sleeps_iff.mp hj⟩
        exact hasleep ⟨k, sleeps_iff.mpr hk⟩

/-- **No `Pop` is forgotten**, and none takes the front of an empty queue.  Without new calls and
spurious wakeups the threads come to rest, in as many steps as their ranks say; then every `Push`
has returned, and every `Pop` has returned or the queue is empty.
SOURCE: ConcurrentQueue.h:10-23, concurrent_queue.h:12-25 -/
theorem pop_not_forgotten (h : Reachable s) {k : ℕ}
    (hrun : Run (fun s a s' => s.step a = some s') (fun _ a => Internal a) s k s') :
    (∀ i, s'.threads i ≠ .undefined) ∧ k ≤ total rank s.threads ∧
      (AtRest s' → ∀ i, s'.threads i = .outside ∨ s'.threads i = .asleep ∧ s'.queue = []) := by
  obtain ⟨hguarded, hlength⟩ := hrun.length_le_of_invariant (I := Guarded)
    (fun s => total rank s.threads) (guarded h)
    (fun _ _ _ h _ hstep => h.step (moves_of_step hstep)) fun _ _ _ _ hinternal hstep =>
      rank_step hinternal (moves_of_step hstep)
  refine ⟨hguarded.defined, by omega, fun hrest i => ?_⟩
  obtain houtside | hasleep := outside_or_asleep hguarded hrest i
  · exact Or.inl houtside
  · -- nobody is left that would take an element
    have hnone : total signals s'.threads = 0 := by
      rw [total_eq_zero]
      intro j
      obtain hj | hj := outside_or_asleep hguarded hrest j
      · rw [hj]
        rfl
      · rw [hj]
        rfl
    have hempty := hguarded.awake ⟨i, hasleep⟩
    rw [hnone] at hempty
    exact Or.inr ⟨hasleep, List.length_eq_zero_iff.mp (Nat.le_zero.mp hempty)⟩

/-- Nothing happens any more when every thread is outside or sleeps.
SOURCE: ConcurrentQueue.h:10-23 -/
theorem atRest_of_outside_or_asleep
    (h : ∀ i, s.threads i = .outside ∨ s.threads i = .asleep) : AtRest s := by
  intro a hinternal
  cases a with
  | call | spuriousWakeup => exact hinternal.elim
  | proceed i =>
    obtain hi | hi := h i
    · simp only [State.step, State.proceed, hi]
    · simp only [State.step, State.proceed, hi]
  | notifyOne i target =>
    obtain hi | hi := h i
    · simp only [State.step, State.notifyOne, hi]
    · simp only [State.step, State.notifyOne, hi]

/-- Two threads wait for an element, and a third one is about to push one. -/
def twoWait (i j k : Fin n) : List (Action ℕ n) :=
  [.call j .pop, .proceed j, .proceed j, .call k .pop, .proceed k, .proceed k, .call i (.push 7)]

/-- One of them gets it. -/
def oneGets (i j : Fin n) : List (Action ℕ n) :=
  [.proceed i, .proceed i, .proceed i, .notifyOne i (some j), .proceed j, .proceed j, .proceed j,
    .proceed j]

/-- The bound is met: eight steps are left, and all are taken.
SOURCE: ConcurrentQueue.h:10-23 -/
theorem pop_not_forgotten_oneGets :
    ∃ s s' : State ℕ 3,
      runAll State.step (fun _ _ => True) State.init (twoWait 0 1 2) = some s ∧
      runAll State.step (fun _ _ => True) s (oneGets 0 1) = some s' ∧
      total rank s.threads = 8 ∧ (oneGets (0 : Fin 3) 1).length ≤ total rank s.threads ∧
      AtRest s' ∧ s'.threads 2 = .asleep ∧ (∀ i, s'.threads i ≠ .undefined) ∧
      ∀ i, s'.threads i = .outside ∨ s'.threads i = .asleep ∧ s'.queue = [] := by
  have hwait : (runAll State.step (fun _ _ => True) (State.init : State ℕ 3)
      (twoWait 0 1 2)).isSome := rfl
  obtain ⟨s, hs⟩ := Option.isSome_iff_exists.mp hwait
  have hseen : (runAll State.step (fun _ _ => True) (State.init : State ℕ 3) (twoWait 0 1 2)).map
      (fun s => total rank s.threads) = some 8 := rfl
  have hfinish : ((runAll State.step (fun _ _ => True) (State.init : State ℕ 3)
      (twoWait 0 1 2)).bind fun s => (runAll State.step (fun _ _ => True) s (oneGets 0 1)).map
      fun s => (s.threads 0, s.threads 1, s.threads 2)) = some (.outside, .outside, .asleep) := rfl
  rw [hs] at hseen hfinish
  obtain ⟨s', hs', hthreads⟩ := Option.map_eq_some_iff.mp hfinish
  rw [Prod.mk.injEq, Prod.mk.injEq] at hthreads
  obtain ⟨h0, h1, h2⟩ := hthreads
  have hrest : AtRest s' := by
    apply atRest_of_outside_or_asleep
    rw [Fin.forall_fin_succ, Fin.forall_fin_two]
    exact ⟨Or.inl h0, Or.inl h1, Or.inr h2⟩
  have hinternal : ∀ a ∈ oneGets (0 : Fin 3) 1, Internal a := by
    simp only [oneGets, List.forall_mem_cons, Internal, List.not_mem_nil, false_imp_iff,
      implies_true, and_self]
  have hrun := (run_of_runAll hs' hinternal).mono fun _ _ h => h.1
  obtain ⟨hdefined, hlength, hwaiting⟩ := pop_not_forgotten (reaches_of_runAll hs) hrun
  exact ⟨s, s', hs, hs', Option.some.inj hseen, hlength, hrest, h2, hdefined, hwaiting hrest⟩

end BlockingQueue

end MyRedis.Analysis

import MyRedis.Lib.TransitionSystem
import Mathlib.Logic.Function.Basic

/-!
# Objects with atomic operations

A sequential object is a function `apply`: what an operation makes of a value and what it returns,
or `none` while it has to wait.  In `Atomic`, threads call the operations at any time, and each
operation takes effect at one moment between its call and its return, the `answer` (`commit`).

An implementation is linearizable if what its callers see, the `history` of calls and returns, is
a history of `Atomic`.  The effects of such a run are a run of the sequential object
(`Atomic.legal`).
-/

set_option autoImplicit false

namespace MyRedis.Lib

/-- Where a thread is with its operation. -/
inductive CallState (Op Res : Type) where
  | idle
  | pending (op : Op)
  | done (res : Res)
  deriving DecidableEq

/-- What the callers see. -/
inductive CallEvent (Thread Op Res : Type) where
  | call (i : Thread) (op : Op)
  | answer (i : Thread) (res : Res)
  deriving DecidableEq

/-- An object and the threads that use it, with what has happened so far: the calls and returns,
and the operations that have taken effect. -/
structure Atomic (Thread Val Op Res : Type) where
  value : Val
  calls : Thread → CallState Op Res
  history : List (CallEvent Thread Op Res)
  effects : List (Op × Res)

inductive AtomicStep (Thread Op : Type) where
  | call (i : Thread) (op : Op)
  | commit (i : Thread)
  | answer (i : Thread)

/-- A run of the sequential object: the operations and what they returned. -/
inductive Legal {Val Op Res : Type} (apply : Val → Op → Option (Val × Res)) (v₀ : Val) :
    List (Op × Res) → Val → Prop where
  | nil : Legal apply v₀ [] v₀
  | snoc {ops : List (Op × Res)} {v v' : Val} {op : Op} {res : Res} : Legal apply v₀ ops v →
      apply v op = some (v', res) → Legal apply v₀ (ops ++ [(op, res)]) v'

namespace Atomic

variable {Thread Val Op Res : Type}

/-- Nothing has been called yet. -/
def start (v₀ : Val) : Atomic Thread Val Op Res := ⟨v₀, fun _ => .idle, [], []⟩

variable [DecidableEq Thread]

def step (apply : Val → Op → Option (Val × Res)) (a : Atomic Thread Val Op Res) :
    AtomicStep Thread Op → Option (Atomic Thread Val Op Res)
  | .call i op =>
    match a.calls i with
    | .idle => some { a with
        calls := Function.update a.calls i (.pending op)
        history := a.history ++ [.call i op] }
    | _ => none
  | .commit i =>
    match a.calls i with
    | .pending op => (apply a.value op).map fun r => { a with
        value := r.1
        calls := Function.update a.calls i (.done r.2)
        effects := a.effects ++ [(op, r.2)] }
    | _ => none
  | .answer i =>
    match a.calls i with
    | .done res => some { a with
        calls := Function.update a.calls i .idle
        history := a.history ++ [.answer i res] }
    | _ => none

/-- The states that threads lead to, whatever they call. -/
abbrev Reachable (apply : Val → Op → Option (Val × Res)) (v₀ : Val)
    (a : Atomic Thread Val Op Res) : Prop :=
  Reaches (fun a label a' => a.step apply label = some a') (fun _ _ => True) (start v₀) a

variable {apply : Val → Op → Option (Val × Res)} {v₀ : Val} {a a' : Atomic Thread Val Op Res}
  {i : Thread}

section Steps

/-- A client that is idle may call. -/
theorem step_call {op : Op} (hidle : a.calls i = .idle) :
    a.step apply (.call i op) = some { a with
      calls := Function.update a.calls i (.pending op)
      history := a.history ++ [.call i op] } := by
  simp only [step, hidle]

/-- A call takes effect at once, with the value as it is at that moment. -/
theorem step_commit {op : Op} {v : Val} {res : Res} (hpending : a.calls i = .pending op)
    (happly : apply a.value op = some (v, res)) :
    a.step apply (.commit i) = some { a with
      value := v
      calls := Function.update a.calls i (.done res)
      effects := a.effects ++ [(op, res)] } := by
  simp only [step, hpending, happly, Option.map_some]

/-- A call that has taken effect returns what it then gave. -/
theorem step_answer {res : Res} (hdone : a.calls i = .done res) :
    a.step apply (.answer i) = some { a with
      calls := Function.update a.calls i .idle
      history := a.history ++ [.answer i res] } := by
  simp only [step, hdone]

end Steps

/-- **The effects are a run of the sequential object.** -/
theorem legal (h : Reachable apply v₀ a) : Legal apply v₀ a.effects a.value := by
  refine h.invariant (I := fun a => Legal apply v₀ a.effects a.value) .nil ?_
  intro a label a' hlegal _ hstep
  cases label with
  | call i op =>
    rw [step] at hstep
    split at hstep
    · cases hstep
      exact hlegal
    · cases hstep
  | commit i =>
    rw [step] at hstep
    split at hstep
    · obtain ⟨r, hr, rfl⟩ := Option.map_eq_some_iff.mp hstep
      exact hlegal.snoc hr
    · cases hstep
  | answer i =>
    rw [step] at hstep
    split at hstep
    · cases hstep
      exact hlegal
    · cases hstep

end Atomic

/-! ## The queue -/

inductive QueueOp (α : Type) where
  | push (a : α)
  | pop
  deriving DecidableEq

namespace QueueOp

variable {α : Type}

/-- A first-in first-out queue without a bound: a `pop` waits for an element. -/
def apply : List α → QueueOp α → Option (List α × Option α)
  | q, .push a => some (q ++ [a], none)
  | [], .pop => none
  | a :: q, .pop => some (q, some a)

/-- The elements that were pushed. -/
def pushed (ops : List (QueueOp α × Option α)) : List α :=
  ops.filterMap fun r => match r.1 with
    | .push a => some a
    | .pop => none

/-- The elements that were popped. -/
def popped (ops : List (QueueOp α × Option α)) : List α := ops.filterMap Prod.snd

/-- **First in, first out**: what was popped, and then what is there, is what was pushed. -/
theorem pushed_eq {ops : List (QueueOp α × Option α)} {q : List α} (h : Legal apply [] ops q) :
    pushed ops = popped ops ++ q := by
  induction h with
  | nil => rfl
  | @snoc ops v v' op res _ happly ih =>
    cases op with
    | push a =>
      cases happly
      simp only [pushed, popped, List.filterMap_append] at ih ⊢
      simp [ih]
    | pop =>
      cases v with
      | nil => cases happly
      | cons a q =>
        cases happly
        simp only [pushed, popped, List.filterMap_append] at ih ⊢
        simp [ih]

end QueueOp

end MyRedis.Lib

import Mathlib.Data.List.Nodup

/-!
# Services

A service answers requests one after another and keeps a state.  It may find the handler for a
request by asking a list of handlers in turn (`firstAccepting`); where each of them takes only the
requests with a name of its own, only the one with the name of the request matters
(`firstAccepting_named`).

A service implements a specification when it answers each request as specified, up to how the answer
is presented, and a relation between its states and the specified ones is kept.  Then it does so for
every sequence of requests (`Implements.serveAll`), and two services that implement one
specification give the same answers, each presented its own way.
-/

set_option autoImplicit false

namespace MyRedis.Lib

/-! ## Finding the handler -/

section Handlers

variable {H N β ε : Type} {accepts : H → Except ε Bool} {run : H → Except ε β}
  {otherwise : Except ε β} {handler : H} {name : N} {hs : List (N × H)}

/-- Runs the first handler that accepts the request. -/
def firstAccepting (accepts : H → Except ε Bool) (run : H → Except ε β) (otherwise : Except ε β) :
    List H → Except ε β
  | [] => otherwise
  | handler :: hs => do
    if ← accepts handler then run handler else firstAccepting accepts run otherwise hs

/-- A handler that accepts runs, whatever comes behind it. -/
theorem firstAccepting_cons_of_accepts (haccepts : accepts handler = .ok true) (hs : List H) :
    firstAccepting accepts run otherwise (handler :: hs) = run handler := by
  rw [firstAccepting, haccepts]
  rfl

/-- A handler that rejects is passed. -/
theorem firstAccepting_cons_of_rejects (hrejects : accepts handler = .ok false) (hs : List H) :
    firstAccepting accepts run otherwise (handler :: hs) =
      firstAccepting accepts run otherwise hs := by
  rw [firstAccepting, hrejects]
  rfl

/-- If all handlers reject, what is left for that case happens. -/
theorem firstAccepting_of_rejects (hrejects : ∀ h ∈ hs, accepts h.2 = .ok false) :
    firstAccepting accepts run otherwise (hs.map Prod.snd) = otherwise := by
  induction hs with
  | nil => rfl
  | cons first hs ih =>
    rw [List.map_cons, firstAccepting_cons_of_rejects (hrejects first List.mem_cons_self)]
    exact ih fun h hmem => hrejects h (List.mem_cons_of_mem first hmem)

/-- Only the handler with the name of the request matters. -/
theorem firstAccepting_named (hnodup : (hs.map Prod.fst).Nodup) (hmem : (name, handler) ∈ hs)
    (hrejects : ∀ h ∈ hs, h.1 ≠ name → accepts h.2 = .ok false) :
    firstAccepting accepts run otherwise (hs.map Prod.snd) =
      firstAccepting accepts run otherwise [handler] := by
  induction hs with
  | nil => cases hmem
  | cons first hs ih =>
    obtain ⟨hfirst, hnodup⟩ := List.nodup_cons.mp hnodup
    obtain rfl | hmem := List.mem_cons.mp hmem
    · -- After this handler come only handlers with other names.
      have hrest : firstAccepting accepts run otherwise (hs.map Prod.snd) = otherwise := by
        apply firstAccepting_of_rejects
        intro other hother
        apply hrejects other (List.mem_cons_of_mem _ hother)
        intro hsame
        exact hfirst (List.mem_map.mpr ⟨other, hother, hsame⟩)
      rw [List.map_cons, firstAccepting, firstAccepting, hrest, firstAccepting]
    · have hother : first.1 ≠ name := by
        intro hsame
        exact hfirst (List.mem_map.mpr ⟨_, hmem, hsame.symm⟩)
      rw [List.map_cons,
        firstAccepting_cons_of_rejects (hrejects first List.mem_cons_self hother)]
      exact ih hnodup hmem fun h hmem => hrejects h (List.mem_cons_of_mem first hmem)

end Handlers

/-! ## Runs -/

variable {R S T A B ε : Type}

/-- The answers to a sequence of requests, of a service that may fail. -/
def serveAll (serve : T → R → Except ε (B × T)) : T → List R → Except ε (List B × T)
  | t, [] => .ok ([], t)
  | t, request :: requests => do
    let (answer, t) ← serve t request
    let (answers, t) ← serveAll serve t requests
    return (answer :: answers, t)

/-- One more request. -/
theorem serveAll_concat {serve : T → R → Except ε (B × T)} {t t' t'' : T} {requests : List R}
    {request : R} {answers : List B} {answer : B}
    (h : serveAll serve t requests = .ok (answers, t'))
    (hlast : serve t' request = .ok (answer, t'')) :
    serveAll serve t (requests ++ [request]) = .ok (answers ++ [answer], t'') := by
  induction requests generalizing t answers with
  | nil =>
    cases h
    rw [List.nil_append, serveAll, hlast]
    rfl
  | cons first requests ih =>
    rw [serveAll] at h
    cases hfirst : serve t first with
    | error e =>
      rw [hfirst] at h
      cases h
    | ok r =>
      rw [hfirst] at h
      change (serveAll serve r.2 requests >>= _) = _ at h
      cases hrest : serveAll serve r.2 requests with
      | error e =>
        rw [hrest] at h
        cases h
      | ok r' =>
        rw [hrest] at h
        cases h
        rw [List.cons_append, serveAll, hfirst]
        change (serveAll serve r.2 (requests ++ [request]) >>= _) = _
        rw [ih hrest]
        rfl

/-- Requests that are read off other ones. -/
theorem serveAll_map {Q : Type} (serve : T → R → Except ε (B × T)) (f : Q → R) (t : T)
    (requests : List Q) :
    serveAll serve t (requests.map f) = serveAll (fun t q => serve t (f q)) t requests := by
  induction requests generalizing t with
  | nil => rfl
  | cons request requests ih =>
    rw [List.map_cons, serveAll, serveAll]
    simp only [ih]

/-- The answers that a specification gives. -/
def specifyAll (specify : S → R → A × S) : S → List R → List A
  | _, [] => []
  | s, request :: requests =>
    (specify s request).1 :: specifyAll specify (specify s request).2 requests

/-- There is one answer for each request. -/
theorem length_specifyAll (specify : S → R → A × S) (s : S) (requests : List R) :
    (specifyAll specify s requests).length = requests.length := by
  induction requests generalizing s with
  | nil => rfl
  | cons request requests ih => rw [specifyAll, List.length_cons, List.length_cons, ih]

/-- Requests that stand for others have the answers of those. -/
theorem specifyAll_map {Q : Type} (specify : S → R → A × S) (f : Q → R) (s : S)
    (requests : List Q) :
    specifyAll specify s (requests.map f) = specifyAll (fun s q => specify s (f q)) s requests := by
  induction requests generalizing s with
  | nil => rfl
  | cons request requests ih => rw [List.map_cons, specifyAll, specifyAll, ih]

/-- A presentation that does not depend on the requests. -/
theorem zipWith_answers (f : A → B) {requests : List R} {answers : List A}
    (h : answers.length = requests.length) :
    List.zipWith (fun _ answer => f answer) requests answers = answers.map f := by
  calc List.zipWith (fun _ answer => f answer) requests answers
      = ((requests.zip answers).map Prod.snd).map f := by
        rw [List.map_map, ← List.map_uncurry_zip_eq_zipWith]
        rfl
    _ = answers.map f := by rw [List.map_snd_zip (Nat.le_of_eq h)]

/-- Every request that is allowed is answered as specified. -/
def Implements (serve : T → R → Except ε (B × T)) (specify : S → R → A × S) (allowed : R → Prop)
    (present : R → A → B) (related : T → S → Prop) : Prop :=
  ∀ t s request, related t s → allowed request →
    ∃ t', serve t request = .ok (present request (specify s request).1, t') ∧
      related t' (specify s request).2

/-- **Every sequence of requests is answered as specified.** -/
theorem Implements.serveAll {serve : T → R → Except ε (B × T)} {specify : S → R → A × S}
    {allowed : R → Prop} {present : R → A → B} {related : T → S → Prop} {t : T} {s : S}
    {requests : List R} (h : Implements serve specify allowed present related)
    (hrelated : related t s) (hallowed : ∀ request ∈ requests, allowed request) :
    ∃ t', serveAll serve t requests =
      .ok (List.zipWith present requests (specifyAll specify s requests), t') := by
  induction requests generalizing t s with
  | nil => exact ⟨t, rfl⟩
  | cons request requests ih =>
    obtain ⟨t₁, hfirst, hrelated₁⟩ := h t s request hrelated (hallowed _ List.mem_cons_self)
    obtain ⟨t', hrest⟩ := ih hrelated₁ fun r hmem => hallowed r (List.mem_cons_of_mem _ hmem)
    refine ⟨t', ?_⟩
    rw [Lib.serveAll, hfirst, specifyAll, List.zipWith_cons_cons]
    change (Lib.serveAll serve t₁ requests >>= _) = _
    rw [hrest]
    rfl

end MyRedis.Lib

import Mathlib.Data.List.Basic

/-!
# Parsing a stream that arrives in pieces

A `FrontParser` takes one value off the front of its input, or fails.  Some failures are
final: more input cannot change them.  All others mean that the value is not complete
yet.  What makes such a parser usable on a stream is that a success and a final failure
do not change when more input arrives behind what they were decided on.

`drain P s` takes values off the front of `s` as long as that works.  `drain_append` says
that it makes no difference whether `s ++ t` is drained at once or `s` first and then `t`
behind what `s` left over.  `Consumed P B vs b` is the invariant of every reader that
keeps the bytes not yet parsed in a buffer: of the stream `B` the values `vs` have been
taken, and what is left to parse is `b`.
-/

set_option autoImplicit false

namespace MyRedis.Lib.Streaming

/-- A parser that takes one value off the front of its input and says how much of the
input it took. -/
structure FrontParser (α β ε : Type) where
  parse : List α → Except ε (β × ℕ)
  /-- the failures that more input cannot change -/
  Final : ε → Prop
  progress : ∀ {s : List α} {v : β} {n : ℕ}, parse s = .ok (v, n) → 0 < n ∧ n ≤ s.length
  ok_append : ∀ {s : List α} {r : β × ℕ} (t : List α), parse s = .ok r → parse (s ++ t) = .ok r
  final_append : ∀ {s : List α} {e : ε} (t : List α),
    parse s = .error e → Final e → parse (s ++ t) = .error e

variable {α β ε : Type} (P : FrontParser α β ε)

/-- The values at the front of `s`, and what is left when the parser fails. -/
def drain (s : List α) : List β × List α :=
  match _h : P.parse s with
  | .error _ => ([], s)
  | .ok (v, n) =>
    let rest := drain (s.drop n)
    (v :: rest.1, rest.2)
termination_by s.length
decreasing_by
  have := P.progress _h
  simp only [List.length_drop]
  omega

/-- The values at the front of `s`. -/
def parseAll (s : List α) : List β := (drain P s).1

/-- What `parseAll` leaves of `s`. -/
def rest (s : List α) : List α := (drain P s).2

variable {P} {s t : List α}

/-- Nothing is parsed where the parser throws. -/
theorem drain_of_error {e : ε} (h : P.parse s = .error e) : drain P s = ([], s) := by
  rw [drain]
  split
  · rfl
  · next h' =>
    rw [h] at h'
    cases h'

/-- A value is parsed, and then the rest of the input. -/
theorem drain_of_ok {v : β} {n : ℕ} (h : P.parse s = .ok (v, n)) :
    drain P s = (v :: parseAll P (s.drop n), rest P (s.drop n)) := by
  rw [drain]
  split
  · next h' =>
    rw [h] at h'
    cases h'
  · next v' n' h' =>
    rw [h] at h'
    cases h'
    rfl

/-- The rule of induction over a stream: one value is taken off the front, or the parser
fails. -/
@[elab_as_elim]
theorem drain_induct {motive : List α → Prop}
    (error : ∀ s e, P.parse s = .error e → motive s)
    (ok : ∀ s v n, P.parse s = .ok (v, n) → motive (s.drop n) → motive s)
    (s : List α) : motive s := by
  induction hn : s.length using Nat.strongRecOn generalizing s with
  | ind k ih =>
    cases h : P.parse s with
    | error e => exact error s e h
    | ok r =>
      have hp := P.progress (v := r.1) (n := r.2) h
      exact ok s r.1 r.2 h (ih _ (by simp only [List.length_drop]; omega) _ rfl)

/-- The parser fails on what is left. -/
theorem exists_parse_rest (s : List α) : ∃ e, P.parse (rest P s) = .error e := by
  induction s using drain_induct (P := P) with
  | error s e h => exact ⟨e, by rw [rest, drain_of_error h, h]⟩
  | ok s v n h ih => rwa [rest, drain_of_ok h]

/-- **Draining in two steps.**  What is drained off `s ++ t` is what is drained off `s`,
followed by what is then drained off the rest of `s` with `t` behind it. -/
theorem drain_append (s t : List α) :
    drain P (s ++ t) =
      (parseAll P s ++ parseAll P (rest P s ++ t), rest P (rest P s ++ t)) := by
  induction s using drain_induct (P := P) with
  | error s e h =>
    simp only [parseAll, rest, drain_of_error h, List.nil_append]
  | ok s v n h ih =>
    have hn := (P.progress h).2
    rw [drain_of_ok (P.ok_append t h), List.drop_append_of_le_length hn]
    simp only [parseAll, rest, drain_of_ok h, List.cons_append] at ih ⊢
    rw [ih]

/-- After a final failure nothing that arrives later is parsed. -/
theorem drain_append_of_final {e : ε} (h : P.parse (rest P s) = .error e) (hf : P.Final e) :
    drain P (s ++ t) = (parseAll P s, rest P s ++ t) := by
  have hrest := drain_of_error (P.final_append t h hf)
  have hvalues : parseAll P (rest P s ++ t) = [] := congrArg Prod.fst hrest
  have hleft : rest P (rest P s ++ t) = rest P s ++ t := congrArg Prod.snd hrest
  rw [drain_append, hvalues, hleft, List.append_nil]

/-- Every value takes some of the input. -/
theorem length_drain_le (s : List α) :
    (parseAll P s).length + (rest P s).length ≤ s.length := by
  induction s using drain_induct (P := P) with
  | error s e h => simp [parseAll, rest, drain_of_error h]
  | ok s v n h ih =>
    have hn := P.progress h
    obtain ⟨hvalues, hleft⟩ := Prod.ext_iff.mp (drain_of_ok h)
    change parseAll P s = v :: parseAll P (s.drop n) at hvalues
    change rest P s = rest P (s.drop n) at hleft
    rw [List.length_drop] at ih
    rw [hvalues, hleft, List.length_cons]
    omega

/-! ## Readers with a buffer -/

/-- Of the stream `B` the values `vs` have been taken and `b` is left to parse, now and
whatever arrives later. -/
def Consumed (P : FrontParser α β ε) (B : List α) (vs : List β) (b : List α) : Prop :=
  ∀ t, drain P (B ++ t) = (vs ++ parseAll P (b ++ t), rest P (b ++ t))

/-- At the start nothing has come in. -/
theorem Consumed.nil : Consumed P [] [] [] := by
  intro t
  simp [parseAll, rest]

variable {B b : List α} {vs : List β}

/-- New input goes behind the stream and behind the buffer. -/
theorem Consumed.append (h : Consumed P B vs b) (c : List α) : Consumed P (B ++ c) vs (b ++ c) := by
  intro t
  simpa only [List.append_assoc] using h (c ++ t)

/-- Parsing the buffer moves its values behind those taken before. -/
theorem Consumed.drain (h : Consumed P B vs b) : Consumed P B (vs ++ parseAll P b) (rest P b) := by
  intro t
  rw [h t, parseAll, rest, drain_append b t]
  simp [parseAll, rest]

/-- All values of the input: those handed out, and those in what is left. -/
theorem Consumed.parseAll_eq (h : Consumed P B vs b) : parseAll P B = vs ++ parseAll P b := by
  simpa [parseAll] using congrArg Prod.fst (h [])

/-- What cannot be parsed yet is the same, whether or not values have been handed out. -/
theorem Consumed.rest_eq (h : Consumed P B vs b) : rest P B = rest P b := by
  simpa [rest] using congrArg Prod.snd (h [])

end MyRedis.Lib.Streaming

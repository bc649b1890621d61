import MyRedis.Analysis.RespStability
import MyRedis.Model.RespValueQueue

/-!
# The incremental reader does not depend on how the bytes arrive

`parse B` is the list of values at the front of the byte string `B` and `unparsed B` what
is left when `RespValue::FromString` fails.  Whatever calls are made on a
`RespValueQueue`, in whatever order, the values returned so far, those queued and those
still in the buffer are `parse B` for the concatenation `B` of all pushed strings
(`calls_chunking`).

The invariant is `Streaming.Consumed`: it speaks about every continuation of the stream,
so that it survives both `PushString` and the parsing loop of `PopValue`.
-/

set_option autoImplicit false

namespace MyRedis.Analysis

open MyRedis.Model MyRedis.Model.RespValue MyRedis.Lib

/-- The values obtained by repeatedly applying `RespValue::FromString` to the front of
`B` until it fails. -/
def parse (B : Bytes) : List RespValue := Streaming.parseAll respFront B

/-- What `parse` leaves of `B`. -/
def unparsed (B : Bytes) : Bytes := Streaming.rest respFront B

/-- The failure that ends `parse`. -/
def verdict (B : Bytes) : StdException :=
  match fromString (unparsed B) with
  | .error e => e
  | .ok _ => .outOfRange ""

/-- `RespValue::FromString` fails on what is left, with the verdict.
SOURCE: resp_value.cc:185-188 -/
theorem fromString_unparsed (B : Bytes) : fromString (unparsed B) = .error (verdict B) := by
  obtain ⟨e, he⟩ := Streaming.exists_parse_rest (P := respFront) B
  have he' : fromString (unparsed B) = .error e := he
  rw [verdict, he']

/-- `FromString` fails on the empty string.
SOURCE: resp_value.cc:12-14 -/
theorem fromString_nil : fromString [] =
    .error (.outOfRange "Unexpected end of input while parsing RESP value") := by
  rw [fromString_eq, variantAt_eq]
  rfl

/-- If `FromString` fails, nothing is parsed.
SOURCE: resp_value.cc:185-188 -/
theorem unparsed_of_error {B : Bytes} {e : StdException} (h : fromString B = .error e) :
    unparsed B = B ∧ parse B = [] ∧ verdict B = e := by
  have hdrain := Streaming.drain_of_error (P := respFront) h
  have hleft : unparsed B = B := congrArg Prod.snd hdrain
  exact ⟨hleft, congrArg Prod.fst hdrain, by rw [verdict, hleft, h]⟩

/-- Otherwise its value comes first, and the rest is as behind it.
SOURCE: resp_value.cc:185-188 -/
theorem unparsed_of_ok {B : Bytes} {v : RespValue} {n : ℕ} (h : fromString B = .ok (v, n)) :
    unparsed B = unparsed (B.drop n) ∧ parse B = v :: parse (B.drop n) ∧
      verdict B = verdict (B.drop n) := by
  have hdrain := Streaming.drain_of_ok (P := respFront) h
  have hleft : unparsed B = unparsed (B.drop n) := by
    rw [unparsed, Streaming.rest, hdrain, unparsed]
  have hvalues : parse B = v :: parse (B.drop n) := by
    rw [parse, Streaming.parseAll, hdrain, parse]
  exact ⟨hleft, hvalues, by rw [verdict, verdict, hleft]⟩

/-! ## One call -/

/-- The source clears the buffer when a value ends with it; that is no different from
dropping the bytes of the value.
SOURCE: resp_value_queue.cc:19-23 -/
theorem takeParsed_eq (q : RespValueQueue) (v : RespValue) (n : ℕ) :
    q.takeParsed v n = ⟨q.buffer.drop n, q.values ++ [v]⟩ := by
  unfold RespValueQueue.takeParsed
  split_ifs with h
  · rfl
  · rw [List.drop_eq_nil_of_le (by omega)]

/-- The loop of `PopValue` moves the values at the front of the buffer into the queue.
SOURCE: resp_value_queue.cc:13-24 -/
theorem parseBuffer_eq (q : RespValueQueue) :
    q.parseBuffer =
      (⟨unparsed q.buffer, q.values ++ parse q.buffer⟩, verdict q.buffer) := by
  obtain ⟨buffer, values⟩ := q
  induction buffer using Streaming.drain_induct (P := respFront) generalizing values with
  | error s e h =>
    obtain ⟨hleft, hnone, hverdict⟩ := unparsed_of_error h
    rw [RespValueQueue.parseBuffer_of_error (q := ⟨s, values⟩) h, hleft, hnone, hverdict,
      List.append_nil]
  | ok s v n h ih =>
    obtain ⟨hleft, hcons, hverdict⟩ := unparsed_of_ok h
    rw [RespValueQueue.parseBuffer_of_ok (q := ⟨s, values⟩) h, takeParsed_eq, ih, hleft, hcons,
      hverdict, List.append_assoc, List.singleton_append]

/-- `PopValue` on a buffer that ends in a malformed value.
SOURCE: resp_value_queue.cc:10-35 -/
theorem popValue_of_invalid {q : RespValueQueue} {what : String}
    (h : verdict q.buffer = .invalidArgument what) :
    q.popValue = (.error (.invalidArgument what),
      ⟨unparsed q.buffer, q.values ++ parse q.buffer⟩) := by
  rw [RespValueQueue.popValue, parseBuffer_eq, h]

/-- `PopValue` on a buffer that ends inside a value, or after one.
SOURCE: resp_value_queue.cc:10-35 -/
theorem popValue_of_incomplete {q : RespValueQueue} {what : String}
    (h : verdict q.buffer = .outOfRange what) :
    q.popValue = (.ok (q.values ++ parse q.buffer).head?,
      ⟨unparsed q.buffer, (q.values ++ parse q.buffer).tail⟩) := by
  rw [RespValueQueue.popValue, parseBuffer_eq, h]
  cases q.values ++ parse q.buffer <;> rfl

/-! ## Any sequence of calls -/

/-- The queue `q` holds what is left of the stream `B` after the values `out` have been
returned. -/
def Reads (B : Bytes) (out : List RespValue) (q : RespValueQueue) : Prop :=
  Streaming.Consumed respFront B (out ++ q.values) q.buffer

/-- A new queue has read nothing.
SOURCE: resp_value_queue.cc:8-35 -/
theorem Reads.empty : Reads [] [] RespValueQueue.empty := Streaming.Consumed.nil

/-- `PushString` puts its bytes behind the stream.
SOURCE: resp_value_queue.cc:8 -/
theorem Reads.pushString {B : Bytes} {out : List RespValue} {q : RespValueQueue}
    (h : Reads B out q) (str : Bytes) : Reads (B ++ str) out (q.pushString str) :=
  Streaming.Consumed.append h str

/-- The values of the stream that have not been returned are those queued and those in
the buffer.
SOURCE: resp_value_queue.cc:8-35 -/
theorem Reads.parse_eq {B : Bytes} {out : List RespValue} {q : RespValueQueue}
    (h : Reads B out q) : parse B = out ++ (q.values ++ parse q.buffer) := by
  have := Streaming.Consumed.parseAll_eq h
  rwa [List.append_assoc] at this

/-- The buffer fails as the stream does.
SOURCE: resp_value_queue.cc:8-35 -/
theorem Reads.unparsed_eq {B : Bytes} {out : List RespValue} {q : RespValueQueue}
    (h : Reads B out q) : unparsed B = unparsed q.buffer :=
  Streaming.Consumed.rest_eq h

/-- The verdict on the buffer is that on the stream.
SOURCE: resp_value_queue.cc:8-35 -/
theorem Reads.verdict_eq {B : Bytes} {out : List RespValue} {q : RespValueQueue}
    (h : Reads B out q) : verdict q.buffer = verdict B := by
  rw [verdict, verdict, h.unparsed_eq]

/-- What `PopValue` returns is decided by the stream and by what was returned before.
SOURCE: resp_value_queue.cc:10-35 -/
theorem Reads.popValue_result {B : Bytes} {out : List RespValue} {q : RespValueQueue}
    (h : Reads B out q) :
    q.popValue.1 = match verdict B with
      | .invalidArgument what => .error (.invalidArgument what)
      | .outOfRange _ => .ok (parse B)[out.length]? := by
  have hnext : (parse B)[out.length]? = (q.values ++ parse q.buffer).head? := by
    rw [h.parse_eq, List.getElem?_append_right le_rfl, Nat.sub_self, List.head?_eq_getElem?]
  cases hverdict : verdict B with
  | invalidArgument what => rw [popValue_of_invalid (h.verdict_eq.trans hverdict)]
  | outOfRange what => rw [popValue_of_incomplete (h.verdict_eq.trans hverdict), hnext]

/-- `PopValue` leaves in the buffer what of the stream cannot be parsed.
SOURCE: resp_value_queue.cc:10-35 -/
theorem Reads.popValue_buffer {B : Bytes} {out : List RespValue} {q : RespValueQueue}
    (h : Reads B out q) : q.popValue.2.buffer = unparsed B := by
  rw [h.unparsed_eq]
  cases hverdict : verdict q.buffer with
  | invalidArgument what => rw [popValue_of_invalid hverdict]
  | outOfRange what => rw [popValue_of_incomplete hverdict]

/-- `PopValue` keeps the invariant, also when it throws.
SOURCE: resp_value_queue.cc:10-35 -/
theorem Reads.popValue {B : Bytes} {out : List RespValue} {q : RespValueQueue}
    (h : Reads B out q) :
    Reads B (out ++ RespValueQueue.returned [q.popValue.1]) q.popValue.2 := by
  have hdrained := Streaming.Consumed.drain h
  change Streaming.Consumed respFront B (out ++ q.values ++ parse q.buffer)
    (unparsed q.buffer) at hdrained
  rw [List.append_assoc] at hdrained
  cases hverdict : verdict q.buffer with
  | invalidArgument what =>
    simpa only [Reads, popValue_of_invalid hverdict, RespValueQueue.returned,
      List.append_nil] using hdrained
  | outOfRange what =>
    rw [popValue_of_incomplete hverdict]
    cases hvalues : q.values ++ parse q.buffer with
    | nil =>
      rw [hvalues] at hdrained
      simpa only [Reads, List.head?_nil, RespValueQueue.returned, List.append_nil,
        List.tail_nil] using hdrained
    | cons v vs =>
      rw [hvalues] at hdrained
      simpa only [Reads, List.head?_cons, RespValueQueue.returned, List.append_assoc,
        List.singleton_append, List.tail_cons] using hdrained

/-- What two sequences of calls return.
SOURCE: resp_value_queue.cc:8-35 -/
theorem returned_append (rs rs' : List (Except StdException (Option RespValue))) :
    RespValueQueue.returned (rs ++ rs') =
      RespValueQueue.returned rs ++ RespValueQueue.returned rs' := by
  induction rs with
  | nil => rfl
  | cons r rs ih =>
    rcases r with _ | _ | v <;> simp [RespValueQueue.returned, ih]

/-- The invariant along a sequence of calls.
SOURCE: resp_value_queue.cc:8-35 -/
theorem Reads.calls {B : Bytes} {out : List RespValue} {q : RespValueQueue}
    (h : Reads B out q) (cs : List RespValueQueue.Call) :
    Reads (B ++ RespValueQueue.pushed cs)
      (out ++ RespValueQueue.returned (q.calls cs).2) (q.calls cs).1 := by
  induction cs generalizing B out q with
  | nil => simpa [RespValueQueue.calls, RespValueQueue.pushed, RespValueQueue.returned] using h
  | cons c cs ih =>
    cases c with
    | pushString str =>
      simpa [RespValueQueue.calls, RespValueQueue.call, RespValueQueue.pushed] using
        ih (h.pushString str)
    | popValue =>
      have hrun := ih h.popValue
      rw [List.append_assoc, ← returned_append] at hrun
      exact hrun

/-- **Chunking does not matter.**  After any sequence of calls that pushed the bytes `B`
altogether, the values returned, those queued and those in the buffer are the values of
`B`; and if `PopValue` is called next, the buffer is then what is left of `B`, it throws
`std::invalid_argument` exactly when `RespValue::FromString` does so there, and otherwise
it returns the first value of `B` not returned before.
SOURCE: resp_value_queue.cc:8-35 -/
theorem calls_chunking (cs : List RespValueQueue.Call) :
    let B := RespValueQueue.pushed cs
    let q := (RespValueQueue.empty.calls cs).1
    let out := RespValueQueue.returned (RespValueQueue.empty.calls cs).2
    out ++ q.values ++ parse q.buffer = parse B ∧
      q.popValue.2.buffer = unparsed B ∧
      (∀ what, q.popValue.1 = .error (.invalidArgument what) ↔
        fromString (unparsed B) = .error (.invalidArgument what)) ∧
      ((∀ what, fromString (unparsed B) ≠ .error (.invalidArgument what)) →
        q.popValue.1 = .ok (parse B)[out.length]?) := by
  intro B q out
  have h : Reads B out q := Reads.empty.calls cs
  refine ⟨by rw [h.parse_eq, List.append_assoc], h.popValue_buffer, ?_⟩
  rw [h.popValue_result, fromString_unparsed]
  cases verdict B with
  | invalidArgument what => exact ⟨fun _ => by simp, fun hno => absurd rfl (hno what)⟩
  | outOfRange what => simp

end MyRedis.Analysis

import MyRedis.Model.RespValue

/-!
# The incremental RESP reader

`resp_value_queue.h` and `resp_value_queue.cc`.  `PopValue` parses as long as
`RespValue::FromString` succeeds; the exception that ends the loop decides what happens
next, so `parseBuffer` returns it together with the queue as it then is.
-/

set_option autoImplicit false

namespace MyRedis.Model

/-- `RespValueQueue`: bytes not yet parsed, and values not yet handed out.
SOURCE: resp_value_queue.h:12-36 -/
structure RespValueQueue where
  buffer : Bytes
  values : List RespValue

namespace RespValueQueue

/-- A queue as the constructor leaves it. -/
def empty : RespValueQueue := ⟨[], []⟩

/-- `RespValueQueue::PushString`
SOURCE: resp_value_queue.cc:8 -/
def pushString (q : RespValueQueue) (str : Bytes) : RespValueQueue :=
  { q with buffer := q.buffer ++ str }

/-- What the loop of `PopValue` does to the queue after a value that took `pos` bytes. -/
def takeParsed (q : RespValueQueue) (val : RespValue) (pos : ℕ) : RespValueQueue :=
  { buffer := if pos < q.buffer.length then q.buffer.drop pos else []
    values := q.values ++ [val] }

/-- A value takes at least one byte of a buffer that is not empty. -/
theorem fromString_pos {str : Bytes} {val : RespValue} {pos : ℕ}
    (h : RespValue.fromString str = .ok (val, pos)) : 0 < pos ∧ 0 < str.length := by
  obtain ⟨r, hr, hpair⟩ := map_eq_ok.mp h
  cases hpair
  refine ⟨r.progress, ?_⟩
  by_contra hnil
  rw [RespValue.parseVariant, dif_pos (by omega)] at hr
  cases hr

/-- The loop of `PopValue`: it ends only by an exception.
SOURCE: resp_value_queue.cc:12-28 -/
def parseBuffer (q : RespValueQueue) : RespValueQueue × StdException :=
  match _h : RespValue.fromString q.buffer with
  | .error e => (q, e)
  | .ok (val, pos) => parseBuffer (q.takeParsed val pos)
termination_by q.buffer.length
decreasing_by
  have := fromString_pos _h
  simp only [takeParsed]
  split_ifs
  · simp only [List.length_drop]
    omega
  · simpa using this.2

/-- The loop ends where `FromString` throws.
SOURCE: resp_value_queue.cc:13-27 -/
theorem parseBuffer_of_error {q : RespValueQueue} {e : StdException}
    (h : RespValue.fromString q.buffer = .error e) : q.parseBuffer = (q, e) := by
  rw [parseBuffer]
  split
  · next e' h' =>
    cases h'.symm.trans h
    rfl
  · next h' => cases h'.symm.trans h

/-- The loop goes on behind a value that was parsed.
SOURCE: resp_value_queue.cc:13-24 -/
theorem parseBuffer_of_ok {q : RespValueQueue} {val : RespValue} {pos : ℕ}
    (h : RespValue.fromString q.buffer = .ok (val, pos)) :
    q.parseBuffer = (q.takeParsed val pos).parseBuffer := by
  rw [parseBuffer]
  split
  · next h' => cases h'.symm.trans h
  · next val' pos' h' =>
    cases h'.symm.trans h
    rfl

/-- `RespValueQueue::PopValue`.  `std::out_of_range` means that the buffer ends inside a
value; `std::invalid_argument` leaves the function, with the queue as the loop left it.
SOURCE: resp_value_queue.cc:10-35 -/
def popValue (q : RespValueQueue) :
    Except StdException (Option RespValue) × RespValueQueue :=
  match parseBuffer q with
  | (q, .invalidArgument what) => (.error (.invalidArgument what), q)
  | (q, .outOfRange _) =>
    match q.values with
    | [] => (.ok none, q)
    | value :: values => (.ok (some value), { q with values := values })

/-- A call on a queue. -/
inductive Call where
  | pushString (str : Bytes)
  | popValue

/-- What a call does to a queue, and what it returns: nothing for `PushString`. -/
def call (q : RespValueQueue) :
    Call → RespValueQueue × Option (Except StdException (Option RespValue))
  | .pushString str => (q.pushString str, none)
  | .popValue => let (result, q) := q.popValue; (q, some result)

/-- A sequence of calls: the queue it leaves and the results of its `PopValue`s. -/
def calls (q : RespValueQueue) :
    List Call → RespValueQueue × List (Except StdException (Option RespValue))
  | [] => (q, [])
  | c :: cs =>
    let (q, result) := q.call c
    let (q, results) := q.calls cs
    (q, result.toList ++ results)

/-- The bytes a sequence of calls pushes. -/
def pushed : List Call → Bytes
  | [] => []
  | .pushString str :: cs => str ++ pushed cs
  | .popValue :: cs => pushed cs

/-- The values a sequence of results hands out. -/
def returned : List (Except StdException (Option RespValue)) → List RespValue
  | [] => []
  | .ok (some value) :: results => value :: returned results
  | _ :: results => returned results

end RespValueQueue

end MyRedis.Model

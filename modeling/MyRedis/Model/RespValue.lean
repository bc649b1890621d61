import MyRedis.Model.Prelude

/-!
# RESP values: the wire format and its parser

`resp_value.h`, `resp_value.cc` and `resp_values.cc`.  The parsers of the source take
the whole string and a position by reference; here each returns the position it leaves
behind in a `Parsed`, which carries the proof that the position moved forward.  That
proof is also what makes the recursion through `parseArray` terminate, whatever element
count the input declares.

A header line is found the same way for every type, up to the text of the error, so
`parseLine` is that search and the five type parsers are built on it.
-/

set_option autoImplicit false

namespace MyRedis.Model

/-- A RESP2 value (`RespValue::RespVariant`).
SOURCE: resp_value.h:13-21 -/
inductive RespValue where
  | simpleString (s : Bytes)
  | simpleError (message : Bytes)
  | integer (n : Int64)
  | bulkString (s : Option Bytes)
  | array (vs : List RespValue)

namespace RespValue

/-- Induction over RESP values: an array may assume the property of its elements. -/
@[elab_as_elim]
theorem induct {motive : RespValue → Prop}
    (simpleString : ∀ s, motive (.simpleString s))
    (simpleError : ∀ m, motive (.simpleError m))
    (integer : ∀ n, motive (.integer n))
    (bulkString : ∀ s, motive (.bulkString s))
    (array : ∀ vs, (∀ v ∈ vs, motive v) → motive (.array vs)) (v : RespValue) : motive v :=
  RespValue.rec (motive_1 := motive) (motive_2 := fun vs => ∀ v ∈ vs, motive v)
    simpleString simpleError integer bulkString array
    (fun _ h => absurd h List.not_mem_nil)
    (fun _ _ hhead htail v hv => (List.mem_cons.mp hv).elim (fun h => h ▸ hhead) (htail v)) v

/-! ## Serializing -/

mutual

/-- `RespValue::Serialize`
SOURCE: resp_value.cc:124-151 -/
def serialize : RespValue → Bytes
  | simpleString s => ascii "+" ++ s ++ crlf
  | simpleError message => ascii "-" ++ message ++ crlf
  | integer n => ascii ":" ++ toStringInt n ++ crlf
  | bulkString none => ascii "$-1" ++ crlf
  | bulkString (some s) => ascii "$" ++ toStringSize s.length ++ crlf ++ s ++ crlf
  | array vs => ascii "*" ++ toStringSize vs.length ++ crlf ++ serializeAll vs

/-- The loop of `RespValue::Serialize` over the elements of an array. -/
def serializeAll : List RespValue → Bytes
  | [] => []
  | v :: vs => serialize v ++ serializeAll vs

end

/-! ## Parsing -/

/-- What a parser started at `lo` or before leaves behind: the value and the next
position, which is not before `lo`. -/
structure Parsed (α : Type) (lo : ℕ) where
  value : α
  next : ℕ
  progress : lo ≤ next

/-- Finds the `"\r\n"` after the type prefix at `pos`; the value is the text between the
two, and the next position is after the terminator. -/
def parseLine (missing : String) (str : Bytes) (pos : ℕ) :
    Except StdException (Parsed Bytes (pos + 1)) :=
  match h : find str crlf (pos + 1) with
  | none => .error (.outOfRange missing)
  | some endPos =>
    .ok ⟨substr str (pos + 1) (endPos - pos - 1), endPos + 2, by
      have := ((find_eq_some (by decide)).mp h).1
      omega⟩

/-- `RespValue::ParseSimpleString`
SOURCE: resp_value.cc:31-41 -/
def parseSimpleString (str : Bytes) (pos : ℕ) : Except StdException (Parsed Bytes (pos + 1)) :=
  parseLine "Missing CRLF for simple string" str pos

/-- `RespValue::ParseSimpleError`
SOURCE: resp_value.cc:43-53 -/
def parseSimpleError (str : Bytes) (pos : ℕ) : Except StdException (Parsed Bytes (pos + 1)) :=
  parseLine "Missing CRLF for simple error" str pos

/-- `RespValue::ParseInteger`
SOURCE: resp_value.cc:55-66 -/
def parseInteger (str : Bytes) (pos : ℕ) : Except StdException (Parsed Int64 (pos + 1)) := do
  let line ← parseLine "Missing CRLF for integer" str pos
  let n ← stoll line.value
  return ⟨n, line.next, line.progress⟩

/-- `RespValue::ParseBulkString`
SOURCE: resp_value.cc:68-99 -/
def parseBulkString (str : Bytes) (pos : ℕ) :
    Except StdException (Parsed (Option Bytes) (pos + 1)) := do
  let line ← parseLine "Missing CRLF after bulk-string length" str pos
  let bulkStringLength ← stoll line.value
  if bulkStringLength = -1 then return ⟨none, line.next, line.progress⟩
  else if bulkStringLength ≤ -2 then
    .error (.invalidArgument "Bulk string has a negative length and is not null bulk string")
  else
    let n := bulkStringLength.toNatClampNeg
    if h : bulkStringLength < 0 ∨ line.next + n + 2 > str.length then
      .error (.outOfRange "Bulk string payload truncated or missing CRLF")
    else if str[line.next + n] ≠ 13 ∨ str[line.next + n + 1] ≠ 10 then
      .error (.outOfRange "Bulk string missing terminating CRLF")
    else
      return ⟨some (substr str line.next n), line.next + n + 2, by
        have := line.progress
        omega⟩

mutual

/-- `RespValue::ParseVariant`
SOURCE: resp_value.cc:10-29 -/
def parseVariant (str : Bytes) (pos : ℕ) : Except StdException (Parsed RespValue (pos + 1)) :=
  if h : pos ≥ str.length then
    .error (.outOfRange "Unexpected end of input while parsing RESP value")
  else
    match str[pos] with
    | 43 => (parseSimpleString str pos).map fun r => ⟨simpleString r.value, r.next, r.progress⟩
    | 45 => (parseSimpleError str pos).map fun r => ⟨simpleError r.value, r.next, r.progress⟩
    | 58 => (parseInteger str pos).map fun r => ⟨integer r.value, r.next, r.progress⟩
    | 36 => (parseBulkString str pos).map fun r => ⟨bulkString r.value, r.next, r.progress⟩
    | 42 => (parseArray str pos (Nat.lt_of_not_ge h)).map
        fun r => ⟨array r.value, r.next, r.progress⟩
    | _ => .error (.invalidArgument "Invalid resp type prefix")
termination_by 3 * (str.length - pos) + 1

/-- `RespValue::ParseArray`
SOURCE: resp_value.cc:101-122 -/
def parseArray (str : Bytes) (pos : ℕ) (_hpos : pos < str.length) :
    Except StdException (Parsed (List RespValue) (pos + 1)) :=
  match parseLine "Missing CRLF after array length" str pos with
  | .error e => .error e
  | .ok line =>
    match stoll line.value with
    | .error e => .error e
    | .ok arrayLength =>
      if arrayLength < 0 then .error (.invalidArgument "Negative array length not allowed")
      else
        (parseElements str line.next arrayLength.toNatClampNeg).map
          fun r => ⟨r.value, r.next, line.progress.trans r.progress⟩
termination_by 3 * (str.length - pos)
decreasing_by
  have := line.progress
  omega

/-- The element loop of `RespValue::ParseArray`, with `count` elements still to come.
SOURCE: resp_value.cc:115-120 -/
def parseElements (str : Bytes) (pos : ℕ) (count : ℕ) :
    Except StdException (Parsed (List RespValue) pos) :=
  match count with
  | 0 => .ok ⟨[], pos, le_rfl⟩
  | count + 1 =>
    if pos ≥ str.length then .error (.outOfRange "Array element missing/truncated")
    else
      match parseVariant str pos with
      | .error e => .error e
      | .ok v =>
        (parseElements str v.next count).map fun r =>
          ⟨v.value :: r.value, r.next, (Nat.le_of_succ_le v.progress).trans r.progress⟩
termination_by 3 * (str.length - pos) + 2
decreasing_by
  · omega
  · have := v.progress
    omega

end

/-- `RespValue::FromString`
SOURCE: resp_value.cc:185-188 -/
def fromString (str : Bytes) : Except StdException (RespValue × ℕ) :=
  (parseVariant str 0).map fun r => (r.value, r.next)

end RespValue

end MyRedis.Model

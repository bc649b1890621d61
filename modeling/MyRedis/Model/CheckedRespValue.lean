import MyRedis.Lib.Checked
import MyRedis.Model.RespValueQueue

/-!
# The RESP parser with checked steps

The parsers of `resp_value.cc` once more, step by step: every `str[...]` is an index that may be
out of bounds (those of the assertions included), every sum and difference of positions one
that may wrap, and the recursion and the loops are given a number of steps they may run out of.
`MyRedis.Model.RespValue` says what they return.
-/

set_option autoImplicit false

namespace MyRedis.Model.CheckedRespValue

open MyRedis.Lib MyRedis.Lib.Checked RespValue

/-- What a parser does. -/
abbrev Parse : Type → Type := Checked StdException

/-- `str.substr(pos, count)`, which throws where `pos` is past the end. -/
def substrAt (str : Bytes) (pos count : ℕ) : Parse Bytes :=
  if pos > str.length then throw (.outOfRange "basic_string::substr")
  else pure (substr str pos count)

/-- What the five type parsers start with: the text between the type prefix, which is asserted,
and the next `"\r\n"`, and the position of that. -/
def parseLine (opening : UInt8) (missing : String) (str : Bytes) (pos : ℕ) : Parse (Bytes × ℕ) := do
  let first ← getAt str pos
  ensure (first = opening)
  let start ← addSize pos 1
  match find str crlf start with
  | none => throw (.outOfRange missing)
  | some endPos =>
    let start ← addSize pos 1
    let count ← subSize endPos pos
    let count ← subSize count 1
    let text ← substrAt str start count
    pure (text, endPos)

/-- `RespValue::ParseSimpleString`
SOURCE: resp_value.cc:31-41 -/
def parseSimpleString (str : Bytes) (pos : ℕ) : Parse (RespValue × ℕ) := do
  let (text, endPos) ← parseLine 43 "Missing CRLF for simple string" str pos
  let pos ← addSize endPos 2
  pure (simpleString text, pos)

/-- `RespValue::ParseSimpleError`
SOURCE: resp_value.cc:43-53 -/
def parseSimpleError (str : Bytes) (pos : ℕ) : Parse (RespValue × ℕ) := do
  let (text, endPos) ← parseLine 45 "Missing CRLF for simple error" str pos
  let pos ← addSize endPos 2
  pure (simpleError text, pos)

/-- `RespValue::ParseInteger`
SOURCE: resp_value.cc:55-66 -/
def parseInteger (str : Bytes) (pos : ℕ) : Parse (RespValue × ℕ) := do
  let (text, endPos) ← parseLine 58 "Missing CRLF for integer" str pos
  let integerValue ← call (stoll text)
  let pos ← addSize endPos 2
  pure (integer integerValue, pos)

/-- The payload of a bulk string and its terminator, for a length that is not negative.
SOURCE: resp_value.cc:86-98 -/
def parsePayload (str : Bytes) (pos length : ℕ) : Parse (RespValue × ℕ) := do
  let needed ← addSize pos length
  let needed ← addSize needed 2
  if needed > str.length then
    throw (.outOfRange "Bulk string payload truncated or missing CRLF")
  else
    let i ← addSize pos length
    let first ← getAt str i
    if first ≠ 13 then throw (.outOfRange "Bulk string missing terminating CRLF")
    else
      let i ← addSize i 1
      let second ← getAt str i
      if second ≠ 10 then throw (.outOfRange "Bulk string missing terminating CRLF")
      else
        let text ← substrAt str pos length
        let taken ← addSize length 2
        let pos ← addSize pos taken
        pure (bulkString (some text), pos)

/-- `RespValue::ParseBulkString`
SOURCE: resp_value.cc:68-99 -/
def parseBulkString (str : Bytes) (pos : ℕ) : Parse (RespValue × ℕ) := do
  let (text, endOfLength) ← parseLine 36 "Missing CRLF after bulk-string length" str pos
  let bulkStringLength ← call (stoll text)
  let pos ← addSize endOfLength 2
  if bulkStringLength = -1 then pure (bulkString none, pos)
  else if bulkStringLength ≤ -2 then
    throw (.invalidArgument "Bulk string has a negative length and is not null bulk string")
  else if bulkStringLength < 0 then
    throw (.outOfRange "Bulk string payload truncated or missing CRLF")
  else parsePayload str pos bulkStringLength.toNatClampNeg

mutual

/-- `RespValue::ParseVariant`
SOURCE: resp_value.cc:10-29 -/
def parseVariant : (fuel : ℕ) → Bytes → ℕ → Parse (RespValue × ℕ)
  | 0, _, _ => fault .unfinished
  | fuel + 1, str, pos =>
    if pos ≥ str.length then
      throw (.outOfRange "Unexpected end of input while parsing RESP value")
    else do
      let first ← getAt str pos
      if first = 43 then parseSimpleString str pos
      else if first = 45 then parseSimpleError str pos
      else if first = 58 then parseInteger str pos
      else if first = 36 then parseBulkString str pos
      else if first = 42 then parseArray fuel str pos
      else throw (.invalidArgument "Invalid resp type prefix")

/-- `RespValue::ParseArray`
SOURCE: resp_value.cc:101-122 -/
def parseArray : (fuel : ℕ) → Bytes → ℕ → Parse (RespValue × ℕ)
  | 0, _, _ => fault .unfinished
  | fuel + 1, str, pos => do
    let (text, endOfLength) ← parseLine 42 "Missing CRLF after array length" str pos
    let arrayLength ← call (stoll text)
    let pos ← addSize endOfLength 2
    if arrayLength < 0 then throw (.invalidArgument "Negative array length not allowed")
    else
      let (output, pos) ← parseElements fuel str pos 0 arrayLength.toNatClampNeg []
      pure (array output, pos)

/-- The loop of `RespValue::ParseArray`, before the element `i`.
SOURCE: resp_value.cc:115-120 -/
def parseElements : (fuel : ℕ) → Bytes → ℕ → ℕ → ℕ → List RespValue → Parse (List RespValue × ℕ)
  | 0, _, _, _, _, _ => fault .unfinished
  | fuel + 1, str, pos, i, arrayLength, output =>
    if i < arrayLength then
      if pos ≥ str.length then throw (.outOfRange "Array element missing/truncated")
      else do
        let (value, pos) ← parseVariant fuel str pos
        parseElements fuel str pos (i + 1) arrayLength (output ++ [value])
    else pure (output, pos)

end

/-- The loop of `RespValueQueue::PopValue`: it goes on until an exception ends it.
SOURCE: resp_value_queue.cc:12-28 -/
def parseBuffer : (fuel : ℕ) → RespValueQueue → Except Fault (RespValueQueue × StdException)
  | 0, _ => .error .unfinished
  | fuel + 1, q =>
    match (parseVariant fuel q.buffer 0).run with
    | .error f => .error f
    | .ok (.error e) => .ok (q, e)
    | .ok (.ok (val, pos)) => parseBuffer fuel (q.takeParsed val pos)

end MyRedis.Model.CheckedRespValue

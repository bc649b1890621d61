import MyRedis.Lib.Checked
import MyRedis.Model.Serialise

/-!
# The snapshot reader with checked steps

The readers of `serialise.cc` and `store.cc` once more, step by step: every `data[...]` is an
index that may be out of bounds, and every loop is given a number of steps it may run out of.
`MyRedis.Model.Serialise` says what they return.

A position is never more than four above the size of the string, so no sum of positions wraps.
-/

set_option autoImplicit false

namespace MyRedis.Model.CheckedSerialise

open MyRedis.Lib MyRedis.Lib.Checked

/-- What a reader does. -/
abbrev Read : Type → Type := Checked StdException

/-- `SkipWhitespace`
SOURCE: serialise.cc:62-67 -/
def skipWhitespace : (steps : ℕ) → Bytes → ℕ → Read ℕ
  | 0, _, _ => fault .unfinished
  | steps + 1, data, pos =>
    if pos < data.length then do
      let character ← getAt data pos
      if isJsonSpace character then skipWhitespace steps data (pos + 1) else pure pos
    else pure pos

/-- A check for the character at `pos`, which is stepped over. -/
def expect (data : Bytes) (character : UInt8) (what : String) (pos : ℕ) : Read ℕ :=
  if pos ≥ data.length then throw (.invalidArgument what)
  else do
    let found ← getAt data pos
    if found ≠ character then throw (.invalidArgument what) else pure (pos + 1)

/-- The loop over the digits of a `\u` escape, with `count` of them left.
SOURCE: serialise.cc:113-118 -/
def hexCode : (count : ℕ) → Bytes → ℕ → ℕ → Read ℕ
  | 0, _, _, code => pure code
  | count + 1, data, pos, code => do
    let chr ← getAt data pos
    match hexValue chr with
    | none => throw (.invalidArgument "invalid \\u escape")
    | some nibble => hexCode count data (pos + 1) (code <<< 4 ||| nibble)

/-- The `switch` of `ParseJsonString`: the character an escape stands for, and how many
bytes it takes from `pos` on.
SOURCE: serialise.cc:100-131 -/
def parseEscape (data : Bytes) (escape : UInt8) (pos : ℕ) : Read (UInt8 × ℕ) :=
  if escape = 117 then
    if pos + 4 > data.length then throw (.invalidArgument "truncated \\u escape")
    else do
      let code ← hexCode 4 data pos 0
      if code > 0xff then throw (.invalidArgument "unsupported \\u escape")
      else pure (UInt8.ofNat code, 4)
  else call (Model.parseEscape data escape pos)

/-- The loop of `ParseJsonString`.
SOURCE: serialise.cc:91-133 -/
def parseStringLoop : (steps : ℕ) → Bytes → ℕ → Bytes → Read (Bytes × ℕ)
  | 0, _, _, _ => fault .unfinished
  | steps + 1, data, pos, out =>
    if pos < data.length then do
      let character ← getAt data pos
      if character = 34 then pure (out, pos + 1)
      else if character ≠ 92 then parseStringLoop steps data (pos + 1) (out ++ [character])
      else if pos + 1 ≥ data.length then throw (.invalidArgument "dangling escape")
      else
        let escape ← getAt data (pos + 1)
        let (byte, taken) ← parseEscape data escape (pos + 2)
        parseStringLoop steps data (pos + 2 + taken) (out ++ [byte])
    else throw (.invalidArgument "unterminated string")

/-- `ParseJsonString`
SOURCE: serialise.cc:84-134 -/
def parseJsonString (steps : ℕ) (data : Bytes) (pos : ℕ) : Read (Bytes × ℕ) := do
  let pos ← expect data 34 "expected '\"' to open string" pos
  parseStringLoop steps data pos []

/-- `ParseJsonInteger`: `std::from_chars` reads no more than the characters from `begin` to
`end`, which have to be those of the string.
SOURCE: serialise.cc:136-146 -/
def parseJsonInteger (data : Bytes) (pos : ℕ) : Read (Int64 × ℕ) :=
  if pos > data.length then fault .outOfBounds else call (Model.parseJsonInteger data pos)

/-- The name of a field, and the colon behind it.
SOURCE: store.cc:126-134, 150-158 -/
def parseFieldName (steps : ℕ) (data name : Bytes) (field colon : String) (pos : ℕ) : Read ℕ := do
  let pos ← skipWhitespace steps data pos
  let (found, pos) ← parseJsonString steps data pos
  if found ≠ name then throw (.invalidArgument field)
  else
    let pos ← skipWhitespace steps data pos
    expect data 58 colon pos

/-- The value of an entry: a string or `null`.
SOURCE: store.cc:136-142 -/
def parseEntryValue (steps : ℕ) (data : Bytes) (pos : ℕ) : Read (Option Bytes × ℕ) := do
  let isNull ← call (startsWithNull data pos)
  if isNull then pure (none, pos + 4)
  else
    let (value, pos) ← parseJsonString steps data pos
    pure (some value, pos)

/-- `Store::ParseEntryJson`
SOURCE: store.cc:120-170 -/
def parseEntryJson (steps : ℕ) (data : Bytes) (pos : ℕ) : Read (Store.Entry × ℕ) := do
  let pos ← expect data 123 "expected '\x7b' to open entry" pos
  let pos ← parseFieldName steps data (ascii "value") "expected \"value\" field"
    "expected ':' after \"value\"" pos
  let pos ← skipWhitespace steps data pos
  let (value, pos) ← parseEntryValue steps data pos
  let pos ← skipWhitespace steps data pos
  let pos ← expect data 44 "expected ',' after \"value\"" pos
  let pos ← parseFieldName steps data (ascii "expiry") "expected \"expiry\" field"
    "expected ':' after \"expiry\"" pos
  let pos ← skipWhitespace steps data pos
  let (expiry, pos) ← parseJsonInteger data pos
  let pos ← skipWhitespace steps data pos
  let pos ← expect data 125 "expected '\x7d' to close entry" pos
  pure (⟨expiry, value⟩, pos)

/-- One member of the object that `DeserialiseFromJson` reads.
SOURCE: store.cc:185-195 -/
def parseMember (steps : ℕ) (data : Bytes) (pos : ℕ) : Read ((Bytes × Store.Entry) × ℕ) := do
  let pos ← skipWhitespace steps data pos
  let (key, pos) ← parseJsonString steps data pos
  let pos ← skipWhitespace steps data pos
  let pos ← expect data 58 "expected ':' after key" pos
  let pos ← skipWhitespace steps data pos
  let (entry, pos) ← parseEntryJson steps data pos
  pure ((key, entry), pos)

/-- What follows a member: whether another one does, and the position behind the comma or the
brace.
SOURCE: store.cc:197-209 -/
def parseSeparator (steps : ℕ) (data : Bytes) (pos : ℕ) : Read (Bool × ℕ) := do
  let pos ← skipWhitespace steps data pos
  if pos ≥ data.length then throw (.invalidArgument "unterminated object")
  else
    let character ← getAt data pos
    if character = 44 then pure (true, pos + 1)
    else if character = 125 then pure (false, pos + 1)
    else throw (.invalidArgument "expected ',' or '\x7d'")

/-- The loop of `DeserialiseFromJson` over the members, with `count` steps left.
SOURCE: store.cc:184-210 -/
def parseMembers (steps : ℕ) (data : Bytes) :
    (count : ℕ) → Store → ℕ → Except Fault (Except StdException ℕ × Store)
  | 0, _, _ => .error .unfinished
  | count + 1, s, pos =>
    match (parseMember steps data pos).run with
    | .error f => .error f
    | .ok (.error e) => .ok (.error e, s)
    | .ok (.ok ((key, entry), pos)) =>
      let s := s.insert key entry
      match (parseSeparator steps data pos).run with
      | .error f => .error f
      | .ok (.error e) => .ok (.error e, s)
      | .ok (.ok (true, pos)) => parseMembers steps data count s pos
      | .ok (.ok (false, pos)) => .ok (.ok pos, s)

/-- Whether the object has no members: its closing brace is stepped over.
SOURCE: store.cc:180-183 -/
def parseEmpty (steps : ℕ) (data : Bytes) (pos : ℕ) : Read (Bool × ℕ) := do
  let pos ← skipWhitespace steps data pos
  if pos < data.length then
    let character ← getAt data pos
    if character = 125 then pure (true, pos + 1) else pure (false, pos)
  else pure (false, pos)

/-- What `DeserialiseFromJson` reads before the members.
SOURCE: store.cc:173-183 -/
def parseOpening (steps : ℕ) (data : Bytes) : Read (Bool × ℕ) := do
  let pos ← skipWhitespace steps data 0
  let pos ← expect data 123 "json data did not begin with \"\x7b\"" pos
  parseEmpty steps data pos

/-- What `DeserialiseFromJson` checks behind the object.
SOURCE: store.cc:213-216 -/
def parseEnd (steps : ℕ) (data : Bytes) (pos : ℕ) : Read Unit := do
  let pos ← skipWhitespace steps data pos
  if pos ≠ data.length then throw (.invalidArgument "trailing data after json object")
  else pure ()

/-- `Store::DeserialiseFromJson`
SOURCE: store.cc:172-217 -/
def deserialiseFromJson (steps : ℕ) (s : Store) (data : Bytes) :
    Except Fault (Except StdException Unit × Store) := do
  match ← (parseOpening steps data).run with
  | .error e => pure (.error e, s)
  | .ok (true, pos) =>
    let outcome ← (parseEnd steps data pos).run
    pure (outcome, s)
  | .ok (false, pos) =>
    match ← parseMembers steps data steps s pos with
    | (.error e, s) => pure (.error e, s)
    | (.ok pos, s) =>
      let outcome ← (parseEnd steps data pos).run
      pure (outcome, s)

end MyRedis.Model.CheckedSerialise

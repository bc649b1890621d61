import MyRedis.Model.Store

/-!
# The snapshot format

`serialise.cc` and the two functions of `store.cc` that write and read snapshots.  The
readers take the whole string and a position by reference; here they return the position
they leave behind.  `Map::ForEach` visits the entries in an order of its own, so the
writer takes the list of entries it visits.

A reader that checks for one character and steps over it is `expect`, with the character
and the text of its error.
-/

set_option autoImplicit false

namespace MyRedis.Model

/-! ## Writing -/

/-- `kFirstPrintable`
SOURCE: serialise.cc:15 -/
def kFirstPrintable : UInt8 := 0x20

/-- `kNibbleMask`
SOURCE: serialise.cc:16 -/
def kNibbleMask : UInt8 := 0xf

/-- `kHex`
SOURCE: serialise.cc:48-50 -/
def kHex (nibble : UInt8) : UInt8 := (ascii "0123456789abcdef").getD nibble.toNat 0

/-- What `AppendJsonString` writes for one character.
SOURCE: serialise.cc:23-57 -/
def escapeJson (character : UInt8) : Bytes :=
  if character = 34 then ascii "\\\""
  else if character = 92 then ascii "\\\\"
  else if character = 8 then ascii "\\b"
  else if character = 12 then ascii "\\f"
  else if character = 10 then ascii "\\n"
  else if character = 13 then ascii "\\r"
  else if character = 9 then ascii "\\t"
  else if character < kFirstPrintable then
    ascii "\\u00" ++ [kHex ((character >>> 4) &&& kNibbleMask), kHex (character &&& kNibbleMask)]
  else [character]

/-- `AppendJsonString`
SOURCE: serialise.cc:20-60 -/
def appendJsonString (value out : Bytes) : Bytes :=
  out ++ [34] ++ value.flatMap escapeJson ++ [34]

namespace Store

/-- The entries of the map in an order in which `ForEach` may visit them.
SOURCE: standard_map.h:47-51 -/
def Enumerates (s : Store) (entries : List (Sigma fun _ : Bytes => Entry)) : Prop :=
  (entries : Multiset (Sigma fun _ : Bytes => Entry)) = s.data.entries

instance (s : Store) (entries : List (Sigma fun _ : Bytes => Entry)) :
    Decidable (s.Enumerates entries) :=
  inferInstanceAs (Decidable ((entries : Multiset (Sigma fun _ : Bytes => Entry)) = s.data.entries))

/-- What `SerialiseToJson` appends for an entry.
SOURCE: store.cc:104-113 -/
def appendEntry (key : Bytes) (entry : Entry) (out : Bytes) : Bytes :=
  let out := appendJsonString key out
  let out := out ++ ascii ":\x7b\"value\":"
  let out := match entry.value with
    | some value => appendJsonString value out
    | none => out ++ ascii "null"
  let out := out ++ ascii ",\"expiry\":"
  let out := out ++ toStringInt entry.expiry
  out ++ ascii "\x7d"

/-- The visits of `SerialiseToJson`.
SOURCE: store.cc:98-114 -/
def appendEntries (out : Bytes) (first : Bool) : List (Sigma fun _ : Bytes => Entry) → Bytes
  | [] => out
  | ⟨key, entry⟩ :: entries =>
    let out := if first then out else out ++ ascii ","
    appendEntries (appendEntry key entry out) false entries

/-- `Store::SerialiseToJson`, for the order in which the entries are visited.
SOURCE: store.cc:96-118 -/
def serialiseToJson (entries : List (Sigma fun _ : Bytes => Entry)) : Bytes :=
  appendEntries (ascii "\x7b") true entries ++ ascii "\x7d"

end Store

/-! ## Reading -/

/-- The white space `SkipWhitespace` skips.
SOURCE: serialise.cc:63-64 -/
def isJsonSpace (b : UInt8) : Bool := b == 32 || b == 9 || b == 10 || b == 13

/-- `SkipWhitespace`
SOURCE: serialise.cc:62-67 -/
def skipWhitespace (data : Bytes) (pos : ℕ) : ℕ :=
  pos + ((data.drop pos).takeWhile isJsonSpace).length

/-- `HexValue`; `none` is `-1`.
SOURCE: serialise.cc:75-80 -/
def hexValue (chr : UInt8) : Option ℕ :=
  if 48 ≤ chr ∧ chr ≤ 57 then some (chr.toNat - 48)
  else if 97 ≤ chr ∧ chr ≤ 102 then some (chr.toNat - 97 + 10)
  else if 65 ≤ chr ∧ chr ≤ 70 then some (chr.toNat - 65 + 10)
  else none

/-- The four digits of a `\u` escape.
SOURCE: serialise.cc:113-118 -/
def hexCode (code : ℕ) : Bytes → Except StdException ℕ
  | [] => .ok code
  | chr :: rest =>
    match hexValue chr with
    | none => .error (.invalidArgument "invalid \\u escape")
    | some nibble => hexCode (code <<< 4 ||| nibble) rest

/-- The `switch` of `ParseJsonString`: the character an escape stands for, and how many
bytes it takes from `pos` on.
SOURCE: serialise.cc:100-131 -/
def parseEscape (data : Bytes) (escape : UInt8) (pos : ℕ) : Except StdException (UInt8 × ℕ) :=
  if escape = 34 then .ok (34, 0)
  else if escape = 92 then .ok (92, 0)
  else if escape = 47 then .ok (47, 0)
  else if escape = 98 then .ok (8, 0)
  else if escape = 102 then .ok (12, 0)
  else if escape = 110 then .ok (10, 0)
  else if escape = 114 then .ok (13, 0)
  else if escape = 116 then .ok (9, 0)
  else if escape = 117 then
    if pos + 4 > data.length then .error (.invalidArgument "truncated \\u escape")
    else do
      let code ← hexCode 0 (substr data pos 4)
      if code > 0xff then .error (.invalidArgument "unsupported \\u escape")
      else .ok (UInt8.ofNat code, 4)
  else .error (.invalidArgument "invalid escape")

/-- The loop of `ParseJsonString`.
SOURCE: serialise.cc:91-133 -/
def parseStringLoop (data : Bytes) (pos : ℕ) (out : Bytes) : Except StdException (Bytes × ℕ) :=
  if _h : pos < data.length then
    let character := data[pos]
    if character = 34 then .ok (out, pos + 1)
    else if character ≠ 92 then parseStringLoop data (pos + 1) (out ++ [character])
    else
      match data[pos + 1]? with
      | none => .error (.invalidArgument "dangling escape")
      | some escape =>
        match parseEscape data escape (pos + 2) with
        | .error e => .error e
        | .ok (byte, taken) => parseStringLoop data (pos + 2 + taken) (out ++ [byte])
  else .error (.invalidArgument "unterminated string")
termination_by data.length - pos

/-- A check for the character at `pos`, which is stepped over. -/
def expect (data : Bytes) (character : UInt8) (what : String) (pos : ℕ) : Except StdException ℕ :=
  if data[pos]? = some character then .ok (pos + 1) else .error (.invalidArgument what)

/-- `ParseJsonString`
SOURCE: serialise.cc:84-134 -/
def parseJsonString (data : Bytes) (pos : ℕ) : Except StdException (Bytes × ℕ) := do
  let pos ← expect data 34 "expected '\"' to open string" pos
  parseStringLoop data pos []

/-- `ParseJsonInteger`
SOURCE: serialise.cc:136-146 -/
def parseJsonInteger (data : Bytes) (pos : ℕ) : Except StdException (Int64 × ℕ) :=
  match fromChars (data.drop pos) with
  | .error _ => .error (.invalidArgument "expected an integer")
  | .ok (value, taken) =>
    if taken = 0 then .error (.invalidArgument "expected an integer")
    else .ok (value, pos + taken)

/-- `json_data.compare(pos, 4, "null") == 0`, which throws where `pos` is past the end. -/
def startsWithNull (data : Bytes) (pos : ℕ) : Except StdException Bool :=
  if pos > data.length then .error (.outOfRange "basic_string::compare")
  else .ok (substr data pos 4 == ascii "null")

namespace Store

/-- The name of a field, and the colon behind it.
SOURCE: store.cc:126-134, 150-158 -/
def parseFieldName (data name : Bytes) (field colon : String) (pos : ℕ) :
    Except StdException ℕ := do
  let (found, pos) ← parseJsonString data (skipWhitespace data pos)
  if found ≠ name then .error (.invalidArgument field)
  else expect data 58 colon (skipWhitespace data pos)

/-- The value of an entry: a string or `null`.
SOURCE: store.cc:136-142 -/
def parseEntryValue (data : Bytes) (pos : ℕ) : Except StdException (Option Bytes × ℕ) := do
  if ← startsWithNull data pos then return (none, pos + 4)
  else
    let (value, pos) ← parseJsonString data pos
    return (some value, pos)

/-- `Store::ParseEntryJson`
SOURCE: store.cc:120-170 -/
def parseEntryJson (data : Bytes) (pos : ℕ) : Except StdException (Entry × ℕ) := do
  let pos ← expect data 123 "expected '\x7b' to open entry" pos
  let pos ← parseFieldName data (ascii "value") "expected \"value\" field"
    "expected ':' after \"value\"" pos
  let (value, pos) ← parseEntryValue data (skipWhitespace data pos)
  let pos ← expect data 44 "expected ',' after \"value\"" (skipWhitespace data pos)
  let pos ← parseFieldName data (ascii "expiry") "expected \"expiry\" field"
    "expected ':' after \"expiry\"" pos
  let (expiry, pos) ← parseJsonInteger data (skipWhitespace data pos)
  let pos ← expect data 125 "expected '\x7d' to close entry" (skipWhitespace data pos)
  return (⟨expiry, value⟩, pos)

/-- One member of the object that `DeserialiseFromJson` reads.
SOURCE: store.cc:185-195 -/
def parseMember (data : Bytes) (pos : ℕ) : Except StdException ((Bytes × Entry) × ℕ) := do
  let (key, pos) ← parseJsonString data (skipWhitespace data pos)
  let pos ← expect data 58 "expected ':' after key" (skipWhitespace data pos)
  let (entry, pos) ← parseEntryJson data (skipWhitespace data pos)
  return ((key, entry), pos)

/-! A reader never moves back, which is what makes the loop over the members end. -/

/-- `SkipWhitespace` does not go back.
SOURCE: serialise.cc:62-67 -/
theorem skipWhitespace_le (data : Bytes) (pos : ℕ) : pos ≤ skipWhitespace data pos :=
  Nat.le_add_right _ _

/-- A character that is asked for stands at the position. -/
theorem expect_eq_ok {data : Bytes} {character : UInt8} {what : String} {pos next : ℕ} :
    expect data character what pos = .ok next ↔ data[pos]? = some character ∧ next = pos + 1 := by
  unfold expect
  split_ifs with h <;> simp [h, eq_comm]

/-- The loop of `ParseJsonString` does not go back.
SOURCE: serialise.cc:91-132 -/
theorem parseStringLoop_le {data out s : Bytes} {pos next : ℕ}
    (h : parseStringLoop data pos out = .ok (s, next)) : pos ≤ next := by
  fun_induction parseStringLoop data pos out with
  | case1 pos out hpos character hquote => cases h; omega
  | case2 pos out hpos character hquote hplain ih => have := ih h; omega
  | case3 pos out hpos character hquote hplain hnone => cases h
  | case4 pos out hpos character hquote hplain escape hsome e he => cases h
  | case5 pos out hpos character hquote hplain escape hsome byte taken he ih =>
    have := ih h
    omega
  | case6 pos out hpos => cases h

/-- `ParseJsonString` does not go back.
SOURCE: serialise.cc:84-134 -/
theorem parseJsonString_le {data s : Bytes} {pos next : ℕ}
    (h : parseJsonString data pos = .ok (s, next)) : pos ≤ next := by
  obtain ⟨p, hp, h⟩ := bind_eq_ok.mp h
  have hopen := (expect_eq_ok.mp hp).2
  have hloop := parseStringLoop_le h
  omega

/-- `ParseJsonInteger` does not go back.
SOURCE: serialise.cc:136-146 -/
theorem parseJsonInteger_le {data : Bytes} {n : Int64} {pos next : ℕ}
    (h : parseJsonInteger data pos = .ok (n, next)) : pos ≤ next := by
  unfold parseJsonInteger at h
  split at h
  · cases h
  · split_ifs at h
    cases h
    omega

/-- The reader of a field name does not go back.
SOURCE: store.cc:126-134, 150-158 -/
theorem parseFieldName_le {data name : Bytes} {field colon : String} {pos next : ℕ}
    (h : parseFieldName data name field colon pos = .ok next) : pos ≤ next := by
  obtain ⟨⟨found, p⟩, hfound, h⟩ := bind_eq_ok.mp h
  have hname := parseJsonString_le hfound
  have hspace := skipWhitespace_le data pos
  have hspace' := skipWhitespace_le data p
  simp only at h
  split_ifs at h
  have hcolon := (expect_eq_ok.mp h).2
  omega

/-- The reader of a value does not go back.
SOURCE: store.cc:137-142 -/
theorem parseEntryValue_le {data : Bytes} {value : Option Bytes} {pos next : ℕ}
    (h : parseEntryValue data pos = .ok (value, next)) : pos ≤ next := by
  obtain ⟨isNull, -, h⟩ := bind_eq_ok.mp h
  split_ifs at h
  · cases h
    omega
  · obtain ⟨⟨s, p⟩, hs, h⟩ := bind_eq_ok.mp h
    cases h
    exact parseJsonString_le hs

/-- `ParseEntryJson` does not go back.
SOURCE: store.cc:120-170 -/
theorem parseEntryJson_le {data : Bytes} {entry : Entry} {pos next : ℕ}
    (h : parseEntryJson data pos = .ok (entry, next)) : pos ≤ next := by
  obtain ⟨p₁, h₁, h⟩ := bind_eq_ok.mp h
  obtain ⟨p₂, h₂, h⟩ := bind_eq_ok.mp h
  obtain ⟨⟨value, p₃⟩, h₃, h⟩ := bind_eq_ok.mp h
  obtain ⟨p₄, h₄, h⟩ := bind_eq_ok.mp h
  obtain ⟨p₅, h₅, h⟩ := bind_eq_ok.mp h
  obtain ⟨⟨expiry, p₆⟩, h₆, h⟩ := bind_eq_ok.mp h
  obtain ⟨p₇, h₇, h⟩ := bind_eq_ok.mp h
  cases h
  have hspaces := fun pos => skipWhitespace_le data pos
  calc pos ≤ p₁ := by rw [(expect_eq_ok.mp h₁).2]; omega
    _ ≤ p₂ := parseFieldName_le h₂
    _ ≤ p₃ := (hspaces p₂).trans (parseEntryValue_le h₃)
    _ ≤ p₄ := by rw [(expect_eq_ok.mp h₄).2]; have := hspaces p₃; omega
    _ ≤ p₅ := parseFieldName_le h₅
    _ ≤ p₆ := (hspaces p₅).trans (parseJsonInteger_le h₆)
    _ ≤ next := by rw [(expect_eq_ok.mp h₇).2]; have := hspaces p₆; omega

/-- The reader of a member does not go back, so that the loop over the members ends.
SOURCE: store.cc:185-195 -/
theorem parseMember_le {data : Bytes} {member : Bytes × Entry} {pos next : ℕ}
    (h : parseMember data pos = .ok (member, next)) : pos ≤ next := by
  obtain ⟨⟨key, p₁⟩, h₁, h⟩ := bind_eq_ok.mp h
  obtain ⟨p₂, h₂, h⟩ := bind_eq_ok.mp h
  obtain ⟨⟨entry, p₃⟩, h₃, h⟩ := bind_eq_ok.mp h
  cases h
  have hspaces := fun pos => skipWhitespace_le data pos
  calc pos ≤ p₁ := (hspaces pos).trans (parseJsonString_le h₁)
    _ ≤ p₂ := by rw [(expect_eq_ok.mp h₂).2]; have := hspaces p₁; omega
    _ ≤ next := (hspaces p₂).trans (parseEntryJson_le h₃)

/-- The loop of `DeserialiseFromJson` over the members: what it ends with, and the store,
which keeps what was inserted before an exception.
SOURCE: store.cc:184-210 -/
def parseMembers (data : Bytes) (s : Store) (pos : ℕ) : Except StdException ℕ × Store :=
  match _hmember : parseMember data pos with
  | .error e => (.error e, s)
  | .ok ((key, entry), next) =>
    let s := s.insert key entry
    let pos := skipWhitespace data next
    if _hpos : pos < data.length then
      if data[pos] = 44 then parseMembers data s (pos + 1)
      else if data[pos] = 125 then (.ok (pos + 1), s)
      else (.error (.invalidArgument "expected ',' or '\x7d'"), s)
    else (.error (.invalidArgument "unterminated object"), s)
termination_by data.length - pos
decreasing_by
  have hmember := parseMember_le _hmember
  have hspace := skipWhitespace_le data next
  omega

/-- The object `DeserialiseFromJson` reads, after its opening brace.
SOURCE: store.cc:180-211 -/
def parseObject (data : Bytes) (s : Store) (pos : ℕ) : Except StdException ℕ × Store :=
  let pos := skipWhitespace data pos
  if data[pos]? = some 125 then (.ok (pos + 1), s) else parseMembers data s pos

/-- `Store::DeserialiseFromJson`
SOURCE: store.cc:172-217 -/
def deserialiseFromJson (s : Store) (data : Bytes) : Except StdException Unit × Store :=
  let start := expect data 123 "json data did not begin with \"\x7b\"" (skipWhitespace data 0)
  match start with
  | .error e => (.error e, s)
  | .ok pos =>
    match parseObject data s pos with
    | (.error e, s) => (.error e, s)
    | (.ok pos, s) =>
      if skipWhitespace data pos ≠ data.length then
        (.error (.invalidArgument "trailing data after json object"), s)
      else (.ok (), s)

end Store

end MyRedis.Model

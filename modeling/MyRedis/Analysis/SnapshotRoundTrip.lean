import MyRedis.Analysis.ReplyFraming
import MyRedis.Analysis.SnapshotFormat

/-!
# Restoring a snapshot gives the store back

`DeserialiseFromJson` undoes `SerialiseToJson`, in whatever order `ForEach` visits the
entries: keys and values are arbitrary bytes, a value may be null and an expiry any
`int64_t` (`restore_snapshot`).

What the writer writes is a text of the format that the reader accepts, without any white space,
and its members are the entries that were visited (`document_serialiseToJson`).  For strings this
holds in any surrounding text (`parseJsonString_appendJsonString`).
-/

set_option autoImplicit false

namespace MyRedis.Analysis

open MyRedis.Model MyRedis.Model.Store MyRedis.Lib

/-! ## Strings -/

section Strings

/-- How a character is written: as an escape with a letter, as one with its code, or as it is.
SOURCE: serialise.cc:22-58 -/
theorem escapeJson_cases (c : UInt8) :
    (∃ letter, (letter, c) ∈ escapeLetters ∧ escapeJson c = [92, letter]) ∨
    (c < kFirstPrintable ∧ escapeJson c =
      [92, 117, 48, 48, kHex ((c >>> 4) &&& kNibbleMask), kHex (c &&& kNibbleMask)]) ∨
    (kFirstPrintable ≤ c ∧ c ≠ 34 ∧ c ≠ 92 ∧ escapeJson c = [c]) := by
  by_cases hletter : c = 34 ∨ c = 92 ∨ c = 8 ∨ c = 12 ∨ c = 10 ∨ c = 13 ∨ c = 9
  · left
    obtain rfl | rfl | rfl | rfl | rfl | rfl | rfl := hletter
    · exact ⟨34, by decide, by decide⟩
    · exact ⟨92, by decide, by decide⟩
    · exact ⟨98, by decide, by decide⟩
    · exact ⟨102, by decide, by decide⟩
    · exact ⟨110, by decide, by decide⟩
    · exact ⟨114, by decide, by decide⟩
    · exact ⟨116, by decide, by decide⟩
  · simp only [not_or] at hletter
    obtain ⟨h34, h92, h8, h12, h10, h13, h9⟩ := hletter
    rw [escapeJson, if_neg h34, if_neg h92, if_neg h8, if_neg h12, if_neg h10, if_neg h13,
      if_neg h9]
    by_cases hcontrol : c < kFirstPrintable
    · rw [if_pos hcontrol]
      exact Or.inr (Or.inl ⟨hcontrol, rfl⟩)
    · rw [if_neg hcontrol]
      exact Or.inr (Or.inr ⟨UInt8.not_lt.mp hcontrol, h34, h92, rfl⟩)

/-- The digits of the escape written for a control character.
SOURCE: serialise.cc:46-53 -/
theorem escape_control {c : UInt8} (hc : c < kFirstPrintable) :
    Escape 117 [48, 48, kHex ((c >>> 4) &&& kNibbleMask), kHex (c &&& kNibbleMask)] c := by
  have hall : ∀ n < 32,
      hexValue (kHex ((UInt8.ofNat n >>> 4) &&& kNibbleMask)) = some (n / 16) ∧
        hexValue (kHex (UInt8.ofNat n &&& kNibbleMask)) = some (n % 16) := by decide
  have hdigits := hall c.toNat (UInt8.lt_iff_toNat_lt.mp hc)
  rw [UInt8.ofNat_toNat] at hdigits
  have hescape := Escape.code hdigits.1 hdigits.2
  rwa [Nat.div_add_mod, UInt8.ofNat_toNat] at hescape

/-- What is written for a character stands for it.
SOURCE: serialise.cc:22-58, 91-132 -/
theorem characters_escapeJson (c : UInt8) {text s : Bytes} (h : Characters text s) :
    Characters (escapeJson c ++ text) (c :: s) := by
  obtain ⟨letter, hletter, hwritten⟩ | ⟨hcontrol, hwritten⟩ | ⟨-, hquote, hbackslash, hwritten⟩ :=
    escapeJson_cases c
  · rw [hwritten]
    exact .escape (.letter hletter) h
  · rw [hwritten]
    exact .escape (escape_control hcontrol) h
  · rw [hwritten]
    exact .plain hquote hbackslash h

/-- What is written for the characters of a string stands for the string.
SOURCE: serialise.cc:22-58, 91-132 -/
theorem characters_flatMap (s : Bytes) : Characters (s.flatMap escapeJson) s := by
  induction s with
  | nil => exact .nil
  | cons c s ih => exact characters_escapeJson c ih

/-- A string as the writer writes it. -/
def quote (s : Bytes) : Bytes := 34 :: (s.flatMap escapeJson ++ [34])

/-- `AppendJsonString` puts the quoted string behind what is there.
SOURCE: serialise.cc:20-60 -/
theorem appendJsonString_eq (value out : Bytes) :
    appendJsonString value out = out ++ quote value := by
  simp [appendJsonString, quote]

/-- **A string is written as a literal for it.**
SOURCE: serialise.cc:20-60 -/
theorem literal_quote (s : Bytes) : Literal (quote s) s :=
  ⟨_, rfl, characters_flatMap s⟩

/-- A quoted string is read back, whatever stands around it.
SOURCE: serialise.cc:20-60, 84-134 -/
theorem parseJsonString_quote (p s t : Bytes) :
    parseJsonString (p ++ quote s ++ t) p.length = .ok (s, (p ++ quote s).length) :=
  parseJsonString_iff.mpr ⟨quote s, literal_quote s, textAt_between p (quote s) t⟩

/-- **The reader undoes the writer of strings**, in whatever text the literal stands.  The literal
does not depend on what it is appended to; read from its first byte it gives the string back, and
the reader stops at the first byte behind it.
SOURCE: serialise.cc:20-60, 69-134, serialise.h:10-20 -/
theorem parseJsonString_appendJsonString (s : Bytes) :
    (∀ out, appendJsonString s out = out ++ appendJsonString s []) ∧
    ∀ p t, parseJsonString (p ++ appendJsonString s [] ++ t) p.length =
      .ok (s, (p ++ appendJsonString s []).length) := by
  have hliteral : appendJsonString s [] = quote s := by
    rw [appendJsonString_eq, List.nil_append]
  rw [hliteral]
  refine ⟨?_, ?_⟩
  · intro out
    exact appendJsonString_eq s out
  · intro p t
    exact parseJsonString_quote p s t

end Strings

/-! ## Entries -/

/-- A value as the writer writes it. -/
def valueText : Option Bytes → Bytes
  | some value => quote value
  | none => ascii "null"

/-- An entry as the writer writes it. -/
def entryText (entry : Entry) : Bytes :=
  123 :: (quote (ascii "value") ++ 58 :: (valueText entry.value ++ 44 ::
    (quote (ascii "expiry") ++ 58 :: (toStringInt entry.expiry ++ [125]))))

/-- A key and its entry as the writer writes them. -/
def memberText (key : Bytes) (entry : Entry) : Bytes := quote key ++ 58 :: entryText entry

/-- A visit of the writer puts a member behind what is there.
SOURCE: store.cc:104-113 -/
theorem appendEntry_eq (key : Bytes) (entry : Entry) (out : Bytes) :
    appendEntry key entry out = out ++ memberText key entry := by
  have hvalue : ascii ":\x7b\"value\":" = 58 :: 123 :: (quote (ascii "value") ++ [58]) := by
    decide
  have hexpiry : ascii ",\"expiry\":" = 44 :: (quote (ascii "expiry") ++ [58]) := by decide
  have hclose : ascii "\x7d" = [125] := by decide
  unfold appendEntry memberText entryText
  cases entry.value <;>
    simp only [appendJsonString_eq, valueText, hvalue, hexpiry, hclose, List.append_assoc,
      List.cons_append, List.nil_append]

section Entries

/-- No white space is white space. -/
theorem spaces_nil : Spaces [] := fun _ hb => absurd hb List.not_mem_nil

/-- A field name is written in its format.
SOURCE: store.cc:105, 111 -/
theorem nameFormat_quote (name : Bytes) : NameFormat (quote name ++ [58]) name :=
  ⟨[], quote name, [], spaces_nil, literal_quote name, spaces_nil, rfl⟩

/-- A value is written in its format.
SOURCE: store.cc:106-110 -/
theorem valueFormat_valueText (value : Option Bytes) : ValueFormat (valueText value) value := by
  cases value with
  | none => exact .null
  | some s => exact .string (literal_quote s)

/-- An integer is written in its format.
SOURCE: store.cc:112 -/
theorem integerText_toStringInt (n : Int64) : IntegerText (toStringInt n) n := by
  refine ⟨decide (n.toInt < 0), Decimal.encode n.toInt.natAbs, ?_, Decimal.encode_ne_nil _,
    fun b hb => Decimal.isDigit_of_mem_encode hb, signed_encode n.toInt⟩
  rw [toStringInt, Decimal.encodeInt]
  by_cases hneg : n.toInt < 0
  · simp only [hneg, decide_true, if_true, List.singleton_append]
  · simp only [hneg, decide_false, Bool.false_eq_true, if_false, List.nil_append]

/-- **An entry is written in the format of entries.**
SOURCE: store.cc:105-113 -/
theorem entryFormat_entryText (entry : Entry) : EntryFormat (entryText entry) entry := by
  have hformat := EntryFormat.intro (nameFormat_quote (ascii "value")) spaces_nil
    (valueFormat_valueText entry.value) spaces_nil (nameFormat_quote (ascii "expiry")) spaces_nil
    (integerText_toStringInt entry.expiry) spaces_nil
  simpa only [entryText, List.nil_append, List.append_assoc, List.singleton_append] using hformat

/-- **A member is written in the format of members.**
SOURCE: store.cc:104-113 -/
theorem memberFormat_memberText (key : Bytes) (entry : Entry) :
    MemberFormat (memberText key entry) (key, entry) := by
  have hformat :=
    MemberFormat.intro (nameFormat_quote key) spaces_nil (entryFormat_entryText entry)
  simpa only [memberText, List.nil_append, List.append_assoc, List.singleton_append] using hformat

end Entries

/-! ## Stores -/

/-- The members behind the first one as the writer writes them. -/
def restText (entries : List (Sigma fun _ : Bytes => Entry)) : Bytes :=
  entries.flatMap fun e => 44 :: memberText e.1 e.2

/-- The visits behind the first one put a comma before each member.
SOURCE: store.cc:100-114 -/
theorem appendEntries_false (entries : List (Sigma fun _ : Bytes => Entry)) (out : Bytes) :
    appendEntries out false entries = out ++ restText entries := by
  induction entries generalizing out with
  | nil => simp [appendEntries, restText]
  | cons e entries ih =>
    obtain ⟨key, entry⟩ := e
    have hcomma : ascii "," = [44] := by decide
    rw [appendEntries, ih, appendEntry_eq, if_neg (by simp), hcomma]
    simp [restText]

/-- The entries inserted one after another. -/
def insertAll (s : Store) (entries : List (Sigma fun _ : Bytes => Entry)) : Store :=
  entries.foldl (fun s e => s.insert e.1 e.2) s

/-- **The visits of the writer are written in the format of the members.**
SOURCE: store.cc:100-114 -/
theorem membersFormat_restText (key : Bytes) (entry : Entry)
    (entries : List (Sigma fun _ : Bytes => Entry)) :
    MembersFormat (memberText key entry ++ (restText entries ++ [125]))
      ((key, entry) :: entries.map fun e => (e.1, e.2)) := by
  induction entries generalizing key entry with
  | nil => exact .last (memberFormat_memberText key entry) spaces_nil
  | cons e entries ih =>
    have hformat := MembersFormat.cons (memberFormat_memberText key entry) spaces_nil (ih e.1 e.2)
    simpa only [restText, List.flatMap_cons, List.map_cons, List.nil_append, List.cons_append,
      List.append_assoc, List.singleton_append] using hformat

/-- **A snapshot is a document**, and its members are the entries.
SOURCE: store.cc:96-118 -/
theorem document_serialiseToJson (entries : List (Sigma fun _ : Bytes => Entry)) :
    Document (serialiseToJson entries) (entries.map fun e => (e.1, e.2)) := by
  have hopen : ascii "\x7b" = [123] := by decide
  have hclose : ascii "\x7d" = [125] := by decide
  cases entries with
  | nil => exact .empty spaces_nil spaces_nil spaces_nil
  | cons e entries =>
    have hdocument :=
      Document.members spaces_nil (membersFormat_restText e.1 e.2 entries) spaces_nil
    rw [serialiseToJson, appendEntries, appendEntries_false, appendEntry_eq, hopen, hclose]
    simpa only [if_true, List.map_cons, List.nil_append, List.append_nil, List.append_assoc]
      using hdocument

/-- Reading what the writer wrote inserts the entries it visited.
SOURCE: store.cc:96-118, 172-217 -/
theorem deserialiseFromJson_serialiseToJson (s : Store)
    (entries : List (Sigma fun _ : Bytes => Entry)) :
    s.deserialiseFromJson (serialiseToJson entries) = (.ok (), insertAll s entries) := by
  have hinserted : insertAll s entries = insertMembers s (entries.map fun e => (e.1, e.2)) := by
    rw [insertMembers, List.foldl_map, insertAll]
  exact deserialiseFromJson_iff.mpr ⟨_, document_serialiseToJson entries, hinserted⟩

/-- Inserting entries with different keys one after another.
SOURCE: store.cc:172-217 -/
theorem lookUp_insertAll {entries : List (Sigma fun _ : Bytes => Entry)}
    (hkeys : (entries.map Sigma.fst).Nodup) (s : Store) (key : Bytes) (entry : Entry) :
    (insertAll s entries).lookUp key = some entry ↔
      ⟨key, entry⟩ ∈ entries ∨ key ∉ entries.map Sigma.fst ∧ s.lookUp key = some entry := by
  induction entries generalizing s with
  | nil => simp [insertAll]
  | cons e entries ih =>
    rw [List.map_cons, List.nodup_cons] at hkeys
    have hstep : insertAll s (e :: entries) = insertAll (s.insert e.1 e.2) entries := rfl
    rw [hstep, ih hkeys.2, lookUp_insert]
    obtain ⟨k, v⟩ := e
    by_cases hkey : key = k
    · subst hkey
      have hnot : ∀ w, ⟨key, w⟩ ∉ entries := fun w hw =>
        hkeys.1 (List.mem_map.mpr ⟨⟨key, w⟩, hw, rfl⟩)
      simpa [hnot, hkeys.1] using eq_comm
    · simp [hkey]

/-- No key is visited twice.
SOURCE: store.cc:100 -/
theorem nodup_of_enumerates {s : Store} {entries : List (Sigma fun _ : Bytes => Entry)}
    (h : s.Enumerates entries) : (entries.map Sigma.fst).Nodup := by
  have hnodup := s.data.nodupKeys
  rw [← h] at hnodup
  exact Multiset.coe_nodupKeys.mp hnodup

/-- Inserting the entries of a store into an empty one gives the store back.
SOURCE: store.cc:172-217 -/
theorem insertAll_of_enumerates {s : Store} {entries : List (Sigma fun _ : Bytes => Entry)}
    (h : s.Enumerates entries) : insertAll Store.empty entries = s := by
  have hkeys := nodup_of_enumerates h
  apply Store.ext
  intro key
  apply Option.ext
  intro entry
  have hentry : s.lookUp key = some entry ↔ ⟨key, entry⟩ ∈ entries := by
    rw [Store.lookUp, ← Option.mem_def, Finmap.mem_lookup_iff, ← h, Multiset.mem_coe]
  rw [lookUp_insertAll hkeys, hentry]
  simp

/-- What `SerialiseToJson` writes is read into an empty store as the same store.
SOURCE: store.cc:96-118, 172-217 -/
theorem deserialiseFromJson_of_enumerates {s : Store}
    {entries : List (Sigma fun _ : Bytes => Entry)} (h : s.Enumerates entries) :
    Store.empty.deserialiseFromJson (serialiseToJson entries) = (.ok (), s) := by
  rw [deserialiseFromJson_serialiseToJson, insertAll_of_enumerates h]

/-- **Snapshot and restore.**  Whatever order `ForEach` visits the entries in, reading the
snapshot into an empty store succeeds and gives the same map, and every later sequence of
requests gets the same replies.
SOURCE: store.cc:96-217, serialise.cc:20-146 -/
theorem restore_snapshot (s : Store) (entries : List (Sigma fun _ : Bytes => Entry))
    (h : s.Enumerates entries) :
    ∃ restored, Store.empty.deserialiseFromJson (serialiseToJson entries) = (.ok (), restored) ∧
      (∀ key, restored.lookUp key = s.lookUp key) ∧
      ∀ requests, dispatchAll restored requests = dispatchAll s requests :=
  ⟨s, deserialiseFromJson_of_enumerates h, fun _ => rfl, fun _ => rfl⟩

/-- A key with a quote and a control character, a null value and the least deadline. -/
def oddEntries : List (Sigma fun _ : Bytes => Entry) :=
  [⟨[34, 1, 255], ⟨-9223372036854775808, some (ascii "a\r\n")⟩⟩, ⟨ascii "k", ⟨-1, none⟩⟩]

/-- These entries are a visit of a store.
SOURCE: store.cc:100 -/
theorem oddEntries_enumerated :
    (insertAll Store.empty oddEntries.reverse).Enumerates oddEntries := by
  unfold Store.Enumerates
  decide

/-- Entries with odd keys and values are read back.
SOURCE: store.cc:96-118, 172-217 -/
theorem restore_snapshot_oddEntries :
    ∃ restored, Store.empty.deserialiseFromJson (serialiseToJson oddEntries) = (.ok (), restored) ∧
      (∀ key, restored.lookUp key = (insertAll Store.empty oddEntries.reverse).lookUp key) ∧
      ∀ requests, dispatchAll restored requests =
        dispatchAll (insertAll Store.empty oddEntries.reverse) requests :=
  restore_snapshot (insertAll Store.empty oddEntries.reverse) oddEntries oddEntries_enumerated

end MyRedis.Analysis

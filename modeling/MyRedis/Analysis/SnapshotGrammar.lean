import MyRedis.Analysis.SnapshotRoundTrip
import MyRedis.Lib.Json

/-!
# Snapshots are JSON

What `SerialiseToJson` writes is derived by the grammar of JSON, together with the tree of what it
wrote (`storeTree`): an object of the keys and their entries.  Every string literal comes out of
`AppendJsonString`, whose characters and escapes are those of the grammar
(`escapeJson_mem_char`), and every number out of `std::to_string` (`toStringInt_mem_canonical`).
Two keys are never written alike, since the reader gets each of them back (`quote_injective`).
-/

set_option autoImplicit false

namespace MyRedis.Analysis

open MyRedis.Model MyRedis.Model.Store MyRedis.Lib

/-! ## Strings -/

section Strings

/-- An escape with a letter is a character of JSON.
SOURCE: serialise.cc:24-44 -/
theorem escapeLetter_mem_char {b : UInt8}
    (h : b ∈ [0x22, 0x5c, 0x2f, 0x62, 0x66, 0x6e, 0x72, 0x74]) : [92, b] ∈ Json.char :=
  Or.inr (Language.append_mem_mul (Json.mem_single [92]) (Or.inl (Json.mem_oneOf h)))

/-- An escape with four hex digits is a character of JSON.
SOURCE: serialise.cc:51-53 -/
theorem escapeCode_mem_char {a b c d : UInt8} (ha : [a] ∈ Json.hexdig) (hb : [b] ∈ Json.hexdig)
    (hc : [c] ∈ Json.hexdig) (hd : [d] ∈ Json.hexdig) : [92, 117, a, b, c, d] ∈ Json.char := by
  have hdigits := Language.append_mem_mul ha
    (Language.append_mem_mul hb (Language.append_mem_mul hc hd))
  exact Or.inr (Language.append_mem_mul (Json.mem_single [92])
    (Or.inr (Language.append_mem_mul (Json.mem_single [117]) hdigits)))

/-- A decimal digit is a hex digit.
SOURCE: serialise.cc:48-50 -/
theorem digit_mem_hexdig {b : UInt8} (hlo : 48 ≤ b) (hhi : b ≤ 57) : [b] ∈ Json.hexdig :=
  Or.inl (Or.inl (Json.mem_range hlo hhi))

/-- The digits of `kHex` are digits of JSON.
SOURCE: serialise.cc:48-50 -/
theorem kHex_mem_hexdig {nibble : UInt8} (h : nibble < 16) : [kHex nibble] ∈ Json.hexdig := by
  have hall : ∀ n < 16, 48 ≤ kHex (UInt8.ofNat n) ∧ kHex (UInt8.ofNat n) ≤ 57 ∨
      97 ≤ kHex (UInt8.ofNat n) ∧ kHex (UInt8.ofNat n) ≤ 102 := by decide
  have hdigit := hall nibble.toNat (UInt8.lt_iff_toNat_lt.mp h)
  rw [UInt8.ofNat_toNat] at hdigit
  obtain ⟨hlo, hhi⟩ | ⟨hlo, hhi⟩ := hdigit
  · exact digit_mem_hexdig hlo hhi
  · exact Or.inr (Json.mem_range hlo hhi)

/-- A nibble is less than 16.
SOURCE: serialise.cc:16, 52-53 -/
theorem and_kNibbleMask_lt (b : UInt8) : b &&& kNibbleMask < 16 := by
  rw [UInt8.lt_iff_toNat_lt, UInt8.toNat_and]
  exact Nat.lt_of_le_of_lt Nat.and_le_right (by decide)

/-- A byte that is no control character, quote or backslash stands for itself.
SOURCE: serialise.cc:54-56 -/
theorem mem_unescaped {c : UInt8} (h : 32 ≤ c) (hquote : c ≠ 34) (hbackslash : c ≠ 92) :
    [c] ∈ Json.unescaped := by
  have hne {d : UInt8} (h : c ≠ d) : c.toNat ≠ d.toNat := fun heq => h (UInt8.toNat_inj.mp heq)
  have h34 : c.toNat ≠ 34 := hne hquote
  have h92 : c.toNat ≠ 92 := hne hbackslash
  have hlt : c.toNat < 256 := c.toNat_lt
  by_cases h₁ : c.toNat ≤ 33
  · exact Or.inl (Or.inl (Json.mem_range h (UInt8.le_iff_toNat_le.mpr h₁)))
  by_cases h₂ : c.toNat ≤ 91
  · have hlo : (35 : UInt8).toNat ≤ c.toNat := by
      rw [show (35 : UInt8).toNat = 35 from rfl]
      omega
    exact Or.inl (Or.inr (Json.mem_range (UInt8.le_iff_toNat_le.mpr hlo)
      (UInt8.le_iff_toNat_le.mpr h₂)))
  · have hlo : (93 : UInt8).toNat ≤ c.toNat := by
      rw [show (93 : UInt8).toNat = 93 from rfl]
      omega
    exact Or.inr (Json.mem_range (UInt8.le_iff_toNat_le.mpr hlo)
      (UInt8.le_iff_toNat_le.mpr (Nat.le_of_lt_succ hlt)))

/-- **What is written for a byte is a character of JSON.**
SOURCE: serialise.cc:22-58 -/
theorem escapeJson_mem_char (c : UInt8) : escapeJson c ∈ Json.char := by
  obtain ⟨letter, hletter, hwritten⟩ | ⟨-, hwritten⟩ | ⟨hprintable, hquote, hbackslash, hwritten⟩ :=
    escapeJson_cases c
  · rw [hwritten]
    exact escapeLetter_mem_char (List.mem_map_of_mem (f := Prod.fst) hletter)
  · rw [hwritten]
    exact escapeCode_mem_char (digit_mem_hexdig (by decide) (by decide))
      (digit_mem_hexdig (by decide) (by decide)) (kHex_mem_hexdig (and_kNibbleMask_lt _))
      (kHex_mem_hexdig (and_kNibbleMask_lt _))
  · rw [hwritten]
    exact Or.inl (mem_unescaped hprintable hquote hbackslash)

/-- What is written for a string is a string of JSON.
SOURCE: serialise.cc:20-60 -/
theorem quote_mem_string (s : Bytes) : quote s ∈ Json.string := by
  have hbody := Json.flatMap_mem_kstar (t := s) (fun c _ => escapeJson_mem_char c)
  exact Language.append_mem_mul (Language.append_mem_mul (Json.mem_single [34]) hbody)
    (Json.mem_single [34])

/-- **Different strings are written differently.**
SOURCE: serialise.cc:20-60 -/
theorem quote_injective : Function.Injective quote := by
  intro s s' h
  have hread {s : Bytes} : parseJsonString (quote s) 0 = .ok (s, (quote s).length) := by
    have hcontext := parseJsonString_quote [] s []
    rwa [List.nil_append, List.append_nil, List.length_nil] at hcontext
  have heq := (hread (s := s)).symm.trans (h ▸ hread (s := s'))
  exact (Prod.mk.inj (Except.ok.inj heq)).1

end Strings

/-! ## Numbers -/

/-- A positive number is written without a leading zero. -/
theorem encode_mem_digits {n : ℕ} (h : 0 < n) :
    Decimal.encode n ∈ Json.digit19 * KStar.kstar Json.digit := by
  obtain ⟨b, t, hbt, hlo, hhi⟩ := Decimal.exists_head_encode_pos h
  have htail : t ∈ KStar.kstar Json.digit := by
    rw [← List.flatMap_singleton' t]
    apply Json.flatMap_mem_kstar
    intro c hc
    have hdigit : Decimal.isDigit c = true :=
      Decimal.isDigit_of_mem_encode (n := n) (hbt ▸ List.mem_cons_of_mem b hc)
    simp only [Decimal.isDigit, Bool.and_eq_true, decide_eq_true_eq] at hdigit
    exact Json.mem_range hdigit.1 hdigit.2
  rw [hbt]
  exact Language.append_mem_mul (Json.mem_range hlo hhi) htail

/-- An integer is written as JSON writes it.
SOURCE: store.cc:112 -/
theorem toStringInt_mem_canonical (n : Int64) : toStringInt n ∈ Json.canonical := by
  rw [toStringInt, Decimal.encodeInt]
  by_cases hzero : n.toInt = 0
  · rw [hzero]
    exact Or.inl rfl
  have hpos : 0 < n.toInt.natAbs := Int.natAbs_pos.mpr hzero
  split_ifs with hneg
  · exact Or.inr (Language.append_mem_mul (a := [45]) (Or.inr rfl) (encode_mem_digits hpos))
  · exact Or.inr (Language.append_mem_mul (a := []) (Or.inl rfl) (encode_mem_digits hpos))

/-! ## Objects -/

/-- The tree of a value. -/
def valueTree : Option Bytes → Json.Tree
  | some value => .string (quote value)
  | none => .null

/-- The tree of an entry. -/
def entryTree (entry : Entry) : Json.Tree :=
  .object [(quote (ascii "value"), valueTree entry.value),
    (quote (ascii "expiry"), .number (toStringInt entry.expiry))]

/-- The members of a snapshot. -/
def memberTrees (entries : List (Sigma fun _ : Bytes => Entry)) : List (Bytes × Json.Tree) :=
  entries.map fun e => (quote e.1, entryTree e.2)

/-- What is written for a value is a value of JSON.
SOURCE: store.cc:106-110 -/
theorem valueText_derived (value : Option Bytes) :
    Json.Value (valueTree value) (valueText value) := by
  cases value with
  | some value => exact .string (quote_mem_string value)
  | none => exact .null

/-- What is written for an entry is an object of JSON.
SOURCE: store.cc:105-113 -/
theorem entryText_derived (entry : Entry) : Json.Value (entryTree entry) (entryText entry) := by
  have hexpiry := Json.Members.last (quote_mem_string (ascii "expiry")) (Json.mem_token 58)
    (.number (Json.number_of_canonical (toStringInt_mem_canonical entry.expiry)))
  have hmembers := Json.Members.cons (quote_mem_string (ascii "value")) (Json.mem_token 58)
    (valueText_derived entry.value) (Json.mem_token 44) hexpiry
  have hobject := Json.Value.object (Json.mem_token 123) hmembers (Json.mem_token 125)
  have htext : entryText entry = [123] ++ ((quote (ascii "value") ++ ([58] ++
      (valueText entry.value ++ ([44] ++ (quote (ascii "expiry") ++ ([58] ++
        toStringInt entry.expiry)))))) ++ [125]) := by
    simp [entryText]
  rw [htext]
  exact hobject

/-- A member and those behind it.
SOURCE: store.cc:100-114 -/
theorem membersText_derived (key : Bytes) (entry : Entry)
    (entries : List (Sigma fun _ : Bytes => Entry)) :
    Json.Members (memberTrees (⟨key, entry⟩ :: entries))
      (memberText key entry ++ restText entries) := by
  induction entries generalizing key entry with
  | nil =>
    have hlast := Json.Members.last (quote_mem_string key) (Json.mem_token 58)
      (entryText_derived entry)
    rw [restText, List.flatMap_nil, List.append_nil, memberText]
    exact hlast
  | cons e entries ih =>
    have hcons := Json.Members.cons (quote_mem_string key) (Json.mem_token 58)
      (entryText_derived entry) (Json.mem_token 44) (ih e.1 e.2)
    have htext : memberText key entry ++ restText (e :: entries) = quote key ++ ([58] ++
        (entryText entry ++ ([44] ++ (memberText e.1 e.2 ++ restText entries)))) := by
      simp [memberText, restText]
    rw [htext]
    exact hcons

/-- **A snapshot is derived**, as an object.
SOURCE: store.cc:96-118 -/
theorem serialiseToJson_derived (entries : List (Sigma fun _ : Bytes => Entry)) :
    Json.Value (.object (memberTrees entries)) (serialiseToJson entries) := by
  have hopen : ascii "\x7b" = [123] := by decide
  have hclose : ascii "\x7d" = [125] := by decide
  cases entries with
  | nil => exact .emptyObject (Json.mem_token 123) (Json.mem_token 125)
  | cons e entries =>
    have htext : serialiseToJson (e :: entries) =
        [123] ++ ((memberText e.1 e.2 ++ restText entries) ++ [125]) := by
      rw [serialiseToJson, appendEntries, appendEntries_false, appendEntry_eq, hopen, hclose]
      simp
    rw [htext]
    exact .object (Json.mem_token 123) (membersText_derived e.1 e.2 entries) (Json.mem_token 125)

/-! ## The parts of a snapshot -/

/-- No control character is left in what is written for a string.
SOURCE: serialise.cc:22-58 -/
theorem quote_printable (s : Bytes) : Json.Printable (quote s) :=
  Json.printable_of_mem (quote_mem_string s)

/-- What is written for a value is strict: a string of it is printable.
SOURCE: store.cc:106-110 -/
theorem valueTree_strict {value : Option Bytes} {v : Json.Tree}
    (h : Json.Within v (valueTree value)) : Json.Strict v := by
  cases value with
  | some value =>
    cases h
    exact quote_printable value
  | none =>
    cases h
    trivial

/-- What is written for an entry is strict: its names differ, and its number is canonical.
SOURCE: store.cc:105-113 -/
theorem entryTree_strict {entry : Entry} {v : Json.Tree} (h : Json.Within v (entryTree entry)) :
    Json.Strict v := by
  cases h with
  | refl =>
    refine ⟨?_, ?_⟩
    · have hne : quote (ascii "value") ≠ quote (ascii "expiry") := fun h =>
        absurd (quote_injective h) (by decide)
      simp [hne]
    · intro m hm
      rcases List.mem_pair.mp hm with rfl | rfl
      · exact quote_printable _
      · exact quote_printable _
  | member hmem h =>
    rcases List.mem_pair.mp hmem with heq | heq
    · cases heq
      exact valueTree_strict h
    · cases heq
      cases h
      exact toStringInt_mem_canonical entry.expiry

/-- The object is strict if no key is visited twice: its names differ, and so do those inside.
SOURCE: store.cc:96-118 -/
theorem memberTrees_strict {entries : List (Sigma fun _ : Bytes => Entry)}
    (hkeys : (entries.map Sigma.fst).Nodup) {v : Json.Tree}
    (h : Json.Within v (.object (memberTrees entries))) : Json.Strict v := by
  cases h with
  | refl =>
    refine ⟨?_, ?_⟩
    · have hnames : (memberTrees entries).map Prod.fst = (entries.map Sigma.fst).map quote := by
        simp [memberTrees, Function.comp_def]
      rw [hnames]
      exact hkeys.map quote_injective
    · intro m hm
      obtain ⟨e, -, rfl⟩ := List.mem_map.mp hm
      exact quote_printable e.1
  | member hmem h =>
    obtain ⟨e, -, heq⟩ := List.mem_map.mp hmem
    cases heq
    exact entryTree_strict h

/-- **Snapshots are valid JSON.**  For every store and every order in which its entries are
visited the output is one object; every string literal in it is free of control characters and
of quotes and backslashes that are not escaped, every number is canonical, and no object names two
members alike.
SOURCE: store.cc:96-118, serialise.cc:13-60 -/
theorem serialise_valid (s : Store) (entries : List (Sigma fun _ : Bytes => Entry))
    (h : s.Enumerates entries) :
    ∃ members, Json.Text (.object members) (serialiseToJson entries) ∧
      members.map Prod.fst = entries.map (fun e => quote e.1) ∧
      ∀ v, Json.Within v (.object members) → Json.Strict v := by
  refine ⟨memberTrees entries, Json.text_of_value (serialiseToJson_derived entries), ?_, ?_⟩
  · simp [memberTrees, Function.comp_def]
  · intro v hv
    exact memberTrees_strict (nodup_of_enumerates h) hv

/-- Entries with odd keys and values.
SOURCE: store.cc:96-118 -/
theorem serialise_valid_oddEntries :
    (insertAll Store.empty oddEntries.reverse).Enumerates oddEntries ∧
      ∃ members, Json.Text (.object members) (serialiseToJson oddEntries) ∧
        members.map Prod.fst = oddEntries.map (fun e => quote e.1) ∧
        ∀ v, Json.Within v (.object members) → Json.Strict v :=
  ⟨oddEntries_enumerated, serialise_valid _ oddEntries oddEntries_enumerated⟩

end MyRedis.Analysis

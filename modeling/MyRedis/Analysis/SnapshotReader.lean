import MyRedis.Analysis.SnapshotFormat
import MyRedis.Model.CheckedSerialise

/-!
# The snapshot reader stays inside its input and fails as documented

The reader with checked steps does what `Store.deserialiseFromJson` says, on every input: no index
is out of bounds, and one step per byte and one more are enough for each of its loops
(`deserialiseFromJson_yields`).  Every exception is a `std::invalid_argument`
(`deserialiseFromJson_invalid`): the only other one, of `compare`, needs a position past the end.

With the format of `MyRedis.Analysis.SnapshotFormat` this says what the reader does with every
string of bytes.
-/

set_option autoImplicit false

namespace MyRedis.Analysis

open MyRedis.Model MyRedis.Model.Store MyRedis.Lib MyRedis.Lib.Checked

/-! ## Checked steps -/

section Steps

variable {data : Bytes} {pos steps : ℕ}

/-- One byte of white space is skipped.
SOURCE: serialise.cc:62-67 -/
theorem skipWhitespace_space {c : UInt8} (h : data[pos]? = some c) (hc : isJsonSpace c = true) :
    skipWhitespace data pos = skipWhitespace data (pos + 1) := by
  rw [skipWhitespace, drop_of_getElem? h, List.takeWhile_cons_of_pos hc, List.length_cons,
    skipWhitespace]
  omega

/-- `SkipWhitespace` ends within the bytes that are left, and reads none behind them.
SOURCE: serialise.cc:62-67 -/
theorem skipWhitespace_yields (h : data.length - pos < steps) :
    Yields False (CheckedSerialise.skipWhitespace steps data pos)
      (.ok (skipWhitespace data pos)) := by
  induction steps generalizing pos with
  | zero => omega
  | succ steps ih =>
    rw [CheckedSerialise.skipWhitespace]
    by_cases hpos : pos < data.length
    · rw [if_pos hpos]
      have hget := List.getElem?_eq_getElem hpos
      apply Yields.step (Yields.getAt hget)
      by_cases hspace : isJsonSpace data[pos] = true
      · rw [if_pos hspace, skipWhitespace_space hget hspace]
        exact ih (by omega)
      · rw [if_neg hspace, skipWhitespace_stop]
        · apply Yields.pure
        · intro c hc
          cases hget.symm.trans hc
          exact Bool.eq_false_iff.mpr hspace
    · rw [if_neg hpos, skipWhitespace_stop]
      · apply Yields.pure
      · intro c hc
        exact absurd (List.getElem?_eq_some_iff.mp hc).1 hpos

/-- Asking for a character reads it only if it is there.
SOURCE: store.cc:120-217, serialise.cc:62-146 -/
theorem expect_yields (character : UInt8) (what : String) :
    Yields False (CheckedSerialise.expect data character what pos)
      (expect data character what pos) := by
  rw [CheckedSerialise.expect, expect]
  by_cases hpos : pos ≥ data.length
  · rw [if_pos hpos, List.getElem?_eq_none hpos, if_neg (Option.some_ne_none _).symm]
    apply Yields.throw
  · have hget := List.getElem?_eq_getElem (Nat.lt_of_not_le hpos)
    rw [if_neg hpos, hget]
    apply Yields.step (Yields.getAt hget)
    by_cases hfound : data[pos] = character
    · rw [if_neg (not_not.mpr hfound), if_pos (congrArg some hfound)]
      apply Yields.pure
    · rw [if_pos hfound, if_neg fun h => hfound (Option.some.inj h)]
      apply Yields.throw

/-- The digits of an escape are read inside the data, if there are so many.
SOURCE: serialise.cc:113-118 -/
theorem hexCode_yields {count : ℕ} (code : ℕ) (h : pos + count ≤ data.length) :
    Yields False (CheckedSerialise.hexCode count data pos code)
      (hexCode code (substr data pos count)) := by
  induction count generalizing pos code with
  | zero =>
    rw [CheckedSerialise.hexCode, substr, List.take_zero, hexCode]
    apply Yields.pure
  | succ count ih =>
    have hget := List.getElem?_eq_getElem (l := data) (i := pos) (by omega)
    rw [CheckedSerialise.hexCode, substr, drop_of_getElem? hget, List.take_succ_cons, hexCode]
    apply Yields.step (Yields.getAt hget)
    cases hexValue data[pos] with
    | none => apply Yields.throw
    | some nibble => exact ih _ (by omega)

/-- An escape is read inside the data.
SOURCE: serialise.cc:98-131 -/
theorem parseEscape_yields (escape : UInt8) :
    Yields False (CheckedSerialise.parseEscape data escape pos) (parseEscape data escape pos) := by
  rw [CheckedSerialise.parseEscape]
  by_cases hcode : escape = 117
  · rw [if_pos hcode, hcode, parseEscape_code]
    apply Yields.ite
    · intro _
      apply Yields.throw
    · intro hroom
      apply Yields.bind (hexCode_yields 0 (by omega))
      intro code _
      apply Yields.ite
      · intro _
        apply Yields.throw
      · intro _
        apply Yields.pure
  · rw [if_neg hcode]
    apply Yields.call

/-- The loop of `ParseJsonString` at an escape.
SOURCE: serialise.cc:92-99 -/
theorem parseStringLoop_backslash {escape : UInt8} {out : Bytes} (h : data[pos]? = some 92)
    (hescape : data[pos + 1]? = some escape) :
    parseStringLoop data pos out = parseEscape data escape (pos + 2) >>= fun r =>
      parseStringLoop data (pos + 2 + r.2) (out ++ [r.1]) := by
  obtain ⟨hpos, hget⟩ := List.getElem?_eq_some_iff.mp h
  rw [parseStringLoop, dif_pos hpos]
  simp only [hget, hescape]
  cases parseEscape data escape (pos + 2) <;> rfl

/-- The loop of `ParseJsonString` ends within the bytes that are left.
SOURCE: serialise.cc:91-133 -/
theorem parseStringLoop_yields (out : Bytes) (h : data.length - pos < steps) :
    Yields False (CheckedSerialise.parseStringLoop steps data pos out)
      (parseStringLoop data pos out) := by
  induction steps generalizing pos out with
  | zero => omega
  | succ steps ih =>
    rw [CheckedSerialise.parseStringLoop]
    by_cases hpos : pos < data.length
    · have hget := List.getElem?_eq_getElem hpos
      rw [if_pos hpos]
      apply Yields.step (Yields.getAt hget)
      by_cases hquote : data[pos] = 34
      · rw [if_pos hquote, parseStringLoop, dif_pos hpos]
        simp only [if_pos hquote]
        apply Yields.pure
      by_cases hplain : data[pos] ≠ 92
      · rw [if_neg hquote, if_pos hplain, parseStringLoop, dif_pos hpos]
        simp only [if_neg hquote, if_pos hplain]
        exact ih _ (by omega)
      rw [if_neg hquote, if_neg hplain]
      rw [ne_eq, not_not] at hplain
      by_cases hend : pos + 1 ≥ data.length
      · rw [if_pos hend, parseStringLoop, dif_pos hpos, List.getElem?_eq_none hend]
        simp only [hplain]
        apply Yields.throw
      · have hescape := List.getElem?_eq_getElem (Nat.lt_of_not_le hend)
        rw [if_neg hend, parseStringLoop_backslash (hget.trans (congrArg some hplain)) hescape]
        apply Yields.step (Yields.getAt hescape)
        apply Yields.bind (parseEscape_yields _)
        intro r _
        exact ih _ (by omega)
    · rw [if_neg hpos, parseStringLoop, dif_neg hpos]
      apply Yields.throw

end Steps

/-! ## Readers -/

/-- `SkipWhitespace` stays in the data.
SOURCE: serialise.cc:62-67 -/
theorem skipWhitespace_le_length {data : Bytes} {pos : ℕ} (h : pos ≤ data.length) :
    skipWhitespace data pos ≤ data.length := by
  have htake := (List.takeWhile_prefix (l := data.drop pos) isJsonSpace).length_le
  rw [List.length_drop] at htake
  rw [skipWhitespace]
  omega

/-- A field name ends in the data.
SOURCE: store.cc:126-134, 150-158 -/
theorem parseFieldName_le_length {data name : Bytes} {field colon : String} {pos next : ℕ}
    (h : parseFieldName data name field colon pos = .ok next) : next ≤ data.length := by
  obtain ⟨text, ⟨s₁, literal, s₂, -, -, -, rfl⟩, htext⟩ := parseFieldName_iff.mp h
  apply htext.le_length
  simp

section Readers

variable {data : Bytes} {pos steps : ℕ} (hsteps : data.length < steps)

include hsteps

/-- A reader behind white space.
SOURCE: serialise.cc:62-67 -/
theorem spaced_yields {α : Type} {k : ℕ → CheckedSerialise.Read α} {r : Except StdException α}
    (hk : Yields False (k (skipWhitespace data pos)) r) :
    Yields False (CheckedSerialise.skipWhitespace steps data pos >>= k) r :=
  Yields.step (skipWhitespace_yields (Nat.lt_of_le_of_lt (Nat.sub_le ..) hsteps)) hk

/-- `ParseJsonString` does what the model says, without a fault.
SOURCE: serialise.cc:84-134 -/
theorem parseJsonString_yields :
    Yields False (CheckedSerialise.parseJsonString steps data pos) (parseJsonString data pos) := by
  apply Yields.bind (expect_yields _ _)
  intro p _
  exact parseStringLoop_yields [] (Nat.lt_of_le_of_lt (Nat.sub_le ..) hsteps)

/-- The reader of a field name does what the model says, without a fault.
SOURCE: store.cc:126-134, 150-158 -/
theorem parseFieldName_yields (name : Bytes) (field colon : String) :
    Yields False (CheckedSerialise.parseFieldName steps data name field colon pos)
      (parseFieldName data name field colon pos) := by
  apply spaced_yields hsteps
  apply Yields.bind (parseJsonString_yields hsteps)
  rintro ⟨found, p⟩ _
  apply Yields.ite
  · intro _
    apply Yields.throw
  · intro _
    apply spaced_yields hsteps
    apply expect_yields

/-- The reader of a value does what the model says, without a fault.
SOURCE: store.cc:136-142 -/
theorem parseEntryValue_yields :
    Yields False (CheckedSerialise.parseEntryValue steps data pos) (parseEntryValue data pos) := by
  apply Yields.bind (Yields.call _)
  intro isNull _
  apply Yields.ite
  · intro _
    apply Yields.pure
  · intro _
    apply Yields.bind (parseJsonString_yields hsteps)
    intro r _
    apply Yields.pure

omit hsteps in
/-- `ParseJsonInteger` does what the model says, without a fault, from a position in the data.
SOURCE: serialise.cc:136-146 -/
theorem parseJsonInteger_yields (hpos : pos ≤ data.length) :
    Yields False (CheckedSerialise.parseJsonInteger data pos) (parseJsonInteger data pos) := by
  rw [CheckedSerialise.parseJsonInteger, if_neg (Nat.not_lt_of_le hpos)]
  apply Yields.call

/-- `ParseEntryJson` does what the model says, without a fault.
SOURCE: store.cc:120-170 -/
theorem parseEntryJson_yields :
    Yields False (CheckedSerialise.parseEntryJson steps data pos) (parseEntryJson data pos) := by
  apply Yields.bind (expect_yields _ _)
  intro p₁ _
  apply Yields.bind (parseFieldName_yields hsteps _ _ _)
  intro p₂ _
  apply spaced_yields hsteps
  apply Yields.bind (parseEntryValue_yields hsteps)
  rintro ⟨value, p₃⟩ _
  apply spaced_yields hsteps
  apply Yields.bind (expect_yields _ _)
  intro p₄ _
  apply Yields.bind (parseFieldName_yields hsteps _ _ _)
  intro p₅ hname
  have hp₅ := skipWhitespace_le_length (parseFieldName_le_length hname)
  apply spaced_yields hsteps
  apply Yields.bind (parseJsonInteger_yields hp₅)
  rintro ⟨expiry, p₆⟩ _
  apply spaced_yields hsteps
  apply Yields.bind (expect_yields _ _)
  intro p₇ _
  apply Yields.pure

/-- The reader of a member does what the model says, without a fault.
SOURCE: store.cc:185-195 -/
theorem parseMember_yields :
    Yields False (CheckedSerialise.parseMember steps data pos) (parseMember data pos) := by
  apply spaced_yields hsteps
  apply Yields.bind (parseJsonString_yields hsteps)
  rintro ⟨key, p₁⟩ _
  apply spaced_yields hsteps
  apply Yields.bind (expect_yields _ _)
  intro p₂ _
  apply spaced_yields hsteps
  apply Yields.bind (parseEntryJson_yields hsteps)
  intro r _
  apply Yields.pure

/-- What stands behind a member: a comma, the closing brace or something else.
SOURCE: store.cc:197-209 -/
theorem parseSeparator_yields {c : UInt8} (h : data[skipWhitespace data pos]? = some c) :
    Yields False (CheckedSerialise.parseSeparator steps data pos)
      (if c = 44 then .ok (true, skipWhitespace data pos + 1)
        else if c = 125 then .ok (false, skipWhitespace data pos + 1)
        else .error (.invalidArgument "expected ',' or '\x7d'")) := by
  have hlt := (List.getElem?_eq_some_iff.mp h).1
  apply spaced_yields hsteps
  rw [if_neg (Nat.not_le_of_lt hlt)]
  apply Yields.step (Yields.getAt h)
  apply Yields.ite
  · intro _
    apply Yields.pure
  intro _
  apply Yields.ite
  · intro _
    apply Yields.pure
  intro _
  apply Yields.throw

/-- The data end behind a member.
SOURCE: store.cc:198-200 -/
theorem parseSeparator_yields_end (h : data.length ≤ skipWhitespace data pos) :
    Yields False (CheckedSerialise.parseSeparator steps data pos)
      (.error (.invalidArgument "unterminated object")) := by
  apply spaced_yields hsteps
  rw [if_pos h]
  apply Yields.throw

/-- **The loop over the members comes to an end**: a member takes at least a byte.
SOURCE: store.cc:184-210 -/
theorem parseMembers_yields {count : ℕ} (s : Store) (h : data.length - pos < count) :
    CheckedSerialise.parseMembers steps data count s pos = .ok (parseMembers data s pos) := by
  induction count generalizing s pos with
  | zero => omega
  | succ count ih =>
    have hread : Yields False (CheckedSerialise.parseMember steps data pos) _ :=
      parseMember_yields hsteps
    rw [CheckedSerialise.parseMembers, hread.run_eq not_false]
    cases hmember : parseMember data pos with
    | error e => rw [parseMembers_error s hmember]
    | ok r =>
      obtain ⟨⟨key, entry⟩, p⟩ := r
      have hprogress := (parseMember_le hmember).trans (skipWhitespace_le data p)
      by_cases hend : data.length ≤ skipWhitespace data p
      · have hseparator := (parseSeparator_yields_end hsteps hend).run_eq not_false
        simp only [hseparator]
        rw [parseMembers_end s hmember hend]
      · have hget := List.getElem?_eq_getElem (Nat.lt_of_not_le hend)
        have hseparator := (parseSeparator_yields hsteps hget).run_eq not_false
        rw [parseMembers_next s hmember hget]
        simp only [hseparator]
        split_ifs
        · exact ih _ (by omega)
        · rfl
        · rfl

/-- The end of the document.
SOURCE: store.cc:213-216 -/
theorem parseEnd_yields :
    Yields False (CheckedSerialise.parseEnd steps data pos)
      (if skipWhitespace data pos ≠ data.length then
          .error (.invalidArgument "trailing data after json object")
        else .ok ()) := by
  apply spaced_yields hsteps
  apply Yields.ite
  · intro _
    apply Yields.throw
  · intro _
    apply Yields.pure

/-- Its beginning.
SOURCE: store.cc:173-182 -/
theorem parseOpening_yields :
    Yields False (CheckedSerialise.parseOpening steps data)
      (expect data 123 "json data did not begin with \"\x7b\"" (skipWhitespace data 0) >>= fun p =>
        if data[skipWhitespace data p]? = some 125 then .ok (true, skipWhitespace data p + 1)
        else .ok (false, skipWhitespace data p)) := by
  apply spaced_yields hsteps
  apply Yields.bind (expect_yields _ _)
  intro p _
  apply spaced_yields hsteps
  by_cases hpos : skipWhitespace data p < data.length
  · have hget := List.getElem?_eq_getElem hpos
    simp only [if_pos hpos, hget, Option.some.injEq]
    apply Yields.step (Yields.getAt hget)
    apply Yields.ite
    · intro _
      apply Yields.pure
    · intro _
      apply Yields.pure
  · rw [if_neg hpos, List.getElem?_eq_none (Nat.le_of_not_lt hpos),
      if_neg (Option.some_ne_none _).symm]
    apply Yields.pure

/-- **The reader comes to an end**, with what the model says and without a fault.
SOURCE: store.cc:172-217 -/
theorem deserialiseFromJson_yields (s : Store) :
    CheckedSerialise.deserialiseFromJson steps s data = .ok (s.deserialiseFromJson data) := by
  have hopening := (parseOpening_yields hsteps).run_eq not_false
  have hend (q : ℕ) : (CheckedSerialise.parseEnd steps data q).run = _ :=
    (parseEnd_yields hsteps).run_eq not_false
  rw [CheckedSerialise.deserialiseFromJson, hopening, deserialiseFromJson]
  cases expect data 123 "json data did not begin with \"\x7b\"" (skipWhitespace data 0) with
  | error e => rfl
  | ok p =>
    by_cases hbrace : data[skipWhitespace data p]? = some 125
    · simp only [parseObject, if_pos hbrace, bind, Except.bind, hend]
      split_ifs <;> rfl
    · have hmembers :
          CheckedSerialise.parseMembers steps data steps s (skipWhitespace data p) = _ :=
        parseMembers_yields hsteps s (Nat.lt_of_le_of_lt (Nat.sub_le ..) hsteps)
      simp only [parseObject, if_neg hbrace, bind, Except.bind, hmembers]
      rcases parseMembers data s (skipWhitespace data p) with ⟨_ | q, s'⟩
      · rfl
      · simp only [hend]
        split_ifs <;> rfl

end Readers

/-! ## Exceptions -/

/-- Every exception is a `std::invalid_argument`. -/
def OnlyInvalid {α : Type} (r : Except StdException α) : Prop :=
  ∀ e, r = .error e → ∃ what, e = .invalidArgument what

section Exceptions

variable {α β : Type} {data : Bytes} {pos : ℕ}

/-- A result is no exception. -/
theorem onlyInvalid_ok (a : α) : OnlyInvalid (.ok a) := by
  intro e h
  cases h

/-- A `std::invalid_argument` is one that may be thrown. -/
theorem onlyInvalid_error (what : String) :
    OnlyInvalid (.error (.invalidArgument what) : Except StdException α) := by
  intro e h
  cases h
  exact ⟨what, rfl⟩

/-- Two readers, one after the other. -/
theorem OnlyInvalid.bind {r : Except StdException α} {f : α → Except StdException β}
    (hr : OnlyInvalid r) (hf : ∀ a, r = .ok a → OnlyInvalid (f a)) : OnlyInvalid (r >>= f) := by
  cases r with
  | error e =>
    intro e' h
    cases h
    exact hr e rfl
  | ok a => exact hf a rfl

/-- A choice between two readers. -/
theorem OnlyInvalid.ite {c : Prop} [Decidable c] {r r' : Except StdException α}
    (hr : c → OnlyInvalid r) (hr' : ¬ c → OnlyInvalid r') : OnlyInvalid (if c then r else r') := by
  split_ifs with h
  · exact hr h
  · exact hr' h

/-- A missing character is a `std::invalid_argument`.
SOURCE: store.cc:120-217, serialise.cc:62-146 -/
theorem expect_invalid (character : UInt8) (what : String) :
    OnlyInvalid (expect data character what pos) := by
  apply OnlyInvalid.ite
  · intro _
    apply onlyInvalid_ok
  · intro _
    apply onlyInvalid_error

/-- A wrong hex digit is a `std::invalid_argument`.
SOURCE: serialise.cc:116 -/
theorem hexCode_invalid (code : ℕ) (digits : Bytes) : OnlyInvalid (hexCode code digits) := by
  induction digits generalizing code with
  | nil => exact onlyInvalid_ok code
  | cons chr rest ih =>
    rw [hexCode]
    cases hexValue chr with
    | none => apply onlyInvalid_error
    | some nibble => exact ih _

/-- A wrong escape is a `std::invalid_argument`.
SOURCE: serialise.cc:98-131 -/
theorem parseEscape_invalid (escape : UInt8) : OnlyInvalid (parseEscape data escape pos) := by
  by_cases hletter : escape ∈ escapeLetters.map Prod.fst
  · obtain ⟨⟨letter, byte⟩, hmem, rfl⟩ := List.mem_map.mp hletter
    rw [parseEscape_letter hmem]
    apply onlyInvalid_ok
  by_cases hcode : escape = 117
  · rw [hcode, parseEscape_code]
    apply OnlyInvalid.ite
    · intro _
      apply onlyInvalid_error
    · intro _
      apply OnlyInvalid.bind (hexCode_invalid _ _)
      intro code _
      apply OnlyInvalid.ite
      · intro _
        apply onlyInvalid_error
      · intro _
        apply onlyInvalid_ok
  · rw [parseEscape_other hcode hletter]
    apply onlyInvalid_error

/-- The loop of `ParseJsonString` throws nothing but `std::invalid_argument`.
SOURCE: serialise.cc:91-133 -/
theorem parseStringLoop_invalid (out : Bytes) : OnlyInvalid (parseStringLoop data pos out) := by
  fun_induction parseStringLoop data pos out with
  | case1 => apply onlyInvalid_ok
  | case2 pos out hpos character hquote hplain ih => exact ih
  | case3 => apply onlyInvalid_error
  | case4 pos out hpos character hquote hplain escape hsome e he =>
    intro e' h
    cases h
    exact parseEscape_invalid escape e he
  | case5 pos out hpos character hquote hplain escape hsome byte taken he ih => exact ih
  | case6 => apply onlyInvalid_error

/-- `ParseJsonString` throws nothing but `std::invalid_argument`.
SOURCE: serialise.cc:84-134 -/
theorem parseJsonString_invalid : OnlyInvalid (parseJsonString data pos) := by
  apply OnlyInvalid.bind (expect_invalid _ _)
  intro p _
  apply parseStringLoop_invalid

/-- `ParseJsonInteger` throws nothing but `std::invalid_argument`.
SOURCE: serialise.cc:141-143 -/
theorem parseJsonInteger_invalid : OnlyInvalid (parseJsonInteger data pos) := by
  obtain ⟨negative, mid, hsplit, hsign⟩ := splitMinus_textAt data pos
  rw [parseJsonInteger_eq hsplit hsign rfl]
  apply OnlyInvalid.ite
  · intro _
    apply onlyInvalid_ok
  · intro _
    apply onlyInvalid_error

/-- The reader of a field name throws nothing but `std::invalid_argument`.
SOURCE: store.cc:126-134, 150-158 -/
theorem parseFieldName_invalid (name : Bytes) (field colon : String) :
    OnlyInvalid (parseFieldName data name field colon pos) := by
  apply OnlyInvalid.bind parseJsonString_invalid
  rintro ⟨found, p⟩ _
  apply OnlyInvalid.ite
  · intro _
    apply onlyInvalid_error
  · intro _
    apply expect_invalid

/-- `compare` throws at a position past the end only.
SOURCE: store.cc:138 -/
theorem parseEntryValue_invalid (hpos : pos ≤ data.length) :
    OnlyInvalid (parseEntryValue data pos) := by
  rw [parseEntryValue, startsWithNull, if_neg (Nat.not_lt_of_le hpos)]
  apply OnlyInvalid.ite
  · intro _
    apply onlyInvalid_ok
  · intro _
    apply OnlyInvalid.bind parseJsonString_invalid
    intro r _
    apply onlyInvalid_ok

/-- `ParseEntryJson` throws nothing but `std::invalid_argument`.
SOURCE: store.cc:120-170 -/
theorem parseEntryJson_invalid : OnlyInvalid (parseEntryJson data pos) := by
  apply OnlyInvalid.bind (expect_invalid _ _)
  intro p₁ _
  apply OnlyInvalid.bind (parseFieldName_invalid _ _ _)
  intro p₂ hname
  have hp₂ := skipWhitespace_le_length (parseFieldName_le_length hname)
  apply OnlyInvalid.bind (parseEntryValue_invalid hp₂)
  rintro ⟨value, p₃⟩ _
  apply OnlyInvalid.bind (expect_invalid _ _)
  intro p₄ _
  apply OnlyInvalid.bind (parseFieldName_invalid _ _ _)
  intro p₅ _
  apply OnlyInvalid.bind parseJsonInteger_invalid
  rintro ⟨expiry, p₆⟩ _
  apply OnlyInvalid.bind (expect_invalid _ _)
  intro p₇ _
  apply onlyInvalid_ok

/-- The reader of a member throws nothing but `std::invalid_argument`.
SOURCE: store.cc:185-195 -/
theorem parseMember_invalid : OnlyInvalid (parseMember data pos) := by
  apply OnlyInvalid.bind parseJsonString_invalid
  rintro ⟨key, p₁⟩ _
  apply OnlyInvalid.bind (expect_invalid _ _)
  intro p₂ _
  apply OnlyInvalid.bind parseEntryJson_invalid
  intro r _
  apply onlyInvalid_ok

/-- The loop over the members throws nothing but `std::invalid_argument`.
SOURCE: store.cc:184-210 -/
theorem parseMembers_invalid (s : Store) : OnlyInvalid (parseMembers data s pos).1 := by
  fun_induction parseMembers data s pos with
  | case1 s pos e he =>
    intro e' h
    cases h
    exact parseMember_invalid e he
  | case2 s pos key entry p hmember s₁ q hpos hcomma ih => exact ih
  | case3 => apply onlyInvalid_ok
  | case4 => apply onlyInvalid_error
  | case5 => apply onlyInvalid_error

/-- **The reader throws nothing but `std::invalid_argument`.**
SOURCE: store.cc:172-217 -/
theorem deserialiseFromJson_invalid (s : Store) : OnlyInvalid (s.deserialiseFromJson data).1 := by
  have hobject (p : ℕ) : OnlyInvalid (parseObject data s p).1 := by
    rw [parseObject]
    split_ifs
    · apply onlyInvalid_ok
    · apply parseMembers_invalid
  rw [deserialiseFromJson]
  rcases hopen : expect data 123 "json data did not begin with \"\x7b\"" (skipWhitespace data 0)
    with e | p
  · intro e' h
    cases h
    exact expect_invalid _ _ e hopen
  specialize hobject p
  rcases hread : parseObject data s p with ⟨e | q, s'⟩
  · rw [hread] at hobject
    intro e' h
    simp only [hread] at h
    cases h
    exact hobject e rfl
  · simp only [hread]
    split_ifs
    · apply onlyInvalid_error
    · apply onlyInvalid_ok

end Exceptions

/-! ## What the reader does -/

/-- Of the members with one key the last one wins.
SOURCE: store.cc:195 -/
theorem lookUp_insertMembers (s : Store) (ms : List (Bytes × Entry)) (key : Bytes) :
    (insertMembers s ms).lookUp key = (ms.reverse.lookup key).or (s.lookUp key) := by
  induction ms generalizing s with
  | nil => rfl
  | cons m ms ih =>
    have hstep : insertMembers s (m :: ms) = insertMembers (s.insert m.1 m.2) ms := rfl
    rw [hstep, ih, List.reverse_cons, List.lookup_append, lookUp_insert, Option.or_assoc]
    congr 1
    obtain ⟨k, entry⟩ := m
    by_cases hkey : key = k
    · rw [hkey, List.lookup_cons_self, if_pos rfl, Option.some_or]
    · rw [List.lookup_cons, beq_eq_false_iff_ne.mpr hkey, List.lookup_nil, if_neg hkey,
        Option.none_or]

/-- **What `DeserialiseFromJson` does with a string of bytes**, on an empty store.  With enough
steps it comes to an end without an index out of bounds.  It succeeds exactly if the string is
a `Document`, the store then being the members inserted from left to right, and throws a
`std::invalid_argument` otherwise.
SOURCE: store.cc:120-217, serialise.cc:62-146 -/
theorem deserialise_spec (data : Bytes) :
    (∃ enough, ∀ steps ≥ enough,
      CheckedSerialise.deserialiseFromJson steps Store.empty data =
        .ok (Store.empty.deserialiseFromJson data)) ∧
    ((Store.empty.deserialiseFromJson data).1 = .ok () ↔ ∃ ms, Document data ms) ∧
    (∀ ms, Document data ms →
      (Store.empty.deserialiseFromJson data).2 = insertMembers Store.empty ms ∧
      ∀ key, (Store.empty.deserialiseFromJson data).2.lookUp key = ms.reverse.lookup key) ∧
    ((¬ ∃ ms, Document data ms) →
      ∃ what, (Store.empty.deserialiseFromJson data).1 = .error (.invalidArgument what)) := by
  have haccepts : (Store.empty.deserialiseFromJson data).1 = .ok () ↔ ∃ ms, Document data ms := by
    constructor
    · intro h
      obtain ⟨ms, hdocument, -⟩ := deserialiseFromJson_iff.mp (Prod.ext h rfl)
      exact ⟨ms, hdocument⟩
    · rintro ⟨ms, hdocument⟩
      rw [deserialiseFromJson_iff.mpr ⟨ms, hdocument, rfl⟩]
  refine ⟨⟨data.length + 1, ?_⟩, haccepts, ?_, ?_⟩
  · intro steps hsteps
    exact deserialiseFromJson_yields hsteps Store.empty
  · intro ms hdocument
    rw [deserialiseFromJson_iff.mpr ⟨ms, hdocument, rfl⟩]
    refine ⟨rfl, ?_⟩
    intro key
    rw [lookUp_insertMembers]
    exact Option.or_none
  · intro hnone
    cases houtcome : (Store.empty.deserialiseFromJson data).1 with
    | error e =>
      obtain ⟨what, rfl⟩ := deserialiseFromJson_invalid Store.empty e houtcome
      exact ⟨what, rfl⟩
    | ok _ => exact absurd (haccepts.mp houtcome) hnone

end MyRedis.Analysis

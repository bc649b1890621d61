import MyRedis.Analysis.NumberText
import MyRedis.Analysis.RespLayout

/-!
# The RESP parser against the RESP2 grammar

`Frame b v` is the grammar of RESP2: its numbers are written as an optional sign and digits, its
lengths as digits, and a null bulk string as `$-1`.  The parser takes its numbers from `std::stoll`
and does not look at how much of the text that read, so it accepts white space in front of a
number, a sign in front of a length and any bytes behind the digits.

`acceptsGrammar_iff`: on a string the parser and the grammar agree exactly where the number fields
of the frame at its front are written plainly.  In both directions the frame is cut up in one way
only (`Layout.fields_unique`).
-/

set_option autoImplicit false

namespace MyRedis.Analysis

open MyRedis.Model MyRedis.Model.RespValue MyRedis.Lib

/-! ## The grammar -/

/-- One or more digits. -/
def Digits (text : Bytes) : Prop := text ≠ [] ∧ ∀ b ∈ text, Decimal.isDigit b = true

/-- `len`: digits, and the number they stand for. -/
def IsLen (text : Bytes) (n : ℕ) : Prop := Digits text ∧ Decimal.value text = n

/-- An optional sign and digits. -/
def SignedDigits (text : Bytes) : Prop :=
  ∃ sign ∈ signs, ∃ digits, text = sign ++ digits ∧ Digits digits

/-- `int`: an optional sign and digits that stand for an `int64_t`. -/
def IsInt (text : Bytes) (n : Int64) : Prop :=
  ∃ sign ∈ signs, ∃ digits, text = sign ++ digits ∧ Digits digits ∧
    n.toInt = Decimal.signed (decide (sign = [45])) digits

/-- The frames of RESP2 and the values they denote. -/
inductive Frame : Bytes → RespValue → Prop where
  | simpleString {s : Bytes} (hs : ¬ crlf <:+: s) : Frame (43 :: (s ++ crlf)) (.simpleString s)
  | simpleError {m : Bytes} (hm : ¬ crlf <:+: m) : Frame (45 :: (m ++ crlf)) (.simpleError m)
  | integer {text : Bytes} {n : Int64} (hn : IsInt text n) :
      Frame (58 :: (text ++ crlf)) (.integer n)
  | nullBulkString : Frame (36 :: (ascii "-1" ++ crlf)) (.bulkString none)
  | bulkString {text s : Bytes} (hlen : IsLen text s.length) :
      Frame (36 :: (text ++ (crlf ++ (s ++ crlf)))) (.bulkString (some s))
  | array {text : Bytes} {frames : List (Bytes × RespValue)} (hlen : IsLen text frames.length)
      (hframes : ∀ f ∈ frames, Frame f.1 f.2) :
      Frame (42 :: (text ++ (crlf ++ frames.flatMap Prod.fst))) (.array (frames.map Prod.snd))

/-- The field is written as the grammar has it. -/
def Field.Plain : Field → Prop
  | .int text => SignedDigits text
  | .bulkLen text => Digits text ∨ text = ascii "-1"
  | .arrayLen text => Digits text

/-! ## Numbers -/

section Numbers

variable {text : Bytes}

/-- A text of an optional sign and digits, as `std::stoll` sees it. -/
def plainNumeral (sign digits : Bytes) (hsign : sign ∈ signs) (hdigits : Digits digits) :
    Numeral where
  spaces := []
  sign := sign
  digits := digits
  rest := []
  isSpace_of_mem := by simp
  sign_mem := hsign
  digits_ne_nil := hdigits.1
  isDigit_of_mem := hdigits.2
  rest_head := by simp

/-- What `std::stoll` makes of digits with or without a sign.
SOURCE: resp_value.cc:63, 76, 109 -/
theorem stoll_signed {sign digits : Bytes} {n : Int64} (hsign : sign ∈ signs)
    (hdigits : Digits digits) :
    stoll (sign ++ digits) = .ok n ↔ n.toInt = Decimal.signed (decide (sign = [45])) digits := by
  have htext : (plainNumeral sign digits hsign hdigits).text = sign ++ digits := by
    simp [Numeral.text, plainNumeral]
  rw [← htext]
  exact Numeral.stoll_text_eq_ok

/-- A plain integer means what `std::stoll` makes of it.
SOURCE: resp_value.cc:63 -/
theorem isInt_iff {n : Int64} : IsInt text n ↔ SignedDigits text ∧ stoll text = .ok n := by
  constructor
  · rintro ⟨sign, hsign, digits, rfl, hdigits, hn⟩
    exact ⟨⟨sign, hsign, digits, rfl, hdigits⟩, (stoll_signed hsign hdigits).mpr hn⟩
  · rintro ⟨⟨sign, hsign, digits, rfl, hdigits⟩, hn⟩
    exact ⟨sign, hsign, digits, rfl, hdigits, (stoll_signed hsign hdigits).mp hn⟩

/-- What it makes of digits alone.
SOURCE: resp_value.cc:63, 76, 109 -/
theorem stoll_digits {n : Int64} (h : Digits text) :
    stoll text = .ok n ↔ n.toInt = Decimal.value text :=
  @stoll_signed [] text n (by decide) h

/-- A plain length that fits a `long long` means what `std::stoll` makes of it.
SOURCE: resp_value.cc:76, 109 -/
theorem isLen_iff {n : ℕ} (hn : n < 2 ^ 63) :
    IsLen text n ↔ Digits text ∧ ∃ len : Int64, stoll text = .ok len ∧ len.toInt = n := by
  constructor
  · rintro ⟨hdigits, hvalue⟩
    have hlen : (Int64.ofInt n).toInt = n := Int64.toInt_ofInt_of_le (by omega) (by omega)
    refine ⟨hdigits, Int64.ofInt n, ?_, hlen⟩
    rw [stoll_digits hdigits, hlen, hvalue]
  · rintro ⟨hdigits, len, hstoll, hlen⟩
    have hvalue := (stoll_digits hdigits).mp hstoll
    exact ⟨hdigits, by omega⟩

/-- Digits have no `"\r\n"` in them. -/
theorem Digits.not_crlf (h : Digits text) : ¬ crlf <:+: text := by
  apply not_crlf_infix_of_digits
  rintro b hb rfl
  exact absurd (h.2 13 hb) (by decide)

/-- Digits with a sign have no `"\r\n"` in them. -/
theorem SignedDigits.not_crlf (h : SignedDigits text) : ¬ crlf <:+: text := by
  obtain ⟨sign, hsign, digits, rfl, hdigits⟩ := h
  apply not_crlf_infix_of_digits
  rintro b hb rfl
  rcases List.mem_append.mp hb with hb | hb
  · have hnone : ∀ sign ∈ signs, (13 : UInt8) ∉ sign := by decide
    exact hnone sign hsign hb
  · exact absurd (hdigits.2 13 hb) (by decide)

end Numbers

/-! ## Plain frames -/

/-- **A frame with plain fields is one of the grammar.**
SOURCE: resp_value.cc:10-122 -/
theorem Layout.frame {b : Bytes} {fields : List Field} {v : RespValue} (h : Layout b fields v)
    (hplain : ∀ f ∈ fields, f.Plain) : Frame b v := by
  induction h with
  | simpleString hs => exact .simpleString hs
  | simpleError hm => exact .simpleError hm
  | integer _ hn =>
    apply Frame.integer
    exact isInt_iff.mpr ⟨hplain _ List.mem_cons_self, hn⟩
  | nullBulkString _ hn =>
    rcases hplain _ List.mem_cons_self with hdigits | rfl
    · have hvalue := (stoll_digits hdigits).mp hn
      rw [show (-1 : Int64).toInt = -1 from rfl] at hvalue
      omega
    · exact .nullBulkString
  | @bulkString text s len _ hn hlen =>
    have hrange := int64_range len
    apply Frame.bulkString
    rcases hplain _ List.mem_cons_self with hdigits | rfl
    · exact (isLen_iff (by omega)).mpr ⟨hdigits, len, hn, hlen⟩
    · have hminus : stoll (ascii "-1") = .ok (-1) := by decide
      rw [hminus] at hn
      cases hn
      rw [show (-1 : Int64).toInt = -1 from rfl] at hlen
      omega
  | @array text len pieces _ hn hlen _ ih =>
    have hrange := int64_range len
    have hdigits : Digits text := hplain (.arrayLen text) List.mem_cons_self
    have hlen' : IsLen text (pieces.map fun p => (p.bytes, p.value)).length := by
      rw [List.length_map]
      exact (isLen_iff (by omega)).mpr ⟨hdigits, len, hn, hlen⟩
    have hframes : ∀ f ∈ pieces.map fun p => (p.bytes, p.value), Frame f.1 f.2 := by
      intro f hf
      obtain ⟨p, hp, rfl⟩ := List.mem_map.mp hf
      apply ih p hp
      intro field hfield
      exact hplain field (List.mem_cons_of_mem _ (List.mem_flatMap.mpr ⟨p, hp, hfield⟩))
    have hframe := Frame.array hlen' hframes
    rw [List.flatMap_map, List.map_map] at hframe
    exact hframe

/-- No frame is empty. -/
theorem Frame.ne_nil {b : Bytes} {v : RespValue} (h : Frame b v) : b ≠ [] := by
  cases h <;> simp

/-- There are no more frames, and no longer ones, than bytes. -/
theorem length_flatMap_bounds {frames : List (Bytes × RespValue)}
    (h : ∀ f ∈ frames, f.1 ≠ []) :
    frames.length ≤ (frames.flatMap Prod.fst).length ∧
      ∀ f ∈ frames, f.1.length ≤ (frames.flatMap Prod.fst).length := by
  induction frames with
  | nil => simp
  | cons f frames ih =>
    obtain ⟨hcount, hmem⟩ := ih fun g hg => h g (List.mem_cons_of_mem f hg)
    have hpos := List.length_pos_iff.mpr (h f List.mem_cons_self)
    rw [List.flatMap_cons, List.length_append, List.length_cons]
    refine ⟨by omega, ?_⟩
    intro g hg
    rcases List.mem_cons.mp hg with rfl | hg
    · omega
    · have := hmem g hg
      omega

/-- Frames with their fields.
SOURCE: resp_value.cc:10-122 -/
theorem exists_plain_pieces {frames : List (Bytes × RespValue)}
    (h : ∀ f ∈ frames, ∃ fields, Layout f.1 fields f.2 ∧ ∀ field ∈ fields, field.Plain) :
    ∃ pieces : List RespFrame, pieces.map (fun p => (p.bytes, p.value)) = frames ∧
      ∀ p ∈ pieces, Layout p.bytes p.fields p.value ∧ ∀ field ∈ p.fields, field.Plain := by
  induction frames with
  | nil => exact ⟨[], rfl, by simp⟩
  | cons f frames ih =>
    obtain ⟨fields, hf⟩ := h f List.mem_cons_self
    obtain ⟨pieces, rfl, hpieces⟩ := ih fun g hg => h g (List.mem_cons_of_mem f hg)
    refine ⟨⟨f.1, fields, f.2⟩ :: pieces, rfl, ?_⟩
    intro p hp
    rcases List.mem_cons.mp hp with rfl | hp
    · exact hf
    · exact hpieces p hp

/-- **A frame of the grammar that fits into a string is read, and its fields are plain.**
SOURCE: resp_value.cc:10-122 -/
theorem Frame.layout {b : Bytes} {v : RespValue} (h : Frame b v) (hb : b.length < 2 ^ 63) :
    ∃ fields, Layout b fields v ∧ ∀ field ∈ fields, field.Plain := by
  induction h with
  | simpleString hs => exact ⟨[], .simpleString hs, by simp⟩
  | simpleError hm => exact ⟨[], .simpleError hm, by simp⟩
  | @integer text n hn =>
    obtain ⟨hplain, hstoll⟩ := isInt_iff.mp hn
    refine ⟨_, .integer hplain.not_crlf hstoll, ?_⟩
    simpa [Field.Plain] using hplain
  | nullBulkString =>
    refine ⟨_, .nullBulkString (by decide) (by decide), ?_⟩
    simp [Field.Plain]
  | @bulkString text s hlen =>
    simp only [List.length_cons, List.length_append] at hb
    obtain ⟨hdigits, len, hstoll, hlen'⟩ := (isLen_iff (by omega)).mp hlen
    refine ⟨_, .bulkString hdigits.not_crlf hstoll hlen', ?_⟩
    simp [Field.Plain, hdigits]
  | @array text frames hlen hframes ih =>
    obtain ⟨hcount, hmem⟩ := length_flatMap_bounds fun f hf => (hframes f hf).ne_nil
    simp only [List.length_cons, List.length_append] at hb
    obtain ⟨hdigits, len, hstoll, hlen'⟩ := (isLen_iff (by omega)).mp hlen
    have hread : ∀ f ∈ frames, ∃ fields, Layout f.1 fields f.2 ∧ ∀ field ∈ fields, field.Plain := by
      intro f hf
      have hsize := hmem f hf
      exact ih f hf (by omega)
    obtain ⟨pieces, rfl, hpieces⟩ := exists_plain_pieces hread
    rw [List.length_map] at hlen'
    rw [List.flatMap_map, List.map_map]
    refine ⟨_, .array hdigits.not_crlf hstoll hlen' fun p hp => (hpieces p hp).1, ?_⟩
    intro field hfield
    rcases List.mem_cons.mp hfield with rfl | hfield
    · exact hdigits
    · obtain ⟨p, hp, hfp⟩ := List.mem_flatMap.mp hfield
      exact (hpieces p hp).2 field hfp

/-! ## A frame is cut up in one way -/

/-- The value of a frame and where it ends are determined by the bytes.
SOURCE: resp_value.cc:10-122 -/
theorem Layout.value_unique {b b' rest rest' : Bytes} {fields fields' : List Field}
    {v v' : RespValue} (h : Layout b fields v) (h' : Layout b' fields' v')
    (heq : b ++ rest = b' ++ rest') : v = v' ∧ rest = rest' := by
  have hfront := h.front rest
  rw [heq, h'.front rest'] at hfront
  cases hfront
  exact ⟨rfl, rfl⟩

/-- The fields of as many frames, if each of the first ones has its fields determined.
SOURCE: resp_value.cc:10-122 -/
theorem flatMap_fields_unique {pieces pieces' : List RespFrame}
    (ih : ∀ p ∈ pieces, ∀ p' ∈ pieces', ∀ rest rest',
      p.bytes ++ rest = p'.bytes ++ rest' → p.fields = p'.fields)
    (h : ∀ p ∈ pieces, Layout p.bytes p.fields p.value)
    (h' : ∀ p ∈ pieces', Layout p.bytes p.fields p.value)
    (hlength : pieces.length = pieces'.length) {rest rest' : Bytes}
    (heq : pieces.flatMap RespFrame.bytes ++ rest = pieces'.flatMap RespFrame.bytes ++ rest') :
    pieces.flatMap RespFrame.fields = pieces'.flatMap RespFrame.fields := by
  induction pieces generalizing pieces' with
  | nil =>
    obtain rfl := List.length_eq_zero_iff.mp hlength.symm
    rfl
  | cons p pieces ihp =>
    cases pieces' with
    | nil => cases hlength
    | cons p' pieces' =>
      rw [List.flatMap_cons, List.flatMap_cons, List.append_assoc, List.append_assoc] at heq
      have hfields := ih p List.mem_cons_self p' List.mem_cons_self _ _ heq
      obtain ⟨-, htail⟩ := (h p List.mem_cons_self).value_unique (h' p' List.mem_cons_self) heq
      have hrest := @ihp pieces'
        (fun q hq q' hq' => ih q (List.mem_cons_of_mem p hq) q' (List.mem_cons_of_mem p' hq'))
        (fun q hq => h q (List.mem_cons_of_mem p hq))
        (fun q hq => h' q (List.mem_cons_of_mem p' hq)) (Nat.succ_inj.mp hlength) htail
      rw [List.flatMap_cons, List.flatMap_cons, hfields, hrest]

/-- **The number fields of a frame are determined by the bytes.**
SOURCE: resp_value.cc:10-122 -/
theorem Layout.fields_unique {b b' rest rest' : Bytes} {fields fields' : List Field}
    {v v' : RespValue} (h : Layout b fields v) (h' : Layout b' fields' v')
    (heq : b ++ rest = b' ++ rest') : fields = fields' := by
  induction h generalizing b' fields' v' rest rest' with
  | simpleString _ =>
    cases h' with
    | simpleString _ => rfl
    | _ => simp at heq
  | simpleError _ =>
    cases h' with
    | simpleError _ => rfl
    | _ => simp at heq
  | integer hline _ =>
    cases h' with
    | integer hline' _ =>
      simp only [List.cons_append, List.append_assoc, List.cons.injEq, true_and] at heq
      rw [(line_unique hline hline' heq).1]
    | _ => simp at heq
  | nullBulkString hline _ =>
    cases h' with
    | nullBulkString hline' _ =>
      simp only [List.cons_append, List.append_assoc, List.cons.injEq, true_and] at heq
      rw [(line_unique hline hline' heq).1]
    | bulkString hline' _ _ =>
      simp only [List.cons_append, List.append_assoc, List.cons.injEq, true_and] at heq
      rw [(line_unique hline hline' heq).1]
    | _ => simp at heq
  | bulkString hline _ _ =>
    cases h' with
    | nullBulkString hline' _ =>
      simp only [List.cons_append, List.append_assoc, List.cons.injEq, true_and] at heq
      rw [(line_unique hline hline' heq).1]
    | bulkString hline' _ _ =>
      simp only [List.cons_append, List.append_assoc, List.cons.injEq, true_and] at heq
      rw [(line_unique hline hline' heq).1]
    | _ => simp at heq
  | array hline hn hlen hpieces ih =>
    cases h' with
    | array hline' hn' hlen' hpieces' =>
      simp only [List.cons_append, List.append_assoc, List.cons.injEq, true_and] at heq
      obtain ⟨rfl, hrest⟩ := line_unique hline hline' heq
      rw [hn] at hn'
      cases hn'
      rw [flatMap_fields_unique
        (fun p hp p' hp' rest rest' heq => ih p hp (hpieces' p' hp') heq) hpieces hpieces'
        (by omega) hrest]
    | _ => simp at heq

/-! ## The parser and the grammar -/

/-- On the front of `s` the parser accepts exactly the grammar. -/
def AcceptsGrammar (s : Bytes) : Prop :=
  ∀ n ≤ s.length, ∀ v, fromString s = .ok (v, n) ↔ Frame (s.take n) v

/-- If there is a frame at the front of `s`, its numbers are written plainly. -/
def PlainNumbers (s : Bytes) : Prop :=
  ∀ n fields v, Layout (s.take n) fields v → ∀ field ∈ fields, field.Plain

/-- One frame settles how the numbers at the front are written.
SOURCE: resp_value.cc:10-122 -/
theorem Layout.plainNumbers {b : Bytes} {fields : List Field} {v : RespValue}
    (h : Layout b fields v) (hplain : ∀ field ∈ fields, field.Plain) (rest : Bytes) :
    PlainNumbers (b ++ rest) := by
  intro n fields' v' h'
  have heq : b ++ rest = (b ++ rest).take n ++ (b ++ rest).drop n :=
    (List.take_append_drop n (b ++ rest)).symm
  rw [← h.fields_unique h' heq]
  exact hplain

/-- If the parser accepts what the grammar says, the numbers at the front are plain.
SOURCE: resp_value.cc:10-122 -/
theorem plainNumbers_of_acceptsGrammar {s : Bytes} (hs : FitsString s) (h : AcceptsGrammar s) :
    PlainNumbers s := by
  intro n fields v hlayout
  have htake : s.take n = s.take (min n s.length) := List.take_eq_take_min
  rw [htake] at hlayout
  have hle : min n s.length ≤ s.length := Nat.min_le_right n s.length
  have hframe : Frame (s.take (min n s.length)) v :=
    (h _ hle v).mp (fromString_eq_ok_iff.mpr ⟨hle, fields, hlayout⟩)
  have hsize : (s.take (min n s.length)).length < 2 ^ 63 := by
    rw [FitsString, stringMaxSize] at hs
    rw [List.length_take]
    omega
  obtain ⟨fields', hlayout', hplain⟩ := hframe.layout hsize
  have hsame : fields = fields' := @Layout.fields_unique _ _ [] [] _ _ _ _ hlayout hlayout' rfl
  rw [hsame]
  exact hplain

/-- **The parser accepts exactly the grammar on the front of a string if and only if the numbers of
the frame there are written plainly.**
SOURCE: resp_value.cc:10-122, 185-188 -/
theorem acceptsGrammar_iff {s : Bytes} (hs : FitsString s) :
    AcceptsGrammar s ↔ PlainNumbers s := by
  constructor
  · exact plainNumbers_of_acceptsGrammar hs
  · intro hplain n hn v
    rw [fromString_eq_ok_iff]
    constructor
    · rintro ⟨-, fields, hlayout⟩
      exact hlayout.frame (hplain n fields v hlayout)
    · intro hframe
      have hsize : (s.take n).length < 2 ^ 63 := by
        rw [FitsString, stringMaxSize] at hs
        rw [List.length_take]
        omega
      obtain ⟨fields, hlayout, -⟩ := hframe.layout hsize
      exact ⟨hn, fields, hlayout⟩

/-- `$1`, and the payload `a`.
SOURCE: resp_value.cc:10-122 -/
theorem bulkOne_layout : Layout (ascii "$1\r\na\r\n") [.bulkLen (ascii "1")]
    (.bulkString (some (ascii "a"))) :=
  @Layout.bulkString (ascii "1") (ascii "a") 1 (by decide) (by decide) (by decide)

/-- A bulk string of one byte.
SOURCE: resp_value.cc:10-122 -/
theorem acceptsGrammar_iff_bulkOne :
    FitsString (ascii "$1\r\na\r\n") ∧ AcceptsGrammar (ascii "$1\r\na\r\n") := by
  have hs : FitsString (ascii "$1\r\na\r\n") := by
    unfold FitsString
    decide
  have hplain : ∀ field ∈ [Field.bulkLen (ascii "1")], field.Plain := by
    simp [Field.Plain, Digits, ascii, Decimal.isDigit]
  refine ⟨hs, (acceptsGrammar_iff hs).mpr ?_⟩
  have hnumbers := bulkOne_layout.plainNumbers hplain []
  rw [List.append_nil] at hnumbers
  exact hnumbers

/-- A length with a sign and a letter is accepted, though it is none of the grammar.
SOURCE: resp_value.cc:76 -/
theorem accepts_signed_length :
    fromString (ascii "$+1x\r\na\r\n") = .ok (.bulkString (some (ascii "a")), 9) ∧
      ¬ ∃ v, Frame (ascii "$+1x\r\na\r\n") v := by
  have hlayout : Layout (ascii "$+1x\r\na\r\n") [.bulkLen (ascii "+1x")]
      (.bulkString (some (ascii "a"))) :=
    @Layout.bulkString (ascii "+1x") (ascii "a") 1 (by decide) (by decide) (by decide)
  constructor
  · have hparse := hlayout.fromString []
    rw [List.append_nil] at hparse
    exact hparse
  · rintro ⟨v, hframe⟩
    obtain ⟨fields, hread, hplain⟩ := hframe.layout (by decide)
    have hfields := @Layout.fields_unique _ _ [] [] _ _ _ _ hlayout hread rfl
    rw [← hfields] at hplain
    simp [Field.Plain, Digits, ascii, Decimal.isDigit] at hplain

end MyRedis.Analysis

import MyRedis.Analysis.RespStability

/-!
# Decoding undoes encoding

For every RESP value whose simple strings and simple errors contain no `"\r\n"`, and
whatever bytes follow its encoding, `RespValue::FromString` gives the value back and
consumes exactly the encoding (`fromString_serialize`).  Bulk strings are unrestricted:
their payload is taken by its length and may contain `"\r\n"` itself.

The proof places the encoding at any position of a longer string, since that is where
the elements of an array are.
-/

set_option autoImplicit false

namespace MyRedis.Analysis

open MyRedis.Model MyRedis.Model.RespValue MyRedis.Lib

/-- An upper bound of `std::string::max_size()`: no object is larger than
`PTRDIFF_MAX` bytes. -/
def stringMaxSize : ℕ := 2 ^ 63 - 1

/-- The bytes fit into a `std::string`. -/
def FitsString (s : Bytes) : Prop := s.length ≤ stringMaxSize

/-- The simple strings and simple errors of a value contain no `"\r\n"`. -/
inductive LineSafe : RespValue → Prop where
  | simpleString {s : Bytes} (h : ¬ crlf <:+: s) : LineSafe (.simpleString s)
  | simpleError {m : Bytes} (h : ¬ crlf <:+: m) : LineSafe (.simpleError m)
  | integer (n : Int64) : LineSafe (.integer n)
  | bulkString (s : Option Bytes) : LineSafe (.bulkString s)
  | array {vs : List RespValue} (h : ∀ v ∈ vs, LineSafe v) : LineSafe (.array vs)

/-! ## Header lines -/

/-- The first `"\r\n"` behind a text that contains none is the one that ends it, also
where the text ends in a lone carriage return. -/
theorem find_crlf_append (before text after : Bytes) (h : ¬ crlf <:+: text) :
    find (before ++ (text ++ (crlf ++ after))) crlf before.length =
      some (before.length + text.length) := by
  rw [find_eq_some (by decide)]
  refine ⟨by omega, ?_, fun k hlo hhi hk => ?_⟩
  · rw [← List.length_append, ← List.append_assoc, List.drop_left]
    exact List.prefix_append _ _
  · obtain ⟨j, rfl⟩ := Nat.exists_eq_add_of_le hlo
    rw [List.drop_length_add_append, List.drop_append_of_le_length (by omega)] at hk
    have hsuffix : text.drop j <:+ text := List.drop_suffix j text
    -- the occurrence starts inside `text`, and there it needs two bytes of it
    rcases hd : text.drop j with _ | ⟨b, _ | ⟨c, u⟩⟩
    · have hlen := congrArg List.length hd
      simp only [List.length_drop, List.length_nil] at hlen
      omega
    · rw [hd] at hk
      simp [crlf] at hk
    · rw [hd] at hk hsuffix
      obtain ⟨rfl, rfl, -⟩ : b = 13 ∧ c = 10 ∧ True := by simpa [crlf, eq_comm] using hk
      exact h ((List.prefix_append crlf u).isInfix.trans hsuffix.isInfix)

/-- A header line with a `"\r\n"`-free text is read up to its end.
SOURCE: resp_value.cc:34-39, 71-77, 104-110 -/
theorem lineAt_append (missing : String) (before text after : Bytes) (c : UInt8)
    (h : ¬ crlf <:+: text) :
    lineAt missing (before ++ (c :: (text ++ (crlf ++ after)))) before.length =
      .ok (text, (before ++ (c :: (text ++ crlf))).length) := by
  have hfind := find_crlf_append (before ++ [c]) text after h
  simp only [List.append_assoc, List.singleton_append, List.length_append,
    List.length_singleton] at hfind
  have htext : substr (before ++ (c :: (text ++ (crlf ++ after)))) (before.length + 1)
      text.length = text := by
    rw [substr, List.drop_length_add_append, List.drop_one, List.tail_cons, List.take_left]
  have hcount : before.length + 1 + text.length - before.length - 1 = text.length := by omega
  simp only [lineAt_eq, hfind, hcount, htext, Except.ok.injEq, Prod.mk.injEq, true_and]
  simp [crlf]
  omega

/-- A printed number contains no `"\r\n"`. -/
theorem not_crlf_infix_of_digits {text : Bytes} (h : ∀ b ∈ text, b ≠ 13) : ¬ crlf <:+: text :=
  fun hin => h 13 (hin.subset (by simp [crlf])) rfl

/-- A printed length contains no `"\r\n"`.
SOURCE: resp_value.cc:140, 142 -/
theorem not_crlf_infix_toStringSize (n : ℕ) : ¬ crlf <:+: toStringSize n := by
  refine not_crlf_infix_of_digits fun b hb => ?_
  have hdigit := Decimal.isDigit_of_mem_encode hb
  rintro rfl
  exact absurd hdigit (by decide)

/-- A printed integer contains no `"\r\n"`.
SOURCE: resp_value.cc:134 -/
theorem not_crlf_infix_toStringInt (n : Int64) : ¬ crlf <:+: toStringInt n := by
  refine not_crlf_infix_of_digits fun b hb => ?_
  rintro rfl
  have hmem : (13 : UInt8) ∈ Decimal.encode n.toInt.natAbs := by
    rw [toStringInt, Decimal.encodeInt] at hb
    split_ifs at hb
    · simpa using hb
    · exact hb
  exact absurd (Decimal.isDigit_of_mem_encode hmem) (by decide)

/-! ## Payloads and elements -/

/-- A length below `2^63` survives the trip through `long long`.
SOURCE: resp_value.cc:76, 109 -/
theorem ofInt_length_facts {n : ℕ} (h : n < 2 ^ 63) :
    (Int64.ofInt n).toNatClampNeg = n ∧ Int64.ofInt n ≠ -1 ∧ ¬ Int64.ofInt n ≤ -2 ∧
      ¬ Int64.ofInt n < 0 := by
  have hint : (Int64.ofInt n).toInt = n := Int64.toInt_ofInt_of_le (by omega) (by omega)
  refine ⟨?_, ?_, ?_, ?_⟩
  · rw [← Int64.toNat_toInt, hint, Int.toNat_natCast]
  · intro heq
    have := congrArg Int64.toInt heq
    rw [hint] at this
    simp at this
  · rw [Int64.le_iff_toInt_le, hint]
    simp
    omega
  · rw [Int64.lt_iff_toInt_lt, hint]
    simp

/-- A payload is taken by its length, whatever bytes it holds.
SOURCE: resp_value.cc:78-98 -/
theorem payloadAt_append (before payload after : Bytes) (h : payload.length < 2 ^ 63) :
    payloadAt (before ++ (payload ++ (crlf ++ after))) before.length
        (Int64.ofInt payload.length) =
      .ok (some payload, before.length + payload.length + 2) := by
  obtain ⟨hlen, h1, h2, -⟩ := ofInt_length_facts h
  have hfits : ¬ (before ++ (payload ++ (crlf ++ after))).length <
      before.length + payload.length + 2 := by
    simp [crlf]
    omega
  have hend : substr (before ++ (payload ++ (crlf ++ after))) (before.length + payload.length) 2 =
      crlf := by
    rw [substr, List.drop_length_add_append, List.drop_left]
    rfl
  have htext : substr (before ++ (payload ++ (crlf ++ after))) before.length payload.length =
      payload := by
    rw [substr, List.drop_left, List.take_left]
  simp only [payloadAt, hlen, if_neg h1, if_neg h2, if_neg hfits, if_pos hend, htext]

/-- No encoding is empty.
SOURCE: resp_value.cc:124-151 -/
theorem serialize_length_pos (v : RespValue) : 0 < v.serialize.length := by
  rcases v with s | m | n | (_ | s) | vs <;> simp [serialize, ascii]

/-- What is to be shown of a value: placed anywhere in a string, its encoding is read
back and nothing behind it is touched. -/
def DecodesAnywhere (v : RespValue) : Prop :=
  ∀ before after : Bytes,
    variantAt (before ++ (v.serialize ++ after)) before.length =
      .ok (v, before.length + v.serialize.length)

/-- The element loop reads back the elements of an array.
SOURCE: resp_value.cc:115-120 -/
theorem elementsAt_append {vs : List RespValue} (hvs : ∀ v ∈ vs, DecodesAnywhere v)
    (before after : Bytes) :
    elementsAt (before ++ (serializeAll vs ++ after)) before.length vs.length =
      .ok (vs, before.length + (serializeAll vs).length) := by
  induction vs generalizing before with
  | nil => simp [elementsAt_zero, serializeAll]
  | cons v vs ih =>
    have hv := hvs v (by simp) before (serializeAll vs ++ after)
    have hrest := ih (fun w hw => hvs w (by simp [hw])) (before ++ v.serialize)
    have hpos := serialize_length_pos v
    rw [List.length_cons, elementsAt_succ, serializeAll, List.append_assoc, if_neg (by
      simp only [List.length_append]
      omega), hv]
    simp only [List.append_assoc, List.length_append] at hrest ⊢
    simp only [bind, Except.bind, hrest, Except.map, Except.ok.injEq, Prod.mk.injEq, true_and]
    omega

/-- The byte behind `before` is the type prefix.
SOURCE: resp_value.cc:15 -/
theorem getElem?_prefix (before after : Bytes) (c : UInt8) :
    (before ++ c :: after)[before.length]? = some c := by
  simp

/-- A simple string is read back, if it is a line.
SOURCE: resp_value.cc:31-41, 130 -/
theorem simpleString_decodes {s : Bytes} (h : ¬ crlf <:+: s) :
    DecodesAnywhere (.simpleString s) := by
  intro before after
  have hser : (RespValue.simpleString s).serialize ++ after = 43 :: (s ++ (crlf ++ after)) := by
    simp [serialize, ascii]
  rw [hser, variantAt_eq, getElem?_prefix]
  simp only [reduceIte, lineAt_append _ before s after 43 h, Except.map]
  simp [serialize, ascii, crlf]

/-- An error is read back, if it is a line.
SOURCE: resp_value.cc:43-53, 132 -/
theorem simpleError_decodes {m : Bytes} (h : ¬ crlf <:+: m) :
    DecodesAnywhere (.simpleError m) := by
  intro before after
  have hser : (RespValue.simpleError m).serialize ++ after = 45 :: (m ++ (crlf ++ after)) := by
    simp [serialize, ascii]
  rw [hser, variantAt_eq, getElem?_prefix]
  simp only [reduceIte, lineAt_append _ before m after 45 h, Except.map]
  simp [serialize, ascii, crlf]

/-- An integer is read back.
SOURCE: resp_value.cc:55-66, 134 -/
theorem integer_decodes (n : Int64) : DecodesAnywhere (.integer n) := by
  intro before after
  have hser : (RespValue.integer n).serialize ++ after =
      58 :: (toStringInt n ++ (crlf ++ after)) := by
    simp [serialize, ascii]
  rw [hser, variantAt_eq, getElem?_prefix]
  simp only [reduceIte,
    lineAt_append _ before (toStringInt n) after 58 (not_crlf_infix_toStringInt n),
    bind, Except.bind, stoll_toStringInt, Except.map]
  simp [serialize, ascii, crlf]

/-- The null bulk string is read back.
SOURCE: resp_value.cc:78-80, 136-138 -/
theorem nullBulkString_decodes : DecodesAnywhere (.bulkString none) := by
  intro before after
  have hser : (RespValue.bulkString none).serialize ++ after =
      36 :: (ascii "-1" ++ (crlf ++ after)) := by
    simp [serialize, ascii]
  have hstoll : stoll (ascii "-1") = .ok (-1) := by decide
  have hline : ¬ crlf <:+: ascii "-1" := not_crlf_infix_of_digits (by simp [ascii])
  rw [hser, variantAt_eq, getElem?_prefix]
  simp only [reduceIte, lineAt_append _ before (ascii "-1") after 36 hline,
    bind, Except.bind, hstoll, payloadAt, Except.map]
  simp [serialize, ascii, crlf]

/-- A bulk string is read back, if its length fits.
SOURCE: resp_value.cc:68-99, 135-140 -/
theorem bulkString_decodes {s : Bytes} (h : s.length < 2 ^ 63) :
    DecodesAnywhere (.bulkString (some s)) := by
  intro before after
  have hser : (RespValue.bulkString (some s)).serialize ++ after =
      36 :: (toStringSize s.length ++ (crlf ++ (s ++ (crlf ++ after)))) := by
    simp [serialize, ascii]
  have hpayload := payloadAt_append (before ++ (36 :: (toStringSize s.length ++ crlf))) s after h
  simp only [List.append_assoc, List.cons_append] at hpayload
  rw [hser, variantAt_eq, getElem?_prefix]
  simp only [reduceIte,
    lineAt_append _ before _ (s ++ (crlf ++ after)) 36 (not_crlf_infix_toStringSize s.length),
    bind, Except.bind, stoll_toStringSize h, hpayload, Except.map]
  simp [serialize, ascii, crlf]
  omega

/-- An array is read back, if its elements are and their number fits.
SOURCE: resp_value.cc:101-122, 141-146 -/
theorem array_decodes {vs : List RespValue} (hvs : ∀ v ∈ vs, DecodesAnywhere v)
    (h : vs.length < 2 ^ 63) : DecodesAnywhere (.array vs) := by
  intro before after
  have hser : (RespValue.array vs).serialize ++ after =
      42 :: (toStringSize vs.length ++ (crlf ++ (serializeAll vs ++ after))) := by
    simp [serialize, ascii]
  have helements := elementsAt_append hvs (before ++ (42 :: (toStringSize vs.length ++ crlf))) after
  obtain ⟨hlen, -, -, hnonneg⟩ := ofInt_length_facts h
  simp only [List.append_assoc, List.cons_append] at helements
  rw [hser, variantAt_eq, getElem?_prefix]
  simp only [reduceIte,
    lineAt_append _ before _ (serializeAll vs ++ after) 42 (not_crlf_infix_toStringSize vs.length),
    bind, Except.bind, stoll_toStringSize h, if_neg hnonneg, hlen, helements, Except.map]
  simp [serialize, ascii, crlf]
  omega

/-- An array has no more elements, and no longer ones, than its encoding has bytes.
SOURCE: resp_value.cc:141-146 -/
theorem serializeAll_bounds (vs : List RespValue) :
    vs.length ≤ (serializeAll vs).length ∧
      ∀ v ∈ vs, v.serialize.length ≤ (serializeAll vs).length := by
  induction vs with
  | nil => simp [serializeAll]
  | cons v vs ih =>
    have hpos := serialize_length_pos v
    simp only [serializeAll, List.length_append, List.length_cons, List.mem_cons,
      forall_eq_or_imp]
    refine ⟨by omega, by omega, fun w hw => ?_⟩
    have := ih.2 w hw
    omega

/-- The values whose encoding the parser can read: there is no `"\r\n"` in a simple string or
error, and every length fits a `long long`. -/
inductive Readable : RespValue → Prop where
  | simpleString {s : Bytes} (h : ¬ crlf <:+: s) : Readable (.simpleString s)
  | simpleError {m : Bytes} (h : ¬ crlf <:+: m) : Readable (.simpleError m)
  | integer (n : Int64) : Readable (.integer n)
  | nullBulkString : Readable (.bulkString none)
  | bulkString {s : Bytes} (h : s.length < 2 ^ 63) : Readable (.bulkString (some s))
  | array {vs : List RespValue} (hlength : vs.length < 2 ^ 63) (h : ∀ v ∈ vs, Readable v) :
      Readable (.array vs)

/-- **Every value is read back from its encoding, wherever that is placed.**
SOURCE: resp_value.cc:10-151 -/
theorem Readable.decodesAnywhere {v : RespValue} (h : Readable v) : DecodesAnywhere v := by
  induction h with
  | simpleString h => exact simpleString_decodes h
  | simpleError h => exact simpleError_decodes h
  | integer n => exact integer_decodes n
  | nullBulkString => exact nullBulkString_decodes
  | bulkString h => exact bulkString_decodes h
  | array hlength _ ih => exact array_decodes ih hlength

/-- What can be read is made of lines.
SOURCE: resp_value.cc:10-151 -/
theorem Readable.lineSafe {v : RespValue} (h : Readable v) : LineSafe v := by
  induction h with
  | simpleString h => exact .simpleString h
  | simpleError h => exact .simpleError h
  | integer n => exact .integer n
  | nullBulkString => exact .bulkString none
  | bulkString _ => exact .bulkString _
  | array _ _ ih => exact .array ih

/-- A value of lines is readable if its encoding is short enough for a string.
SOURCE: resp_value.cc:10-151 -/
theorem LineSafe.readable {v : RespValue} (hv : LineSafe v) (hsize : v.serialize.length < 2 ^ 63) :
    Readable v := by
  induction hv with
  | simpleString h => exact .simpleString h
  | simpleError h => exact .simpleError h
  | integer n => exact .integer n
  | bulkString s =>
    cases s with
    | none => exact .nullBulkString
    | some s =>
      apply Readable.bulkString
      simp only [serialize, List.length_append] at hsize
      omega
  | @array vs _ ih =>
    obtain ⟨hcount, hmem⟩ := serializeAll_bounds vs
    simp only [serialize, List.length_append] at hsize
    refine .array (by omega) fun v hv => ih v hv ?_
    have := hmem v hv
    omega

/-- **RESP decode undoes encode**, at the front of whatever follows the encoding.
SOURCE: resp_value.cc:10-151, 185-188 -/
theorem fromString_serialize (v : RespValue) (s : Bytes) (hv : LineSafe v)
    (hs : FitsString (v.serialize ++ s)) :
    fromString (v.serialize ++ s) = .ok (v, v.serialize.length) := by
  have hsize : v.serialize.length < 2 ^ 63 := by
    simp only [FitsString, stringMaxSize, List.length_append] at hs
    omega
  rw [fromString_eq]
  simpa using (hv.readable hsize).decodesAnywhere [] s

/-- A nested array: a payload that looks like a frame, a null bulk string, a simple
string that ends in a lone carriage return and the least `long long`. -/
def nestedSample : RespValue :=
  .array [.bulkString (some (ascii "+a\r\n")), .bulkString none,
    .array [.simpleString (ascii "x\r"), .integer (-9223372036854775808)]]

/-- The sample can be sent.
SOURCE: resp_value.cc:10-151 -/
theorem nestedSample_lineSafe : LineSafe nestedSample := by
  refine .array fun v hv => ?_
  rcases List.mem_cons.mp hv with rfl | hv
  · exact .bulkString _
  rcases List.mem_cons.mp hv with rfl | hv
  · exact .bulkString _
  obtain rfl := List.mem_singleton.mp hv
  refine .array fun w hw => ?_
  rcases List.mem_cons.mp hw with rfl | hw
  · exact .simpleString (by decide)
  obtain rfl := List.mem_singleton.mp hw
  exact .integer _

/-- An array inside an array, with the beginning of another behind it.
SOURCE: resp_value.cc:10-151 -/
theorem fromString_serialize_nestedSample :
    LineSafe nestedSample ∧ FitsString (nestedSample.serialize ++ ascii "*1") ∧
      fromString (nestedSample.serialize ++ ascii "*1") =
        .ok (nestedSample, nestedSample.serialize.length) :=
  ⟨nestedSample_lineSafe, by unfold FitsString; decide +kernel,
    fromString_serialize nestedSample (ascii "*1") nestedSample_lineSafe
      (by unfold FitsString; decide +kernel)⟩

end MyRedis.Analysis

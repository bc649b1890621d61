import MyRedis.Model.RespValue

/-!
# The RESP parser without its proofs

The parsers of `MyRedis.Model.RespValue` return positions together with the proof that
they moved.  The analysis needs only the value and the position, so this file reads the
parsers through `Parsed.pair` and restates each as one equation between plain pairs:
`lineAt_eq`, `elementsAt_succ` and, on top, `variantAt_eq`, from which every result about
`RespValue::FromString` is proved.
-/

set_option autoImplicit false

namespace MyRedis.Analysis

open MyRedis.Model MyRedis.Model.RespValue

/-- The value and the next position of a parser's result. -/
def pair {α : Type} {lo : ℕ} (r : Parsed α lo) : α × ℕ := (r.value, r.next)

/-- `parseLine`, read as a plain pair. -/
def lineAt (missing : String) (str : Bytes) (pos : ℕ) : Except StdException (Bytes × ℕ) :=
  (parseLine missing str pos).map pair

/-- `parseVariant`, read as a plain pair. -/
def variantAt (str : Bytes) (pos : ℕ) : Except StdException (RespValue × ℕ) :=
  (parseVariant str pos).map pair

/-- `parseElements`, read as a plain pair. -/
def elementsAt (str : Bytes) (pos count : ℕ) : Except StdException (List RespValue × ℕ) :=
  (parseElements str pos count).map pair

/-- What `parseBulkString` does after the length line: `len` is the declared length and
`pos` the position of the payload. -/
def payloadAt (str : Bytes) (pos : ℕ) (len : Int64) : Except StdException (Option Bytes × ℕ) :=
  if len = -1 then .ok (none, pos)
  else if len ≤ -2 then
    .error (.invalidArgument "Bulk string has a negative length and is not null bulk string")
  else if str.length < pos + len.toNatClampNeg + 2 then
    .error (.outOfRange "Bulk string payload truncated or missing CRLF")
  else if substr str (pos + len.toNatClampNeg) 2 = crlf then
    .ok (some (substr str pos len.toNatClampNeg), pos + len.toNatClampNeg + 2)
  else .error (.outOfRange "Bulk string missing terminating CRLF")

/-- A header line ends at the first `"\r\n"` after the type prefix.
SOURCE: resp_value.cc:34-39, 71-77, 104-110 -/
theorem lineAt_eq (missing : String) (str : Bytes) (pos : ℕ) :
    lineAt missing str pos = match find str crlf (pos + 1) with
      | none => .error (.outOfRange missing)
      | some e => .ok (substr str (pos + 1) (e - pos - 1), e + 2) := by
  unfold lineAt parseLine
  split <;> next h => simp [h, Except.map, pair]

/-- A declared length that is neither `-1` nor below `-2` is not negative.
SOURCE: resp_value.cc:78-86 -/
theorem len_nonneg {len : Int64} (h1 : len ≠ -1) (h2 : ¬ len ≤ -2) : ¬ len < 0 := by
  rw [Int64.le_iff_toInt_le] at h2
  rw [Int64.lt_iff_toInt_lt]
  have h1' : len.toInt ≠ (-1 : Int64).toInt := fun h => h1 (Int64.toInt_inj.mp h)
  simp at h1' h2 ⊢
  omega

/-- The two bytes after the payload are compared with `"\r\n"` one by one.
SOURCE: resp_value.cc:91-94 -/
theorem substr_two_eq_crlf {str : Bytes} {i : ℕ} (h : i + 2 ≤ str.length) :
    substr str i 2 = crlf ↔ str[i] = 13 ∧ str[i + 1] = 10 := by
  have h1 : str.drop i = str[i] :: str.drop (i + 1) := List.drop_eq_getElem_cons (by omega)
  have h2 : str.drop (i + 1) = str[i + 1] :: str.drop (i + 2) :=
    List.drop_eq_getElem_cons (by omega)
  simp only [substr, h1, h2, List.take_succ_cons, List.take_zero, crlf, List.cons.injEq,
    and_true]

/-- `parseBulkString` is the length line, the number on it and the payload.
SOURCE: resp_value.cc:68-99 -/
theorem parseBulkString_eq (str : Bytes) (pos : ℕ) :
    (parseBulkString str pos).map pair =
      lineAt "Missing CRLF after bulk-string length" str pos >>= fun line =>
        stoll line.1 >>= fun len => payloadAt str line.2 len := by
  unfold parseBulkString lineAt
  cases parseLine "Missing CRLF after bulk-string length" str pos with
  | error e => rfl
  | ok line =>
    cases hs : stoll line.value with
    | error e => simp [bind, Except.bind, Except.map, pair, hs]
    | ok len =>
      simp only [bind, Except.bind, Except.map, pair, hs, payloadAt, pure, Except.pure]
      by_cases h1 : len = -1
      · simp only [if_pos h1]
      by_cases h2 : len ≤ -2
      · simp only [if_neg h1, if_pos h2]
      simp only [if_neg h1, if_neg h2]
      by_cases h3 : str.length < line.next + len.toNatClampNeg + 2
      · rw [dif_pos (Or.inr h3), if_pos h3]
      · have hend : line.next + len.toNatClampNeg + 2 ≤ str.length := by omega
        have hbytes := substr_two_eq_crlf hend
        rw [dif_neg (not_or.mpr ⟨len_nonneg h1 h2, h3⟩), if_neg h3]
        by_cases h4 : substr str (line.next + len.toNatClampNeg) 2 = crlf
        · rw [if_pos h4, if_neg (not_or.mpr (by simpa using hbytes.mp h4))]
        · rw [if_neg h4, if_pos (not_and_or.mp fun h => h4 (hbytes.mpr h))]

/-- The empty array body takes nothing.
SOURCE: resp_value.cc:115 -/
theorem elementsAt_zero (str : Bytes) (pos : ℕ) : elementsAt str pos 0 = .ok ([], pos) := by
  rw [elementsAt, parseElements]
  rfl

/-- The element loop reads one value and goes on behind it.
SOURCE: resp_value.cc:115-120 -/
theorem elementsAt_succ (str : Bytes) (pos count : ℕ) :
    elementsAt str pos (count + 1) =
      if str.length ≤ pos then .error (.outOfRange "Array element missing/truncated")
      else variantAt str pos >>= fun v =>
        (elementsAt str v.2 count).map fun r => (v.1 :: r.1, r.2) := by
  rw [elementsAt, parseElements]
  by_cases h : str.length ≤ pos
  · simp [h, Except.map]
  · simp only [ge_iff_le, h, if_false, variantAt]
    cases parseVariant str pos with
    | error e => rfl
    | ok v =>
      simp only [Except.map, bind, Except.bind, pair, elementsAt]
      cases parseElements str v.next count <;> rfl

/-- `parseArray` is the length line, the number on it and that many elements.
SOURCE: resp_value.cc:101-122 -/
theorem parseArray_eq (str : Bytes) (pos : ℕ) (h : pos < str.length) :
    (parseArray str pos h).map pair =
      lineAt "Missing CRLF after array length" str pos >>= fun line =>
        stoll line.1 >>= fun len =>
          if len < 0 then .error (.invalidArgument "Negative array length not allowed")
          else elementsAt str line.2 len.toNatClampNeg := by
  rw [parseArray, lineAt]
  cases parseLine "Missing CRLF after array length" str pos with
  | error e => rfl
  | ok line =>
    cases hs : stoll line.value with
    | error e => simp [bind, Except.bind, Except.map, pair, hs]
    | ok len =>
      simp only [bind, Except.bind, Except.map, pair, hs, elementsAt]
      by_cases hneg : len < 0
      · simp [hneg]
      · simp only [hneg, if_false]
        cases parseElements str line.next len.toNatClampNeg <;> rfl

/-- **The parser as one equation.**  The type prefix at `pos` decides how the value is
read.
SOURCE: resp_value.cc:10-122 -/
theorem variantAt_eq (str : Bytes) (pos : ℕ) :
    variantAt str pos = match str[pos]? with
      | none => .error (.outOfRange "Unexpected end of input while parsing RESP value")
      | some b =>
        if b = 43 then
          (lineAt "Missing CRLF for simple string" str pos).map
            fun line => (simpleString line.1, line.2)
        else if b = 45 then
          (lineAt "Missing CRLF for simple error" str pos).map
            fun line => (simpleError line.1, line.2)
        else if b = 58 then
          lineAt "Missing CRLF for integer" str pos >>= fun line =>
            (stoll line.1).map fun n => (integer n, line.2)
        else if b = 36 then
          (lineAt "Missing CRLF after bulk-string length" str pos >>= fun line =>
            stoll line.1 >>= fun len => payloadAt str line.2 len).map
            fun r => (bulkString r.1, r.2)
        else if b = 42 then
          (lineAt "Missing CRLF after array length" str pos >>= fun line =>
            stoll line.1 >>= fun len =>
              if len < 0 then .error (.invalidArgument "Negative array length not allowed")
              else elementsAt str line.2 len.toNatClampNeg).map
            fun r => (array r.1, r.2)
        else .error (.invalidArgument "Invalid resp type prefix") := by
  rw [variantAt, parseVariant]
  by_cases h : pos ≥ str.length
  · simp [h, Except.map]
  · have hlt : pos < str.length := Nat.lt_of_not_ge h
    rw [dif_neg h, List.getElem?_eq_getElem hlt, ← parseBulkString_eq, ← parseArray_eq _ _ hlt]
    split
    · next hb =>
      simp only [hb, reduceIte, lineAt, parseSimpleString]
      cases parseLine "Missing CRLF for simple string" str pos <;> rfl
    · next hb =>
      simp only [hb, reduceIte, lineAt, parseSimpleError]
      cases parseLine "Missing CRLF for simple error" str pos <;> rfl
    · next hb =>
      simp only [hb, reduceIte, lineAt, parseInteger]
      cases parseLine "Missing CRLF for integer" str pos with
      | error e => rfl
      | ok line =>
        simp only [bind, Except.bind, Except.map, pair]
        cases stoll line.value <;> rfl
    · next hb =>
      simp only [hb, reduceIte]
      cases parseBulkString str pos <;> rfl
    · next hb =>
      simp only [hb, reduceIte]
      cases parseArray str pos hlt <;> rfl
    · next h1 h2 h3 h4 h5 =>
      simp only [if_neg h1, if_neg h2, if_neg h3, if_neg h4, if_neg h5]
      rfl

end MyRedis.Analysis

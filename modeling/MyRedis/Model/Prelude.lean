import Mathlib.Algebra.Order.Ring.Int
import MyRedis.Lib.Decimal

/-!
# What the server uses of the C++ standard library

A `std::string` is a list of bytes and `std::int64_t` (also `long long`) is `Int64`.
The functions below are the library functions the modelled code calls, with the
documented behaviour: `std::string::find` and `substr`, `std::stoll`, `std::to_string`
and `std::from_chars`.

Two kinds of failure are kept apart.  A thrown exception is a `StdException`, with the
text it carries.  `Undefined` is undefined behaviour: a step after which the language
promises nothing, such as dereferencing an empty `std::optional` or a signed sum that
leaves the range of its type.
-/

set_option autoImplicit false

namespace MyRedis.Model

open MyRedis.Lib

/-- The contents of a `std::string`: any bytes, of any number. -/
abbrev Bytes : Type := List UInt8

/-- The bytes of a string literal of the source. -/
def ascii (s : String) : Bytes := s.toList.map fun c => UInt8.ofNat c.toNat

/-- The line terminator `"\r\n"`. -/
def crlf : Bytes := [13, 10]

/-- The exceptions thrown and caught by the modelled code, with their `what()`. -/
inductive StdException where
  | outOfRange (what : String)
  | invalidArgument (what : String)
  deriving DecidableEq, Repr

/-- The ways a modelled function may run into undefined behaviour. -/
inductive Undefined where
  /-- `*o` or `o->` on a `std::optional` without a value -/
  | emptyOptional
  /-- `v[i]` on a `std::vector` with at most `i` elements -/
  | indexOutOfBounds
  /-- signed arithmetic whose result does not fit its type -/
  | signedOverflow
  deriving DecidableEq, Repr

/-- Undefined behaviour, or a value. -/
abbrev Defined (α : Type) : Type := Except Undefined α

/-- `*o` -/
def deref {α : Type} : Option α → Defined α
  | some a => .ok a
  | none => .error .emptyOptional

/-- `v[i]` -/
def index {α : Type} (v : List α) (i : ℕ) : Defined α :=
  match v[i]? with
  | some a => .ok a
  | none => .error .indexOutOfBounds

/-- The result of a signed 64-bit operation whose mathematical value is `n`. -/
def signed64 (n : ℤ) : Defined Int64 :=
  if -2 ^ 63 ≤ n ∧ n < 2 ^ 63 then .ok (Int64.ofInt n) else .error .signedOverflow

/-! ## Strings -/

/-- The index of the first occurrence of `needle` in a string that starts at index `i`. -/
def findFrom (needle : Bytes) : Bytes → ℕ → Option ℕ
  | [], i => if needle = [] then some i else none
  | b :: rest, i =>
    if needle.isPrefixOf (b :: rest) then some i else findFrom needle rest (i + 1)

/-- `str.find(needle, pos)`; `none` is `std::string::npos`. -/
def find (str needle : Bytes) (pos : ℕ) : Option ℕ := findFrom needle (str.drop pos) pos

/-- `str.substr(pos, count)`, for `pos` not past the end. -/
def substr (str : Bytes) (pos count : ℕ) : Bytes := (str.drop pos).take count

/-- `std::isspace` in the `"C"` locale. -/
def isSpace (b : UInt8) : Bool := b == 32 || (9 ≤ b && b ≤ 13)

/-! ## Numbers -/

/-- `std::to_string` of a `std::size_t` -/
def toStringSize (n : ℕ) : Bytes := Decimal.encode n

/-- `std::to_string` of a `long long` -/
def toStringInt (n : Int64) : Bytes := Decimal.encodeInt n.toInt

/-- Splits off the sign `strtoll` accepts in front of the digits. -/
def splitSign : Bytes → Bool × Bytes
  | 45 :: rest => (true, rest)
  | 43 :: rest => (false, rest)
  | rest => (false, rest)

/-- `std::stoll(s)`: white space, a sign and digits; whatever follows the digits is
ignored.  It throws `std::invalid_argument` where there is no digit and
`std::out_of_range` where the number does not fit. -/
def stoll (s : Bytes) : Except StdException Int64 :=
  let (negative, body) := splitSign (s.dropWhile isSpace)
  let digits := body.takeWhile Decimal.isDigit
  if digits = [] then .error (.invalidArgument "stoll")
  else
    let n := Decimal.signed negative digits
    if -2 ^ 63 ≤ n ∧ n < 2 ^ 63 then .ok (Int64.ofInt n) else .error (.outOfRange "stoll")

/-- Splits off the minus sign, the only one `std::from_chars` accepts. -/
def splitMinus : Bytes → Bool × Bytes
  | 45 :: rest => (true, rest)
  | rest => (false, rest)

/-- The error codes of `std::from_chars`. -/
inductive Errc where
  | invalidArgument
  | resultOutOfRange
  deriving DecidableEq, Repr

/-- `std::from_chars(first, last, value)` for a 64-bit signed `value` in base ten: a
minus sign and digits, with neither white space nor a plus sign.  On success it gives
the value and how many bytes it took. -/
def fromChars (s : Bytes) : Except Errc (Int64 × ℕ) :=
  let (negative, body) := splitMinus s
  let digits := body.takeWhile Decimal.isDigit
  if digits = [] then .error .invalidArgument
  else
    let n := Decimal.signed negative digits
    if -2 ^ 63 ≤ n ∧ n < 2 ^ 63 then
      .ok (Int64.ofInt n, digits.length + if negative then 1 else 0)
    else .error .resultOutOfRange

/-! ## What the library functions do -/

section Except

variable {ε α β : Type} {x : Except ε α} {r : β}

/-- A sequence of two computations succeeds when both do. -/
theorem bind_eq_ok {f : α → Except ε β} : x >>= f = .ok r ↔ ∃ a, x = .ok a ∧ f a = .ok r := by
  cases x <;> simp [bind, Except.bind]

/-- A function after a computation succeeds when the computation does. -/
theorem map_eq_ok {f : α → β} : x.map f = .ok r ↔ ∃ a, x = .ok a ∧ f a = r := by
  cases x <;> simp [Except.map]

end Except

section Strings

variable {needle str : Bytes} {pos e : ℕ}

/-- What `findFrom` finds: the first place where `needle` starts. -/
theorem findFrom_eq_some {s : Bytes} {i : ℕ} (hne : needle ≠ []) :
    findFrom needle s i = some e ↔
      i ≤ e ∧ needle <+: s.drop (e - i) ∧ ∀ k < e - i, ¬ needle <+: s.drop k := by
  induction s generalizing i with
  | nil => simp [findFrom, hne]
  | cons b s ih =>
    rw [findFrom]
    by_cases hp : needle <+: b :: s
    · rw [if_pos (List.isPrefixOf_iff_prefix.mpr hp), Option.some.injEq]
      constructor
      · rintro rfl
        simpa using hp
      · rintro ⟨hle, -, hmin⟩
        by_contra hne'
        exact hmin 0 (by omega) (by simpa using hp)
    · rw [if_neg (fun h => hp (List.isPrefixOf_iff_prefix.mp h)), ih]
      constructor
      · rintro ⟨hle, hat, hmin⟩
        have hsucc : e - i = e - (i + 1) + 1 := by omega
        refine ⟨by omega, by simpa [hsucc] using hat, fun k hk => ?_⟩
        cases k with
        | zero => simpa using hp
        | succ k => simpa using hmin k (by omega)
      · rintro ⟨hle, hat, hmin⟩
        have hlt : i < e := by
          by_contra hge
          have he : e - i = 0 := by omega
          exact hp (by simpa [he] using hat)
        have hsucc : e - i = e - (i + 1) + 1 := by omega
        refine ⟨hlt, by simpa [hsucc] using hat, fun k hk => ?_⟩
        simpa using hmin (k + 1) (by omega)

/-- What `find` finds: the first place from `pos` on where `needle` starts. -/
theorem find_eq_some (hne : needle ≠ []) :
    find str needle pos = some e ↔
      pos ≤ e ∧ needle <+: str.drop e ∧ ∀ k, pos ≤ k → k < e → ¬ needle <+: str.drop k := by
  rw [find, findFrom_eq_some hne]
  simp only [List.drop_drop]
  constructor
  · rintro ⟨hle, hat, hmin⟩
    refine ⟨hle, by simpa [Nat.add_sub_cancel' hle] using hat, fun k hpk hke => ?_⟩
    simpa [Nat.add_sub_cancel' hpk] using hmin (k - pos) (by omega)
  · rintro ⟨hle, hat, hmin⟩
    refine ⟨hle, by simpa [Nat.add_sub_cancel' hle] using hat, fun k hk => ?_⟩
    exact hmin (pos + k) (by omega) (by omega)

/-- A search that succeeds finds the same place when more bytes are appended. -/
theorem find_append (t : Bytes) (hne : needle ≠ []) (h : find str needle pos = some e) :
    find (str ++ t) needle pos = some e := by
  rw [find_eq_some hne] at h ⊢
  obtain ⟨hle, hat, hmin⟩ := h
  have hlen : needle.length ≤ str.length - e := by simpa using hat.length_le
  have hpos : 0 < needle.length := List.length_pos_iff.mpr hne
  refine ⟨hle, ?_, fun k hpk hke hk => hmin k hpk hke ?_⟩
  · rw [List.drop_append_of_le_length (by omega)]
    exact hat.trans (List.prefix_append _ _)
  · -- an earlier occurrence would end inside `str`, before the one found there
    rw [List.drop_append_of_le_length (by omega)] at hk
    exact List.prefix_of_prefix_length_le hk (List.prefix_append _ _) (by simp; omega)

/-- A found needle lies inside the string. -/
theorem find_add_length_le (hne : needle ≠ []) (h : find str needle pos = some e) :
    e + needle.length ≤ str.length := by
  have hat := ((find_eq_some hne).mp h).2.1
  have hlen : needle.length ≤ str.length - e := by simpa using hat.length_le
  have hpos : 0 < needle.length := List.length_pos_iff.mpr hne
  omega

/-- A part of a string that ends before its end is the same part of any extension. -/
theorem substr_append (t : Bytes) {count : ℕ} (h : pos + count ≤ str.length) :
    substr (str ++ t) pos count = substr str pos count := by
  rw [substr, substr, List.drop_append_of_le_length (by omega),
    List.take_append_of_le_length (by simp; omega)]

end Strings

section Numbers

/-- An `Int64` lies in the range the number readers check. -/
theorem int64_range (n : Int64) : -2 ^ 63 ≤ n.toInt ∧ n.toInt < 2 ^ 63 :=
  ⟨n.le_toInt, n.toInt_lt⟩

/-- A signed operation has a result where its mathematical value fits, and that is the value. -/
theorem signed64_eq_ok {n : ℤ} {m : Int64} : signed64 n = .ok m ↔ m.toInt = n := by
  unfold signed64
  constructor
  · intro h
    split_ifs at h with hfits
    cases h
    exact Int64.toInt_ofInt_of_le hfits.1 hfits.2
  · rintro rfl
    rw [if_pos (int64_range m), Int64.ofInt_toInt]

/-- A digit is neither white space nor a sign. -/
theorem isDigit_facts {b : UInt8} (h : Decimal.isDigit b = true) :
    isSpace b = false ∧ b ≠ 45 ∧ b ≠ 43 := by
  simp only [Decimal.isDigit, Bool.and_eq_true, decide_eq_true_eq, UInt8.le_iff_toNat_le] at h
  obtain ⟨hlo, hhi⟩ := h
  have hlo' : 48 ≤ b.toNat := hlo
  refine ⟨?_, ?_, ?_⟩
  · simp only [isSpace, Bool.or_eq_false_iff, beq_eq_false_iff_ne, Bool.and_eq_false_iff,
      decide_eq_false_iff_not, UInt8.le_iff_toNat_le]
    refine ⟨?_, Or.inr (fun h13 => ?_)⟩
    · rintro rfl
      exact absurd hlo' (by decide)
    · have h13' : b.toNat ≤ 13 := h13
      omega
  · rintro rfl
    exact absurd hlo' (by decide)
  · rintro rfl
    exact absurd hlo' (by decide)

/-- The sign and magnitude of a printed integer stand for that integer. -/
theorem signed_encode (n : ℤ) :
    Decimal.signed (decide (n < 0)) (Decimal.encode n.natAbs) = n := by
  rw [Decimal.signed, Decimal.value_encode]
  by_cases h : n < 0
  · rw [if_pos (decide_eq_true h)]
    omega
  · rw [if_neg (by simpa using h)]
    omega

/-- Reading a printed integer splits it into its sign and its digits. -/
theorem splitSign_encodeInt (n : ℤ) :
    splitSign ((Decimal.encodeInt n).dropWhile isSpace) =
      (decide (n < 0), Decimal.encode n.natAbs) := by
  by_cases h : n < 0
  · have hspace : isSpace 45 = false := by decide
    simp [Decimal.encodeInt, h, hspace, splitSign]
  · obtain ⟨b, t, hbt, hb⟩ := Decimal.exists_head_encode n.natAbs
    obtain ⟨hspace, h45, h43⟩ := isDigit_facts hb
    simp only [Decimal.encodeInt, h, if_false, hbt, List.dropWhile_cons, hspace, decide_false]
    simp only [Bool.false_eq_true, if_false]
    unfold splitSign
    split
    · next heq => exact absurd (List.cons.inj heq).1 h45
    · next heq => exact absurd (List.cons.inj heq).1 h43
    · rfl

/-- **`std::stoll` reads back a printed number** that fits a `long long`. -/
theorem stoll_encodeInt {n : ℤ} (h : -2 ^ 63 ≤ n ∧ n < 2 ^ 63) :
    stoll (Decimal.encodeInt n) = .ok (Int64.ofInt n) := by
  have hdigits : (Decimal.encode n.natAbs).takeWhile Decimal.isDigit =
      Decimal.encode n.natAbs := by
    simpa using Decimal.takeWhile_encode_append n.natAbs [] (by simp)
  simp only [stoll, splitSign_encodeInt, hdigits, Decimal.encode_ne_nil, if_false,
    signed_encode, h, and_self, if_true]

/-- `std::stoll` undoes `std::to_string` on every `long long`. -/
theorem stoll_toStringInt (n : Int64) : stoll (toStringInt n) = .ok n := by
  rw [toStringInt, stoll_encodeInt (int64_range n), Int64.ofInt_toInt]

/-- `std::stoll` undoes `std::to_string` on a size below `2^63`. -/
theorem stoll_toStringSize {n : ℕ} (h : n < 2 ^ 63) :
    stoll (toStringSize n) = .ok (Int64.ofInt n) := by
  have hn : toStringSize n = Decimal.encodeInt n := by simp [toStringSize, Decimal.encodeInt]
  rw [hn, stoll_encodeInt (by omega)]

/-- Splitting the minus sign off a printed integer leaves its digits. -/
theorem splitMinus_encodeInt_append (n : ℤ) (rest : Bytes) :
    splitMinus (Decimal.encodeInt n ++ rest) =
      (decide (n < 0), Decimal.encode n.natAbs ++ rest) := by
  by_cases hneg : n < 0
  · simp [Decimal.encodeInt, hneg, splitMinus]
  · obtain ⟨b, t, hbt, hb⟩ := Decimal.exists_head_encode n.natAbs
    simp only [Decimal.encodeInt, hneg, if_false, hbt, List.cons_append, decide_false]
    unfold splitMinus
    split
    · next heq => exact absurd (List.cons.inj heq).1 (isDigit_facts hb).2.1
    · rfl

/-- `std::from_chars` takes exactly a printed integer off the front of what follows it. -/
theorem fromChars_encodeInt_append {n : ℤ} (h : -2 ^ 63 ≤ n ∧ n < 2 ^ 63) (rest : Bytes)
    (hrest : ∀ b ∈ rest.head?, Decimal.isDigit b = false) :
    fromChars (Decimal.encodeInt n ++ rest) =
      .ok (Int64.ofInt n, (Decimal.encodeInt n).length) := by
  have hdigits := Decimal.takeWhile_encode_append n.natAbs rest hrest
  have hsplit := splitMinus_encodeInt_append n rest
  simp only [fromChars, hsplit, hdigits, Decimal.encode_ne_nil, if_false, signed_encode, h,
    and_self, if_true]
  by_cases hneg : n < 0 <;> simp [Decimal.encodeInt, hneg]

end Numbers

end MyRedis.Model

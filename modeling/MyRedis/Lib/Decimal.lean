import Mathlib.Data.List.TakeWhile

/-!
# Decimal numerals over bytes

Numbers printed and read back as strings of ASCII digits.  `encode n` is the shortest
decimal numeral of `n`, most significant digit first; `value ds` is what a string of
digits stands for.  `value_encode` says the second undoes the first, and
`takeWhile_encode_append` that a reader which stops at the first byte that is no digit
takes exactly the numeral off the front of whatever follows it.

`encodeInt` adds the sign; `signed` is the number a sign and a magnitude stand for.
-/

set_option autoImplicit false

namespace MyRedis.Lib.Decimal

/-- The ASCII digits `'0'` to `'9'`. -/
def isDigit (b : UInt8) : Bool := 48 ≤ b && b ≤ 57

/-- What a string of digits stands for, read from the left. -/
def value (ds : List UInt8) : ℕ := ds.foldl (fun n d => 10 * n + (d.toNat - 48)) 0

/-- The decimal numeral of a natural number. -/
def encode (n : ℕ) : List UInt8 := (Nat.toDigits 10 n).map fun c => UInt8.ofNat c.toNat

/-- The number a sign and a string of digits stand for. -/
def signed (negative : Bool) (ds : List UInt8) : ℤ :=
  if negative then -(value ds : ℤ) else value ds

/-- The decimal numeral of an integer: a minus sign only where it is negative. -/
def encodeInt (n : ℤ) : List UInt8 :=
  if n < 0 then 45 :: encode n.natAbs else encode n.natAbs

/-- A numeral below ten is one digit. -/
theorem encode_of_lt {n : ℕ} (h : n < 10) : encode n = [UInt8.ofNat (48 + n)] := by
  have hchar : ∀ d < 10, UInt8.ofNat (Nat.digitChar d).toNat = UInt8.ofNat (48 + d) := by decide
  rw [encode, Nat.toDigits_of_lt_base h, List.map_singleton, hchar n h]

/-- A numeral from ten on is the numeral of its tenth followed by its last digit. -/
theorem encode_of_le {n : ℕ} (h : 10 ≤ n) :
    encode n = encode (n / 10) ++ [UInt8.ofNat (48 + n % 10)] := by
  have hlast : [UInt8.ofNat (48 + n % 10)] = encode (n % 10) :=
    (encode_of_lt (Nat.mod_lt n (by decide))).symm
  rw [hlast, encode, encode, encode, Nat.toDigits_of_base_le (by decide) h,
    Nat.toDigits_of_lt_base (Nat.mod_lt n (by decide))]
  simp

/-- Appending one digit multiplies the value by ten and adds the digit. -/
theorem value_append_digit (ds : List UInt8) (d : UInt8) :
    value (ds ++ [d]) = 10 * value ds + (d.toNat - 48) := by
  simp [value, List.foldl_append]

/-- The byte of a digit below ten, read as a number. -/
theorem toNat_digit {d : ℕ} (h : d < 10) : (UInt8.ofNat (48 + d)).toNat = 48 + d := by
  rw [UInt8.toNat_ofNat']
  omega

/-- **Reading a numeral gives back the number it was printed from.** -/
theorem value_encode (n : ℕ) : value (encode n) = n := by
  induction n using Nat.strongRecOn with
  | ind n ih =>
    by_cases h : n < 10
    · rw [encode_of_lt h]
      simp only [value, List.foldl_cons, List.foldl_nil, toNat_digit h]
      omega
    · have hmod : n % 10 < 10 := Nat.mod_lt n (by decide)
      rw [encode_of_le (by omega), value_append_digit, ih (n / 10) (by omega), toNat_digit hmod]
      omega

/-- Every byte of a numeral is a digit. -/
theorem isDigit_of_mem_encode {n : ℕ} {b : UInt8} (hb : b ∈ encode n) : isDigit b = true := by
  induction n using Nat.strongRecOn with
  | ind n ih =>
    have hdigit : ∀ d < 10, isDigit (UInt8.ofNat (48 + d)) = true := by decide
    by_cases h : n < 10
    · rw [encode_of_lt h, List.mem_singleton] at hb
      exact hb ▸ hdigit n h
    · rw [encode_of_le (by omega), List.mem_append, List.mem_singleton] at hb
      rcases hb with hb | hb
      · exact ih (n / 10) (by omega) hb
      · exact hb ▸ hdigit (n % 10) (Nat.mod_lt n (by decide))

/-- A numeral has at least one digit. -/
theorem encode_ne_nil (n : ℕ) : encode n ≠ [] := by
  simp [encode, Nat.toDigits_ne_nil]

/-- A reader that takes digits as long as there are any takes exactly the numeral, if
what follows does not go on with a digit. -/
theorem takeWhile_encode_append (n : ℕ) (rest : List UInt8)
    (hrest : ∀ b ∈ rest.head?, isDigit b = false) :
    (encode n ++ rest).takeWhile isDigit = encode n := by
  rw [List.takeWhile_append_of_pos fun b hb => isDigit_of_mem_encode hb]
  cases rest with
  | nil => simp
  | cons b rest =>
    have hb : isDigit b = false := hrest b rfl
    simp [hb]

/-- The first byte of a numeral is a digit, so it is neither a sign nor white space. -/
theorem exists_head_encode (n : ℕ) : ∃ b t, encode n = b :: t ∧ isDigit b = true := by
  cases h : encode n with
  | nil => exact absurd h (encode_ne_nil n)
  | cons b t => exact ⟨b, t, rfl, isDigit_of_mem_encode (n := n) (by simp [h])⟩

/-- The numeral of a positive number does not start with a zero. -/
theorem exists_head_encode_pos {n : ℕ} (h : 0 < n) :
    ∃ b t, encode n = b :: t ∧ 49 ≤ b ∧ b ≤ 57 := by
  induction n using Nat.strongRecOn with
  | ind n ih =>
    by_cases hlt : n < 10
    · refine ⟨UInt8.ofNat (48 + n), [], encode_of_lt hlt, ?_, ?_⟩
      · rw [UInt8.le_iff_toNat_le, toNat_digit hlt]
        exact Nat.add_le_add_left h 48
      · rw [UInt8.le_iff_toNat_le, toNat_digit hlt]
        exact Nat.add_le_add_left (Nat.le_of_lt_succ hlt) 48
    · have hle : 10 ≤ n := Nat.le_of_not_lt hlt
      obtain ⟨b, t, hbt, hrange⟩ := ih (n / 10) (by omega) (by omega)
      exact ⟨b, t ++ [UInt8.ofNat (48 + n % 10)], by rw [encode_of_le hle, hbt]; rfl, hrange⟩

end MyRedis.Lib.Decimal

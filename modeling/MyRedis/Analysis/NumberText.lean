import MyRedis.Model.Prelude

/-!
# The texts `std::stoll` reads

`std::stoll` skips white space, takes a sign and digits, and ignores what follows them.  A
`Numeral` is a text cut up in this way.  `Numeral.stoll_text` gives the outcome, and
`exists_numeral` says that nothing else is read as a number.
-/

set_option autoImplicit false

namespace MyRedis.Analysis

open MyRedis.Model MyRedis.Lib

/-- What can stand in front of the digits. -/
def signs : List Bytes := [[], [43], [45]]

/-- A text with a number at its front. -/
structure Numeral where
  spaces : Bytes
  sign : Bytes
  digits : Bytes
  rest : Bytes
  isSpace_of_mem : ∀ b ∈ spaces, isSpace b = true
  sign_mem : sign ∈ signs
  digits_ne_nil : digits ≠ []
  isDigit_of_mem : ∀ b ∈ digits, Decimal.isDigit b = true
  rest_head : ∀ b ∈ rest.head?, Decimal.isDigit b = false

namespace Numeral

/-- The text. -/
def text (m : Numeral) : Bytes := m.spaces ++ (m.sign ++ (m.digits ++ m.rest))

/-- The number at its front. -/
def number (m : Numeral) : ℤ := Decimal.signed (decide (m.sign = [45])) m.digits

/-- The digits of a numeral end where its rest begins. -/
theorem takeWhile_digits (m : Numeral) :
    (m.digits ++ m.rest).takeWhile Decimal.isDigit = m.digits := by
  rw [List.takeWhile_append_of_pos m.isDigit_of_mem]
  cases hrest : m.rest with
  | nil => simp
  | cons b rest =>
    have hb : Decimal.isDigit b = false := m.rest_head b (by rw [hrest]; rfl)
    simp [hb]

/-- Neither white space nor a sign is left in front of the digits.
SOURCE: resp_value.cc:63, 76, 109 -/
theorem splitSign_text (m : Numeral) :
    splitSign (m.text.dropWhile isSpace) = (decide (m.sign = [45]), m.digits ++ m.rest) := by
  rw [text, List.dropWhile_append_of_pos m.isSpace_of_mem]
  have hsign := m.sign_mem
  simp only [signs, List.mem_cons, List.not_mem_nil, or_false] at hsign
  rcases hsign with h | h | h
  · rw [h]
    obtain ⟨b, digits, hdigits⟩ := List.exists_cons_of_ne_nil m.digits_ne_nil
    have hb : Decimal.isDigit b = true := m.isDigit_of_mem b (by simp [hdigits])
    obtain ⟨hspace, h45, h43⟩ := isDigit_facts hb
    have hdrop : (b :: (digits ++ m.rest)).dropWhile isSpace = b :: (digits ++ m.rest) :=
      List.dropWhile_cons_of_neg (by simp [hspace])
    rw [hdigits, List.nil_append, List.cons_append, hdrop]
    unfold splitSign
    split
    · next heq => exact absurd (List.cons.inj heq).1 h45
    · next heq => exact absurd (List.cons.inj heq).1 h43
    · rfl
  · rw [h]
    rfl
  · rw [h]
    rfl

/-- **What `std::stoll` makes of a numeral.**
SOURCE: resp_value.cc:63, 76, 109 -/
theorem stoll_text (m : Numeral) :
    stoll m.text =
      if -2 ^ 63 ≤ m.number ∧ m.number < 2 ^ 63 then .ok (Int64.ofInt m.number)
      else .error (.outOfRange "stoll") := by
  simp only [stoll, m.splitSign_text, m.takeWhile_digits, if_neg m.digits_ne_nil, number]
  rfl

/-- `std::stoll` reads a numeral as the number it denotes.
SOURCE: resp_value.cc:63, 76, 109 -/
theorem stoll_text_eq_ok {m : Numeral} {n : Int64} :
    stoll m.text = .ok n ↔ n.toInt = m.number := by
  rw [stoll_text]
  constructor
  · intro h
    split_ifs at h with hrange
    cases h
    exact Int64.toInt_ofInt_of_le hrange.1 hrange.2
  · intro h
    rw [← h, if_pos (int64_range n), Int64.ofInt_toInt]

end Numeral

/-- The sign in front of a string, split off.
SOURCE: resp_value.cc:63, 76, 109 -/
theorem splitSign_eq (s : Bytes) :
    ∃ sign ∈ signs, s = sign ++ (splitSign s).2 ∧ (splitSign s).1 = decide (sign = [45]) := by
  unfold splitSign
  split
  · exact ⟨[45], by decide, rfl, rfl⟩
  · exact ⟨[43], by decide, rfl, rfl⟩
  · exact ⟨[], by decide, rfl, rfl⟩

/-- **Only numerals are read as numbers.**
SOURCE: resp_value.cc:63, 76, 109 -/
theorem exists_numeral {text : Bytes} {n : Int64} (h : stoll text = .ok n) :
    ∃ m : Numeral, m.text = text ∧ n.toInt = m.number := by
  obtain ⟨sign, hmem, hbody, hneg⟩ := splitSign_eq (text.dropWhile isSpace)
  have hdigits : (splitSign (text.dropWhile isSpace)).2.takeWhile Decimal.isDigit ≠ [] := by
    intro hnil
    simp only [stoll, hnil, if_true] at h
    cases h
  have hhead : ∀ b ∈ ((splitSign (text.dropWhile isSpace)).2.dropWhile Decimal.isDigit).head?,
      Decimal.isDigit b = false := by
    intro b hb
    have hnot := List.head?_dropWhile_not Decimal.isDigit
      (splitSign (text.dropWhile isSpace)).2
    rw [Option.mem_def.mp hb] at hnot
    exact hnot
  let m : Numeral :=
    { spaces := text.takeWhile isSpace
      sign := sign
      digits := (splitSign (text.dropWhile isSpace)).2.takeWhile Decimal.isDigit
      rest := (splitSign (text.dropWhile isSpace)).2.dropWhile Decimal.isDigit
      isSpace_of_mem := fun b hb => List.mem_takeWhile_imp hb
      sign_mem := hmem
      digits_ne_nil := hdigits
      isDigit_of_mem := fun b hb => List.mem_takeWhile_imp hb
      rest_head := hhead }
  have htext : m.text = text := by
    simp only [Numeral.text, m]
    rw [List.takeWhile_append_dropWhile, ← hbody, List.takeWhile_append_dropWhile]
  refine ⟨m, htext, ?_⟩
  rw [← htext] at h
  exact Numeral.stoll_text_eq_ok.mp h

end MyRedis.Analysis

import MyRedis.Lib.TextAt
import MyRedis.Model.Serialise

/-!
# The format of snapshots

What `DeserialiseFromJson` accepts, said without the reader: an object whose members are a key and
an entry, an entry being an object of the two fields `value` and `expiry`, with white space
between any two tokens.  A `Document` is such a text with its members.

Each reader succeeds exactly where a text of its format stands at its position, and moves behind
it (`parseJsonString_iff` to `parseMembers_iff`).  The formats are such that no text is a proper
beginning of another one, integers apart: these end where the digits do.
-/

set_option autoImplicit false

namespace MyRedis.Analysis

open MyRedis.Model MyRedis.Model.Store MyRedis.Lib

/-! ## The format -/

/-- White space. -/
def Spaces (s : Bytes) : Prop := ∀ b ∈ s, isJsonSpace b = true

/-- The letters behind a backslash, and the characters they stand for: quote, backslash, slash,
backspace, form feed, line feed, carriage return and tab. -/
def escapeLetters : List (UInt8 × UInt8) :=
  [(34, 34), (92, 92), (47, 47), (98, 8), (102, 12), (110, 10), (114, 13), (116, 9)]

/-- An escape: the letter, the digits behind it and the byte it stands for. -/
inductive Escape : UInt8 → Bytes → UInt8 → Prop where
  | letter {letter byte : UInt8} (h : (letter, byte) ∈ escapeLetters) : Escape letter [] byte
  | code {a b : UInt8} {m n : ℕ} (ha : hexValue a = some m) (hb : hexValue b = some n) :
    Escape 117 [48, 48, a, b] (UInt8.ofNat (16 * m + n))

/-- The text between the quotes of a string literal, and the string. -/
inductive Characters : Bytes → Bytes → Prop where
  | nil : Characters [] []
  | plain {c : UInt8} {text s : Bytes} (hquote : c ≠ 34) (hbackslash : c ≠ 92)
    (h : Characters text s) : Characters (c :: text) (c :: s)
  | escape {letter byte : UInt8} {digits text s : Bytes} (hescape : Escape letter digits byte)
    (h : Characters text s) : Characters (92 :: letter :: (digits ++ text)) (byte :: s)

/-- A string literal. -/
def Literal (text s : Bytes) : Prop := ∃ body, text = 34 :: (body ++ [34]) ∧ Characters body s

/-- An integer: a minus sign or none, and digits. -/
def IntegerText (text : Bytes) (n : Int64) : Prop :=
  ∃ negative digits, text = (if negative then [45] else []) ++ digits ∧ digits ≠ [] ∧
    (∀ b ∈ digits, Decimal.isDigit b = true) ∧ Decimal.signed negative digits = n.toInt

/-- A value: a string or `null`. -/
inductive ValueFormat : Bytes → Option Bytes → Prop where
  | null : ValueFormat (ascii "null") none
  | string {text s : Bytes} (h : Literal text s) : ValueFormat text (some s)

/-- A name and the colon behind it. -/
def NameFormat (text name : Bytes) : Prop :=
  ∃ s₁ literal s₂, Spaces s₁ ∧ Literal literal name ∧ Spaces s₂ ∧
    text = (s₁ ++ literal) ++ (s₂ ++ [58])

/-- An entry. -/
inductive EntryFormat : Bytes → Entry → Prop where
  | intro {name₁ s₁ value s₂ name₂ s₃ expiry s₄ : Bytes} {v : Option Bytes} {n : Int64}
    (hname₁ : NameFormat name₁ (ascii "value")) (hs₁ : Spaces s₁) (hvalue : ValueFormat value v)
    (hs₂ : Spaces s₂) (hname₂ : NameFormat name₂ (ascii "expiry")) (hs₃ : Spaces s₃)
    (hexpiry : IntegerText expiry n) (hs₄ : Spaces s₄) :
    EntryFormat ([123] ++ (name₁ ++ ((s₁ ++ value) ++ ((s₂ ++ [44]) ++ (name₂ ++
      ((s₃ ++ expiry) ++ (s₄ ++ [125]))))))) ⟨n, v⟩

/-- A key and its entry. -/
inductive MemberFormat : Bytes → Bytes × Entry → Prop where
  | intro {name s text key : Bytes} {entry : Entry} (hname : NameFormat name key)
    (hs : Spaces s) (hentry : EntryFormat text entry) :
    MemberFormat (name ++ (s ++ text)) (key, entry)

/-- One or more members, and the closing brace. -/
inductive MembersFormat : Bytes → List (Bytes × Entry) → Prop where
  | last {text s : Bytes} {m : Bytes × Entry} (hmember : MemberFormat text m) (hs : Spaces s) :
    MembersFormat (text ++ (s ++ [125])) [m]
  | cons {text s rest : Bytes} {m : Bytes × Entry} {ms : List (Bytes × Entry)}
    (hmember : MemberFormat text m) (hs : Spaces s) (h : MembersFormat rest ms) :
    MembersFormat (text ++ ((s ++ [44]) ++ rest)) (m :: ms)

/-- **A snapshot**, with its members. -/
inductive Document : Bytes → List (Bytes × Entry) → Prop where
  | empty {s₁ s₂ s₃ : Bytes} (hs₁ : Spaces s₁) (hs₂ : Spaces s₂) (hs₃ : Spaces s₃) :
    Document ((s₁ ++ [123]) ++ ((s₂ ++ [125]) ++ s₃)) []
  | members {s₁ text s₂ : Bytes} {ms : List (Bytes × Entry)} (hs₁ : Spaces s₁)
    (hmembers : MembersFormat text ms) (hs₂ : Spaces s₂) :
    Document ((s₁ ++ [123]) ++ (text ++ s₂)) ms

/-- The members inserted one after another. -/
def insertMembers (s : Store) (ms : List (Bytes × Entry)) : Store :=
  ms.foldl (fun s m => s.insert m.1 m.2) s

/-! ## Tokens -/

section Tokens

variable {data : Bytes} {pos next : ℕ} {c : UInt8} {what : String}

/-- A character that is asked for stands at the position.
SOURCE: store.cc:120-217, serialise.cc:62-146 -/
theorem expect_iff : expect data c what pos = .ok next ↔ TextAt data pos [c] next := by
  rw [expect_eq_ok, textAt_singleton]

/-- What holds behind white space, if a token stands there or the end is.
SOURCE: serialise.cc:62-67 -/
theorem skipWhitespace_iff {P : ℕ → Prop}
    (hP : ∀ mid, P mid → ∀ b, data[mid]? = some b → isJsonSpace b = false) :
    P (skipWhitespace data pos) ↔ ∃ s mid, Spaces s ∧ TextAt data pos s mid ∧ P mid :=
  skip_iff hP

/-- `SkipWhitespace` stays where there is none.
SOURCE: serialise.cc:62-67 -/
theorem skipWhitespace_stop (h : ∀ c, data[pos]? = some c → isJsonSpace c = false) :
    skipWhitespace data pos = pos := by
  have hnone : (data.drop pos).takeWhile isJsonSpace = [] :=
    takeWhile_eq_of_textAt (fun b hb => absurd hb List.not_mem_nil) (textAt_nil.mpr rfl) h
  rw [skipWhitespace, hnone]
  rfl

/-- The texts begin with a character that is not skipped. -/
def Solid (F : Bytes → Prop) : Prop :=
  ∀ text, F text → ∃ c rest, text = c :: rest ∧ isJsonSpace c = false

/-- A reader behind white space.
SOURCE: serialise.cc:62-67 -/
theorem spaced_iff {R : ℕ → Prop} {F : Bytes → Prop} (hF : Solid F)
    (hR : ∀ mid, R mid ↔ ∃ text, F text ∧ TextAt data mid text next) :
    R (skipWhitespace data pos) ↔
      ∃ s text, Spaces s ∧ F text ∧ TextAt data pos (s ++ text) next := by
  rw [skipWhitespace_iff (P := R)]
  · simp only [hR, textAt_append]
    constructor
    · rintro ⟨s, mid, hs, hmid, text, htext, hnext⟩
      exact ⟨s, text, hs, htext, mid, hmid, hnext⟩
    · rintro ⟨s, text, hs, htext, mid, hmid, hnext⟩
      exact ⟨s, mid, hs, hmid, text, htext, hnext⟩
  · intro mid hmid b hb
    obtain ⟨text, htext, hnext⟩ := (hR mid).mp hmid
    obtain ⟨c, rest, rfl, hc⟩ := hF text htext
    cases hb.symm.trans (textAt_cons.mp hnext).1
    exact hc

/-- A character behind white space.
SOURCE: serialise.cc:62-67 -/
theorem spacedChar_iff (hc : isJsonSpace c = false) :
    data[skipWhitespace data pos]? = some c ∧ next = skipWhitespace data pos + 1 ↔
      ∃ s, Spaces s ∧ TextAt data pos (s ++ [c]) next := by
  have hsolid : Solid (· = [c]) := fun text htext => ⟨c, [], htext, hc⟩
  have hread : ∀ mid, data[mid]? = some c ∧ next = mid + 1 ↔
      ∃ text, text = [c] ∧ TextAt data mid text next := fun mid => by
    rw [exists_eq_left, textAt_singleton]
  rw [spaced_iff (R := fun mid => data[mid]? = some c ∧ next = mid + 1) hsolid hread]
  simp only [exists_and_left, exists_eq_left]

/-- A character that is asked for behind white space.
SOURCE: serialise.cc:62-67 -/
theorem spacedExpect_iff (hc : isJsonSpace c = false) :
    expect data c what (skipWhitespace data pos) = .ok next ↔
      ∃ s, Spaces s ∧ TextAt data pos (s ++ [c]) next := by
  rw [expect_eq_ok, spacedChar_iff hc]

end Tokens

/-! ## Strings -/

section Strings

variable {data : Bytes} {pos next : ℕ}

/-- A hex digit stands for less than 16.
SOURCE: serialise.cc:75-80 -/
theorem hexValue_lt {chr : UInt8} {n : ℕ} (h : hexValue chr = some n) : n < 16 := by
  unfold hexValue at h
  split_ifs at h with h₁ h₂ h₃
  · cases h
    have := UInt8.le_iff_toNat_le.mp h₁.2
    simp at this
    omega
  · cases h
    have := UInt8.le_iff_toNat_le.mp h₂.2
    simp at this
    omega
  · cases h
    have := UInt8.le_iff_toNat_le.mp h₃.2
    simp at this
    omega

/-- Only `0` stands for zero.
SOURCE: serialise.cc:75-80 -/
theorem eq_zero_digit {chr : UInt8} (h : hexValue chr = some 0) : chr = 48 := by
  unfold hexValue at h
  split_ifs at h with h₁ h₂ h₃
  · have hlo := UInt8.le_iff_toNat_le.mp h₁.1
    apply UInt8.toNat_inj.mp
    simp at h hlo ⊢
    omega
  · simp at h
  · simp at h

/-- The loop over the digits of an escape, one round.
SOURCE: serialise.cc:114-118 -/
theorem hexCode_cons {code result : ℕ} {chr : UInt8} {rest : Bytes} :
    hexCode code (chr :: rest) = .ok result ↔
      ∃ n, hexValue chr = some n ∧ hexCode (16 * code + n) rest = .ok result := by
  rw [hexCode]
  cases hn : hexValue chr with
  | none => simp
  | some n =>
    have hshift : code <<< 4 ||| n = 16 * code + n := by
      rw [Nat.shiftLeft_eq, Nat.mul_comm code]
      exact (Nat.two_pow_add_eq_or_of_lt (hexValue_lt hn) code).symm
    simp [hshift]

/-- The loop at its end.
SOURCE: serialise.cc:114-118 -/
theorem hexCode_nil {code result : ℕ} : hexCode code [] = .ok result ↔ result = code := by
  rw [hexCode, Except.ok.injEq, eq_comm]

/-- The digits of an escape that stands for a byte.
SOURCE: serialise.cc:114-125 -/
theorem hexCode_byte_iff {digits : Bytes} {code : ℕ} (hlength : digits.length = 4) :
    hexCode 0 digits = .ok code ∧ code ≤ 0xff ↔
      ∃ a b m n, digits = [48, 48, a, b] ∧ hexValue a = some m ∧ hexValue b = some n ∧
        code = 16 * m + n := by
  obtain ⟨d₁, d₂, d₃, d₄, rfl⟩ : ∃ d₁ d₂ d₃ d₄, digits = [d₁, d₂, d₃, d₄] := by
    rcases digits with _ | ⟨d₁, _ | ⟨d₂, _ | ⟨d₃, _ | ⟨d₄, _ | ⟨d₅, digits⟩⟩⟩⟩⟩ <;>
      simp at hlength
    exact ⟨d₁, d₂, d₃, d₄, rfl⟩
  simp only [hexCode_cons, hexCode_nil]
  constructor
  · rintro ⟨⟨n₁, h₁, n₂, h₂, n₃, h₃, n₄, h₄, rfl⟩, hbyte⟩
    have hfirst : n₁ = 0 := by omega
    have hsecond : n₂ = 0 := by omega
    subst hfirst hsecond
    rw [eq_zero_digit h₁, eq_zero_digit h₂]
    exact ⟨d₃, d₄, n₃, n₄, rfl, h₃, h₄, by omega⟩
  · rintro ⟨a, b, m, n, heq, ha, hb, rfl⟩
    cases heq
    have hm := hexValue_lt ha
    have hn := hexValue_lt hb
    exact ⟨⟨0, rfl, 0, rfl, m, ha, n, hb, by omega⟩, by omega⟩

/-- An escape with a letter.
SOURCE: serialise.cc:101-108 -/
theorem parseEscape_letter {letter byte : UInt8} (h : (letter, byte) ∈ escapeLetters) :
    parseEscape data letter pos = .ok (byte, 0) := by
  simp only [escapeLetters, List.mem_cons, Prod.mk.injEq, List.not_mem_nil, or_false] at h
  rcases h with ⟨rfl, rfl⟩ | ⟨rfl, rfl⟩ | ⟨rfl, rfl⟩ | ⟨rfl, rfl⟩ | ⟨rfl, rfl⟩ | ⟨rfl, rfl⟩ |
    ⟨rfl, rfl⟩ | ⟨rfl, rfl⟩ <;> rfl

/-- A `\u` escape.
SOURCE: serialise.cc:109-128 -/
theorem parseEscape_code :
    parseEscape data 117 pos =
      if pos + 4 > data.length then .error (.invalidArgument "truncated \\u escape")
      else hexCode 0 (substr data pos 4) >>= fun code =>
        if code > 0xff then .error (.invalidArgument "unsupported \\u escape")
        else .ok (UInt8.ofNat code, 4) :=
  rfl

/-- Any other escape is refused.
SOURCE: serialise.cc:129-130 -/
theorem parseEscape_other {letter : UInt8} (hcode : letter ≠ 117)
    (h : letter ∉ escapeLetters.map Prod.fst) :
    parseEscape data letter pos = .error (.invalidArgument "invalid escape") := by
  simp only [escapeLetters, List.map_cons, List.map_nil, List.mem_cons, List.not_mem_nil, or_false,
    not_or] at h
  obtain ⟨h₁, h₂, h₃, h₄, h₅, h₆, h₇, h₈⟩ := h
  rw [parseEscape, if_neg h₁, if_neg h₂, if_neg h₃, if_neg h₄, if_neg h₅, if_neg h₆, if_neg h₇,
    if_neg h₈, if_neg hcode]

/-- An escape that is accepted is one of the format.
SOURCE: serialise.cc:98-131 -/
theorem parseEscape_sound {letter byte : UInt8} {taken : ℕ}
    (h : parseEscape data letter pos = .ok (byte, taken)) :
    ∃ digits, Escape letter digits byte ∧ taken = digits.length ∧ digits <+: data.drop pos := by
  by_cases hletter : letter ∈ escapeLetters.map Prod.fst
  · obtain ⟨⟨letter, c⟩, hmem, rfl⟩ := List.mem_map.mp hletter
    rw [parseEscape_letter hmem] at h
    cases h
    exact ⟨[], .letter hmem, rfl, List.nil_prefix⟩
  by_cases hcode : letter = 117
  · rw [hcode, parseEscape_code] at h
    split_ifs at h with hroom
    obtain ⟨code, hdigits, h⟩ := bind_eq_ok.mp h
    split_ifs at h with hbyte
    cases h
    have hlength : (substr data pos 4).length = 4 := by
      rw [substr, List.length_take, List.length_drop]
      omega
    obtain ⟨a, b, m, n, heq, ha, hb, rfl⟩ :=
      (hexCode_byte_iff hlength).mp ⟨hdigits, Nat.le_of_not_lt hbyte⟩
    rw [hcode]
    refine ⟨[48, 48, a, b], .code ha hb, rfl, ?_⟩
    rw [← heq]
    exact List.take_prefix _ _
  · rw [parseEscape_other hcode hletter] at h
    cases h

/-- An escape of the format is accepted.
SOURCE: serialise.cc:98-131 -/
theorem parseEscape_complete {letter byte : UInt8} {digits : Bytes}
    (hescape : Escape letter digits byte) (hfront : digits <+: data.drop pos) :
    parseEscape data letter pos = .ok (byte, digits.length) := by
  cases hescape with
  | letter hmem => exact parseEscape_letter hmem
  | @code a b m n ha hb =>
    have hlength := hfront.length_le
    rw [List.length_drop] at hlength
    have hdigits : substr data pos 4 = [48, 48, a, b] := (List.prefix_iff_eq_take.mp hfront).symm
    have hfour : [48, 48, a, b].length = 4 := rfl
    obtain ⟨hcode, hbyte⟩ := (hexCode_byte_iff hfour).mpr ⟨a, b, m, n, rfl, ha, hb, rfl⟩
    have hroom : ¬ pos + 4 > data.length := by
      simp only [List.length_cons, List.length_nil] at hlength
      omega
    rw [parseEscape_code, if_neg hroom, hdigits]
    apply bind_eq_ok.mpr
    refine ⟨_, hcode, ?_⟩
    rw [if_neg (Nat.not_lt_of_le hbyte)]
    rfl

/-- What the loop reads are characters of the format, up to the quote.
SOURCE: serialise.cc:91-132 -/
theorem parseStringLoop_sound {out v : Bytes} (h : parseStringLoop data pos out = .ok (v, next)) :
    ∃ body s, Characters body s ∧ v = out ++ s ∧ TextAt data pos (body ++ [34]) next := by
  fun_induction parseStringLoop data pos out with
  | case1 pos out hpos character hquote =>
    cases h
    refine ⟨[], [], .nil, (List.append_nil _).symm, ?_⟩
    rw [List.nil_append, textAt_singleton, List.getElem?_eq_getElem hpos]
    exact ⟨congrArg some hquote, rfl⟩
  | case2 pos out hpos character hquote hplain ih =>
    obtain ⟨body, s, hbody, rfl, htext⟩ := ih h
    refine ⟨character :: body, character :: s, .plain hquote hplain hbody, by simp, ?_⟩
    rw [List.cons_append, textAt_cons]
    exact ⟨List.getElem?_eq_getElem hpos, htext⟩
  | case3 pos out hpos character hquote hplain hnone => cases h
  | case4 pos out hpos character hquote hplain escape hsome e he => cases h
  | case5 pos out hpos character hquote hplain escape hsome byte taken he ih =>
    obtain ⟨body, s, hbody, rfl, htext⟩ := ih h
    obtain ⟨digits, hescape, rfl, hfront⟩ := parseEscape_sound he
    refine ⟨92 :: escape :: (digits ++ body), byte :: s, .escape hescape hbody, by simp, ?_⟩
    rw [List.cons_append, List.cons_append, textAt_cons, textAt_cons, List.append_assoc,
      textAt_append]
    refine ⟨?_, hsome, _, ⟨rfl, hfront⟩, htext⟩
    rw [List.getElem?_eq_getElem hpos]
    exact congrArg some (not_not.mp hplain)
  | case6 pos out hpos => cases h

/-- Characters of the format are read by the loop.
SOURCE: serialise.cc:91-132 -/
theorem parseStringLoop_complete {body s : Bytes} (hbody : Characters body s) (out : Bytes)
    (h : TextAt data pos (body ++ [34]) next) :
    parseStringLoop data pos out = .ok (out ++ s, next) := by
  induction hbody generalizing pos out with
  | nil =>
    rw [List.nil_append, textAt_singleton] at h
    obtain ⟨hget, rfl⟩ := h
    obtain ⟨hpos, hget⟩ := List.getElem?_eq_some_iff.mp hget
    rw [parseStringLoop, dif_pos hpos]
    simp [hget]
  | @plain c text s hquote hbackslash _ ih =>
    rw [List.cons_append, textAt_cons] at h
    obtain ⟨hpos, hget⟩ := List.getElem?_eq_some_iff.mp h.1
    rw [parseStringLoop, dif_pos hpos]
    simp only [hget, if_neg hquote, ne_eq, hbackslash, not_false_eq_true, if_true]
    rw [ih (out ++ [c]) h.2, List.append_assoc]
    rfl
  | @escape letter byte digits text s hescape _ ih =>
    rw [List.cons_append, List.cons_append, textAt_cons, textAt_cons, List.append_assoc,
      textAt_append] at h
    obtain ⟨hbackslash, hletter, mid, hdigits, htext⟩ := h
    obtain ⟨hpos, hget⟩ := List.getElem?_eq_some_iff.mp hbackslash
    have hread := parseEscape_complete hescape hdigits.2
    rw [parseStringLoop, dif_pos hpos]
    simp only [hget, hletter, hread]
    rw [← hdigits.1, ih (out ++ [byte]) htext, List.append_assoc]
    rfl

/-- **String literals.**
SOURCE: serialise.cc:84-134 -/
theorem parseJsonString_iff {s : Bytes} :
    parseJsonString data pos = .ok (s, next) ↔
      ∃ text, Literal text s ∧ TextAt data pos text next := by
  rw [parseJsonString, bind_eq_ok]
  constructor
  · rintro ⟨p, hopen, hloop⟩
    obtain ⟨hquote, rfl⟩ := expect_eq_ok.mp hopen
    obtain ⟨body, s, hbody, rfl, htext⟩ := parseStringLoop_sound hloop
    exact ⟨34 :: (body ++ [34]), ⟨body, rfl, hbody⟩, textAt_cons.mpr ⟨hquote, htext⟩⟩
  · rintro ⟨text, ⟨body, rfl, hbody⟩, htext⟩
    rw [textAt_cons] at htext
    exact ⟨pos + 1, expect_eq_ok.mpr ⟨htext.1, rfl⟩, parseStringLoop_complete hbody [] htext.2⟩

/-- A literal starts with a quote.
SOURCE: serialise.cc:85-87 -/
theorem literal_solid (s : Bytes) : Solid (Literal · s) := by
  rintro text ⟨body, rfl, -⟩
  exact ⟨34, body ++ [34], rfl, by decide⟩

/-- A string literal behind white space.
SOURCE: serialise.cc:84-134 -/
theorem spacedString_iff {s : Bytes} :
    parseJsonString data (skipWhitespace data pos) = .ok (s, next) ↔
      ∃ s₁ literal, Spaces s₁ ∧ Literal literal s ∧ TextAt data pos (s₁ ++ literal) next :=
  spaced_iff (R := fun mid => parseJsonString data mid = .ok (s, next)) (literal_solid s)
    fun _ => parseJsonString_iff

end Strings

/-! ## Integers -/

section Integers

variable {data : Bytes} {pos mid next : ℕ}

/-- The sign of an integer.
SOURCE: serialise.cc:140 -/
theorem splitMinus_textAt (data : Bytes) (pos : ℕ) :
    ∃ negative mid, splitMinus (data.drop pos) = (negative, data.drop mid) ∧
      TextAt data pos (if negative then [45] else []) mid := by
  unfold splitMinus
  split
  · next rest hdrop =>
    refine ⟨true, pos + 1, ?_, textAt_singleton.mpr ⟨getElem?_of_drop hdrop, rfl⟩⟩
    rw [drop_succ hdrop]
  · exact ⟨false, pos, rfl, textAt_nil.mpr rfl⟩

/-- What is left from a position begins with the byte there. -/
theorem drop_of_getElem? {b : UInt8} (h : data[pos]? = some b) :
    data.drop pos = b :: data.drop (pos + 1) := by
  obtain ⟨hpos, rfl⟩ := List.getElem?_eq_some_iff.mp h
  exact List.drop_eq_getElem_cons hpos

/-- A sign in front of digits is split off.
SOURCE: serialise.cc:140 -/
theorem splitMinus_eq {negative : Bool} {b : UInt8}
    (h : TextAt data pos (if negative then [45] else []) mid) (hget : data[mid]? = some b)
    (hb : Decimal.isDigit b = true) : splitMinus (data.drop pos) = (negative, data.drop mid) := by
  cases negative with
  | false =>
    cases textAt_nil.mp h
    rw [drop_of_getElem? hget, splitMinus]
    intro rest heq
    exact absurd (List.cons.inj heq).1 (isDigit_facts hb).2.1
  | true =>
    obtain ⟨hminus, rfl⟩ := textAt_singleton.mp h
    rw [drop_of_getElem? hminus, splitMinus]

/-- `ParseJsonInteger` behind the sign.
SOURCE: serialise.cc:136-146 -/
theorem parseJsonInteger_eq {negative : Bool} {digits : Bytes}
    (hsplit : splitMinus (data.drop pos) = (negative, data.drop mid))
    (hsign : TextAt data pos (if negative then [45] else []) mid)
    (hdigits : (data.drop mid).takeWhile Decimal.isDigit = digits) :
    parseJsonInteger data pos =
      if digits ≠ [] ∧ -2 ^ 63 ≤ Decimal.signed negative digits ∧
          Decimal.signed negative digits < 2 ^ 63 then
        .ok (Int64.ofInt (Decimal.signed negative digits), mid + digits.length)
      else .error (.invalidArgument "expected an integer") := by
  have htaken : pos + (digits.length + if negative then 1 else 0) = mid + digits.length := by
    rw [hsign.1]
    cases negative
    · rfl
    · simp only [if_true, List.length_singleton]
      omega
  simp only [parseJsonInteger, fromChars, hsplit, hdigits]
  by_cases hne : digits = []
  · rw [if_pos hne, if_neg fun h => h.1 hne]
  have hlength := List.length_pos_of_ne_nil hne
  by_cases hfits : -2 ^ 63 ≤ Decimal.signed negative digits ∧
      Decimal.signed negative digits < 2 ^ 63
  · have htaken' : digits.length + (if negative then 1 else 0) ≠ 0 := by omega
    have hboth : digits ≠ [] ∧ _ := ⟨hne, hfits⟩
    rw [if_neg hne, if_pos hfits, if_pos hboth]
    simp only [if_neg htaken', htaken]
  · rw [if_neg hne, if_neg hfits, if_neg fun h => hfits h.2]

/-- An integer ends where its digits do.
SOURCE: serialise.cc:136-146 -/
theorem parseJsonInteger_iff {n : Int64} :
    parseJsonInteger data pos = .ok (n, next) ↔
      ∃ text, IntegerText text n ∧ TextAt data pos text next ∧
        ∀ b, data[next]? = some b → Decimal.isDigit b = false := by
  constructor
  · intro h
    obtain ⟨negative, mid, hsplit, hsign⟩ := splitMinus_textAt data pos
    rw [parseJsonInteger_eq hsplit hsign rfl] at h
    split_ifs at h with hfits
    cases h
    refine ⟨_, ⟨negative, _, rfl, hfits.1, fun b hmem => List.mem_takeWhile_imp hmem, ?_⟩,
      textAt_append.mpr ⟨mid, hsign, takeWhile_textAt data mid⟩, fun b => takeWhile_end⟩
    exact (Int64.toInt_ofInt_of_le hfits.2.1 hfits.2.2).symm
  · rintro ⟨text, ⟨negative, digits, rfl, hne, hdigit, hvalue⟩, htext, hend⟩
    obtain ⟨mid, hsign, hdigits⟩ := textAt_append.mp htext
    have hsplit : splitMinus (data.drop pos) = (negative, data.drop mid) := by
      obtain ⟨b, rest, rfl⟩ := List.exists_cons_of_ne_nil hne
      exact splitMinus_eq hsign (textAt_cons.mp hdigits).1 (hdigit b (List.mem_cons_self ..))
    rw [parseJsonInteger_eq hsplit hsign (takeWhile_eq_of_textAt hdigit hdigits hend), hvalue,
      if_pos ⟨hne, int64_range n⟩, Int64.ofInt_toInt, hdigits.1]

/-- A digit is no white space.
SOURCE: serialise.cc:62-67 -/
theorem isJsonSpace_of_isDigit {b : UInt8} (h : Decimal.isDigit b = true) :
    isJsonSpace b = false := by
  have hspace := (isDigit_facts h).1
  unfold isSpace at hspace
  unfold isJsonSpace
  by_contra hjson
  simp only [Bool.not_eq_false, Bool.or_eq_true, beq_iff_eq] at hjson
  rcases hjson with ((rfl | rfl) | rfl) | rfl <;> simp at hspace

/-- An integer does not start with white space.
SOURCE: serialise.cc:136-146 -/
theorem IntegerText.first {text : Bytes} {n : Int64} {b : UInt8} (h : IntegerText text n)
    (htext : TextAt data pos text next) (hb : data[pos]? = some b) : isJsonSpace b = false := by
  obtain ⟨negative, digits, rfl, hne, hdigit, -⟩ := h
  obtain ⟨c, rest, rfl⟩ := List.exists_cons_of_ne_nil hne
  cases negative with
  | false =>
    cases hb.symm.trans (textAt_cons.mp htext).1
    exact isJsonSpace_of_isDigit (hdigit b (List.mem_cons_self ..))
  | true =>
    cases hb.symm.trans (textAt_cons.mp htext).1
    decide

/-- An integer, and the brace that closes its object.
SOURCE: store.cc:160-167 -/
theorem closedInteger_iff {n : Int64} {what : String} :
    (∃ mid, parseJsonInteger data (skipWhitespace data pos) = .ok (n, mid) ∧
        expect data 125 what (skipWhitespace data mid) = .ok next) ↔
      ∃ s₁ text s₂, Spaces s₁ ∧ IntegerText text n ∧ Spaces s₂ ∧
        TextAt data pos ((s₁ ++ text) ++ (s₂ ++ [125])) next := by
  have hstart : ∀ mid, (∃ p, parseJsonInteger data mid = .ok (n, p) ∧
      expect data 125 what (skipWhitespace data p) = .ok next) →
      ∀ b, data[mid]? = some b → isJsonSpace b = false := by
    rintro mid ⟨p, hread, -⟩ b hb
    obtain ⟨text, hinteger, htext, -⟩ := parseJsonInteger_iff.mp hread
    exact hinteger.first htext hb
  rw [skipWhitespace_iff hstart]
  constructor
  · rintro ⟨s₁, mid, hs₁, hmid, p, hread, hclose⟩
    obtain ⟨text, hinteger, htext, -⟩ := parseJsonInteger_iff.mp hread
    obtain ⟨s₂, hs₂, hclosed⟩ := (spacedExpect_iff (by decide)).mp hclose
    exact ⟨s₁, text, s₂, hs₁, hinteger, hs₂,
      textAt_append.mpr ⟨p, textAt_append.mpr ⟨mid, hmid, htext⟩, hclosed⟩⟩
  · rintro ⟨s₁, text, s₂, hs₁, hinteger, hs₂, htext⟩
    obtain ⟨p, htext, hclosed⟩ := textAt_append.mp htext
    obtain ⟨mid, hmid, htext⟩ := textAt_append.mp htext
    refine ⟨s₁, mid, hs₁, hmid, p, parseJsonInteger_iff.mpr ⟨text, hinteger, htext, ?_⟩,
      (spacedExpect_iff (by decide)).mpr ⟨s₂, hs₂, hclosed⟩⟩
    -- what follows the integer is white space or the brace
    intro b hb
    apply Bool.eq_false_iff.mpr
    intro hdigit
    cases s₂ with
    | nil =>
      cases hb.symm.trans (textAt_cons.mp hclosed).1
      revert hdigit
      decide
    | cons c s₂ =>
      cases hb.symm.trans (textAt_cons.mp hclosed).1
      have hspace := hs₂ b (List.mem_cons_self ..)
      rw [isJsonSpace_of_isDigit hdigit] at hspace
      cases hspace

end Integers

/-! ## Objects -/

section Objects

variable {data : Bytes} {pos next : ℕ}

/-- A key, white space and a colon.
SOURCE: store.cc:126-134, 186-192 -/
theorem keyColon_iff {key : Bytes} (what : String) :
    (∃ p, parseJsonString data (skipWhitespace data pos) = .ok (key, p) ∧
        expect data 58 what (skipWhitespace data p) = .ok next) ↔
      ∃ text, NameFormat text key ∧ TextAt data pos text next := by
  simp only [spacedString_iff, spacedExpect_iff (show isJsonSpace 58 = false by decide)]
  constructor
  · rintro ⟨p, ⟨s₁, literal, hs₁, hliteral, hkey⟩, s₂, hs₂, hcolon⟩
    exact ⟨_, ⟨s₁, literal, s₂, hs₁, hliteral, hs₂, rfl⟩, textAt_append.mpr ⟨p, hkey, hcolon⟩⟩
  · rintro ⟨text, ⟨s₁, literal, s₂, hs₁, hliteral, hs₂, rfl⟩, htext⟩
    obtain ⟨p, hkey, hcolon⟩ := textAt_append.mp htext
    exact ⟨p, ⟨s₁, literal, hs₁, hliteral, hkey⟩, s₂, hs₂, hcolon⟩

/-- A field name is the key that is asked for, with its colon.
SOURCE: store.cc:126-134, 150-158 -/
theorem parseFieldName_iff {name : Bytes} {field colon : String} :
    parseFieldName data name field colon pos = .ok next ↔
      ∃ text, NameFormat text name ∧ TextAt data pos text next := by
  rw [← keyColon_iff colon, parseFieldName, bind_eq_ok]
  constructor
  · rintro ⟨⟨found, p⟩, hfound, h⟩
    simp only at h
    split_ifs at h with hname
    rw [ne_eq, not_not] at hname
    subst hname
    exact ⟨p, hfound, h⟩
  · rintro ⟨p, hname, hcolon⟩
    refine ⟨(name, p), hname, ?_⟩
    simp only [ne_eq, not_true_eq_false, if_false]
    exact hcolon

/-- `compare` finds the text `null`, and throws behind the end.
SOURCE: store.cc:138 -/
theorem startsWithNull_iff {isNull : Bool} :
    startsWithNull data pos = .ok isNull ↔
      pos ≤ data.length ∧ (isNull = true ↔ TextAt data pos (ascii "null") (pos + 4)) := by
  have hnull : substr data pos 4 = ascii "null" ↔ TextAt data pos (ascii "null") (pos + 4) := by
    have hlength : (ascii "null").length = 4 := by decide
    rw [TextAt, hlength, List.prefix_iff_eq_take, hlength, substr, eq_comm,
      and_iff_right rfl]
  unfold startsWithNull
  split_ifs with hpos
  · simp [Nat.not_le_of_lt hpos]
  · rw [← hnull, and_iff_right (Nat.le_of_not_lt hpos)]
    cases isNull <;> simp

/-- A value does not start with white space.
SOURCE: store.cc:138-142 -/
theorem valueFormat_solid (v : Option Bytes) : Solid (ValueFormat · v) := by
  intro text h
  cases h with
  | null => exact ⟨110, ascii "ull", by decide, by decide⟩
  | string h => exact literal_solid _ text h

/-- **Values**: `null`, or a string literal.
SOURCE: store.cc:137-142 -/
theorem parseEntryValue_iff {v : Option Bytes} :
    parseEntryValue data pos = .ok (v, next) ↔
      ∃ text, ValueFormat text v ∧ TextAt data pos text next := by
  rw [parseEntryValue, bind_eq_ok]
  constructor
  · rintro ⟨isNull, hnull, h⟩
    obtain ⟨-, hnull⟩ := startsWithNull_iff.mp hnull
    cases isNull with
    | true =>
      cases h
      exact ⟨_, .null, hnull.mp rfl⟩
    | false =>
      obtain ⟨⟨s, p⟩, hstring, h⟩ := bind_eq_ok.mp h
      cases h
      obtain ⟨text, hliteral, htext⟩ := parseJsonString_iff.mp hstring
      exact ⟨text, .string hliteral, htext⟩
  · rintro ⟨text, hvalue, htext⟩
    have hpos : pos ≤ data.length := by
      obtain ⟨c, rest, rfl, -⟩ := valueFormat_solid v text hvalue
      exact (List.getElem?_eq_some_iff.mp (textAt_cons.mp htext).1).1.le
    cases hvalue with
    | null =>
      have hnext : next = pos + 4 := htext.1
      subst hnext
      exact ⟨true, startsWithNull_iff.mpr ⟨hpos, iff_of_true rfl htext⟩, rfl⟩
    | @string _ s hliteral =>
      refine ⟨false, startsWithNull_iff.mpr ⟨hpos, iff_of_false Bool.false_ne_true ?_⟩, ?_⟩
      · intro hnull
        obtain ⟨body, rfl, -⟩ := hliteral
        rw [show ascii "null" = 110 :: ascii "ull" by decide, textAt_cons,
          (textAt_cons.mp htext).1] at hnull
        exact absurd hnull.1 (by decide)
      · apply bind_eq_ok.mpr
        exact ⟨(s, next), parseJsonString_iff.mpr ⟨text, hliteral, htext⟩, rfl⟩

/-- A value behind white space.
SOURCE: store.cc:136-142 -/
theorem spacedValue_iff {v : Option Bytes} :
    parseEntryValue data (skipWhitespace data pos) = .ok (v, next) ↔
      ∃ s text, Spaces s ∧ ValueFormat text v ∧ TextAt data pos (s ++ text) next :=
  spaced_iff (R := fun mid => parseEntryValue data mid = .ok (v, next)) (valueFormat_solid v)
    fun _ => parseEntryValue_iff

/-- **Entries.**
SOURCE: store.cc:120-170 -/
theorem parseEntryJson_iff {e : Entry} :
    parseEntryJson data pos = .ok (e, next) ↔
      ∃ text, EntryFormat text e ∧ TextAt data pos text next := by
  constructor
  · intro h
    obtain ⟨p₁, hopen, h⟩ := bind_eq_ok.mp h
    obtain ⟨p₂, hfirst, h⟩ := bind_eq_ok.mp h
    obtain ⟨⟨v, p₃⟩, hvalue, h⟩ := bind_eq_ok.mp h
    obtain ⟨p₄, hcomma, h⟩ := bind_eq_ok.mp h
    obtain ⟨p₅, hsecond, h⟩ := bind_eq_ok.mp h
    obtain ⟨⟨n, p₆⟩, hexpiry, h⟩ := bind_eq_ok.mp h
    obtain ⟨p₇, hclose, h⟩ := bind_eq_ok.mp h
    cases h
    obtain ⟨name₁, hname₁, hfirst⟩ := parseFieldName_iff.mp hfirst
    obtain ⟨s₁, value, hs₁, hformat, hvalue⟩ := spacedValue_iff.mp hvalue
    obtain ⟨s₂, hs₂, hcomma⟩ := (spacedExpect_iff (by decide)).mp hcomma
    obtain ⟨name₂, hname₂, hsecond⟩ := parseFieldName_iff.mp hsecond
    obtain ⟨s₃, expiry, s₄, hs₃, hinteger, hs₄, hclose⟩ :=
      closedInteger_iff.mp ⟨p₆, hexpiry, hclose⟩
    refine ⟨_, .intro hname₁ hs₁ hformat hs₂ hname₂ hs₃ hinteger hs₄, ?_⟩
    rw [textAt_append]
    refine ⟨p₁, expect_iff.mp hopen, ?_⟩
    rw [textAt_append]
    refine ⟨p₂, hfirst, ?_⟩
    rw [textAt_append]
    refine ⟨p₃, hvalue, ?_⟩
    rw [textAt_append]
    refine ⟨p₄, hcomma, ?_⟩
    rw [textAt_append]
    exact ⟨p₅, hsecond, hclose⟩
  · rintro ⟨_, ⟨hname₁, hs₁, hvalue, hs₂, hname₂, hs₃, hexpiry, hs₄⟩, htext⟩
    obtain ⟨p₁, hopen, htext⟩ := textAt_append.mp htext
    obtain ⟨p₂, hfirst, htext⟩ := textAt_append.mp htext
    obtain ⟨p₃, hthird, htext⟩ := textAt_append.mp htext
    obtain ⟨p₄, hcomma, htext⟩ := textAt_append.mp htext
    obtain ⟨p₅, hsecond, hclose⟩ := textAt_append.mp htext
    obtain ⟨p₆, hinteger, hclose⟩ := closedInteger_iff.mpr ⟨_, _, _, hs₃, hexpiry, hs₄, hclose⟩
    apply bind_eq_ok.mpr
    refine ⟨p₁, expect_iff.mpr hopen, ?_⟩
    apply bind_eq_ok.mpr
    refine ⟨p₂, parseFieldName_iff.mpr ⟨_, hname₁, hfirst⟩, ?_⟩
    apply bind_eq_ok.mpr
    refine ⟨(_, p₃), spacedValue_iff.mpr ⟨_, _, hs₁, hvalue, hthird⟩, ?_⟩
    apply bind_eq_ok.mpr
    refine ⟨p₄, (spacedExpect_iff (by decide)).mpr ⟨_, hs₂, hcomma⟩, ?_⟩
    apply bind_eq_ok.mpr
    refine ⟨p₅, parseFieldName_iff.mpr ⟨_, hname₂, hsecond⟩, ?_⟩
    apply bind_eq_ok.mpr
    refine ⟨(_, p₆), hinteger, ?_⟩
    apply bind_eq_ok.mpr
    exact ⟨next, hclose, rfl⟩

/-- An entry starts with its brace.
SOURCE: store.cc:121-123 -/
theorem entryFormat_solid (e : Entry) : Solid (EntryFormat · e) := by
  rintro _ ⟨⟩
  exact ⟨123, _, rfl, by decide⟩

/-- An entry behind white space.
SOURCE: store.cc:194-195 -/
theorem spacedEntry_iff {e : Entry} :
    parseEntryJson data (skipWhitespace data pos) = .ok (e, next) ↔
      ∃ s text, Spaces s ∧ EntryFormat text e ∧ TextAt data pos (s ++ text) next :=
  spaced_iff (R := fun mid => parseEntryJson data mid = .ok (e, next)) (entryFormat_solid e)
    fun _ => parseEntryJson_iff

/-- **Members.**
SOURCE: store.cc:185-195 -/
theorem parseMember_iff {m : Bytes × Entry} :
    parseMember data pos = .ok (m, next) ↔
      ∃ text, MemberFormat text m ∧ TextAt data pos text next := by
  constructor
  · intro h
    obtain ⟨⟨key, p₁⟩, hkey, h⟩ := bind_eq_ok.mp h
    obtain ⟨p₂, hcolon, h⟩ := bind_eq_ok.mp h
    obtain ⟨⟨entry, p₃⟩, hentry, h⟩ := bind_eq_ok.mp h
    cases h
    obtain ⟨name, hname, hkey⟩ := (keyColon_iff _).mp ⟨p₁, hkey, hcolon⟩
    obtain ⟨s, text, hs, hformat, hentry⟩ := spacedEntry_iff.mp hentry
    exact ⟨_, .intro hname hs hformat, textAt_append.mpr ⟨p₂, hkey, hentry⟩⟩
  · rintro ⟨_, ⟨hname, hs, hformat⟩, htext⟩
    obtain ⟨p₂, hkey, hentry⟩ := textAt_append.mp htext
    obtain ⟨p₁, hkey, hcolon⟩ := (keyColon_iff _).mpr ⟨_, hname, hkey⟩
    apply bind_eq_ok.mpr
    refine ⟨(_, p₁), hkey, ?_⟩
    apply bind_eq_ok.mpr
    refine ⟨p₂, hcolon, ?_⟩
    apply bind_eq_ok.mpr
    exact ⟨(_, next), spacedEntry_iff.mpr ⟨_, _, hs, hformat, hentry⟩, rfl⟩

/-! ### The loop over the members -/

section Loop

variable {m : Bytes × Entry} {p : ℕ} {c : UInt8} (s : Store)

/-- The loop over the members behind a member: a comma, the closing brace or an error.
SOURCE: store.cc:184-210 -/
theorem parseMembers_next (hmember : parseMember data pos = .ok (m, p))
    (hc : data[skipWhitespace data p]? = some c) :
    parseMembers data s pos =
      if c = 44 then parseMembers data (s.insert m.1 m.2) (skipWhitespace data p + 1)
      else if c = 125 then (.ok (skipWhitespace data p + 1), s.insert m.1 m.2)
      else (.error (.invalidArgument "expected ',' or '\x7d'"), s.insert m.1 m.2) := by
  obtain ⟨hpos, rfl⟩ := List.getElem?_eq_some_iff.mp hc
  rw [parseMembers]
  split
  · next e he => cases he.symm.trans hmember
  · next key entry p' he =>
    cases he.symm.trans hmember
    simp only [dif_pos hpos]

/-- The loop at the end of the data.
SOURCE: store.cc:198-200 -/
theorem parseMembers_end (hmember : parseMember data pos = .ok (m, p))
    (hend : data.length ≤ skipWhitespace data p) :
    parseMembers data s pos =
      (.error (.invalidArgument "unterminated object"), s.insert m.1 m.2) := by
  rw [parseMembers]
  split
  · next e he => cases he.symm.trans hmember
  · next key entry p' he =>
    cases he.symm.trans hmember
    simp only [dif_neg (Nat.not_lt_of_le hend)]

/-- The loop at a member that is refused, with those before it inserted.
SOURCE: store.cc:185-195 -/
theorem parseMembers_error {e : StdException} (hmember : parseMember data pos = .error e) :
    parseMembers data s pos = (.error e, s) := by
  rw [parseMembers]
  split
  · next e' he =>
    cases he.symm.trans hmember
    rfl
  · next he => cases he.symm.trans hmember

end Loop

/-- Members of the format are all inserted.
SOURCE: store.cc:184-210 -/
theorem parseMembers_complete {text : Bytes} {ms : List (Bytes × Entry)}
    (hmembers : MembersFormat text ms) (s : Store) (h : TextAt data pos text next) :
    parseMembers data s pos = (.ok next, insertMembers s ms) := by
  induction hmembers generalizing pos s with
  | last hmember hs =>
    obtain ⟨p, htext, hclose⟩ := textAt_append.mp h
    obtain ⟨hget, rfl⟩ := (spacedChar_iff (by decide)).mpr ⟨_, hs, hclose⟩
    rw [parseMembers_next s (parseMember_iff.mpr ⟨_, hmember, htext⟩) hget, if_neg (by decide),
      if_pos rfl]
    rfl
  | cons hmember hs _ ih =>
    obtain ⟨p, htext, hrest⟩ := textAt_append.mp h
    obtain ⟨q, hcomma, hrest⟩ := textAt_append.mp hrest
    obtain ⟨hget, rfl⟩ := (spacedChar_iff (by decide)).mpr ⟨_, hs, hcomma⟩
    rw [parseMembers_next s (parseMember_iff.mpr ⟨_, hmember, htext⟩) hget, if_pos rfl,
      ih _ hrest]
    rfl

/-- What the loop accepts are members of the format.
SOURCE: store.cc:184-210 -/
theorem parseMembers_sound {s s' : Store} (h : parseMembers data s pos = (.ok next, s')) :
    ∃ text ms, MembersFormat text ms ∧ TextAt data pos text next ∧ s' = insertMembers s ms := by
  fun_induction parseMembers data s pos with
  | case1 s pos e he => cases h
  | case2 s pos key entry p hmember s₁ q hpos hcomma ih =>
    obtain ⟨text, ms, hformat, hrest, rfl⟩ := ih h
    obtain ⟨t, hmember, htext⟩ := parseMember_iff.mp hmember
    obtain ⟨sp, hsp, hspaced⟩ := (spacedChar_iff (c := 44) (by decide)).mp
      ⟨by rw [List.getElem?_eq_getElem hpos, hcomma], rfl⟩
    exact ⟨_, _, .cons hmember hsp hformat,
      textAt_append.mpr ⟨p, htext, textAt_append.mpr ⟨_, hspaced, hrest⟩⟩, rfl⟩
  | case3 s pos key entry p hmember s₁ q hpos hcomma hbrace =>
    obtain ⟨hnext, rfl⟩ := Prod.mk.inj h
    cases hnext
    obtain ⟨t, hmember, htext⟩ := parseMember_iff.mp hmember
    obtain ⟨sp, hsp, hspaced⟩ := (spacedChar_iff (c := 125) (by decide)).mp
      ⟨by rw [List.getElem?_eq_getElem hpos, hbrace], rfl⟩
    exact ⟨_, _, .last hmember hsp, textAt_append.mpr ⟨p, htext, hspaced⟩, rfl⟩
  | case4 s pos key entry p hmember s₁ q hpos hcomma hbrace => cases h
  | case5 s pos key entry p hmember s₁ q hpos => cases h

end Objects

/-! ## Documents -/

section Documents

variable {data : Bytes} {pos next : ℕ} {s s' : Store}

/-- White space is skipped once.
SOURCE: serialise.cc:62-67 -/
theorem skipWhitespace_skip (data : Bytes) (pos : ℕ) :
    skipWhitespace data (skipWhitespace data pos) = skipWhitespace data pos :=
  skipWhitespace_stop fun _ => takeWhile_end

/-- The members are read from behind white space, which the first of them skips once more.
SOURCE: store.cc:180, 185 -/
theorem parseMembers_skip (data : Bytes) (s : Store) (pos : ℕ) :
    parseMembers data s (skipWhitespace data pos) = parseMembers data s pos := by
  have hmember : parseMember data (skipWhitespace data pos) = parseMember data pos := by
    rw [parseMember, parseMember, skipWhitespace_skip]
  cases h : parseMember data pos with
  | error e => rw [parseMembers_error s h, parseMembers_error s (hmember.trans h)]
  | ok r =>
    obtain ⟨m, p⟩ := r
    by_cases hend : data.length ≤ skipWhitespace data p
    · rw [parseMembers_end s h hend, parseMembers_end s (hmember.trans h) hend]
    · have hget := List.getElem?_eq_getElem (Nat.lt_of_not_le hend)
      rw [parseMembers_next s h hget, parseMembers_next s (hmember.trans h) hget]

/-- The first member starts with its key.
SOURCE: store.cc:186 -/
theorem membersFormat_first {text : Bytes} {ms : List (Bytes × Entry)}
    (h : MembersFormat text ms) : ∃ t rest, Spaces t ∧ text = (t ++ [34]) ++ rest := by
  have hname {text key : Bytes} (h : NameFormat text key) :
      ∃ t rest, Spaces t ∧ text = (t ++ [34]) ++ rest := by
    obtain ⟨s₁, _, s₂, hs₁, ⟨body, rfl, -⟩, -, rfl⟩ := h
    exact ⟨s₁, (body ++ [34]) ++ (s₂ ++ [58]), hs₁, by simp⟩
  have hmember {text : Bytes} {m : Bytes × Entry} (h : MemberFormat text m) :
      ∃ t rest, Spaces t ∧ text = (t ++ [34]) ++ rest := by
    obtain ⟨hkey, -, -⟩ := h
    obtain ⟨t, rest, ht, rfl⟩ := hname hkey
    exact ⟨t, _, ht, List.append_assoc ..⟩
  cases h with
  | last h _ =>
    obtain ⟨t, rest, ht, rfl⟩ := hmember h
    exact ⟨t, _, ht, List.append_assoc ..⟩
  | cons h _ _ =>
    obtain ⟨t, rest, ht, rfl⟩ := hmember h
    exact ⟨t, _, ht, List.append_assoc ..⟩

/-- **Objects**: empty, or with members.
SOURCE: store.cc:180-211 -/
theorem parseObject_iff :
    parseObject data s pos = (.ok next, s') ↔
      (∃ t, Spaces t ∧ TextAt data pos (t ++ [125]) next) ∧ s' = s ∨
      ∃ text ms, MembersFormat text ms ∧ TextAt data pos text next ∧ s' = insertMembers s ms := by
  rw [parseObject, parseMembers_skip]
  constructor
  · intro h
    split_ifs at h with hbrace
    · cases h
      exact Or.inl ⟨(spacedChar_iff (by decide)).mp ⟨hbrace, rfl⟩, rfl⟩
    · exact Or.inr (parseMembers_sound h)
  · rintro (⟨⟨t, ht, htext⟩, rfl⟩ | ⟨text, ms, hmembers, htext, rfl⟩)
    · obtain ⟨hbrace, rfl⟩ := (spacedChar_iff (by decide)).mpr ⟨t, ht, htext⟩
      rw [if_pos hbrace]
    · have hquote : data[skipWhitespace data pos]? ≠ some 125 := by
        obtain ⟨t, rest, ht, rfl⟩ := membersFormat_first hmembers
        obtain ⟨p, hfirst, -⟩ := textAt_append.mp htext
        rw [((spacedChar_iff (by decide)).mpr ⟨t, ht, hfirst⟩).1]
        decide
      rw [if_neg hquote, parseMembers_complete hmembers s htext]

/-- White space up to the end.
SOURCE: store.cc:213-216 -/
theorem skipWhitespace_end :
    skipWhitespace data pos = data.length ↔ ∃ t, Spaces t ∧ TextAt data pos t data.length := by
  have hend : ∀ mid, mid = data.length → ∀ b, data[mid]? = some b → isJsonSpace b = false := by
    rintro mid rfl b hb
    rw [List.getElem?_eq_none le_rfl] at hb
    cases hb
  rw [skipWhitespace_iff (P := fun mid => mid = data.length) hend]
  constructor
  · rintro ⟨t, mid, ht, htext, rfl⟩
    exact ⟨t, ht, htext⟩
  · rintro ⟨t, ht, htext⟩
    exact ⟨t, data.length, ht, htext, rfl⟩

/-- The reader accepts if all its parts do, and no data are left.
SOURCE: store.cc:172-217 -/
theorem deserialiseFromJson_eq_ok :
    s.deserialiseFromJson data = (.ok (), s') ↔
      ∃ p q,
        expect data 123 "json data did not begin with \"\x7b\"" (skipWhitespace data 0) = .ok p ∧
        parseObject data s p = (.ok q, s') ∧ skipWhitespace data q = data.length := by
  rw [deserialiseFromJson]
  cases expect data 123 "json data did not begin with \"\x7b\"" (skipWhitespace data 0) with
  | error e => simp
  | ok p =>
    rcases hobject : parseObject data s p with ⟨_ | q, s₁⟩
    · simp [hobject]
    · by_cases hend : skipWhitespace data q = data.length
      · simp [hobject, hend]
      · simp [hobject, hend]

/-- **The reader accepts exactly the documents**, and inserts their members.
SOURCE: store.cc:172-217 -/
theorem deserialiseFromJson_iff :
    s.deserialiseFromJson data = (.ok (), s') ↔
      ∃ ms, Document data ms ∧ s' = insertMembers s ms := by
  rw [deserialiseFromJson_eq_ok]
  constructor
  · rintro ⟨p, q, hopen, hobject, hend⟩
    obtain ⟨s₁, hs₁, hopen⟩ := (spacedExpect_iff (by decide)).mp hopen
    obtain ⟨s₃, hs₃, hend⟩ := skipWhitespace_end.mp hend
    obtain ⟨⟨s₂, hs₂, hclose⟩, rfl⟩ | ⟨text, ms, hmembers, htext, rfl⟩ :=
      parseObject_iff.mp hobject
    · have hrest := textAt_append.mpr ⟨q, hclose, hend⟩
      have hdata := textAt_whole.mp (textAt_append.mpr ⟨p, hopen, hrest⟩)
      exact ⟨[], hdata ▸ .empty hs₁ hs₂ hs₃, rfl⟩
    · have hrest := textAt_append.mpr ⟨q, htext, hend⟩
      have hdata := textAt_whole.mp (textAt_append.mpr ⟨p, hopen, hrest⟩)
      exact ⟨ms, hdata ▸ .members hs₁ hmembers hs₃, rfl⟩
  · rintro ⟨ms, hdocument, rfl⟩
    cases hdocument with
    | @empty s₁ s₂ s₃ hs₁ hs₂ hs₃ =>
      obtain ⟨p, hopen, h⟩ := textAt_append.mp (textAt_whole.mpr rfl)
      obtain ⟨q, hclose, hend⟩ := textAt_append.mp h
      exact ⟨p, q, (spacedExpect_iff (by decide)).mpr ⟨s₁, hs₁, hopen⟩,
        parseObject_iff.mpr (Or.inl ⟨⟨s₂, hs₂, hclose⟩, rfl⟩),
        skipWhitespace_end.mpr ⟨s₃, hs₃, hend⟩⟩
    | @members s₁ text s₂ ms hs₁ hmembers hs₂ =>
      obtain ⟨p, hopen, h⟩ := textAt_append.mp (textAt_whole.mpr rfl)
      obtain ⟨q, htext, hend⟩ := textAt_append.mp h
      exact ⟨p, q, (spacedExpect_iff (by decide)).mpr ⟨s₁, hs₁, hopen⟩,
        parseObject_iff.mpr (Or.inr ⟨text, ms, hmembers, htext, rfl⟩),
        skipWhitespace_end.mpr ⟨s₂, hs₂, hend⟩⟩

end Documents

end MyRedis.Analysis

import Mathlib.Data.List.Induction
import MyRedis.Analysis.NumberText
import MyRedis.Analysis.RespLayout

/-!
# Which incomplete input can be completed

On `std::out_of_range` the caller of `RespValue::FromString` waits for more input.  `Truncated s`
says that `s` is the beginning of a frame, with something missing at the end: of the header line,
of a payload or of an element.  A header line that is not finished must still be able to become
one (`NumberOpen`).

`completable_iff`: input that is waited on can be completed to a frame exactly where it is
truncated.  Three kinds of input are waited on and are not: a finished header line whose number
does not fit a `long long`, since `std::stoll` throws the same exception; a payload that is not
followed by `"\r\n"`; and a header line without its end whose text can no longer become a number
of the right sign.
-/

set_option autoImplicit false

namespace MyRedis.Analysis

open MyRedis.Model MyRedis.Model.RespValue MyRedis.Lib

/-! ## Numbers -/

/-- The beginning of a number line that may still become a number from `least` on: it has a number
already, or it is white space with at most a sign behind it. -/
def NumberOpen (least : ℤ) (text : Bytes) : Prop :=
  (∃ n, stoll text = .ok n ∧ least ≤ n.toInt) ∨ text.dropWhile isSpace ∈ signs

section Numbers

variable {least : ℤ} {text part more : Bytes}

/-- More digits stand for a number that is no smaller. -/
theorem value_le_append (ds es : Bytes) : Decimal.value ds ≤ Decimal.value (ds ++ es) := by
  induction es using List.reverseRecOn with
  | nil => rw [List.append_nil]
  | append_singleton es d ih =>
    rw [← List.append_assoc, Decimal.value_append_digit]
    omega

/-- Fewer digits stand for a number of the same sign that is no larger. -/
theorem signed_bounds (negative : Bool) (ds es : Bytes) (hleast : least ≤ 0)
    (h : least ≤ Decimal.signed negative (ds ++ es))
    (hrange : -2 ^ 63 ≤ Decimal.signed negative (ds ++ es) ∧
      Decimal.signed negative (ds ++ es) < 2 ^ 63) :
    least ≤ Decimal.signed negative ds ∧ -2 ^ 63 ≤ Decimal.signed negative ds ∧
      Decimal.signed negative ds < 2 ^ 63 := by
  have hvalue := value_le_append ds es
  unfold Decimal.signed at *
  split_ifs at * with hneg
  · omega
  · omega

/-- White space and a sign may still become a number.
SOURCE: resp_value.cc:10-122 -/
theorem numberOpen_sign {spaces sign : Bytes} (hspaces : ∀ b ∈ spaces, isSpace b = true)
    (hsign : sign ∈ signs) : NumberOpen least (spaces ++ sign) := by
  have hdrop : ∀ sign ∈ signs, sign.dropWhile isSpace = sign := by decide
  refine Or.inr ?_
  rw [List.dropWhile_append_of_pos hspaces, hdrop sign hsign]
  exact hsign

/-- A prefix of a sign is one. -/
theorem mem_signs_of_append (h : part ++ more ∈ signs) : part ∈ signs := by
  cases part with
  | nil => decide
  | cons b part =>
    simp only [signs, List.cons_append, List.mem_cons, List.not_mem_nil, or_false, reduceCtorEq,
      false_or, List.cons.injEq, List.append_eq_nil_iff] at h ⊢
    rcases h with ⟨hb, hpart, -⟩ | ⟨hb, hpart, -⟩
    · exact Or.inl ⟨hb, hpart⟩
    · exact Or.inr ⟨hb, hpart⟩

/-- A numeral cut off inside its digits.
SOURCE: resp_value.cc:10-122 -/
theorem Numeral.open_of_digits (m : Numeral) {n : Int64} {digits : Bytes} (hleast : least ≤ 0)
    (hn : n.toInt = m.number) (h : least ≤ n.toInt) (hdigits : m.digits = part ++ digits) :
    NumberOpen least (m.spaces ++ (m.sign ++ part)) := by
  by_cases hnil : part = []
  · rw [hnil, List.append_nil]
    exact numberOpen_sign m.isSpace_of_mem m.sign_mem
  · have hmem : ∀ b ∈ part, Decimal.isDigit b = true := by
      intro b hb
      apply m.isDigit_of_mem
      rw [hdigits]
      exact List.mem_append_left digits hb
    have hrange := int64_range n
    rw [hn, number, hdigits] at hrange h
    obtain ⟨hle, hfits⟩ := signed_bounds _ part digits hleast h hrange
    let m' : Numeral :=
      { m with
        digits := part
        rest := []
        digits_ne_nil := hnil
        isDigit_of_mem := hmem
        rest_head := by simp }
    have hnumber : (Int64.ofInt m'.number).toInt = m'.number :=
      Int64.toInt_ofInt_of_le hfits.1 hfits.2
    have hstoll := stoll_text_eq_ok.mpr hnumber
    simp only [text, m', List.append_nil] at hstoll
    refine Or.inl ⟨_, hstoll, ?_⟩
    rw [hnumber]
    exact hle

/-- **Every beginning of a numeral may still become a number.**
SOURCE: resp_value.cc:10-122 -/
theorem Numeral.open_of_append (m : Numeral) {n : Int64} (hleast : least ≤ 0)
    (hn : n.toInt = m.number) (h : least ≤ n.toInt) (htext : m.text = part ++ more) :
    NumberOpen least part := by
  -- where the beginning ends: in the white space, in the sign, in the digits or behind them
  rw [text, List.append_eq_append_iff] at htext
  rcases htext with ⟨part', rfl, htext⟩ | ⟨spaces', hspaces, -⟩
  · rw [List.append_eq_append_iff] at htext
    rcases htext with ⟨part', rfl, htext⟩ | ⟨sign', hsign, -⟩
    · rw [List.append_eq_append_iff] at htext
      rcases htext with ⟨rest', rfl, hrest⟩ | ⟨digits', hdigits, -⟩
      · have hhead : ∀ b ∈ rest'.head?, Decimal.isDigit b = false := by
          intro b hb
          apply m.rest_head
          rw [hrest, List.head?_append, Option.mem_def.mp hb]
          rfl
        let m' : Numeral :=
          { m with
            rest := rest'
            rest_head := hhead }
        have hstoll : stoll m'.text = .ok n := stoll_text_eq_ok.mpr hn
        exact Or.inl ⟨n, hstoll, h⟩
      · exact m.open_of_digits hleast hn h hdigits
    · have hmem := m.sign_mem
      rw [hsign] at hmem
      exact numberOpen_sign m.isSpace_of_mem (mem_signs_of_append hmem)
  · have hmem : ∀ b ∈ part, isSpace b = true := by
      intro b hb
      apply m.isSpace_of_mem
      rw [hspaces]
      exact List.mem_append_left spaces' hb
    rw [← List.append_nil part]
    exact numberOpen_sign hmem (by decide)

/-- The beginning of a number line, its end included.
SOURCE: resp_value.cc:10-122 -/
theorem numberOpen_of_line {n : Int64} (hn : stoll text = .ok n) (hleast : least ≤ 0)
    (h : least ≤ n.toInt) (htext : text ++ crlf = part ++ more) : NumberOpen least part := by
  obtain ⟨m, rfl, hnumber⟩ := exists_numeral hn
  have hhead : ∀ b ∈ (m.rest ++ crlf).head?, Decimal.isDigit b = false := by
    intro b hb
    cases hrest : m.rest with
    | nil =>
      rw [hrest] at hb
      cases hb
      decide
    | cons c rest =>
      rw [hrest] at hb
      cases hb
      apply m.rest_head
      rw [hrest]
      rfl
  let m' : Numeral := { m with rest := m.rest ++ crlf, rest_head := hhead }
  have hline : m'.text = part ++ more := by
    rw [← htext]
    simp only [Numeral.text, List.append_assoc, m']
  exact m'.open_of_append hleast hnumber h hline

/-- An open number line can be closed.
SOURCE: resp_value.cc:10-122 -/
theorem NumberOpen.complete (h : NumberOpen least text) (hleast : least ≤ 0)
    (hline : ¬ crlf <:+: text) :
    ∃ more n, ¬ crlf <:+: text ++ more ∧ stoll (text ++ more) = .ok n ∧ least ≤ n.toInt := by
  rcases h with ⟨n, hn, hle⟩ | hsign
  · refine ⟨[], n, ?_, ?_, hle⟩
    · rw [List.append_nil]
      exact hline
    · rw [List.append_nil]
      exact hn
  · -- a zero behind the sign
    let m : Numeral :=
      { spaces := text.takeWhile isSpace
        sign := text.dropWhile isSpace
        digits := [48]
        rest := []
        isSpace_of_mem := fun b hb => List.mem_takeWhile_imp hb
        sign_mem := hsign
        digits_ne_nil := by simp
        isDigit_of_mem := by simp [Decimal.isDigit]
        rest_head := by simp }
    have htext : m.text = text ++ [48] := by
      simp only [Numeral.text, m, List.append_nil]
      rw [← List.append_assoc, List.takeWhile_append_dropWhile]
    have hnumber : m.number = 0 := by
      simp [Numeral.number, m, Decimal.signed, Decimal.value]
    refine ⟨[48], 0, ?_, ?_, hleast⟩
    · intro hinfix
      rcases List.infix_concat_iff.mp hinfix with hsuffix | hinfix
      · have hlast := hsuffix.getLast (by decide)
        rw [List.getLast_concat] at hlast
        exact absurd hlast (by decide)
      · exact hline hinfix
    · rw [← htext, Numeral.stoll_text_eq_ok, hnumber]
      rfl

end Numbers

/-! ## Beginnings of frames -/

/-- The beginning of a payload of `n` bytes and its `"\r\n"`, with something missing. -/
def PayloadOpen (n : ℕ) (part : Bytes) : Prop :=
  part.length ≤ n ∨ ∃ s, s.length = n ∧ part = s ++ [13]

/-- The beginnings of frames. -/
inductive Truncated : Bytes → Prop where
  | nil : Truncated []
  | simpleString {text : Bytes} (hline : ¬ crlf <:+: text) : Truncated (43 :: text)
  | simpleError {text : Bytes} (hline : ¬ crlf <:+: text) : Truncated (45 :: text)
  | integer {text : Bytes} (hline : ¬ crlf <:+: text) (hn : NumberOpen (-2 ^ 63) text) :
      Truncated (58 :: text)
  | bulkHeader {text : Bytes} (hline : ¬ crlf <:+: text) (hn : NumberOpen (-1) text) :
      Truncated (36 :: text)
  | payload {text part : Bytes} {len : Int64} {n : ℕ} (hline : ¬ crlf <:+: text)
      (hn : stoll text = .ok len) (hlen : len.toInt = n) (hpart : PayloadOpen n part) :
      Truncated (36 :: (text ++ (crlf ++ part)))
  | arrayHeader {text : Bytes} (hline : ¬ crlf <:+: text) (hn : NumberOpen 0 text) :
      Truncated (42 :: text)
  | element {text part : Bytes} {len : Int64} {pieces : List RespFrame} (hline : ¬ crlf <:+: text)
      (hn : stoll text = .ok len) (hlen : pieces.length < len.toInt)
      (hpieces : ∀ p ∈ pieces, Layout p.bytes p.fields p.value) (hpart : Truncated part) :
      Truncated (42 :: (text ++ (crlf ++ (pieces.flatMap RespFrame.bytes ++ part))))

section Beginnings

variable {text rest s t : Bytes}

/-- What is cut off a string before the end of its first line has no line. -/
theorem not_crlf_of_append (h : ¬ crlf <:+: text) (heq : text ++ crlf = s ++ t) (ht : t ≠ []) :
    ¬ crlf <:+: s := by
  intro hs
  cases hline : splitLine s with
  | none => exact splitLine_eq_none.mp hline hs
  | some line =>
    obtain ⟨rfl, hfirst⟩ := splitLine_eq_some.mp hline
    have hsplit : text ++ (crlf ++ []) = line.1 ++ (crlf ++ (line.2 ++ t)) := by
      rw [List.append_nil, heq]
      simp only [List.append_assoc]
    obtain ⟨-, hnil⟩ := line_unique h hfirst hsplit
    exact ht (List.append_eq_nil_iff.mp hnil.symm).2

/-- Where a frame of a header line and more is cut off.
SOURCE: resp_value.cc:10-122 -/
theorem cut_line (heq : text ++ (crlf ++ rest) = s ++ t) :
    (∃ u, text ++ crlf = s ++ u ∧ u ≠ []) ∨
      ∃ part, s = text ++ (crlf ++ part) ∧ rest = part ++ t := by
  rw [← List.append_assoc, List.append_eq_append_iff] at heq
  rcases heq with ⟨part, hs, hpart⟩ | ⟨u, hu, ht⟩
  · rw [List.append_assoc] at hs
    exact Or.inr ⟨part, hs, hpart⟩
  · by_cases hnil : u = []
    · subst hnil
      rw [List.append_nil] at hu
      refine Or.inr ⟨[], ?_, ?_⟩
      · rw [List.append_nil, hu]
      · rw [List.nil_append, ht, List.nil_append]
    · exact Or.inl ⟨u, hu, hnil⟩

/-- A payload that is cut off.
SOURCE: resp_value.cc:10-122 -/
theorem payloadOpen_of_append {payload part : Bytes} (heq : payload ++ crlf = part ++ t)
    (ht : t ≠ []) : PayloadOpen payload.length part := by
  rw [List.append_eq_append_iff] at heq
  rcases heq with ⟨u, rfl, hu⟩ | ⟨u, rfl, -⟩
  · rcases List.cons_eq_append_iff.mp hu with ⟨rfl, -⟩ | ⟨u', rfl, hu'⟩
    · apply Or.inl
      rw [List.append_nil]
    · rcases List.cons_eq_append_iff.mp hu' with ⟨rfl, -⟩ | ⟨u'', rfl, hu''⟩
      · exact Or.inr ⟨payload, rfl, rfl⟩
      · exact absurd (List.append_eq_nil_iff.mp hu''.symm).2 ht
  · apply Or.inl
    rw [List.length_append]
    exact Nat.le_add_right _ _

/-- Frames that are cut off: some are whole, and the next one is cut off.
SOURCE: resp_value.cc:10-122 -/
theorem cut_pieces {pieces : List RespFrame} {part : Bytes}
    (heq : pieces.flatMap RespFrame.bytes = part ++ t) (ht : t ≠ []) :
    ∃ done p todo cut u, pieces = done ++ p :: todo ∧
      part = done.flatMap RespFrame.bytes ++ cut ∧ p.bytes = cut ++ u ∧ u ≠ [] := by
  induction pieces generalizing part with
  | nil =>
    obtain ⟨-, hnil⟩ := List.append_eq_nil_iff.mp heq.symm
    exact absurd hnil ht
  | cons p pieces ih =>
    rw [List.flatMap_cons, List.append_eq_append_iff] at heq
    rcases heq with ⟨part', rfl, heq⟩ | ⟨u, hu, htail⟩
    · obtain ⟨done, q, todo, cut, u, rfl, rfl, hq, hu⟩ := ih heq
      refine ⟨p :: done, q, todo, cut, u, rfl, ?_, hq, hu⟩
      rw [List.flatMap_cons, List.append_assoc]
    · by_cases hnil : u = []
      · subst hnil
        rw [List.nil_append] at htail
        obtain ⟨done, q, todo, cut, u, rfl, hcut, hq, hu'⟩ := @ih [] htail.symm
        refine ⟨p :: done, q, todo, cut, u, rfl, ?_, hq, hu'⟩
        rw [List.flatMap_cons, List.append_assoc, ← hcut, hu, List.append_nil, List.append_nil]
      · exact ⟨[], p, pieces, part, u, rfl, rfl, hu, hnil⟩

/-- **Whatever is missing at the end of a frame, the rest is the beginning of one.**
SOURCE: resp_value.cc:10-122 -/
theorem Layout.truncated {b : Bytes} {fields : List Field} {v : RespValue}
    (h : Layout b fields v) (heq : b = s ++ t) (ht : t ≠ []) : Truncated s := by
  induction h generalizing s t with
  | simpleString hline =>
    rcases List.cons_eq_append_iff.mp heq with ⟨rfl, -⟩ | ⟨part, rfl, hpart⟩
    · exact .nil
    · exact .simpleString (not_crlf_of_append hline hpart ht)
  | simpleError hline =>
    rcases List.cons_eq_append_iff.mp heq with ⟨rfl, -⟩ | ⟨part, rfl, hpart⟩
    · exact .nil
    · exact .simpleError (not_crlf_of_append hline hpart ht)
  | @integer text n hline hn =>
    rcases List.cons_eq_append_iff.mp heq with ⟨rfl, -⟩ | ⟨part, rfl, hpart⟩
    · exact .nil
    · exact .integer (not_crlf_of_append hline hpart ht)
        (numberOpen_of_line hn (by decide) (int64_range n).1 hpart)
  | nullBulkString hline hn =>
    rcases List.cons_eq_append_iff.mp heq with ⟨rfl, -⟩ | ⟨part, rfl, hpart⟩
    · exact .nil
    · exact .bulkHeader (not_crlf_of_append hline hpart ht)
        (numberOpen_of_line hn (by decide) le_rfl hpart)
  | bulkString hline hn hlen =>
    rcases List.cons_eq_append_iff.mp heq with ⟨rfl, -⟩ | ⟨part, rfl, hpart⟩
    · exact .nil
    · rcases cut_line hpart with ⟨u, hu, hne⟩ | ⟨payload, rfl, hpayload⟩
      · exact .bulkHeader (not_crlf_of_append hline hu hne)
          (numberOpen_of_line hn (by decide) (by omega) hu)
      · exact .payload hline hn hlen (payloadOpen_of_append hpayload ht)
  | array hline hn hlen hpieces ih =>
    rcases List.cons_eq_append_iff.mp heq with ⟨rfl, -⟩ | ⟨part, rfl, hpart⟩
    · exact .nil
    · rcases cut_line hpart with ⟨u, hu, hne⟩ | ⟨elements, rfl, helements⟩
      · exact .arrayHeader (not_crlf_of_append hline hu hne)
          (numberOpen_of_line hn le_rfl (by omega) hu)
      · obtain ⟨done, p, todo, cut, u, rfl, rfl, hp, hu⟩ := cut_pieces helements ht
        have hlength : done.length < (done ++ p :: todo).length := by
          rw [List.length_append, List.length_cons]
          omega
        refine .element hline hn (by omega) ?_ (ih p (by simp) hp hu)
        intro q hq
        exact hpieces q (List.mem_append_left _ hq)

end Beginnings

/-! ## Completing a beginning -/

/-- An empty simple string. -/
def filler : RespFrame := ⟨43 :: crlf, [], .simpleString []⟩

/-- The frame that missing elements are filled up with.
SOURCE: resp_value.cc:10-122 -/
theorem filler_layout : Layout filler.bytes filler.fields filler.value :=
  @Layout.simpleString [] (by decide)

/-- Frames are completed to any number of frames.
SOURCE: resp_value.cc:10-122 -/
theorem layout_of_replicate {pieces : List RespFrame} (n : ℕ)
    (h : ∀ p ∈ pieces, Layout p.bytes p.fields p.value) :
    ∀ p ∈ pieces ++ List.replicate n filler, Layout p.bytes p.fields p.value := by
  intro p hp
  rcases List.mem_append.mp hp with hp | hp
  · exact h p hp
  · rw [List.eq_of_mem_replicate hp]
    exact filler_layout

/-- An open payload can be filled up.
SOURCE: resp_value.cc:10-122 -/
theorem PayloadOpen.complete {n : ℕ} {part : Bytes} (h : PayloadOpen n part) :
    ∃ s t, s.length = n ∧ part ++ t = s ++ crlf := by
  rcases h with hle | ⟨s, hs, rfl⟩
  · refine ⟨part ++ List.replicate (n - part.length) 0,
      List.replicate (n - part.length) 0 ++ crlf, ?_, ?_⟩
    · rw [List.length_append, List.length_replicate]
      omega
    · rw [List.append_assoc]
  · refine ⟨s, [10], hs, ?_⟩
    rw [List.append_assoc]
    rfl

/-- **The beginning of a frame can be completed.**
SOURCE: resp_value.cc:10-122 -/
theorem Truncated.complete {s : Bytes} (h : Truncated s) :
    ∃ t fields v, Layout (s ++ t) fields v := by
  induction h with
  | nil => exact ⟨filler.bytes, _, _, filler_layout⟩
  | simpleString hline => exact ⟨crlf, _, _, .simpleString hline⟩
  | simpleError hline => exact ⟨crlf, _, _, .simpleError hline⟩
  | integer hline hn =>
    obtain ⟨more, n, hline', hn', -⟩ := hn.complete (by decide) hline
    have hlayout := Layout.integer hline' hn'
    rw [List.append_assoc] at hlayout
    exact ⟨_, _, _, hlayout⟩
  | bulkHeader hline hn =>
    obtain ⟨more, len, hline', hn', hle⟩ := hn.complete (by decide) hline
    by_cases hnull : len = -1
    · subst hnull
      have hlayout := Layout.nullBulkString hline' hn'
      rw [List.append_assoc] at hlayout
      exact ⟨_, _, _, hlayout⟩
    · have hlen : len.toInt = (List.replicate len.toInt.toNat (0 : UInt8)).length := by
        have hne : len.toInt ≠ -1 := fun heq => hnull (Int64.toInt_inj.mp heq)
        rw [List.length_replicate]
        omega
      have hlayout := Layout.bulkString hline' hn' hlen
      rw [List.append_assoc] at hlayout
      exact ⟨_, _, _, hlayout⟩
  | payload hline hn hlen hpart =>
    obtain ⟨s, t, rfl, heq⟩ := hpart.complete
    have hlayout := Layout.bulkString hline hn hlen
    rw [← heq, ← List.append_assoc, ← List.append_assoc] at hlayout
    rw [← List.append_assoc]
    exact ⟨t, _, _, hlayout⟩
  | arrayHeader hline hn =>
    obtain ⟨more, len, hline', hn', hle⟩ := hn.complete le_rfl hline
    have hpieces := @layout_of_replicate [] len.toInt.toNat (by simp)
    have hlen : len.toInt = ([] ++ List.replicate len.toInt.toNat filler).length := by
      rw [List.nil_append, List.length_replicate]
      omega
    have hlayout := Layout.array hline' hn' hlen hpieces
    rw [List.append_assoc] at hlayout
    exact ⟨_, _, _, hlayout⟩
  | @element text part len pieces hline hn hlen hpieces _ ih =>
    obtain ⟨t, fields, v, hlayout⟩ := ih
    let started : RespFrame := ⟨part ++ t, fields, v⟩
    have hstarted : ∀ p ∈ pieces ++ [started], Layout p.bytes p.fields p.value := by
      intro p hp
      rcases List.mem_append.mp hp with hp | hp
      · exact hpieces p hp
      · rw [List.mem_singleton.mp hp]
        exact hlayout
    have hall := layout_of_replicate (len.toInt.toNat - (pieces.length + 1)) hstarted
    have hlen' : len.toInt = (pieces ++ [started] ++
        List.replicate (len.toInt.toNat - (pieces.length + 1)) filler).length := by
      rw [List.length_append, List.length_append, List.length_singleton, List.length_replicate]
      omega
    have harray := Layout.array hline hn hlen' hall
    have hbytes : 42 :: (text ++ (crlf ++ (pieces ++ [started] ++
          List.replicate (len.toInt.toNat - (pieces.length + 1)) filler).flatMap RespFrame.bytes)) =
        42 :: (text ++ (crlf ++ (pieces.flatMap RespFrame.bytes ++ part))) ++
          (t ++ (List.replicate (len.toInt.toNat - (pieces.length + 1)) filler).flatMap
            RespFrame.bytes) := by
      simp [started]
    rw [hbytes] at harray
    exact ⟨_, _, _, harray⟩

/-- **Input that is waited on can be completed exactly where it is the beginning of a frame.**
SOURCE: resp_value.cc:10-122, resp_value_queue.cc:10-35 -/
theorem completable_iff {s : Bytes} {what : String}
    (h : fromString s = .error (.outOfRange what)) :
    (∃ t r, fromString (s ++ t) = .ok r) ↔ Truncated s := by
  constructor
  · rintro ⟨t, ⟨v, n⟩, hok⟩
    obtain ⟨hn, fields, hlayout⟩ := fromString_eq_ok_iff.mp hok
    -- were the frame whole, it would have been parsed
    have hshort : s.length < n := by
      by_contra hle
      rw [List.take_append_of_le_length (not_lt.mp hle)] at hlayout
      rw [fromString_eq_ok_iff.mpr ⟨not_lt.mp hle, fields, hlayout⟩] at h
      cases h
    have heq : (s ++ t).take n = s ++ t.take (n - s.length) := by
      rw [List.take_append, List.take_of_length_le hshort.le]
    apply hlayout.truncated heq
    intro hnil
    have hlength := congrArg List.length hnil
    rw [List.length_append] at hn
    rw [List.length_take, List.length_nil] at hlength
    omega
  · intro htruncated
    obtain ⟨t, fields, v, hlayout⟩ := htruncated.complete
    have hparse := hlayout.fromString []
    rw [List.append_nil] at hparse
    exact ⟨t, _, hparse⟩

/-- An array is read by its header and then by its elements.
SOURCE: resp_value.cc:101-122 -/
theorem front_array {text : Bytes} {len : Int64} {n : ℕ} (hline : ¬ crlf <:+: text)
    (hn : stoll text = .ok len) (hlen : len.toInt = n) (b : Bytes) :
    front (42 :: (text ++ (crlf ++ b))) = (fronts n b).map fun r => (array r.1, r.2) := by
  obtain ⟨hcount, -, -, hpositive⟩ := toNatClampNeg_of_toInt hlen
  rw [front_cons, if_neg (by decide), if_neg (by decide), if_neg (by decide), if_neg (by decide),
    if_pos rfl, header_append _ hline]
  simp only [bind, Except.bind, hn, if_neg hpositive, hcount]

/-- The integer 1, as an element. -/
def oneFrame : RespFrame := ⟨58 :: (ascii "1" ++ crlf), [.int (ascii "1")], .integer 1⟩

/-- An array of an integer and an array of which there is no more than the prefix of its element. -/
def nestedPart : Bytes :=
  42 :: (ascii "2" ++ (crlf ++ ([oneFrame].flatMap RespFrame.bytes ++
    42 :: (ascii "1" ++ (crlf ++ (([] : List RespFrame).flatMap RespFrame.bytes ++ [36]))))))

/-- The part is the beginning of a frame.
SOURCE: resp_value.cc:10-122 -/
theorem nestedPart_truncated : Truncated nestedPart := by
  have hbulk : Truncated [36] := .bulkHeader (by decide) (Or.inr (by decide))
  refine .element (by decide) (by decide : stoll (ascii "2") = .ok 2) (by decide) ?_
    (.element (by decide) (by decide : stoll (ascii "1") = .ok 1) (by decide) ?_ hbulk)
  · intro p hp
    rw [List.mem_singleton.mp hp]
    exact .integer (by decide) (by decide)
  · intro p hp
    cases hp

/-- The parser waits for more, at the innermost length.
SOURCE: resp_value.cc:71-74 -/
theorem nestedPart_waits :
    fromString nestedPart = .error (.outOfRange "Missing CRLF after bulk-string length") := by
  have hbulk : front [36] = .error (.outOfRange "Missing CRLF after bulk-string length") := by
    rw [front_cons, if_neg (by decide), if_neg (by decide), if_neg (by decide), if_pos rfl]
    rfl
  have hinner : front (42 :: (ascii "1" ++ (crlf ++ [36]))) =
      .error (.outOfRange "Missing CRLF after bulk-string length") := by
    rw [front_array (by decide) (by decide : stoll (ascii "1") = .ok 1)
      (by decide : _ = ((1 : ℕ) : ℤ)), fronts_succ, if_neg (by decide), hbulk]
    rfl
  have hone (b : Bytes) : front (oneFrame.bytes ++ b) = .ok (.integer 1, b) := by
    have hbytes : oneFrame.bytes ++ b = 58 :: (ascii "1" ++ (crlf ++ b)) := rfl
    rw [hbytes, front_cons, if_neg (by decide), if_neg (by decide), if_pos rfl,
      header_append _ (by decide)]
    rfl
  have houter : front nestedPart =
      .error (.outOfRange "Missing CRLF after bulk-string length") := by
    rw [nestedPart, front_array (by decide) (by decide : stoll (ascii "2") = .ok 2)
      (by decide : _ = ((2 : ℕ) : ℤ)), fronts_succ, if_neg (by decide), List.flatMap_singleton,
      hone]
    simp only [bind, Except.bind, List.flatMap_nil, List.nil_append]
    rw [fronts_succ, if_neg (by decide), hinner]
    rfl
  exact front_eq_error.mp houter

/-- An array inside an array, cut off in the length of its string.
SOURCE: resp_value.cc:10-122 -/
theorem completable_iff_nestedPart :
    nestedPart = ascii "*2\r\n:1\r\n*1\r\n$" ∧
      fromString nestedPart = .error (.outOfRange "Missing CRLF after bulk-string length") ∧
      ∃ t r, fromString (nestedPart ++ t) = .ok r :=
  ⟨by decide, nestedPart_waits, (completable_iff nestedPart_waits).mpr nestedPart_truncated⟩

/-- An integer that does not fit a `long long`, with its line complete.
SOURCE: resp_value.cc:63 -/
theorem overflow_waits (t : Bytes) :
    fromString (ascii ":9223372036854775808\r\n" ++ t) = .error (.outOfRange "stoll") := by
  have hstoll : stoll (ascii "9223372036854775808") = .error (.outOfRange "stoll") := by
    decide +kernel
  have hbytes : ascii ":9223372036854775808\r\n" ++ t =
      58 :: (ascii "9223372036854775808" ++ (crlf ++ t)) := by
    simp [ascii, crlf]
  have hline : ¬ crlf <:+: ascii "9223372036854775808" :=
    not_crlf_infix_of_digits (by simp [ascii])
  rw [← front_eq_error, hbytes, front_cons, if_neg (by decide), if_neg (by decide), if_pos rfl,
    header_append _ hline]
  simp only [bind, Except.bind, hstoll, Except.map]

/-- A payload that goes on where its end should be.
SOURCE: resp_value.cc:91-94 -/
theorem longPayload_waits (t : Bytes) :
    fromString (ascii "$1\r\nabc" ++ t) =
      .error (.outOfRange "Bulk string missing terminating CRLF") := by
  have hstoll : stoll (ascii "1") = .ok 1 := by decide
  have hbytes : ascii "$1\r\nabc" ++ t = 36 :: (ascii "1" ++ (crlf ++ (ascii "abc" ++ t))) := by
    simp [ascii, crlf]
  have hpayload : payload 1 (ascii "abc" ++ t) =
      .error (.outOfRange "Bulk string missing terminating CRLF") := by
    have hlong : ¬ (ascii "abc" ++ t).length < 1 + 2 := by simp [ascii]
    rw [payload, if_neg (by decide), if_neg (by decide), show Int64.toNatClampNeg 1 = 1 from rfl,
      if_neg hlong, if_neg (by simp [ascii, crlf])]
  rw [← front_eq_error, hbytes, front_cons, if_neg (by decide), if_neg (by decide),
    if_neg (by decide), if_pos rfl, header_append _ (by decide)]
  simp only [bind, Except.bind, hstoll, hpayload, Except.map]

/-- Both are waited on, and no input completes them.
SOURCE: resp_value.cc:10-122 -/
theorem waits_forever :
    fromString (ascii ":9223372036854775808\r\n") = .error (.outOfRange "stoll") ∧
      (∀ t r, fromString (ascii ":9223372036854775808\r\n" ++ t) ≠ .ok r) ∧
      fromString (ascii "$1\r\nabc") =
        .error (.outOfRange "Bulk string missing terminating CRLF") ∧
      ∀ t r, fromString (ascii "$1\r\nabc" ++ t) ≠ .ok r := by
  refine ⟨?_, ?_, ?_, ?_⟩
  · rw [← List.append_nil (ascii ":9223372036854775808\r\n")]
    exact overflow_waits []
  · intro t r
    rw [overflow_waits t]
    simp
  · rw [← List.append_nil (ascii "$1\r\nabc")]
    exact longPayload_waits []
  · intro t r
    rw [longPayload_waits t]
    simp

end MyRedis.Analysis

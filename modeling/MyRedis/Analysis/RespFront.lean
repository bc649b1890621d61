import MyRedis.Analysis.RespRoundTrip

/-!
# The RESP parser on the front of a string

`RespValue::FromString` works with positions in one string.  What it reads at a position depends
only on the bytes from there on (`variantAt_shift`), so the parser can be read as a function that
takes a value off the front of a string and returns the rest: `front`, with `fronts` for the
elements of an array.  The equations `front_cons` and `fronts_succ` are all that is used of it
afterwards; the header line is what comes before the first `"\r\n"` (`splitLine`).
-/

set_option autoImplicit false

namespace MyRedis.Analysis

open MyRedis.Model MyRedis.Model.RespValue MyRedis.Lib

/-! ## Positions -/

/-- A value and a position, seen from a string with `n` more bytes in front. -/
def shift {α : Type} (n : ℕ) (r : α × ℕ) : α × ℕ := (r.1, n + r.2)

section Shift

variable (a b : Bytes)

/-- `find` counts from where it starts. -/
theorem findFrom_shift (needle s : Bytes) (n i : ℕ) :
    findFrom needle s (n + i) = (findFrom needle s i).map (n + ·) := by
  induction s generalizing i with
  | nil =>
    unfold findFrom
    split_ifs
    · rfl
    · rfl
  | cons c s ih =>
    unfold findFrom
    split_ifs
    · rfl
    · rw [Nat.add_assoc, ih]

/-- Behind a prefix, `find` finds the same, so much further on. -/
theorem find_shift (needle : Bytes) (pos : ℕ) :
    find (a ++ b) needle (a.length + pos) = (find b needle pos).map (a.length + ·) := by
  rw [find, find, List.drop_length_add_append, findFrom_shift]

/-- `substr` takes the same there. -/
theorem substr_shift (pos count : ℕ) :
    substr (a ++ b) (a.length + pos) count = substr b pos count := by
  rw [substr, substr, List.drop_length_add_append]

/-- A header line behind a prefix is the same line.
SOURCE: resp_value.cc:34-39, 71-77, 104-110 -/
theorem lineAt_shift (missing : String) (pos : ℕ) :
    lineAt missing (a ++ b) (a.length + pos) = (lineAt missing b pos).map (shift a.length) := by
  rw [lineAt_eq, lineAt_eq, Nat.add_assoc, find_shift]
  cases find b crlf (pos + 1) with
  | none => rfl
  | some e =>
    have hcount : a.length + e - (a.length + pos) - 1 = e - pos - 1 := by omega
    simp only [Option.map_some, hcount, substr_shift, Except.map, shift, Nat.add_assoc]

/-- A payload behind a prefix is the same payload.
SOURCE: resp_value.cc:78-98 -/
theorem payloadAt_shift (pos : ℕ) (len : Int64) :
    payloadAt (a ++ b) (a.length + pos) len = (payloadAt b pos len).map (shift a.length) := by
  have hlength : (a ++ b).length < a.length + (pos + (len.toNatClampNeg + 2)) ↔
      b.length < pos + (len.toNatClampNeg + 2) := by
    rw [List.length_append]
    omega
  simp only [payloadAt, Nat.add_assoc, hlength, substr_shift]
  split_ifs
  · rfl
  · rfl
  · rfl
  · rfl
  · rfl

/-- The elements of an array behind a prefix are the same elements, if the values are.
SOURCE: resp_value.cc:115-120 -/
theorem elementsAt_shift {pos : ℕ}
    (h : ∀ q, pos ≤ q → variantAt (a ++ b) (a.length + q) = (variantAt b q).map (shift a.length))
    (count : ℕ) :
    elementsAt (a ++ b) (a.length + pos) count = (elementsAt b pos count).map (shift a.length) := by
  induction count generalizing pos with
  | zero =>
    rw [elementsAt_zero, elementsAt_zero]
    rfl
  | succ count ih =>
    have hlength : (a ++ b).length ≤ a.length + pos ↔ b.length ≤ pos := by
      rw [List.length_append]
      omega
    rw [elementsAt_succ, elementsAt_succ, h pos le_rfl]
    simp only [hlength]
    split_ifs
    · rfl
    · cases hv : variantAt b pos with
      | error e => rfl
      | ok v =>
        have hbounds := variantAt_bounds b pos v.1 v.2 hv
        have hrest := @ih v.2 fun q hq => h q (by omega)
        simp only [Except.map, bind, Except.bind, shift] at hrest ⊢
        rw [hrest]
        cases elementsAt b v.2 count <;> rfl

/-- **What is read at a position depends only on the bytes from there on.**
SOURCE: resp_value.cc:10-122 -/
theorem variantAt_shift (pos : ℕ) :
    variantAt (a ++ b) (a.length + pos) = (variantAt b pos).map (shift a.length) := by
  induction pos using position_induct b with
  | past pos hpos =>
    rw [variantAt_eq, variantAt_eq, List.getElem?_eq_none hpos, List.getElem?_eq_none (by simpa)]
    rfl
  | inside pos hpos ih =>
    have hget : (a ++ b)[a.length + pos]? = b[pos]? := by
      rw [List.getElem?_append_right (Nat.le_add_right _ _), Nat.add_sub_cancel_left]
    rw [variantAt_eq, variantAt_eq, hget, List.getElem?_eq_getElem hpos]
    simp only [lineAt_shift]
    by_cases h43 : b[pos] = 43
    · rw [if_pos h43, if_pos h43]
      cases lineAt "Missing CRLF for simple string" b pos <;> rfl
    rw [if_neg h43, if_neg h43]
    by_cases h45 : b[pos] = 45
    · rw [if_pos h45, if_pos h45]
      cases lineAt "Missing CRLF for simple error" b pos <;> rfl
    rw [if_neg h45, if_neg h45]
    by_cases h58 : b[pos] = 58
    · rw [if_pos h58, if_pos h58]
      cases lineAt "Missing CRLF for integer" b pos with
      | error e => rfl
      | ok line =>
        simp only [Except.map, bind, Except.bind, shift]
        cases stoll line.1 <;> rfl
    rw [if_neg h58, if_neg h58]
    by_cases h36 : b[pos] = 36
    · rw [if_pos h36, if_pos h36]
      cases lineAt "Missing CRLF after bulk-string length" b pos with
      | error e => rfl
      | ok line =>
        simp only [Except.map, bind, Except.bind, shift]
        cases stoll line.1 with
        | error e => rfl
        | ok len =>
          simp only [payloadAt_shift]
          cases payloadAt b line.2 len <;> rfl
    rw [if_neg h36, if_neg h36]
    by_cases h42 : b[pos] = 42
    · rw [if_pos h42, if_pos h42]
      cases hline : lineAt "Missing CRLF after array length" b pos with
      | error e => rfl
      | ok line =>
        simp only [Except.map, bind, Except.bind, shift]
        cases stoll line.1 with
        | error e => rfl
        | ok len =>
          have hbounds := @lineAt_bounds b pos _ _ line.2 hline
          have hlater : ∀ q, line.2 ≤ q →
              variantAt (a ++ b) (a.length + q) = (variantAt b q).map (shift a.length) :=
            fun q hq => ih q (by omega)
          have helements := elementsAt_shift a b hlater len.toNatClampNeg
          simp only
          by_cases hneg : len < 0
          · rw [if_pos hneg, if_pos hneg]
          · rw [if_neg hneg, if_neg hneg, helements]
            cases elementsAt b line.2 len.toNatClampNeg <;> rfl
    · rw [if_neg h42, if_neg h42]
      rfl

end Shift

/-! ## Header lines -/

/-- The text before the first `"\r\n"`, and what is behind it. -/
def splitLine (b : Bytes) : Option (Bytes × Bytes) :=
  (find b crlf 0).map fun e => (b.take e, b.drop (e + 2))

section Lines

variable {b text rest : Bytes}

/-- `find` finds nothing exactly where the needle does not occur. -/
theorem findFrom_eq_none {needle s : Bytes} (hne : needle ≠ []) (i : ℕ) :
    findFrom needle s i = none ↔ ¬ needle <:+: s := by
  induction s generalizing i with
  | nil => simp [findFrom, hne]
  | cons c s ih =>
    rw [findFrom, List.infix_cons_iff, not_or]
    by_cases hprefix : needle <+: c :: s
    · rw [if_pos (List.isPrefixOf_iff_prefix.mpr hprefix)]
      exact iff_of_false (Option.some_ne_none i) fun hnot => hnot.1 hprefix
    · rw [if_neg (mt List.isPrefixOf_iff_prefix.mp hprefix), ih, and_iff_right hprefix]

/-- There is no line exactly where there is no `"\r\n"`. -/
theorem splitLine_eq_none : splitLine b = none ↔ ¬ crlf <:+: b := by
  rw [splitLine, Option.map_eq_none_iff]
  exact findFrom_eq_none (by decide) 0

/-- A text without `"\r\n"` is the first line of what follows it. -/
theorem splitLine_append (h : ¬ crlf <:+: text) (rest : Bytes) :
    splitLine (text ++ (crlf ++ rest)) = some (text, rest) := by
  have hfind := find_crlf_append [] text rest h
  rw [List.nil_append, List.length_nil, Nat.zero_add] at hfind
  have hdrop : (text ++ (crlf ++ rest)).drop (text.length + 2) = rest := by
    rw [List.drop_length_add_append]
    rfl
  rw [splitLine, hfind, Option.map_some, List.take_left, hdrop]

/-- A line is a text without `"\r\n"`, with a `"\r\n"` behind it. -/
theorem splitLine_eq_some :
    splitLine b = some (text, rest) ↔ b = text ++ (crlf ++ rest) ∧ ¬ crlf <:+: text := by
  constructor
  · intro h
    obtain ⟨e, hfind, hpair⟩ := Option.map_eq_some_iff.mp h
    cases hpair
    obtain ⟨-, ⟨after, hat⟩, hmin⟩ := (find_eq_some (by decide)).mp hfind
    have hafter : b.drop (e + 2) = after := by
      rw [← List.drop_drop, ← hat]
      rfl
    constructor
    · rw [hafter, hat, List.take_append_drop]
    · rintro ⟨before, behind, hinfix⟩
      have hlength := congrArg List.length hinfix
      simp only [crlf, List.length_append, List.length_take, List.length_cons,
        List.length_nil] at hlength
      apply hmin before.length (Nat.zero_le _) (by omega)
      rw [← List.take_append_drop e b, ← hinfix, List.append_assoc, List.append_assoc,
        List.drop_left]
      exact List.prefix_append _ _
  · rintro ⟨rfl, h⟩
    exact splitLine_append h rest

/-- The first line is determined by the bytes. -/
theorem line_unique {text' rest' : Bytes} (h : ¬ crlf <:+: text) (h' : ¬ crlf <:+: text')
    (heq : text ++ (crlf ++ rest) = text' ++ (crlf ++ rest')) : text = text' ∧ rest = rest' := by
  have hline := splitLine_append h rest
  rw [heq, splitLine_append h' rest'] at hline
  cases hline
  exact ⟨rfl, rfl⟩

/-- The header line of a frame.
SOURCE: resp_value.cc:34-39, 71-77, 104-110 -/
theorem lineAt_cons (missing : String) (c : UInt8) (b : Bytes) :
    lineAt missing (c :: b) 0 = match splitLine b with
      | none => .error (.outOfRange missing)
      | some (text, _) => .ok (text, text.length + 3) := by
  have hfind : find (c :: b) crlf (0 + 1) = (find b crlf 0).map (1 + ·) := find_shift [c] b crlf 0
  rw [lineAt_eq, hfind, splitLine]
  cases h : find b crlf 0 with
  | none => rfl
  | some e =>
    have hlength := find_add_length_le (by decide) h
    have hle : e ≤ b.length := Nat.le_of_add_right_le hlength
    simp only [Option.map_some, substr, List.drop_succ_cons, List.drop_zero, Nat.sub_zero,
      List.length_take, min_eq_left hle, Nat.add_comm 1 e]
    rfl

end Lines

/-! ## Values -/

/-- A value with a position in `b`, seen as the value with the rest of `b`. -/
def remainder {α : Type} (b : Bytes) (r : α × ℕ) : α × Bytes := (r.1, b.drop r.2)

/-- `RespValue::FromString`, with the bytes that follow the value. -/
def front (b : Bytes) : Except StdException (RespValue × Bytes) := (fromString b).map (remainder b)

/-- The element loop of `RespValue::ParseArray`, with the bytes that follow the elements. -/
def fronts (count : ℕ) (b : Bytes) : Except StdException (List RespValue × Bytes) :=
  (elementsAt b 0 count).map (remainder b)

/-- The header line at the front of a string. -/
def header (missing : String) (b : Bytes) : Except StdException (Bytes × Bytes) :=
  match splitLine b with
  | none => .error (.outOfRange missing)
  | some line => .ok line

/-- The payload of a bulk string at the front of a string. -/
def payload (len : Int64) (b : Bytes) : Except StdException (Option Bytes × Bytes) :=
  if len = -1 then .ok (none, b)
  else if len ≤ -2 then
    .error (.invalidArgument "Bulk string has a negative length and is not null bulk string")
  else if b.length < len.toNatClampNeg + 2 then
    .error (.outOfRange "Bulk string payload truncated or missing CRLF")
  else if (b.drop len.toNatClampNeg).take 2 = crlf then
    .ok (some (b.take len.toNatClampNeg), b.drop (len.toNatClampNeg + 2))
  else .error (.outOfRange "Bulk string missing terminating CRLF")

section Values

variable {b : Bytes}

/-- A payload at the front of a string, with what is left.
SOURCE: resp_value.cc:78-98 -/
theorem payload_eq (len : Int64) (b : Bytes) :
    payload len b = (payloadAt b 0 len).map (remainder b) := by
  simp only [payload, payloadAt, substr, Nat.zero_add, List.drop_zero]
  split_ifs
  · rfl
  · rfl
  · rfl
  · rfl
  · rfl

/-- A function after a computation is a computation after it. -/
theorem except_map_eq_bind {α β : Type} (x : Except StdException α) (f : α → β) :
    x.map f = x >>= fun a => .ok (f a) := by
  cases x <;> rfl

/-- A function after two computations. -/
theorem except_map_bind {α β γ : Type} (x : Except StdException α) (k : α → Except StdException β)
    (f : β → γ) : (x >>= k).map f = x >>= fun a => (k a).map f := by
  cases x <;> rfl

/-- What is read behind a prefix leaves the same rest. -/
theorem map_remainder_shift {α : Type} (a b : Bytes) (x : Except StdException (α × ℕ)) :
    (x.map (shift a.length)).map (remainder (a ++ b)) = x.map (remainder b) := by
  cases x with
  | error e => rfl
  | ok r =>
    simp only [Except.map, remainder, shift]
    rw [List.drop_length_add_append]

/-- No elements take no bytes.
SOURCE: resp_value.cc:115 -/
theorem fronts_zero (b : Bytes) : fronts 0 b = .ok ([], b) := by
  rw [fronts, elementsAt_zero]
  rfl

/-- There is no value at the front of nothing.
SOURCE: resp_value.cc:12-14 -/
theorem front_nil :
    front [] = .error (.outOfRange "Unexpected end of input while parsing RESP value") := by
  rw [front, fromString_eq, variantAt_eq]
  rfl

/-- What is read at a position leaves the rest that is left behind the bytes before it. -/
theorem map_remainder_drop {α : Type} {f : Bytes → ℕ → Except StdException (α × ℕ)}
    (hshift : ∀ a b, f (a ++ b) (a.length + 0) = (f b 0).map (shift a.length)) (b : Bytes) {pos : ℕ}
    (hpos : pos ≤ b.length) :
    (f b pos).map (remainder b) = (f (b.drop pos) 0).map (remainder (b.drop pos)) := by
  have hread := hshift (b.take pos) (b.drop pos)
  have hrest := map_remainder_shift (b.take pos) (b.drop pos) (f (b.drop pos) 0)
  rw [List.take_append_drop, List.length_take_of_le hpos] at hread hrest
  rw [Nat.add_zero] at hread
  rw [hread, hrest]

/-- Elements at a position are elements at the front of what is behind it.
SOURCE: resp_value.cc:115-120 -/
theorem elementsAt_remainder (b : Bytes) {pos : ℕ} (hpos : pos ≤ b.length) (count : ℕ) :
    (elementsAt b pos count).map (remainder b) = fronts count (b.drop pos) :=
  map_remainder_drop (f := fun b pos => elementsAt b pos count)
    (fun a b => elementsAt_shift a b (fun q _ => variantAt_shift a b q) count) b hpos

/-- A payload at a position is the payload at the front of what is behind it.
SOURCE: resp_value.cc:78-98 -/
theorem payloadAt_remainder (b : Bytes) {pos : ℕ} (hpos : pos ≤ b.length) (len : Int64) :
    (payloadAt b pos len).map (remainder b) = payload len (b.drop pos) := by
  rw [payload_eq]
  exact map_remainder_drop (f := fun b pos => payloadAt b pos len)
    (fun a b => payloadAt_shift a b 0 len) b hpos

/-- The loop over the elements, one round.
SOURCE: resp_value.cc:115-120 -/
theorem fronts_succ (count : ℕ) (b : Bytes) :
    fronts (count + 1) b =
      if b = [] then .error (.outOfRange "Array element missing/truncated")
      else front b >>= fun v => (fronts count v.2).map fun vs => (v.1 :: vs.1, vs.2) := by
  rw [fronts, elementsAt_succ]
  by_cases hnil : b = []
  · subst hnil
    rfl
  · have hlength : ¬ b.length ≤ 0 := by
      rw [Nat.le_zero, List.length_eq_zero_iff]
      exact hnil
    rw [if_neg hnil, if_neg hlength, front, fromString_eq]
    cases hv : variantAt b 0 with
    | error e => rfl
    | ok v =>
      have hbounds := variantAt_bounds b 0 v.1 v.2 hv
      have hrest := elementsAt_remainder b hbounds.2 count
      simp only [Except.map, bind, Except.bind, remainder] at hrest ⊢
      rw [← hrest]
      cases elementsAt b v.2 count <;> rfl

section Header

variable {α : Type} {c : UInt8} (missing : String)

/-- What is left behind a header line. -/
theorem drop_header (c : UInt8) (text rest : Bytes) :
    (c :: (text ++ (crlf ++ rest))).drop (text.length + 3) = rest := by
  have hsplit : c :: (text ++ (crlf ++ rest)) = (c :: (text ++ crlf)) ++ rest := by simp
  have hlength : text.length + 3 = (c :: (text ++ crlf)).length := by simp [crlf]
  rw [hsplit, hlength, List.drop_left]

/-- A reader behind the header line, with the rest of the string.
SOURCE: resp_value.cc:34-39, 71-77, 104-110 -/
theorem lineAt_bind_remainder {k : Bytes × ℕ → Except StdException (α × ℕ)}
    {g : Bytes × Bytes → Except StdException (α × Bytes)}
    (h : ∀ text rest, (c :: b).drop (text.length + 3) = rest → text.length + 3 ≤ (c :: b).length →
      (k (text, text.length + 3)).map (remainder (c :: b)) = g (text, rest)) :
    (lineAt missing (c :: b) 0 >>= k).map (remainder (c :: b)) = header missing b >>= g := by
  rw [lineAt_cons, header]
  cases hline : splitLine b with
  | none => rfl
  | some line =>
    obtain ⟨text, rest⟩ := line
    obtain ⟨rfl, -⟩ := splitLine_eq_some.mp hline
    refine h text rest (drop_header c text rest) ?_
    simp only [List.length_cons, List.length_append, crlf, List.length_nil]
    omega

/-- A value that is its line, with the rest of the string.
SOURCE: resp_value.cc:31-53 -/
theorem lineAt_map_remainder (f : Bytes → RespValue) :
    ((lineAt missing (c :: b) 0).map fun line => (f line.1, line.2)).map (remainder (c :: b)) =
      (header missing b).map fun line => (f line.1, line.2) := by
  have hbind := lineAt_bind_remainder (b := b) (c := c) missing
    (k := fun line => .ok (f line.1, line.2)) (g := fun line => .ok (f line.1, line.2))
    fun text rest hrest _ => by rw [Except.map, remainder, hrest]
  rw [← except_map_eq_bind, ← except_map_eq_bind] at hbind
  exact hbind

end Header

/-- **The parser on the front of a string, as one equation.**
SOURCE: resp_value.cc:10-122 -/
theorem front_cons (c : UInt8) (b : Bytes) :
    front (c :: b) =
      if c = 43 then
        (header "Missing CRLF for simple string" b).map fun line => (simpleString line.1, line.2)
      else if c = 45 then
        (header "Missing CRLF for simple error" b).map fun line => (simpleError line.1, line.2)
      else if c = 58 then
        header "Missing CRLF for integer" b >>= fun line =>
          (stoll line.1).map fun n => (integer n, line.2)
      else if c = 36 then
        header "Missing CRLF after bulk-string length" b >>= fun line =>
          stoll line.1 >>= fun len => (payload len line.2).map fun r => (bulkString r.1, r.2)
      else if c = 42 then
        header "Missing CRLF after array length" b >>= fun line =>
          stoll line.1 >>= fun len =>
            if len < 0 then .error (.invalidArgument "Negative array length not allowed")
            else (fronts len.toNatClampNeg line.2).map fun r => (array r.1, r.2)
      else .error (.invalidArgument "Invalid resp type prefix") := by
  rw [front, fromString_eq, variantAt_eq]
  simp only [List.getElem?_cons_zero]
  by_cases h43 : c = 43
  · rw [if_pos h43, if_pos h43, lineAt_map_remainder]
  rw [if_neg h43, if_neg h43]
  by_cases h45 : c = 45
  · rw [if_pos h45, if_pos h45, lineAt_map_remainder]
  rw [if_neg h45, if_neg h45]
  by_cases h58 : c = 58
  · rw [if_pos h58, if_pos h58]
    apply lineAt_bind_remainder
    intro text rest hrest _
    cases stoll text with
    | error e => rfl
    | ok n => simp only [Except.map, remainder, hrest]
  rw [if_neg h58, if_neg h58]
  by_cases h36 : c = 36
  · rw [if_pos h36, if_pos h36, except_map_bind]
    apply lineAt_bind_remainder
    intro text rest hrest hle
    cases stoll text with
    | error e => rfl
    | ok len =>
      have hpayload := payloadAt_remainder (c :: b) hle len
      rw [hrest] at hpayload
      simp only [bind, Except.bind, ← hpayload]
      cases payloadAt (c :: b) (text.length + 3) len <;> rfl
  rw [if_neg h36, if_neg h36]
  by_cases h42 : c = 42
  · rw [if_pos h42, if_pos h42, except_map_bind]
    apply lineAt_bind_remainder
    intro text rest hrest hle
    cases stoll text with
    | error e => rfl
    | ok len =>
      have helements := elementsAt_remainder (c :: b) hle len.toNatClampNeg
      rw [hrest] at helements
      simp only [bind, Except.bind, ← helements]
      by_cases hneg : len < 0
      · rw [if_pos hneg, if_pos hneg]
        rfl
      · rw [if_neg hneg, if_neg hneg]
        cases elementsAt (c :: b) (text.length + 3) len.toNatClampNeg <;> rfl
  · rw [if_neg h42, if_neg h42]
    rfl

/-- Reading a value off the front fails as parsing does.
SOURCE: resp_value.cc:185-188 -/
theorem front_eq_error {e : StdException} : front b = .error e ↔ fromString b = .error e := by
  rw [front]
  cases fromString b with
  | error e' => simp [Except.map]
  | ok r => simp [Except.map]

/-- Reading a value off the front and parsing a string are the same.
SOURCE: resp_value.cc:185-188 -/
theorem fromString_eq_ok {v : RespValue} {n : ℕ} :
    fromString b = .ok (v, n) ↔ n ≤ b.length ∧ front b = .ok (v, b.drop n) := by
  rw [front]
  constructor
  · intro h
    rw [h]
    exact ⟨(variantAt_bounds b 0 v n h).2, rfl⟩
  · rintro ⟨hn, h⟩
    obtain ⟨⟨v', n'⟩, hparse, hpair⟩ := map_eq_ok.mp h
    obtain ⟨rfl, hdrop⟩ := Prod.mk.inj hpair
    have hn' := (variantAt_bounds b 0 v' n' hparse).2
    have hlength := congrArg List.length hdrop
    rw [List.length_drop, List.length_drop] at hlength
    have heq : n' = n := by omega
    rw [hparse, heq]

end Values

end MyRedis.Analysis

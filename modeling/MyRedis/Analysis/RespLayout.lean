import MyRedis.Analysis.RespFront

/-!
# What the RESP parser reads

`Layout b fields v` says that the bytes `b` are one frame as `RespValue::FromString` reads it, that
the frame has the number fields `fields`, in order, and that its value is `v`.  A number field is
whatever text `std::stoll` makes a number of.  `fromString_eq_ok_iff` is the connection with the
parser: it returns `v` and `n` exactly where the first `n` bytes are such a frame.
-/

set_option autoImplicit false

namespace MyRedis.Analysis

open MyRedis.Model MyRedis.Model.RespValue MyRedis.Lib

/-- The text of a number in a frame, by the place where it stands. -/
inductive Field where
  | int (text : Bytes)
  | bulkLen (text : Bytes)
  | arrayLen (text : Bytes)

/-- A frame with its number fields and its value. -/
structure RespFrame where
  bytes : Bytes
  fields : List Field
  value : RespValue

/-- The frames the parser reads. -/
inductive Layout : Bytes → List Field → RespValue → Prop where
  | simpleString {s : Bytes} (hs : ¬ crlf <:+: s) : Layout (43 :: (s ++ crlf)) [] (.simpleString s)
  | simpleError {m : Bytes} (hm : ¬ crlf <:+: m) : Layout (45 :: (m ++ crlf)) [] (.simpleError m)
  | integer {text : Bytes} {n : Int64} (hline : ¬ crlf <:+: text) (hn : stoll text = .ok n) :
      Layout (58 :: (text ++ crlf)) [.int text] (.integer n)
  | nullBulkString {text : Bytes} (hline : ¬ crlf <:+: text) (hn : stoll text = .ok (-1)) :
      Layout (36 :: (text ++ crlf)) [.bulkLen text] (.bulkString none)
  | bulkString {text s : Bytes} {len : Int64} (hline : ¬ crlf <:+: text)
      (hn : stoll text = .ok len) (hlen : len.toInt = s.length) :
      Layout (36 :: (text ++ (crlf ++ (s ++ crlf)))) [.bulkLen text] (.bulkString (some s))
  | array {text : Bytes} {len : Int64} {pieces : List RespFrame} (hline : ¬ crlf <:+: text)
      (hn : stoll text = .ok len) (hlen : len.toInt = pieces.length)
      (hpieces : ∀ p ∈ pieces, Layout p.bytes p.fields p.value) :
      Layout (42 :: (text ++ (crlf ++ pieces.flatMap RespFrame.bytes)))
        (.arrayLen text :: pieces.flatMap RespFrame.fields) (.array (pieces.map RespFrame.value))

section Layout

variable {b text rest : Bytes} {fields : List Field} {v : RespValue}

/-- No frame is empty.
SOURCE: resp_value.cc:10-122 -/
theorem Layout.ne_nil (h : Layout b fields v) : b ≠ [] := by
  cases h <;> simp

/-- A length read from a frame.
SOURCE: resp_value.cc:10-122 -/
theorem toNatClampNeg_of_toInt {len : Int64} {n : ℕ} (h : len.toInt = n) :
    len.toNatClampNeg = n ∧ len ≠ -1 ∧ ¬ len ≤ -2 ∧ ¬ len < 0 := by
  have hrange := int64_range len
  have hof : len = Int64.ofInt n := by rw [← h, Int64.ofInt_toInt]
  rw [hof]
  apply ofInt_length_facts
  omega

/-- A text without `"\r\n"` is the header line of what follows it.
SOURCE: resp_value.cc:34-39, 71-77, 104-110 -/
theorem header_append (missing : String) (hline : ¬ crlf <:+: text) (rest : Bytes) :
    header missing (text ++ (crlf ++ rest)) = .ok (text, rest) := by
  rw [header, splitLine_append hline]

/-- A header line is a text without `"\r\n"`, with a `"\r\n"` behind it.
SOURCE: resp_value.cc:34-39, 71-77, 104-110 -/
theorem header_eq_ok {missing : String} :
    header missing b = .ok (text, rest) ↔ b = text ++ (crlf ++ rest) ∧ ¬ crlf <:+: text := by
  rw [← splitLine_eq_some, header]
  cases splitLine b with
  | none => simp
  | some line => simp

/-- A payload of the given length is read off the front of what follows it.
SOURCE: resp_value.cc:78-98 -/
theorem payload_append {s : Bytes} {len : Int64} (hlen : len.toInt = s.length) (rest : Bytes) :
    payload len (s ++ (crlf ++ rest)) = .ok (some s, rest) := by
  obtain ⟨hn, h1, h2, -⟩ := toNatClampNeg_of_toInt hlen
  have hfits : ¬ (s ++ (crlf ++ rest)).length < s.length + 2 := by
    simp only [List.length_append, crlf, List.length_cons]
    omega
  have hend : ((s ++ (crlf ++ rest)).drop s.length).take 2 = crlf := by
    rw [List.drop_left]
    rfl
  rw [payload, if_neg h1, if_neg h2, hn, if_neg hfits, if_pos hend, List.take_left,
    List.drop_length_add_append]
  rfl

/-- A payload has the length its header gives and is followed by `"\r\n"`.
SOURCE: resp_value.cc:78-98 -/
theorem payload_eq_ok {len : Int64} {r : Option Bytes} (h : payload len b = .ok (r, rest)) :
    (r = none ∧ len = -1 ∧ rest = b) ∨
      ∃ s, r = some s ∧ len.toInt = s.length ∧ b = s ++ (crlf ++ rest) := by
  unfold payload at h
  split_ifs at h with h1 h2 h3 h4
  · cases h
    exact Or.inl ⟨rfl, h1, rfl⟩
  · cases h
    rw [Int64.le_iff_toInt_le, show (-2 : Int64).toInt = -2 from rfl] at h2
    have h1' : len.toInt ≠ -1 := fun heq => h1 (Int64.toInt_inj.mp heq)
    have hclamp := len.toNat_toInt
    have hend : b.drop len.toNatClampNeg = crlf ++ b.drop (len.toNatClampNeg + 2) := by
      rw [← h4, ← List.drop_drop, List.take_append_drop]
    refine Or.inr ⟨b.take len.toNatClampNeg, rfl, ?_, ?_⟩
    · rw [List.length_take]
      omega
    · rw [← hend, List.take_append_drop]

/-- The element loop reads frames one after another.
SOURCE: resp_value.cc:115-120 -/
theorem fronts_append {pieces : List RespFrame}
    (h : ∀ p ∈ pieces, p.bytes ≠ [] ∧ ∀ rest, front (p.bytes ++ rest) = .ok (p.value, rest))
    (rest : Bytes) :
    fronts pieces.length (pieces.flatMap RespFrame.bytes ++ rest) =
      .ok (pieces.map RespFrame.value, rest) := by
  induction pieces with
  | nil => exact fronts_zero rest
  | cons p pieces ih =>
    obtain ⟨hne, hfront⟩ := h p List.mem_cons_self
    have hrest := ih fun q hq => h q (List.mem_cons_of_mem p hq)
    have hnil : p.bytes ++ (pieces.flatMap RespFrame.bytes ++ rest) ≠ [] :=
      List.append_ne_nil_of_left_ne_nil hne _
    rw [List.flatMap_cons, List.append_assoc, List.length_cons, fronts_succ, if_neg hnil, hfront]
    simp only [bind, Except.bind, hrest, Except.map, List.map_cons]

/-- **A frame is read off the front of whatever follows it.**
SOURCE: resp_value.cc:10-122 -/
theorem Layout.front (h : Layout b fields v) (rest : Bytes) :
    front (b ++ rest) = .ok (v, rest) := by
  induction h generalizing rest with
  | simpleString hs =>
    rw [List.cons_append, List.append_assoc, front_cons, if_pos rfl, header_append _ hs]
    rfl
  | simpleError hm =>
    rw [List.cons_append, List.append_assoc, front_cons, if_neg (by decide), if_pos rfl,
      header_append _ hm]
    rfl
  | integer hline hn =>
    rw [List.cons_append, List.append_assoc, front_cons, if_neg (by decide), if_neg (by decide),
      if_pos rfl, header_append _ hline]
    simp only [bind, Except.bind, hn, Except.map]
  | nullBulkString hline hn =>
    rw [List.cons_append, List.append_assoc, front_cons, if_neg (by decide), if_neg (by decide),
      if_neg (by decide), if_pos rfl, header_append _ hline]
    simp only [bind, Except.bind, hn, payload, reduceIte, Except.map]
  | bulkString hline hn hlen =>
    simp only [List.cons_append, List.append_assoc]
    rw [front_cons, if_neg (by decide), if_neg (by decide), if_neg (by decide), if_pos rfl,
      header_append _ hline]
    simp only [bind, Except.bind, hn, payload_append hlen, Except.map]
  | @array text len pieces hline hn hlen hpieces ih =>
    obtain ⟨hcount, -, -, hnonneg⟩ := toNatClampNeg_of_toInt hlen
    have helements := fronts_append (fun p hp => ⟨(hpieces p hp).ne_nil, ih p hp⟩) rest
    simp only [List.cons_append, List.append_assoc]
    rw [front_cons, if_neg (by decide), if_neg (by decide), if_neg (by decide),
      if_neg (by decide), if_pos rfl, header_append _ hline]
    simp only [bind, Except.bind, hn, if_neg hnonneg, hcount, helements, Except.map]

/-- What the element loop reads are frames, if what is read off the front of a string is one.
SOURCE: resp_value.cc:115-120 -/
theorem exists_pieces {bound : ℕ}
    (ih : ∀ b v rest, b.length < bound → front b = .ok (v, rest) →
      ∃ p fields, b = p ++ rest ∧ Layout p fields v)
    (count : ℕ) {b rest : Bytes} {vs : List RespValue} (hb : b.length < bound)
    (h : fronts count b = .ok (vs, rest)) :
    ∃ pieces : List RespFrame, pieces.length = count ∧ vs = pieces.map RespFrame.value ∧
      b = pieces.flatMap RespFrame.bytes ++ rest ∧
      ∀ p ∈ pieces, Layout p.bytes p.fields p.value := by
  induction count generalizing b vs with
  | zero =>
    rw [fronts_zero] at h
    cases h
    exact ⟨[], rfl, rfl, rfl, by simp⟩
  | succ count ihc =>
    rw [fronts_succ] at h
    split_ifs at h with hnil
    obtain ⟨⟨w, tail⟩, hw, hrest⟩ := bind_eq_ok.mp h
    obtain ⟨⟨ws, rest'⟩, hws, hpair⟩ := map_eq_ok.mp hrest
    cases hpair
    obtain ⟨p, fields, rfl, hp⟩ := ih _ w tail hb hw
    have htail : tail.length < bound := by
      rw [List.length_append] at hb
      omega
    obtain ⟨pieces, hlength, rfl, rfl, hpieces⟩ := ihc htail hws
    refine ⟨⟨p, fields, w⟩ :: pieces, ?_, rfl, ?_, ?_⟩
    · rw [List.length_cons, hlength]
    · rw [List.flatMap_cons, List.append_assoc]
    · intro q hq
      rcases List.mem_cons.mp hq with rfl | hq
      · exact hp
      · exact hpieces q hq

/-- The bytes of a bulk string are a frame.
SOURCE: resp_value.cc:68-99 -/
theorem layout_of_payload {len : Int64} {r : Option Bytes} (hline : ¬ crlf <:+: text)
    (hn : stoll text = .ok len) (h : payload len b = .ok (r, rest)) :
    ∃ p fields, 36 :: (text ++ (crlf ++ b)) = p ++ rest ∧ Layout p fields (.bulkString r) := by
  rcases payload_eq_ok h with ⟨rfl, rfl, rfl⟩ | ⟨s, rfl, hlen, rfl⟩
  · refine ⟨_, _, ?_, .nullBulkString hline hn⟩
    rw [List.cons_append, List.append_assoc]
  · refine ⟨_, _, ?_, .bulkString hline hn hlen⟩
    simp only [List.cons_append, List.append_assoc]

/-- The bytes of an array are a frame, if those of its elements are.
SOURCE: resp_value.cc:101-122 -/
theorem layout_of_pieces {len : Int64} {pieces : List RespFrame} (hline : ¬ crlf <:+: text)
    (hn : stoll text = .ok len) (hneg : ¬ len < 0) (hlength : pieces.length = len.toNatClampNeg)
    (hpieces : ∀ p ∈ pieces, Layout p.bytes p.fields p.value) :
    ∃ p fields, 42 :: (text ++ (crlf ++ (pieces.flatMap RespFrame.bytes ++ rest))) = p ++ rest ∧
      Layout p fields (.array (pieces.map RespFrame.value)) := by
  have hlen : len.toInt = pieces.length := by
    have hclamp := len.toNat_toInt
    rw [Int64.lt_iff_toInt_lt, show (0 : Int64).toInt = 0 from rfl] at hneg
    omega
  refine ⟨_, _, ?_, .array hline hn hlen hpieces⟩
  simp only [List.cons_append, List.append_assoc]

/-- **What is read off the front of a string is a frame.**
SOURCE: resp_value.cc:10-122 -/
theorem layout_of_front (h : front b = .ok (v, rest)) :
    ∃ p fields, b = p ++ rest ∧ Layout p fields v := by
  -- the elements of an array are read off a shorter string
  induction hb : b.length using Nat.strongRecOn generalizing b v rest with
  | ind bound ih =>
    have ih' : ∀ b v rest, b.length < bound → MyRedis.Analysis.front b = .ok (v, rest) →
        ∃ p fields, b = p ++ rest ∧ Layout p fields v :=
      fun b v rest hlt hfront => ih b.length hlt hfront rfl
    cases b with
    | nil =>
      rw [front_nil] at h
      cases h
    | cons c b =>
      rw [front_cons] at h
      split_ifs at h with h43 h45 h58 h36 h42
      · obtain ⟨⟨s, tail⟩, hline, hpair⟩ := map_eq_ok.mp h
        cases hpair
        obtain ⟨rfl, hs⟩ := header_eq_ok.mp hline
        refine ⟨_, _, ?_, .simpleString hs⟩
        rw [h43, List.cons_append, List.append_assoc]
      · obtain ⟨⟨m, tail⟩, hline, hpair⟩ := map_eq_ok.mp h
        cases hpair
        obtain ⟨rfl, hm⟩ := header_eq_ok.mp hline
        refine ⟨_, _, ?_, .simpleError hm⟩
        rw [h45, List.cons_append, List.append_assoc]
      · obtain ⟨⟨text, tail⟩, hline, hnumber⟩ := bind_eq_ok.mp h
        obtain ⟨n, hn, hpair⟩ := map_eq_ok.mp hnumber
        cases hpair
        obtain ⟨rfl, htext⟩ := header_eq_ok.mp hline
        refine ⟨_, _, ?_, .integer htext hn⟩
        rw [h58, List.cons_append, List.append_assoc]
      · obtain ⟨⟨text, tail⟩, hline, hnumber⟩ := bind_eq_ok.mp h
        obtain ⟨len, hn, hread⟩ := bind_eq_ok.mp hnumber
        obtain ⟨⟨r, rest'⟩, hpayload, hpair⟩ := map_eq_ok.mp hread
        cases hpair
        obtain ⟨rfl, htext⟩ := header_eq_ok.mp hline
        rw [h36]
        exact layout_of_payload htext hn hpayload
      · obtain ⟨⟨text, tail⟩, hline, hnumber⟩ := bind_eq_ok.mp h
        obtain ⟨len, hn, hread⟩ := bind_eq_ok.mp hnumber
        obtain ⟨rfl, htext⟩ := header_eq_ok.mp hline
        simp only at hread
        split_ifs at hread with hneg
        obtain ⟨⟨vs, rest'⟩, helements, hpair⟩ := map_eq_ok.mp hread
        cases hpair
        have htail : tail.length < bound := by
          simp only [List.length_cons, List.length_append] at hb
          omega
        obtain ⟨pieces, hlength, rfl, rfl, hpieces⟩ := exists_pieces ih' _ htail helements
        rw [h42]
        exact layout_of_pieces htext hn hneg hlength hpieces

/-- **The parser returns `v` and `n` exactly where the first `n` bytes are a frame of `v`.**
SOURCE: resp_value.cc:10-122, 185-188 -/
theorem fromString_eq_ok_iff {s : Bytes} {n : ℕ} :
    fromString s = .ok (v, n) ↔ n ≤ s.length ∧ ∃ fields, Layout (s.take n) fields v := by
  rw [fromString_eq_ok]
  apply and_congr_right
  intro hn
  constructor
  · intro h
    obtain ⟨p, fields, hs, hp⟩ := layout_of_front h
    have htake : s.take n = p := by
      have heq : s.take n ++ s.drop n = p ++ s.drop n := by rw [List.take_append_drop, ← hs]
      exact List.append_cancel_right heq
    exact ⟨fields, htake ▸ hp⟩
  · rintro ⟨fields, h⟩
    have hfront := h.front (s.drop n)
    rwa [List.take_append_drop] at hfront

/-- A frame is parsed, whatever follows it.
SOURCE: resp_value.cc:185-188 -/
theorem Layout.fromString (h : Layout b fields v) (rest : Bytes) :
    fromString (b ++ rest) = .ok (v, b.length) := by
  apply fromString_eq_ok_iff.mpr
  rw [List.take_left]
  refine ⟨?_, fields, h⟩
  rw [List.length_append]
  exact Nat.le_add_right _ _

end Layout

end MyRedis.Analysis

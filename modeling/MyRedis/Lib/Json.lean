import Mathlib.Computability.Language

/-!
# The grammar of JSON

The grammar of RFC 8259, read at the level of bytes: a byte above `0x7f` counts as an ordinary
character of a string.  What is regular in it is a `Language`; the values are derived together
with their syntax tree, whose leaves keep the text they stand for.

`Strict` is what the grammar leaves open: an object names each member once, and a number is an
integer in its shortest form.
-/

set_option autoImplicit false

namespace MyRedis.Lib.Json

open scoped Computability

/-! ## Tokens -/

/-- One byte between two. -/
def range (lo hi : UInt8) : Language UInt8 := {t | ∃ b, lo ≤ b ∧ b ≤ hi ∧ t = [b]}

/-- One of some bytes. -/
def oneOf (bs : List UInt8) : Language UInt8 := {t | ∃ b ∈ bs, t = [b]}

/-- `ws = *( %x20 / %x09 / %x0A / %x0D )` -/
def ws : Language UInt8 := (oneOf [0x20, 0x09, 0x0a, 0x0d])∗

/-- A structural character, with white space around it. -/
def token (b : UInt8) : Language UInt8 := ws * {[b]} * ws

/-- `DIGIT = %x30-39` -/
def digit : Language UInt8 := range 0x30 0x39

/-- `digit1-9 = %x31-39` -/
def digit19 : Language UInt8 := range 0x31 0x39

/-- `HEXDIG`, of either case. -/
def hexdig : Language UInt8 := digit + range 0x41 0x46 + range 0x61 0x66

/-- `unescaped = %x20-21 / %x23-5B / %x5D-10FFFF` -/
def unescaped : Language UInt8 := range 0x20 0x21 + range 0x23 0x5b + range 0x5d 0xff

/-- An escape: a backslash and one of `" \ / b f n r t`, or `u` and four digits. -/
def escaped : Language UInt8 :=
  {[0x5c]} * (oneOf [0x22, 0x5c, 0x2f, 0x62, 0x66, 0x6e, 0x72, 0x74] +
    {[0x75]} * (hexdig * (hexdig * (hexdig * hexdig))))

/-- `char = unescaped / escape ( ... )` -/
def char : Language UInt8 := unescaped + escaped

/-- `string = quotation-mark *char quotation-mark` -/
def string : Language UInt8 := {[0x22]} * char∗ * {[0x22]}

/-- `int = zero / ( digit1-9 *DIGIT )` -/
def int : Language UInt8 := {[0x30]} + digit19 * digit∗

/-- `frac = decimal-point 1*DIGIT` -/
def frac : Language UInt8 := {[0x2e]} * (digit * digit∗)

/-- `exp = e [ minus / plus ] 1*DIGIT` -/
def exp : Language UInt8 := oneOf [0x65, 0x45] * (1 + oneOf [0x2d, 0x2b]) * (digit * digit∗)

/-- `number = [ minus ] int [ frac ] [ exp ]` -/
def number : Language UInt8 := (1 + {[0x2d]}) * int * (1 + frac) * (1 + exp)

/-! ## Values -/

/-- A syntax tree. -/
inductive Tree where
  | false
  | null
  | true
  | number (text : List UInt8)
  | string (text : List UInt8)
  | array (items : List Tree)
  | object (members : List (List UInt8 × Tree))

mutual

/-- `value = false / null / true / object / array / number / string` -/
inductive Value : Tree → List UInt8 → Prop where
  | false : Value .false [0x66, 0x61, 0x6c, 0x73, 0x65]
  | null : Value .null [0x6e, 0x75, 0x6c, 0x6c]
  | true : Value .true [0x74, 0x72, 0x75, 0x65]
  | number {t : List UInt8} (h : t ∈ number) : Value (.number t) t
  | string {t : List UInt8} (h : t ∈ string) : Value (.string t) t
  | emptyArray {a b : List UInt8} (ha : a ∈ token 0x5b) (hb : b ∈ token 0x5d) :
    Value (.array []) (a ++ b)
  | array {a t b : List UInt8} {items : List Tree} (ha : a ∈ token 0x5b) (h : Items items t)
    (hb : b ∈ token 0x5d) : Value (.array items) (a ++ (t ++ b))
  | emptyObject {a b : List UInt8} (ha : a ∈ token 0x7b) (hb : b ∈ token 0x7d) :
    Value (.object []) (a ++ b)
  | object {a t b : List UInt8} {members : List (List UInt8 × Tree)} (ha : a ∈ token 0x7b)
    (h : Members members t) (hb : b ∈ token 0x7d) : Value (.object members) (a ++ (t ++ b))

/-- `value *( value-separator value )` -/
inductive Items : List Tree → List UInt8 → Prop where
  | last {v : Tree} {t : List UInt8} (h : Value v t) : Items [v] t
  | cons {v : Tree} {vs : List Tree} {t a u : List UInt8} (h : Value v t) (ha : a ∈ token 0x2c)
    (hs : Items vs u) : Items (v :: vs) (t ++ (a ++ u))

/-- `member *( value-separator member )`, where `member = string name-separator value` -/
inductive Members : List (List UInt8 × Tree) → List UInt8 → Prop where
  | last {v : Tree} {k a t : List UInt8} (hk : k ∈ string) (ha : a ∈ token 0x3a) (h : Value v t) :
    Members [(k, v)] (k ++ (a ++ t))
  | cons {v : Tree} {ms : List (List UInt8 × Tree)} {k a t b u : List UInt8} (hk : k ∈ string)
    (ha : a ∈ token 0x3a) (h : Value v t) (hb : b ∈ token 0x2c) (hs : Members ms u) :
    Members ((k, v) :: ms) (k ++ (a ++ (t ++ (b ++ u))))

end

/-- `JSON-text = ws value ws` -/
def Text (v : Tree) (t : List UInt8) : Prop :=
  ∃ a ∈ ws, ∃ b ∈ ws, ∃ u, Value v u ∧ t = a ++ (u ++ b)

/-! ## What the grammar leaves open -/

/-- The first tree is part of the second one. -/
inductive Within (v : Tree) : Tree → Prop where
  | refl : Within v v
  | item {u : Tree} {items : List Tree} (hu : u ∈ items) (h : Within v u) :
    Within v (.array items)
  | member {u : Tree} {k : List UInt8} {members : List (List UInt8 × Tree)}
    (hu : (k, u) ∈ members) (h : Within v u) : Within v (.object members)

/-- An integer in its shortest form. -/
def canonical : Language UInt8 := {[0x30]} + (1 + {[0x2d]}) * (digit19 * digit∗)

/-- A string literal without control characters. -/
def Printable (t : List UInt8) : Prop := t ∈ string ∧ ∀ b ∈ t, 0x20 ≤ b

/-- The members have different names, the names and strings are printable and the numbers
canonical. -/
def Strict : Tree → Prop
  | .number t => t ∈ canonical
  | .string t => Printable t
  | .object members => (members.map Prod.fst).Nodup ∧ ∀ m ∈ members, Printable m.1
  | _ => True

/-! ## Rules -/

section Rules

variable {b : UInt8} {t : List UInt8}

/-- A byte between the bounds, as a text. -/
theorem mem_range {lo hi : UInt8} (hlo : lo ≤ b) (hhi : b ≤ hi) : [b] ∈ range lo hi :=
  ⟨b, hlo, hhi, rfl⟩

/-- A byte of the list, as a text. -/
theorem mem_oneOf {bs : List UInt8} (h : b ∈ bs) : [b] ∈ oneOf bs := ⟨b, h, rfl⟩

/-- The only text of a language with one text. -/
theorem mem_single (t : List UInt8) : t ∈ ({t} : Language UInt8) := rfl

/-- What is written for each byte of a list. -/
theorem flatMap_mem_kstar {l : Language UInt8} {f : UInt8 → List UInt8}
    (h : ∀ b ∈ t, f b ∈ l) : t.flatMap f ∈ l∗ := by
  rw [List.flatMap_def]
  apply Language.join_mem_kstar
  intro u hu
  obtain ⟨b, hb, rfl⟩ := List.mem_map.mp hu
  exact h b hb

/-- A structural character need not have white space around it. -/
theorem mem_token (b : UInt8) : [b] ∈ token b :=
  Language.append_mem_mul (Language.append_mem_mul (Language.nil_mem_kstar _) (mem_single [b]))
    (Language.nil_mem_kstar _)

/-- A value is a text without white space around it. -/
theorem text_of_value {v : Tree} (h : Value v t) : Text v t :=
  ⟨[], Language.nil_mem_kstar _, [], Language.nil_mem_kstar _, t, h, (List.append_nil t).symm⟩

/-- A canonical integer is a number. -/
theorem number_of_canonical (h : t ∈ canonical) : t ∈ number := by
  have hnone {l : Language UInt8} : [] ∈ 1 + l := Or.inl rfl
  have hint {u : List UInt8} (hu : u ∈ (1 + {[0x2d]}) * int) : u ∈ number := by
    have hall := Language.append_mem_mul (Language.append_mem_mul hu (hnone (l := frac)))
      (hnone (l := exp))
    rwa [List.append_nil, List.append_nil] at hall
  rcases h with h | h
  · exact hint (Language.append_mem_mul hnone (Or.inl h))
  · obtain ⟨a, ha, u, hu, rfl⟩ := Language.mem_mul.mp h
    exact hint (Language.append_mem_mul ha (Or.inr hu))

end Rules

/-! ## Control characters -/

/-- No text of the language has a control character. -/
def Clear (l : Language UInt8) : Prop := ∀ t ∈ l, ∀ b ∈ t, 0x20 ≤ b

section Clear

variable {l m : Language UInt8}

/-- Two clear languages together are clear. -/
theorem Clear.add (hl : Clear l) (hm : Clear m) : Clear (l + m) := by
  rintro t (ht | ht)
  · exact hl t ht
  · exact hm t ht

/-- Texts of two clear languages, one after the other, are clear. -/
theorem Clear.mul (hl : Clear l) (hm : Clear m) : Clear (l * m) := by
  intro t ht b hb
  obtain ⟨u, hu, v, hv, rfl⟩ := Language.mem_mul.mp ht
  obtain hb | hb := List.mem_append.mp hb
  · exact hl u hu b hb
  · exact hm v hv b hb

/-- Any number of texts of a clear language, one after another, are clear. -/
theorem Clear.kstar (hl : Clear l) : Clear l∗ := by
  intro t ht b hb
  obtain ⟨parts, rfl, hparts⟩ := Language.mem_kstar.mp ht
  obtain ⟨u, hu, hb⟩ := List.mem_flatten.mp hb
  exact hl u (hparts u hu) b hb

/-- A range of bytes is clear if its least byte is not a control character. -/
theorem clear_range {lo hi : UInt8} (h : 0x20 ≤ lo) : Clear (range lo hi) := by
  rintro t ⟨c, hlo, -, rfl⟩ b hb
  rw [List.mem_singleton.mp hb]
  exact UInt8.le_trans h hlo

/-- A choice of bytes is clear if none of them is a control character. -/
theorem clear_oneOf {bs : List UInt8} (h : bs.all (0x20 ≤ ·) = true) : Clear (oneOf bs) := by
  rintro t ⟨c, hc, rfl⟩ b hb
  rw [List.mem_singleton.mp hb]
  exact of_decide_eq_true (List.all_eq_true.mp h c hc)

/-- One byte is clear if it is not a control character. -/
theorem clear_single {c : UInt8} (h : 0x20 ≤ c) : Clear {[c]} := by
  rintro t rfl b hb
  rw [List.mem_singleton.mp hb]
  exact h

/-- Hexadecimal digits are no control characters. -/
theorem clear_hexdig : Clear hexdig :=
  ((clear_range (by decide)).add (clear_range (by decide))).add (clear_range (by decide))

/-- No character of a string literal, escaped or not, is written with a control character. -/
theorem clear_char : Clear char := by
  apply Clear.add
  · exact ((clear_range (by decide)).add (clear_range (by decide))).add (clear_range (by decide))
  · apply (clear_single (by decide)).mul
    apply (clear_oneOf (by decide)).add
    apply (clear_single (by decide)).mul
    exact clear_hexdig.mul (clear_hexdig.mul (clear_hexdig.mul clear_hexdig))

/-- **A string literal has no control character in it.** -/
theorem printable_of_mem {t : List UInt8} (h : t ∈ string) : Printable t :=
  ⟨h, ((clear_single (by decide)).mul clear_char.kstar).mul (clear_single (by decide)) t h⟩

end Clear

end MyRedis.Lib.Json

import MyRedis.Analysis.RespParser
import MyRedis.Lib.Streaming

/-!
# More input never changes a verdict of the RESP parser

`RespValue::FromString` distinguishes two failures: `std::out_of_range`, on which the
caller waits for more input, and `std::invalid_argument`, on which it gives up.  This
file proves what that distinction relies on.  A value parsed from `str` is parsed from
every extension `str ++ t` as well, and a `std::invalid_argument` on `str` is thrown on
every extension (`variantAt_keeps`).  A parsed value ends inside the string
(`variantAt_bounds`).

With both, `RespValue::FromString` is a `FrontParser`, and the general theory of
`MyRedis.Lib.Streaming` applies to it.
-/

set_option autoImplicit false

namespace MyRedis.Analysis

open MyRedis.Model MyRedis.Model.RespValue MyRedis.Lib

/-- `b` keeps the verdict of `a`, unless `a` still waits for input. -/
def Keeps {γ : Type} (a b : Except StdException γ) : Prop :=
  match a with
  | .ok r => b = .ok r
  | .error (.invalidArgument what) => b = .error (.invalidArgument what)
  | .error (.outOfRange _) => True

section Keeps

variable {γ δ : Type}

/-- A computation keeps its own verdict. -/
theorem Keeps.refl (a : Except StdException γ) : Keeps a a := by
  rcases a with (_ | _) | _ <;> simp [Keeps]

/-- A computation that waits for input binds nobody. -/
theorem Keeps.of_waiting {a b : Except StdException γ} {what : String}
    (h : a = .error (.outOfRange what)) : Keeps a b := by
  rw [h]
  trivial

/-- Two computations that keep their verdicts do so one after the other. -/
theorem Keeps.bind {a b : Except StdException γ} {f g : γ → Except StdException δ}
    (hab : Keeps a b) (hfg : ∀ x, a = .ok x → Keeps (f x) (g x)) :
    Keeps (a >>= f) (b >>= g) := by
  rcases a with (what | what) | x
  · trivial
  · rw [Keeps] at hab
    rw [hab]
    exact Keeps.refl _
  · rw [Keeps] at hab
    rw [hab]
    exact hfg x rfl

/-- A function of the results changes nothing. -/
theorem Keeps.map {a b : Except StdException γ} (f : γ → δ) (hab : Keeps a b) :
    Keeps (a.map f) (b.map f) := by
  rcases a with (what | what) | x
  · trivial
  · rw [Keeps] at hab
    rw [hab]
    exact Keeps.refl _
  · rw [Keeps] at hab
    rw [hab]
    exact Keeps.refl _

/-- A choice that does not depend on what follows. -/
theorem Keeps.ite {c : Prop} [Decidable c] {a a' b b' : Except StdException γ}
    (ha : c → Keeps a a') (hb : ¬ c → Keeps b b') :
    Keeps (if c then a else b) (if c then a' else b') := by
  by_cases h : c
  · rw [if_pos h, if_pos h]
    exact ha h
  · rw [if_neg h, if_neg h]
    exact hb h

end Keeps

variable {str : Bytes} {pos : ℕ}

/-! ## Bounds -/

/-- A header line ends behind the type prefix and inside the string.
SOURCE: resp_value.cc:34-39, 71-77, 104-110 -/
theorem lineAt_bounds {missing : String} {text : Bytes} {p : ℕ}
    (h : lineAt missing str pos = .ok (text, p)) : pos + 3 ≤ p ∧ p ≤ str.length := by
  rw [lineAt_eq] at h
  cases hf : find str crlf (pos + 1) with
  | none => simp [hf] at h
  | some e =>
    simp only [hf, Except.ok.injEq, Prod.mk.injEq] at h
    have hle := ((find_eq_some (by decide)).mp hf).1
    have hlen := find_add_length_le (by decide) hf
    simp only [crlf, List.length_cons, List.length_nil] at hlen
    omega

/-- A payload ends inside the string, if the length line before it did.
SOURCE: resp_value.cc:78-98 -/
theorem payloadAt_bounds {len : Int64} {s : Option Bytes} {p : ℕ} (hpos : pos ≤ str.length)
    (h : payloadAt str pos len = .ok (s, p)) : pos ≤ p ∧ p ≤ str.length := by
  unfold payloadAt at h
  split_ifs at h with h1 h2 h3 h4 <;>
    simp only [Except.ok.injEq, Prod.mk.injEq] at h <;> omega

/-- Induction over the positions of a string from its end: past the end there is nothing
to parse, and before it every later position may be assumed.
SOURCE: resp_value.cc:10-122 -/
theorem position_induct {motive : ℕ → Prop} (str : Bytes)
    (past : ∀ pos, str.length ≤ pos → motive pos)
    (inside : ∀ pos, pos < str.length → (∀ q, pos < q → motive q) → motive pos)
    (pos : ℕ) : motive pos := by
  induction hk : str.length - pos using Nat.strongRecOn generalizing pos with
  | ind k ih =>
    by_cases hpos : pos < str.length
    · refine inside pos hpos fun q hq => ?_
      by_cases hq' : q < str.length
      · exact ih (str.length - q) (by omega) q rfl
      · exact past q (by omega)
    · exact past pos (by omega)

/-- The element loop stays inside the string, if every value it reads does.
SOURCE: resp_value.cc:115-120 -/
theorem elementsAt_bounds
    (hv : ∀ q, pos ≤ q → ∀ v p, variantAt str q = .ok (v, p) → q < p ∧ p ≤ str.length)
    {count : ℕ} {vs : List RespValue} {p : ℕ} (hpos : pos ≤ str.length)
    (h : elementsAt str pos count = .ok (vs, p)) : pos ≤ p ∧ p ≤ str.length := by
  induction count generalizing pos vs with
  | zero =>
    rw [elementsAt_zero] at h
    cases h
    exact ⟨le_rfl, hpos⟩
  | succ count ih =>
    rw [elementsAt_succ] at h
    split_ifs at h
    obtain ⟨v, hvar, h⟩ := bind_eq_ok.mp h
    obtain ⟨r, hel, hr⟩ := map_eq_ok.mp h
    cases hr
    obtain ⟨hlt, hle⟩ := hv pos le_rfl v.1 v.2 hvar
    obtain ⟨hlt', hle'⟩ := ih (fun q hq => hv q (hlt.le.trans hq)) hle hel
    exact ⟨hlt.le.trans hlt', hle'⟩

/-- **A parsed value ends behind its type prefix and inside the string.**
SOURCE: resp_value.cc:10-122 -/
theorem variantAt_bounds (str : Bytes) (pos : ℕ) :
    ∀ v p, variantAt str pos = .ok (v, p) → pos < p ∧ p ≤ str.length := by
  induction pos using position_induct str with
  | past pos hpos =>
    intro v p h
    rw [variantAt_eq, List.getElem?_eq_none hpos] at h
    cases h
  | inside pos hpos ih =>
    intro v p h
    rw [variantAt_eq, List.getElem?_eq_getElem hpos] at h
    simp only at h
    split_ifs at h
    · obtain ⟨line, hline, hr⟩ := map_eq_ok.mp h
      cases hr
      have := lineAt_bounds hline
      omega
    · obtain ⟨line, hline, hr⟩ := map_eq_ok.mp h
      cases hr
      have := lineAt_bounds hline
      omega
    · obtain ⟨line, hline, h⟩ := bind_eq_ok.mp h
      obtain ⟨n, hn, hr⟩ := map_eq_ok.mp h
      cases hr
      have := lineAt_bounds hline
      omega
    · obtain ⟨r, hbody, hr⟩ := map_eq_ok.mp h
      cases hr
      obtain ⟨line, hline, hbody⟩ := bind_eq_ok.mp hbody
      obtain ⟨len, -, hpayload⟩ := bind_eq_ok.mp hbody
      have hl := lineAt_bounds hline
      have := payloadAt_bounds hl.2 hpayload
      omega
    · obtain ⟨r, hbody, hr⟩ := map_eq_ok.mp h
      cases hr
      obtain ⟨line, hline, hbody⟩ := bind_eq_ok.mp hbody
      obtain ⟨len, -, helements⟩ := bind_eq_ok.mp hbody
      have hl := lineAt_bounds hline
      split_ifs at helements
      have := elementsAt_bounds (fun q hq => ih q (by omega)) hl.2 helements
      omega

/-! ## Extensions -/

variable (t : Bytes)

/-- A header line that is complete is the same line of every extension.
SOURCE: resp_value.cc:34-39, 71-77, 104-110 -/
theorem lineAt_keeps (missing : String) (str : Bytes) (pos : ℕ) :
    Keeps (lineAt missing str pos) (lineAt missing (str ++ t) pos) := by
  rw [lineAt_eq, lineAt_eq]
  cases hf : find str crlf (pos + 1) with
  | none => trivial
  | some e =>
    have hle := ((find_eq_some (by decide)).mp hf).1
    have hlen := find_add_length_le (by decide) hf
    have htext : substr (str ++ t) (pos + 1) (e - pos - 1) = substr str (pos + 1) (e - pos - 1) :=
      substr_append t (by omega)
    simp only [find_append t (by decide) hf, Keeps, htext]

/-- A payload that is complete is the same payload of every extension.
SOURCE: resp_value.cc:78-98 -/
theorem payloadAt_keeps (str : Bytes) (pos : ℕ) (len : Int64) :
    Keeps (payloadAt str pos len) (payloadAt (str ++ t) pos len) := by
  unfold payloadAt
  by_cases h1 : len = -1
  · simp only [if_pos h1, Keeps]
  by_cases h2 : len ≤ -2
  · simp only [if_neg h1, if_pos h2, Keeps]
  simp only [if_neg h1, if_neg h2]
  by_cases h3 : str.length < pos + len.toNatClampNeg + 2
  · exact Keeps.of_waiting (if_pos h3)
  · have h3' : ¬ (str ++ t).length < pos + len.toNatClampNeg + 2 := by
      rw [List.length_append]
      omega
    rw [if_neg h3, if_neg h3', substr_append t (by omega), substr_append t (by omega)]
    exact Keeps.refl _

/-- The element loop keeps its verdict, if every value it reads does.
SOURCE: resp_value.cc:115-120 -/
theorem elementsAt_keeps (count : ℕ)
    (hv : ∀ q, pos ≤ q → Keeps (variantAt str q) (variantAt (str ++ t) q)) :
    Keeps (elementsAt str pos count) (elementsAt (str ++ t) pos count) := by
  induction count generalizing pos with
  | zero => simp only [elementsAt_zero, Keeps]
  | succ count ih =>
    rw [elementsAt_succ, elementsAt_succ]
    by_cases hend : str.length ≤ pos
    · exact Keeps.of_waiting (if_pos hend)
    · rw [if_neg hend, if_neg (by simp; omega)]
      refine Keeps.bind (hv pos le_rfl) fun v hvar => Keeps.map _ (ih fun q hq => hv q ?_)
      have := variantAt_bounds str pos v.1 v.2 hvar
      omega

/-- **A success and a `std::invalid_argument` are final**: they do not change when more
input arrives behind `str`.
SOURCE: resp_value.cc:10-122 -/
theorem variantAt_keeps (str t : Bytes) (pos : ℕ) :
    Keeps (variantAt str pos) (variantAt (str ++ t) pos) := by
  induction pos using position_induct str with
  | past pos hpos => exact Keeps.of_waiting (by rw [variantAt_eq, List.getElem?_eq_none hpos])
  | inside pos hpos ih =>
    have hget : (str ++ t)[pos]? = some str[pos] := by
      rw [List.getElem?_append_left hpos, List.getElem?_eq_getElem hpos]
    rw [variantAt_eq, variantAt_eq, hget, List.getElem?_eq_getElem hpos]
    apply Keeps.ite
    · intro _
      exact Keeps.map _ (lineAt_keeps t _ str pos)
    intro _
    apply Keeps.ite
    · intro _
      exact Keeps.map _ (lineAt_keeps t _ str pos)
    intro _
    apply Keeps.ite
    · intro _
      exact Keeps.bind (lineAt_keeps t _ str pos) fun line _ => Keeps.refl _
    intro _
    apply Keeps.ite
    · intro _
      exact Keeps.map _ (Keeps.bind (lineAt_keeps t _ str pos) fun line _ =>
        Keeps.bind (Keeps.refl _) fun len _ => payloadAt_keeps t str line.2 len)
    intro _
    apply Keeps.ite
    · intro _
      refine Keeps.map _ (Keeps.bind (lineAt_keeps t _ str pos) fun line hline =>
        Keeps.bind (Keeps.refl _) fun len _ => ?_)
      have hl := lineAt_bounds (p := line.2) hline
      exact Keeps.ite (fun _ => Keeps.refl _)
        fun _ => elementsAt_keeps t _ fun q hq => ih q (by omega)
    intro _
    exact Keeps.refl _

/-! ## `RespValue::FromString` as a front parser -/

/-- `FromString` reads the value at the first position.
SOURCE: resp_value.cc:185-188 -/
theorem fromString_eq (str : Bytes) : fromString str = variantAt str 0 := rfl

/-- `RespValue::FromString` takes one value off the front of its input; its final
failures are the `std::invalid_argument`s. -/
def respFront : Streaming.FrontParser UInt8 RespValue StdException where
  parse := fromString
  Final e := ∃ what, e = .invalidArgument what
  progress h := variantAt_bounds _ 0 _ _ h
  ok_append {s r} t h := by
    have hk := variantAt_keeps s t 0
    rw [← fromString_eq, ← fromString_eq, h] at hk
    exact hk
  final_append {s e} t h hf := by
    obtain ⟨what, rfl⟩ := hf
    have hk := variantAt_keeps s t 0
    rw [← fromString_eq, ← fromString_eq, h] at hk
    exact hk

end MyRedis.Analysis

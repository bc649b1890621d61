import Mathlib.Data.List.TakeWhile

/-!
# Texts at positions

A reader that is given a list and a position takes a text off the list and moves behind it.
`TextAt data pos text next` says that `text` stands at `pos` and that `next` is the position
behind it.  What several readers take one after the other is the concatenation of their texts
(`textAt_append`), and what a reader skips is a run of elements that ends where it has to
(`skip_iff`).
-/

set_option autoImplicit false

namespace MyRedis.Lib

variable {α : Type} {data text : List α} {pos next : ℕ}

/-- The text stands at `pos`, and `next` is the position behind it. -/
def TextAt (data : List α) (pos : ℕ) (text : List α) (next : ℕ) : Prop :=
  next = pos + text.length ∧ text <+: data.drop pos

/-- The element at a position is the first one behind those before it. -/
theorem getElem?_of_drop {a : α} {rest : List α} (h : data.drop pos = a :: rest) :
    data[pos]? = some a := by
  have hhead := congrArg (fun l => l[0]?) h
  simpa using hhead

/-- What is behind the next position. -/
theorem drop_succ {a : α} {rest : List α} (h : data.drop pos = a :: rest) :
    data.drop (pos + 1) = rest := by
  rw [← List.drop_drop, h]
  rfl

/-- The empty text stands everywhere and ends where it begins. -/
theorem textAt_nil : TextAt data pos [] next ↔ next = pos := by
  rw [TextAt, List.length_nil, Nat.add_zero, and_iff_left (List.nil_prefix)]

/-- A text stands where its first element does, with the rest behind it. -/
theorem textAt_cons {a : α} :
    TextAt data pos (a :: text) next ↔ data[pos]? = some a ∧ TextAt data (pos + 1) text next := by
  have hlength : pos + (a :: text).length = pos + 1 + text.length := by
    rw [List.length_cons]
    omega
  rw [TextAt, TextAt, hlength]
  cases hdrop : data.drop pos with
  | nil =>
    have hnone : data[pos]? = none :=
      List.getElem?_eq_none (List.drop_eq_nil_iff.mp hdrop)
    simp [hnone]
  | cons b rest =>
    rw [getElem?_of_drop hdrop, drop_succ hdrop, List.cons_prefix_cons, Option.some.injEq]
    constructor
    · rintro ⟨hnext, rfl, hfront⟩
      exact ⟨rfl, hnext, hfront⟩
    · rintro ⟨rfl, hnext, hfront⟩
      exact ⟨hnext, rfl, hfront⟩

/-- A single element. -/
theorem textAt_singleton {a : α} :
    TextAt data pos [a] next ↔ data[pos]? = some a ∧ next = pos + 1 := by
  rw [textAt_cons, textAt_nil]

/-- Two texts, one behind the other. -/
theorem textAt_append {t u : List α} :
    TextAt data pos (t ++ u) next ↔ ∃ mid, TextAt data pos t mid ∧ TextAt data mid u next := by
  induction t generalizing pos with
  | nil => simp [textAt_nil]
  | cons a t ih => simp only [List.cons_append, textAt_cons, ih, exists_and_left, and_assoc]

/-- A text that is not empty ends inside the data. -/
theorem TextAt.le_length (h : TextAt data pos text next) (hne : text ≠ []) :
    next ≤ data.length := by
  have hpos := List.length_pos_iff.mpr hne
  have hlength := h.2.length_le
  rw [List.length_drop] at hlength
  have hnext := h.1
  omega

/-- A text stands where it was put. -/
theorem textAt_between (front text back : List α) :
    TextAt (front ++ text ++ back) front.length text (front ++ text).length := by
  rw [TextAt, List.append_assoc, List.drop_left]
  exact ⟨List.length_append, List.prefix_append text back⟩

/-- The whole list. -/
theorem textAt_whole : TextAt data 0 text data.length ↔ text = data := by
  rw [TextAt, List.drop_zero, Nat.zero_add]
  constructor
  · rintro ⟨hlength, hfront⟩
    exact hfront.eq_of_length hlength.symm
  · rintro rfl
    exact ⟨rfl, List.prefix_rfl⟩

/-! ## Skipping -/

section Skip

variable {p : α → Bool}

/-- The elements with a property from a position on stand there. -/
theorem takeWhile_textAt (data : List α) (pos : ℕ) :
    TextAt data pos ((data.drop pos).takeWhile p)
      (pos + ((data.drop pos).takeWhile p).length) :=
  ⟨rfl, List.takeWhile_prefix p⟩

/-- What is skipped ends where it has to. -/
theorem takeWhile_end {a : α}
    (h : data[pos + ((data.drop pos).takeWhile p).length]? = some a) : p a = false := by
  have hrest := congrArg (List.drop ((data.drop pos).takeWhile p).length)
    (List.takeWhile_append_dropWhile (p := p) (l := data.drop pos))
  rw [List.drop_left, List.drop_drop] at hrest
  have hhead : ((data.drop pos).dropWhile p).head? = some a := by
    rw [hrest, List.head?_drop, h]
  have hnot := List.head?_dropWhile_not p (data.drop pos)
  rw [hhead] at hnot
  simpa using hnot

/-- A run of elements that ends where it has to is all that is skipped. -/
theorem takeWhile_eq_of_textAt {run : List α} (hrun : ∀ a ∈ run, p a = true)
    (h : TextAt data pos run next) (hend : ∀ a, data[next]? = some a → p a = false) :
    (data.drop pos).takeWhile p = run := by
  obtain ⟨hnext, rest, hrest⟩ := h
  have hhead : rest.takeWhile p = [] := by
    cases rest with
    | nil => rfl
    | cons a rest =>
      have hget : data[next]? = some a := by
        have hsplit := congrArg (fun l => l[run.length]?) hrest
        rw [hnext]
        simpa using hsplit.symm
      rw [List.takeWhile_cons_of_neg]
      rw [hend a hget]
      exact Bool.false_ne_true
  rw [← hrest, List.takeWhile_append_of_pos hrun, hhead, List.append_nil]

/-- What holds behind the elements that are skipped, if it does not hold in front of one that
would be. -/
theorem skip_iff {P : ℕ → Prop} (hP : ∀ mid, P mid → ∀ a, data[mid]? = some a → p a = false) :
    P (pos + ((data.drop pos).takeWhile p).length) ↔
      ∃ run mid, (∀ a ∈ run, p a = true) ∧ TextAt data pos run mid ∧ P mid := by
  constructor
  · intro h
    exact ⟨_, _, fun a hmem => List.mem_takeWhile_imp hmem, takeWhile_textAt data pos, h⟩
  · rintro ⟨run, mid, hrun, htext, h⟩
    rw [takeWhile_eq_of_textAt hrun htext (hP mid h), ← htext.1]
    exact h

end Skip

end MyRedis.Lib

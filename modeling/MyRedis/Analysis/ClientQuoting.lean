import MyRedis.Model.StringHelpers

/-!
# Quoting on the command line of the client

`Split` takes a line apart at its spaces and `JoinDelimitedStrings` puts the words of a quoted
argument together again.  An accumulator that is not empty stands for an open quotation, and it is
closed by a word that is appended to it: the word that opens a quotation is not looked at again.
So an argument in quotes comes back if it contains a space, whatever the number of spaces and
wherever they are, and one without a space stays open and takes in what follows
(`splitInput_commandLine`).
-/

set_option autoImplicit false

namespace MyRedis.Analysis

open MyRedis.Model MyRedis.Model.Client

/-- An argument, and whether it is written in double quotes.  It is not empty and contains no
double quote, and without quotes no space. -/
structure Argument where
  text : Bytes
  quoted : Bool
  nonempty : text ≠ []
  unquotable : 34 ∉ text
  bare : quoted = false → 32 ∉ text

/-- The argument as it is written on the line. -/
def Argument.written (arg : Argument) : Bytes :=
  if arg.quoted then 34 :: (arg.text ++ [34]) else arg.text

/-- The arguments on a line, with single spaces between them. -/
def commandLine : List Argument → Bytes
  | [] => []
  | [arg] => arg.written
  | arg :: next :: args => arg.written ++ 32 :: commandLine (next :: args)

/-! ## Splitting -/

section Split

variable {u : Bytes}

/-- `find` comes to the first space.
SOURCE: client/string_helpers.cc:10 -/
theorem findFrom_space (hu : 32 ∉ u) (rest : Bytes) (i : ℕ) :
    findFrom (ascii " ") (u ++ 32 :: rest) i = some (i + u.length) := by
  induction u generalizing i with
  | nil => rfl
  | cons b u ih =>
    rw [List.mem_cons, not_or] at hu
    have hb : ¬ (ascii " ").isPrefixOf (b :: (u ++ 32 :: rest)) = true := by
      simpa [ascii] using hu.1
    rw [List.cons_append, findFrom, if_neg hb, ih hu.2, List.length_cons]
    congr 1
    omega

/-- `find` finds nothing where there is no space.
SOURCE: client/string_helpers.cc:10 -/
theorem findFrom_no_space (hu : 32 ∉ u) (i : ℕ) : findFrom (ascii " ") u i = none := by
  induction u generalizing i with
  | nil => rfl
  | cons b u ih =>
    rw [List.mem_cons, not_or] at hu
    have hb : ¬ (ascii " ").isPrefixOf (b :: u) = true := by
      simpa [ascii] using hu.1
    rw [findFrom, if_neg hb, ih hu.2]

/-- One round of the loop of `Split`, up to the next delimiter.
SOURCE: client/string_helpers.cc:9-16 -/
theorem splitFrom_of_some {delimiter input : Bytes} {h : delimiter ≠ []} {current next : ℕ}
    (hlt : current < input.length) (hnext : find input delimiter current = some next) :
    splitFrom delimiter input h current =
      substr input current (next - current) ::
        splitFrom delimiter input h (next + delimiter.length) := by
  rw [splitFrom, if_pos hlt]
  split
  · next hnone => cases hnone.symm.trans hnext
  · next e he =>
    cases he.symm.trans hnext
    rfl

/-- The last round of the loop of `Split` takes all that is left.
SOURCE: client/string_helpers.cc:9-16 -/
theorem splitFrom_of_none {delimiter input : Bytes} {h : delimiter ≠ []} {current : ℕ}
    (hlt : current < input.length) (hnone : find input delimiter current = none) :
    splitFrom delimiter input h current = [input.drop current] := by
  rw [splitFrom, if_pos hlt]
  split
  · rfl
  · next e he => cases he.symm.trans hnone

/-- The loop of `Split`, with the text before `current` and behind it.
SOURCE: client/string_helpers.cc:9-16 -/
theorem splitFrom_eq {s : Bytes} (hne : s ≠ []) (hlast : s.getLast? ≠ some 32) (before : Bytes)
    (h : ascii " " ≠ []) :
    splitFrom (ascii " ") (before ++ s) h before.length = s.splitOn 32 := by
  induction hn : s.length using Nat.strongRecOn generalizing s before with
  | ind n ih =>
    have hlt : before.length < (before ++ s).length := by
      have hpos : 0 < s.length := List.length_pos_iff.mpr hne
      rw [List.length_append]
      omega
    by_cases hmem : 32 ∈ s
    · obtain ⟨u, rest, rfl, hu⟩ := List.eq_append_cons_of_mem hmem
      have hfind : find (before ++ (u ++ 32 :: rest)) (ascii " ") before.length =
          some (before.length + u.length) := by
        rw [find, List.drop_left, findFrom_space hu]
      have hword : substr (before ++ (u ++ 32 :: rest)) before.length
          (before.length + u.length - before.length) = u := by
        rw [substr, List.drop_left, Nat.add_sub_cancel_left, List.take_left]
      have hrest : rest ≠ [] := by
        rintro rfl
        exact hlast List.getLast?_concat
      have hlast' : rest.getLast? ≠ some 32 := by
        rw [List.getLast?_append, List.getLast?_cons] at hlast
        cases hr : rest.getLast? with
        | none => exact (Option.some_ne_none 32).symm
        | some b =>
          rw [hr] at hlast
          simpa using hlast
      have hstep := ih rest.length (by simp at hn; omega) hrest hlast' (before ++ u ++ [32]) rfl
      have htext : before ++ u ++ [32] ++ rest = before ++ (u ++ 32 :: rest) := by simp
      have hpos : (before ++ u ++ [32]).length = before.length + u.length + 1 := by
        simp [Nat.add_assoc]
      rw [htext, hpos] at hstep
      rw [splitFrom_of_some hlt hfind, hword, List.splitOn_append_cons_self_of_not_mem hu]
      exact congrArg (u :: ·) hstep
    · have hfind : find (before ++ s) (ascii " ") before.length = none := by
        rw [find, List.drop_left, findFrom_no_space hmem]
      rw [splitFrom_of_none hlt hfind, List.drop_left, List.splitOn_eq_singleton hmem]

/-- **`Split` takes a line apart at its spaces**, if it does not end in one.
SOURCE: client/string_helpers.cc:5-18 -/
theorem split_eq_splitOn {input : Bytes} (hne : input ≠ []) (hlast : input.getLast? ≠ some 32)
    (h : ascii " " ≠ []) : split (ascii " ") input h = input.splitOn 32 :=
  splitFrom_eq hne hlast [] h

end Split

/-! ## Lines -/

namespace Argument

/-- A written argument is not empty. -/
theorem written_ne_nil (arg : Argument) : arg.written ≠ [] := by
  rw [written]
  split_ifs
  · exact List.cons_ne_nil _ _
  · exact arg.nonempty

/-- A written argument does not end in a space. -/
theorem getLast?_written (arg : Argument) : arg.written.getLast? ≠ some 32 := by
  rw [written]
  split_ifs with h
  · rw [← List.cons_append, List.getLast?_concat]
    decide
  · intro hlast
    exact arg.bare (Bool.eq_false_iff.mpr h) (List.mem_of_getLast? hlast)

end Argument

/-- A line with arguments is not empty. -/
theorem commandLine_ne_nil (arg : Argument) (args : List Argument) :
    commandLine (arg :: args) ≠ [] := by
  cases args with
  | nil => exact arg.written_ne_nil
  | cons next args => exact List.append_ne_nil_of_right_ne_nil _ (List.cons_ne_nil _ _)

/-- A line of arguments does not end in a space, so that `Split` loses nothing. -/
theorem getLast?_commandLine (args : List Argument) : (commandLine args).getLast? ≠ some 32 := by
  induction args with
  | nil => exact (Option.some_ne_none 32).symm
  | cons arg args ih =>
    cases args with
    | nil => exact arg.getLast?_written
    | cons next args =>
      rw [commandLine, List.getLast?_append, List.getLast?_cons]
      cases hlast : (commandLine (next :: args)).getLast? with
      | none => exact absurd (List.getLast?_eq_none_iff.mp hlast) (commandLine_ne_nil next args)
      | some b =>
        rw [hlast] at ih
        simpa using ih

/-- The words of a line are those of its arguments.
SOURCE: client/string_helpers.cc:5-18 -/
theorem split_commandLine (args : List Argument) (h : ascii " " ≠ []) :
    split (ascii " ") (commandLine args) h = args.flatMap fun arg => arg.written.splitOn 32 := by
  cases args with
  | nil =>
    rw [split, splitFrom]
    rfl
  | cons arg args =>
    rw [split_eq_splitOn (commandLine_ne_nil arg args) (getLast?_commandLine _)]
    induction args generalizing arg with
    | nil => simp [commandLine]
    | cons next args ih =>
      rw [commandLine, List.splitOn_append_cons_self, ih]
      rfl

/-! ## Joining -/

section Join

variable {result : List Bytes} {acc : Bytes}

/-- What a quotation that is closed contributes.
SOURCE: client/string_helpers.cc:33 -/
theorem substr_quotation (s : Bytes) : substr (34 :: (s ++ [34])) 1 s.length = s := by
  rw [substr, List.drop_succ_cons, List.drop_zero, List.take_left]

/-- A word that does not end in a double quote leaves a quotation open.
SOURCE: client/string_helpers.cc:28-41 -/
theorem joinWord_open (hacc : acc ≠ []) {word : Bytes} (h : 34 ∉ word) :
    joinWord (result, acc) word = (result, acc ++ 32 :: word) := by
  have hlast : (acc ++ 32 :: word).getLast? ≠ some 34 := by
    intro hlast
    rw [List.getLast?_append, List.getLast?_cons, Option.some_or, ← List.getLast?_cons] at hlast
    have hmem := List.mem_of_getLast? hlast
    rw [List.mem_cons] at hmem
    exact hmem.elim (by decide) h
  rw [joinWord, if_pos hacc]
  exact if_neg hlast

/-- A word that ends in a double quote closes the quotation.
SOURCE: client/string_helpers.cc:28-41 -/
theorem joinWord_close {s word : Bytes} :
    joinWord (result, 34 :: s) (word ++ [34]) = (result ++ [s ++ 32 :: word], []) := by
  have htext : 34 :: s ++ (ascii " " ++ (word ++ [34])) = 34 :: ((s ++ 32 :: word) ++ [34]) := by
    simp [ascii]
  have hlast : (34 :: s ++ (ascii " " ++ (word ++ [34]))).getLast? = some 34 := by
    rw [htext, ← List.cons_append, List.getLast?_concat]
  have hinner : substr (34 :: s ++ (ascii " " ++ (word ++ [34]))) 1
      ((34 :: s ++ (ascii " " ++ (word ++ [34]))).length - 2) = s ++ 32 :: word := by
    rw [htext]
    have hlength : (34 :: ((s ++ 32 :: word) ++ [34])).length - 2 = (s ++ 32 :: word).length := by
      simp
    rw [hlength, substr_quotation]
  rw [joinWord, if_pos (List.cons_ne_nil _ _)]
  simp only [hlast, if_true, hinner]

/-- The rest of a quotation, behind a space.
SOURCE: client/string_helpers.cc:28-41 -/
theorem foldl_joinWord_quotation {t : Bytes} (ht : 34 ∉ t) (s : Bytes) :
    ((t ++ [34]).splitOn 32).foldl joinWord (result, 34 :: s) = (result ++ [s ++ 32 :: t], []) := by
  induction hn : t.length using Nat.strongRecOn generalizing t s with
  | ind n ih =>
    by_cases hmem : 32 ∈ t
    · obtain ⟨u, rest, rfl, hu⟩ := List.eq_append_cons_of_mem hmem
      rw [List.mem_append, List.mem_cons, not_or, not_or] at ht
      rw [List.append_assoc, List.cons_append, List.splitOn_append_cons_self_of_not_mem hu,
        List.foldl_cons, joinWord_open (List.cons_ne_nil _ _) ht.1, List.cons_append,
        ih rest.length (by simp at hn; omega) ht.2.2 (s ++ 32 :: u) rfl]
      simp
    · have hword : 32 ∉ t ++ [34] := by simpa using hmem
      rw [List.splitOn_eq_singleton hword]
      exact joinWord_close

/-- **An argument that comes back.**
SOURCE: client/string_helpers.cc:28-41 -/
theorem foldl_joinWord_written {arg : Argument} (h : arg.quoted = true → 32 ∈ arg.text) :
    (arg.written.splitOn 32).foldl joinWord (result, []) = (result ++ [arg.text], []) := by
  rw [Argument.written]
  split_ifs with hquoted
  · obtain ⟨u, rest, htext, hu⟩ := List.eq_append_cons_of_mem (h hquoted)
    have hunquotable := arg.unquotable
    rw [htext, List.mem_append, List.mem_cons, not_or, not_or] at hunquotable
    have hfirst : 32 ∉ (34 :: u : Bytes) := by simpa using hu
    rw [htext, List.append_assoc, List.cons_append, ← List.cons_append,
      List.splitOn_append_cons_self_of_not_mem hfirst, List.foldl_cons]
    exact foldl_joinWord_quotation hunquotable.2.2 u
  · have hbare := arg.bare (Bool.eq_false_iff.mpr hquoted)
    have hhead : arg.text.head? ≠ some 34 := by
      intro hhead
      exact arg.unquotable (List.mem_of_head? hhead)
    rw [List.splitOn_eq_singleton hbare, List.foldl_cons, List.foldl_nil, joinWord]
    simp only [ne_eq, not_true_eq_false, if_false, hhead]

/-- All arguments of a line come back, one after another, if every quoted one has a space in it.
SOURCE: client/string_helpers.cc:28-41 -/
theorem foldl_joinWord_commandLine {args : List Argument}
    (h : ∀ arg ∈ args, arg.quoted = true → 32 ∈ arg.text) :
    (args.flatMap fun arg => arg.written.splitOn 32).foldl joinWord (result, []) =
      (result ++ args.map Argument.text, []) := by
  induction args generalizing result with
  | nil => simp
  | cons arg args ih =>
    rw [List.flatMap_cons, List.foldl_append,
      foldl_joinWord_written (h arg List.mem_cons_self),
      ih fun arg' hmem => h arg' (List.mem_cons_of_mem _ hmem)]
    simp

end Join

/-! ## Quotations that stay open -/

/-- A double quote has come into the result, or will. -/
def Spoiled (state : List Bytes × Bytes) : Prop :=
  (∃ s ∈ state.1, 34 ∈ s) ∨ ∃ s, state.2 = 34 :: s ∧ 34 ∈ s

/-- A double quote that has come into the result stays there.
SOURCE: client/string_helpers.cc:28-41 -/
theorem Spoiled.joinWord {state : List Bytes × Bytes} (h : Spoiled state) (word : Bytes) :
    Spoiled (Client.joinWord state word) := by
  obtain ⟨result, acc⟩ := state
  obtain ⟨s, hs, hquote⟩ | ⟨s, rfl, hquote⟩ := h
  · -- nothing is taken out of the result
    refine Or.inl ⟨s, ?_, hquote⟩
    simp only [Client.joinWord]
    split_ifs
    · exact List.mem_append_left _ hs
    · exact hs
    · exact hs
    · exact List.mem_append_left _ hs
  · simp only [Client.joinWord, if_pos (List.cons_ne_nil _ _)]
    split_ifs
    · refine Or.inl ⟨_, List.mem_append_right _ List.mem_cons_self, ?_⟩
      have htake : s <+: substr (34 :: s ++ (ascii " " ++ word)) 1
          ((34 :: s ++ (ascii " " ++ word)).length - 2) := by
        rw [substr, List.cons_append, List.drop_succ_cons, List.drop_zero]
        refine List.prefix_take_iff.mpr ⟨List.prefix_append _ _, ?_⟩
        simp [ascii]
      exact htake.subset hquote
    · exact Or.inr ⟨s ++ (ascii " " ++ word), rfl, List.mem_append_left _ hquote⟩

/-- A double quote that has come into the result stays there through all words that follow.
SOURCE: client/string_helpers.cc:28-41 -/
theorem Spoiled.foldl {state : List Bytes × Bytes} (h : Spoiled state) (words : List Bytes) :
    Spoiled (words.foldl Client.joinWord state) := by
  induction words generalizing state with
  | nil => exact h
  | cons word words ih => exact ih (h.joinWord word)

/-- The result of `JoinDelimitedStrings` then has a double quote in it.
SOURCE: client/string_helpers.cc:24-46 -/
theorem Spoiled.mem_joined {words : List Bytes}
    (h : Spoiled (words.foldl Client.joinWord ([], []))) :
    ∃ s ∈ joinDelimitedStrings words, 34 ∈ s := by
  rw [joinDelimitedStrings]
  cases hstate : words.foldl Client.joinWord ([], []) with
  | mk result acc =>
    rw [hstate] at h
    obtain ⟨s, hs, hquote⟩ | ⟨s, rfl, -⟩ := h
    · refine ⟨s, ?_, hquote⟩
      simp only
      split_ifs
      · exact List.mem_append_left _ hs
      · exact hs
    · exact ⟨34 :: s, List.mem_append_right _ List.mem_cons_self, List.mem_cons_self⟩

/-- A quoted argument without a space is not closed by its own double quote.
SOURCE: client/string_helpers.cc:28-41 -/
theorem spoiled_written {arg : Argument} (hquoted : arg.quoted = true) (h : 32 ∉ arg.text)
    (result : List Bytes) :
    Spoiled ((arg.written.splitOn 32).foldl Client.joinWord (result, [])) := by
  have hword : 32 ∉ arg.written := by
    rw [Argument.written, if_pos hquoted]
    simpa using h
  rw [List.splitOn_eq_singleton hword, Argument.written, if_pos hquoted]
  exact Or.inr ⟨arg.text ++ [34], rfl, by simp⟩

/-- One such argument spoils the line.
SOURCE: client/string_helpers.cc:28-41 -/
theorem spoiled_commandLine {args : List Argument}
    (h : ∃ arg ∈ args, arg.quoted = true ∧ 32 ∉ arg.text) (result : List Bytes) :
    Spoiled ((args.flatMap fun arg => arg.written.splitOn 32).foldl Client.joinWord
      (result, [])) := by
  induction args generalizing result with
  | nil =>
    obtain ⟨arg, hmem, -⟩ := h
    cases hmem
  | cons arg args ih =>
    rw [List.flatMap_cons, List.foldl_append]
    by_cases hopen : arg.quoted = true ∧ 32 ∉ arg.text
    · exact (spoiled_written hopen.1 hopen.2 result).foldl _
    · have hback : arg.quoted = true → 32 ∈ arg.text := by
        intro hquoted
        by_contra hspace
        exact hopen ⟨hquoted, hspace⟩
      rw [foldl_joinWord_written hback]
      obtain ⟨arg', hmem, harg'⟩ := h
      obtain rfl | hmem := List.mem_cons.mp hmem
      · exact absurd harg' hopen
      · exact ih ⟨arg', hmem, harg'⟩ _

/-- **What the client makes of a line**: its arguments, exactly if each one that is written in
double quotes contains a space.
SOURCE: client/string_helpers.cc:5-46, client/worker.cc:26-27 -/
theorem splitInput_commandLine (args : List Argument) :
    splitInput (commandLine args) = args.map Argument.text ↔
      ∀ arg ∈ args, arg.quoted = true → 32 ∈ arg.text := by
  rw [splitInput, split_commandLine]
  constructor
  · intro hjoined arg hmem hquoted
    by_contra hspace
    have hspoiled := spoiled_commandLine ⟨arg, hmem, hquoted, hspace⟩ []
    obtain ⟨s, hs, hquote⟩ := hspoiled.mem_joined
    rw [hjoined] at hs
    obtain ⟨arg', -, rfl⟩ := List.mem_map.mp hs
    exact arg'.unquotable hquote
  · intro h
    rw [joinDelimitedStrings, foldl_joinWord_commandLine h]
    rfl

/-- `"a"`, alone on its line. -/
def quotedWord : Argument := ⟨ascii "a", true, by decide, by decide, by decide⟩

/-- The quotes of a quoted word are left where they are.
SOURCE: client/string_helpers.cc:24-46 -/
theorem quotedWord_kept :
    splitInput (ascii "\"a\"") = [ascii "\"a\""] ∧
      commandLine [quotedWord] = ascii "\"a\"" ∧
      [quotedWord].map Argument.text = [ascii "a"] := by
  have hline : commandLine [quotedWord] = ascii "\"a\"" := by decide
  refine ⟨?_, hline, rfl⟩
  rw [splitInput, ← hline, split_commandLine]
  rfl

end MyRedis.Analysis

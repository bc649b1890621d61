import MyRedis.Analysis.ProbingRefinement

/-!
# Probe chains

Whatever is inserted, removed and looked up, the table keeps a weaker invariant than `Probed`:
there may be several elements with one key, but between the bucket a key hashes to and an
element with that key there is no empty bucket (`Unbroken`).  `size_` counts every insertion, so
there are never more elements than `size_` says, and the check of the load leaves a bucket
without an element wherever `InsertWithoutSize` starts its loop, in the calls `Resize` makes
as well (`probes_room`).

`InternalFind` comes to an element with its key if there is one.  What it returns is the
index as an `int`, though: in a table of `2 ^ 32` buckets the last index is `-1`, the answer for
a key that is not there (`lastBucket_lost`).
-/

set_option autoImplicit false

namespace MyRedis.Analysis

open MyRedis.Model MyRedis.Lib LinearProbingHashmap

variable {K V : Type}

/-- The bucket is empty. -/
def EmptyAt (entries : List (Entry K V)) (i : ℕ) : Prop :=
  ∃ entry, entries[i]? = some entry ∧ entry.state = .empty

/-- Every element is whole, and no empty bucket lies between it and the bucket its key hashes
to. -/
structure Unbroken (hash : K → ℕ) (entries : List (Entry K V)) : Prop where
  nonempty : 0 < entries.length
  whole : ∀ entry ∈ entries, Whole entry
  path : ∀ i k v, ElementAt entries i k v → ∃ j < entries.length,
    probe hash entries k j = i ∧ ∀ j' < j, ¬ EmptyAt entries (probe hash entries k j')

/-! ## Writing to a bucket -/

section Write

variable {hash : K → ℕ} {entries : List (Entry K V)} {entry : Entry K V} {i p : ℕ} {k : K} {v : V}

/-- A bucket that was not empty is not made so by an entry that is not.
SOURCE: linear_probing_hashmap.h:116-168 -/
theorem not_emptyAt_set (hstate : entry.state ≠ .empty) (h : ¬ EmptyAt entries i) :
    ¬ EmptyAt (entries.set p entry) i := by
  rintro ⟨entry', hentry, hempty⟩
  rw [List.getElem?_set] at hentry
  split_ifs at hentry with heq hp
  · cases hentry
    exact hstate hempty
  · exact h ⟨entry', hentry, hempty⟩

/-- A bucket with an element is not empty.
SOURCE: linear_probing_hashmap.h:116-168 -/
theorem ElementAt.not_emptyAt (h : ElementAt entries i k v) : ¬ EmptyAt entries i := by
  rintro ⟨entry, hentry, hempty⟩
  rw [ElementAt, hentry] at h
  cases h
  cases hempty

/-- A bucket may be written to if it does not become empty and the element that comes there,
if it is one, is on the path of its key.
SOURCE: linear_probing_hashmap.h:121-130 -/
theorem Unbroken.set (hunbroken : Unbroken hash entries) (hstate : entry.state ≠ .empty)
    (hwhole : Whole entry)
    (hown : ∀ k v, entry = ⟨.element, some k, some v⟩ → ∃ j < entries.length,
      probe hash entries k j = p ∧ ∀ j' < j, ¬ EmptyAt entries (probe hash entries k j')) :
    Unbroken hash (entries.set p entry) := by
  refine ⟨?_, ?_, ?_⟩
  · rw [List.length_set]
    exact hunbroken.nonempty
  · intro e he
    obtain he | rfl := List.mem_or_eq_of_mem_set he
    · exact hunbroken.whole e he
    · exact hwhole
  · intro i k v h
    simp only [probe_set, List.length_set]
    have hpath : ∃ j < entries.length, probe hash entries k j = i ∧
        ∀ j' < j, ¬ EmptyAt entries (probe hash entries k j') := by
      by_cases hi : i = p
      · subst hi
        have hlt := h.lt
        rw [List.length_set] at hlt
        exact hown k v ((elementAt_set_self hlt).mp h)
      · exact hunbroken.path i k v ((elementAt_set_ne hi).mp h)
    obtain ⟨j, hj, hprobe, hpass⟩ := hpath
    exact ⟨j, hj, hprobe, fun j' hj' => not_emptyAt_set hstate (hpass j' hj')⟩

/-- A bucket that is deleted does not become empty, so no path is broken.
SOURCE: linear_probing_hashmap.h:102 -/
theorem Unbroken.delete (hunbroken : Unbroken hash entries) (i : ℕ) (entry : Entry K V) :
    Unbroken hash (entries.set i { entry with state := .deleted }) := by
  apply hunbroken.set
  · exact State.noConfusion
  · intro hstate
    cases hstate
  · intro k v hentry
    cases hentry

/-- In an empty table no path is broken.
SOURCE: linear_probing_hashmap.h:136-137 -/
theorem unbroken_replicate {n : ℕ} (hn : 0 < n) :
    Unbroken hash (List.replicate n (.new : Entry K V)) := by
  refine ⟨?_, ?_, ?_⟩
  · rw [List.length_replicate]
    exact hn
  · intro entry hmem hstate
    cases List.eq_of_mem_replicate hmem
    cases hstate
  · intro i k v h
    exact absurd ⟨i, h⟩ (not_holds_replicate k v)

/-- An empty table has no elements.
SOURCE: linear_probing_hashmap.h:136-137 -/
theorem elements_replicate (n : ℕ) :
    elements (List.replicate n (.new : Entry K V)) = 0 := by
  simp [elements, Entry.new]

/-- A table with fewer elements than buckets has a bucket without one.
SOURCE: linear_probing_hashmap.h:116-168 -/
theorem exists_not_element (hroom : elements entries < entries.length) :
    ∃ entry ∈ entries, entry.state ≠ .element := by
  by_contra hall
  push Not at hall
  refine Nat.ne_of_lt hroom (List.countP_eq_length.mpr ?_)
  intro entry hmem
  exact decide_eq_true (hall entry hmem)

variable [DecidableEq K]

/-- **`InsertWithoutSize` behind its check**, with room.
SOURCE: linear_probing_hashmap.h:121-130 -/
theorem Unbroken.place (hunbroken : Unbroken hash entries)
    (hroom : elements entries < entries.length) (k : K) (v : V) :
    ∃ entries', LinearProbingHashmap.place hash entries k v = .ok entries' ∧
      Unbroken hash entries' ∧ entries'.length = entries.length ∧
      elements entries' ≤ elements entries + 1 := by
  obtain ⟨j, hj, hwalk, -, hbefore⟩ := exists_place hroom hash k
  refine ⟨entries.set (probe hash entries k j) ⟨.element, some k, some v⟩, ?_, ?_,
    List.length_set, (elements_set_le entries _ _).1⟩
  · rw [LinearProbingHashmap.place, hwalk]
  · apply hunbroken.set State.noConfusion (fun _ => ⟨k, v, rfl⟩)
    intro k' v' hentry
    cases hentry
    refine ⟨j, hj, rfl, ?_⟩
    rintro j' hj' ⟨entry, hentry, hempty⟩
    obtain ⟨entry', hentry', helement⟩ := heldByOther_element (hbefore j' hj')
    rw [hentry] at hentry'
    cases hentry'
    rw [hempty] at helement
    cases helement

end Write

/-! ## Finding a key -/

section Find

variable {t : LinearProbingHashmap K V} {k : K}

variable [DecidableEq K]

/-- The loop of `InternalFind` passes no element with its key.
SOURCE: linear_probing_hashmap.h:153-162 -/
theorem Unbroken.le_of_passes (hunbroken : Unbroken t.hash t.entries) {j : ℕ}
    (hpass : ∀ j' < j, passes t.entries k (probe t.hash t.entries k j') = true) {i : ℕ} {v : V}
    (h : ElementAt t.entries i k v) :
    ∃ ji < t.entries.length, j ≤ ji ∧ probe t.hash t.entries k ji = i ∧
      ∀ j' < ji, ¬ EmptyAt t.entries (probe t.hash t.entries k j') := by
  obtain ⟨ji, hlt, hprobe, hfull⟩ := hunbroken.path i k v h
  refine ⟨ji, hlt, ?_, hprobe, hfull⟩
  by_contra hji
  have hpassed := hpass ji (Nat.lt_of_not_le hji)
  rw [hprobe, h.not_passes] at hpassed
  cases hpassed

/-- **What `InternalFind` finds**: nothing, if there is no element with the key, and the index of
one, as an `int`, if there is.
SOURCE: linear_probing_hashmap.h:149-168 -/
theorem Unbroken.find_cases (hunbroken : Unbroken t.hash t.entries) :
    (t.internalFind k = -1 ∧ ∀ i v, ¬ ElementAt t.entries i k v) ∨
      ∃ i v, ElementAt t.entries i k v ∧ t.internalFind k = toInt i := by
  obtain ⟨j, -, hwalk, hstop, hpass⟩ | ⟨hwalk, hpass⟩ := walk_cases t.entries.length (t.hash k)
    (fun i => !passes t.entries k i) t.entries.length
  · simp only [Bool.not_eq_eq_eq_not, Bool.not_true, Bool.not_false] at hstop hpass
    obtain ⟨⟨state, key, value⟩, hentry⟩ :
        ∃ entry, t.entries[(t.hash k + j) % t.entries.length]? = some entry :=
      ⟨_, List.getElem?_eq_getElem (Nat.mod_lt (t.hash k + j) hunbroken.nonempty)⟩
    simp only [internalFind, hwalk, hentry]
    cases state with
    | empty =>
      -- an element with the key would lie behind this empty bucket
      refine Or.inl ⟨rfl, ?_⟩
      intro i v h
      have hempty : EmptyAt t.entries (probe t.hash t.entries k j) := ⟨_, hentry, rfl⟩
      obtain ⟨ji, -, hle, rfl, hfull⟩ := hunbroken.le_of_passes hpass h
      obtain hlt | rfl := Nat.lt_or_eq_of_le hle
      · exact hfull j hlt hempty
      · exact h.not_emptyAt hempty
    | deleted =>
      simp [passes, hentry] at hstop
    | element =>
      obtain ⟨k', v, heq⟩ := hunbroken.whole _ (List.mem_of_getElem? hentry) rfl
      cases heq
      have hk : k' = k := by
        by_contra hne
        rw [passes_of_heldByOther (ElementAt.heldByOther hentry hne)] at hstop
        cases hstop
      subst hk
      exact Or.inr ⟨_, v, hentry, rfl⟩
  · simp only [Bool.not_eq_eq_eq_not, Bool.not_false] at hpass
    refine Or.inl ⟨?_, ?_⟩
    · rw [internalFind, hwalk]
    · intro i v h
      obtain ⟨ji, hlt, hle, -⟩ := hunbroken.le_of_passes hpass h
      exact Nat.not_lt_of_le hle hlt

end Find

/-! ## Room -/

section Room

/-- The tables in which `InsertWithoutSize` starts its loop: its own, resized if the check says
so, and those of the calls that `Resize` makes on its way through the old table.
SOURCE: linear_probing_hashmap.h:116-146 -/
inductive Probes [DecidableEq K] (hash : K → ℕ) (size : ℕ) :
    (depth : ℕ) → List (Entry K V) → K → V → List (Entry K V) → Prop
  | direct {depth : ℕ} {entries : List (Entry K V)} {key : K} {value : V}
      (hload : overloaded size entries.length = false) :
      Probes hash size (depth + 1) entries key value entries
  | resized {depth : ℕ} {entries entries' : List (Entry K V)} {key : K} {value : V}
      (hload : overloaded size entries.length = true)
      (hresize : resize (insertWithoutSize hash size depth) entries = .ok entries') :
      Probes hash size (depth + 1) entries key value entries'
  | inner {depth : ℕ} {before after acc table : List (Entry K V)} {entry : Entry K V}
      {key key' : K} {value value' : V}
      (hload : overloaded size (before ++ entry :: after).length = true)
      (hbefore : before.foldlM (reinsert (insertWithoutSize hash size depth))
        (List.replicate (max 2 ((before ++ entry :: after).length * 2)) .new) = .ok acc)
      (hstate : entry.state = .element) (hpair : entry.pair = .ok (key', value'))
      (hinner : Probes hash size depth acc key' value' table) :
      Probes hash size (depth + 1) (before ++ entry :: after) key value table

/-- What the operations keep.  `size_` is no less than the number of elements, and at most one
insertion beyond the load factor. -/
structure Kept (t : LinearProbingHashmap K V) : Prop where
  unbroken : Unbroken t.hash t.entries
  counted : elements t.entries ≤ t.size
  loaded : 4 * t.size ≤ 3 * t.entries.length + 4

variable {hash : K → ℕ} {t : LinearProbingHashmap K V}

/-- `Resize` under way: the new table and the buckets it has still to come to hold at most
`total` elements between them. -/
structure Rehashing (hash : K → ℕ) (n total : ℕ) (old acc : List (Entry K V)) : Prop where
  unbroken : Unbroken hash acc
  length : acc.length = n
  counted : elements acc + elements old ≤ total
  whole : ∀ entry ∈ old, Whole entry

/-- A bucket without an element is passed over.
SOURCE: linear_probing_hashmap.h:140 -/
theorem Rehashing.skip {n total : ℕ} {entry : Entry K V} {old acc : List (Entry K V)}
    (hstate : entry.state ≠ .element) (h : Rehashing hash n total (entry :: old) acc) :
    Rehashing hash n total old acc := by
  have hcount : elements (entry :: old) = elements old :=
    List.countP_cons_of_neg (by simpa using hstate)
  refine ⟨h.unbroken, h.length, ?_, fun e hmem => h.whole e (List.mem_cons_of_mem _ hmem)⟩
  rw [← hcount]
  exact h.counted

/-- One `Resize` is enough.
SOURCE: linear_probing_hashmap.h:117, 136-137 -/
theorem Kept.not_overloaded (h : Kept t) :
    overloaded t.size (max 2 (t.entries.length * 2)) = false := by
  have hpos := h.unbroken.nonempty
  have hloaded := h.loaded
  rw [overloaded, decide_eq_false_iff_not]
  omega

variable [DecidableEq K]

/-- An element comes into the new table.
SOURCE: linear_probing_hashmap.h:142-144 -/
theorem Rehashing.place {n total : ℕ} (htotal : total ≤ n) {k : K} {v : V}
    {old acc : List (Entry K V)}
    (h : Rehashing hash n total (⟨.element, some k, some v⟩ :: old) acc) :
    ∃ acc', LinearProbingHashmap.place hash acc k v = .ok acc' ∧
      Rehashing hash n total old acc' := by
  have hcount : elements (⟨.element, some k, some v⟩ :: old) = elements old + 1 :=
    List.countP_cons_of_pos rfl
  have hcounted := h.counted
  have hlength := h.length
  rw [hcount] at hcounted
  obtain ⟨acc', hplace, hunbroken, hlength', hcount'⟩ := h.unbroken.place (by omega) k v
  exact ⟨acc', hplace, hunbroken, by omega, by omega,
    fun e hmem => h.whole e (List.mem_cons_of_mem _ hmem)⟩

/-- The loop of `Resize`, over as much of the old table as it has come to.
SOURCE: linear_probing_hashmap.h:139-145 -/
theorem rehash_ok (hash : K → ℕ) {size n total : ℕ} (depth : ℕ) (old : List (Entry K V))
    (hload : overloaded size n = false) (hn : 0 < n) (htotal : total ≤ n)
    (hcounted : elements old ≤ total) (hwhole : ∀ entry ∈ old, Whole entry) :
    ∃ acc, old.foldlM (reinsert (insertWithoutSize hash size (depth + 1)))
        (List.replicate n .new) = .ok acc ∧
      Unbroken hash acc ∧ acc.length = n ∧ elements acc ≤ total := by
  have hstart : Rehashing hash n total old (List.replicate n .new) := by
    refine ⟨unbroken_replicate hn, List.length_replicate, ?_, hwhole⟩
    rw [elements_replicate, Nat.zero_add]
    exact hcounted
  obtain ⟨acc, hfold, hend⟩ := reinsert_induct depth hload (fun _ _ h => h.length)
    (fun _ _ h => h.whole) (fun _ _ _ hstate h => h.skip hstate)
    (fun _ _ _ _ h => h.place htotal) hstart
  exact ⟨acc, hfold, hend.unbroken, hend.length, hend.counted⟩

/-- `InsertWithoutSize` comes to an end, with the paths unbroken and the load in its bound.
SOURCE: linear_probing_hashmap.h:116-131 -/
theorem Kept.insertWithoutSize_ok (h : Kept t) (k : K) (v : V) :
    ∃ entries', insertWithoutSize t.hash t.size (t.size + 2) t.entries k v = .ok entries' ∧
      Unbroken t.hash entries' ∧ elements entries' ≤ t.size + 1 ∧
      4 * t.size ≤ 3 * entries'.length := by
  have hpos := h.unbroken.nonempty
  have hcounted := h.counted
  rw [insertWithoutSize]
  cases hload : overloaded t.size t.entries.length with
  | false =>
    have hload' := of_decide_eq_false hload
    obtain ⟨entries', hplace, hunbroken, hlength, hcount⟩ := h.unbroken.place (by omega) k v
    refine ⟨entries', ?_, hunbroken, by omega, by omega⟩
    simpa using hplace
  | true =>
    have hload' := of_decide_eq_false h.not_overloaded
    obtain ⟨entries₁, hresize, hunbroken₁, hlength₁, hcount₁⟩ := rehash_ok t.hash t.size
      t.entries h.not_overloaded (by omega) (by omega) hcounted h.unbroken.whole
    obtain ⟨entries', hplace, hunbroken, hlength, hcount⟩ := hunbroken₁.place (by omega) k v
    refine ⟨entries', ?_, hunbroken, by omega, by omega⟩
    rw [if_pos rfl, resize, hresize]
    exact hplace

/-- **Room**: wherever `InsertWithoutSize` starts its loop there is a bucket without an element.
SOURCE: linear_probing_hashmap.h:116-131 -/
theorem probes_room (h : Kept t) {k : K} {v : V} {table : List (Entry K V)}
    (hprobes : Probes t.hash t.size (t.size + 2) t.entries k v table) :
    elements table < table.length := by
  have hpos := h.unbroken.nonempty
  have hcounted := h.counted
  have hwhole := h.unbroken.whole
  have hagain := h.not_overloaded
  have hload' := of_decide_eq_false hagain
  generalize hentries : t.entries = entries at hprobes hpos hcounted hwhole hagain hload'
  cases hprobes with
  | direct hload =>
    have hload := of_decide_eq_false hload
    omega
  | resized hload hresize =>
    obtain ⟨entries₁, hrehash, -, hlength, hcount⟩ := rehash_ok t.hash t.size entries hagain
      (by omega) (by omega) hcounted hwhole
    rw [resize, hrehash] at hresize
    cases hresize
    omega
  | @inner _ before after acc _ entry _ _ _ _ hload hbefore hstate hpair hinner =>
    -- the elements before this one are in the new table, which has room for all
    have hcount : elements (before ++ entry :: after) =
        elements before + (elements after + 1) := by
      rw [elements, List.countP_append, List.countP_cons_of_pos (by simpa using hstate)]
      rfl
    obtain ⟨acc', hrehash, -, hlength, hcount'⟩ := rehash_ok t.hash t.size before hagain
      (by omega) (by omega) le_rfl
      (fun e hmem => hwhole e (List.mem_append_left _ hmem))
    rw [hbefore] at hrehash
    cases hrehash
    rw [← hlength] at hagain
    cases hinner with
    | direct hload₁ => omega
    | resized hload₁ hresize => cases hagain.symm.trans hload₁
    | inner hload₁ hbefore₁ hstate₁ hpair₁ hinner₁ => cases hagain.symm.trans hload₁

end Room

/-! ## The operations -/

section Operations

variable {t t' : LinearProbingHashmap K V} {k : K} {op : MapOp K V}

/-- A key is looked up or removed only where its elements are in buckets whose indices are
`int`s. -/
def Fits (t : LinearProbingHashmap K V) : MapOp K V → Prop
  | .remove k => IndicesFit t k
  | .lookUp k => IndicesFit t k
  | .insert _ _ => True
  | .forEach => True

/-- The constructor makes such a table.
SOURCE: linear_probing_hashmap.h:74-80 -/
theorem kept_new (hash : K → ℕ) {initialCapacity : ℕ} (h : 1 ≤ initialCapacity) :
    Kept (LinearProbingHashmap.new hash initialCapacity : LinearProbingHashmap K V) := by
  refine ⟨unbroken_replicate h, ?_, ?_⟩
  · exact Nat.le_of_eq (elements_replicate initialCapacity)
  · simp [LinearProbingHashmap.new]

/-- Deleting a bucket keeps the invariant.
SOURCE: linear_probing_hashmap.h:102 -/
theorem Kept.delete (h : Kept t) (i : ℕ) (entry : Entry K V) :
    Kept { t with entries := t.entries.set i { entry with state := .deleted } } := by
  refine ⟨h.unbroken.delete i entry, ?_, ?_⟩
  · have hfewer := (elements_set_le t.entries i { entry with state := .deleted }).2
      State.noConfusion
    exact le_trans hfewer h.counted
  · rw [List.length_set]
    exact h.loaded

/-- The assertion of `ForEach` holds at every element.
SOURCE: linear_probing_hashmap.h:110-111 -/
theorem mapM_pair_defined {entries : List (Entry K V)}
    (hwhole : ∀ entry ∈ entries, entry.state = .element ∧ Whole entry) :
    ∃ visited, entries.mapM Entry.pair = .ok visited := by
  induction entries with
  | nil => exact ⟨[], rfl⟩
  | cons entry entries ih =>
    obtain ⟨hstate, hentry⟩ := hwhole entry List.mem_cons_self
    obtain ⟨k, v, rfl⟩ := hentry hstate
    obtain ⟨visited, hvisit⟩ := ih fun e hmem => hwhole e (List.mem_cons_of_mem _ hmem)
    refine ⟨(k, v) :: visited, ?_⟩
    rw [List.mapM_cons, hvisit]
    rfl

/-- `ForEach` is defined.
SOURCE: linear_probing_hashmap.h:106-113 -/
theorem Kept.forEach_defined (h : Kept t) : ∃ visited, t.forEach = .ok visited := by
  apply mapM_pair_defined
  intro entry hmem
  rw [List.mem_filter, decide_eq_true_eq] at hmem
  exact ⟨hmem.2, h.unbroken.whole entry hmem.1⟩

variable [DecidableEq K]

/-- `Insert` is defined and keeps the invariant.
SOURCE: linear_probing_hashmap.h:94-97, 116-131 -/
theorem Kept.insert (h : Kept t) (k : K) (v : V) :
    ∃ t', t.insert k v = .ok t' ∧ Kept t' := by
  obtain ⟨entries', hinsert, hunbroken, hcount, hload⟩ := h.insertWithoutSize_ok k v
  refine ⟨{ t with entries := entries', size := t.size + 1 }, ?_, hunbroken, hcount, ?_⟩
  · rw [LinearProbingHashmap.insert, hinsert]
    rfl
  · show 4 * (t.size + 1) ≤ 3 * entries'.length + 4
    omega

/-- `Remove` keeps the invariant whatever bucket its index leads it to.
SOURCE: linear_probing_hashmap.h:99-104 -/
theorem Kept.remove (h : Kept t) (hremove : t.remove k = .ok t') : Kept t' := by
  unfold LinearProbingHashmap.remove at hremove
  by_cases hfind : t.internalFind k ≠ -1
  · simp only [if_pos hfind] at hremove
    cases hentry : t.entryAt (t.internalFind k) with
    | error e =>
      rw [hentry] at hremove
      cases hremove
    | ok r =>
      obtain ⟨i, entry⟩ := r
      rw [hentry] at hremove
      cases hremove
      exact h.delete i entry
  · simp only [if_neg hfind] at hremove
    cases hremove
    exact h

/-- **Every operation** keeps the invariant.
SOURCE: linear_probing_hashmap.h:82-146 -/
theorem Kept.step (h : Kept t) {result : MapResult K V} (hstep : t.step op = .ok (result, t')) :
    Kept t' := by
  cases op with
  | insert k v =>
    obtain ⟨t₁, hinsert, hkept⟩ := h.insert k v
    rw [LinearProbingHashmap.step, hinsert] at hstep
    cases hstep
    exact hkept
  | remove k =>
    rw [LinearProbingHashmap.step] at hstep
    cases hremove : t.remove k with
    | error e =>
      rw [hremove] at hstep
      cases hstep
    | ok t₁ =>
      rw [hremove] at hstep
      cases hstep
      exact h.remove hremove
  | lookUp k =>
    rw [LinearProbingHashmap.step] at hstep
    cases hlookUp : t.lookUp k with
    | error e =>
      rw [hlookUp] at hstep
      cases hstep
    | ok value =>
      rw [hlookUp] at hstep
      cases hstep
      exact h
  | forEach =>
    rw [LinearProbingHashmap.step] at hstep
    cases hvisit : t.forEach with
    | error e =>
      rw [hvisit] at hstep
      cases hstep
    | ok visited =>
      rw [hvisit] at hstep
      cases hstep
      exact h

/-- `Remove` is defined where the indices fit.
SOURCE: linear_probing_hashmap.h:99-104 -/
theorem Kept.remove_defined (h : Kept t) (hfit : IndicesFit t k) :
    ∃ t', t.remove k = .ok t' := by
  unfold LinearProbingHashmap.remove
  obtain ⟨hfind, -⟩ | ⟨i, v, hi, hfind⟩ := h.unbroken.find_cases (k := k)
  · exact ⟨t, by simp only [hfind, ne_eq, not_true_eq_false, if_false]⟩
  · obtain ⟨hne, hentry⟩ := entryAt_toInt hfit hi
    rw [← hfind] at hne hentry
    simp only [if_pos hne, hentry]
    exact ⟨_, rfl⟩

/-- `LookUp` is defined where the indices fit.
SOURCE: linear_probing_hashmap.h:82-92 -/
theorem Kept.lookUp_defined (h : Kept t) (hfit : IndicesFit t k) :
    ∃ value, t.lookUp k = .ok value := by
  unfold LinearProbingHashmap.lookUp
  obtain ⟨hfind, -⟩ | ⟨i, v, hi, hfind⟩ := h.unbroken.find_cases (k := k)
  · exact ⟨none, by simp only [hfind, ne_eq, not_true_eq_false, if_false]⟩
  · obtain ⟨hne, hentry⟩ := entryAt_toInt hfit hi
    rw [← hfind] at hne hentry
    simp only [if_pos hne, hentry]
    exact ⟨some v, rfl⟩

/-- **Every operation** is defined where the indices fit, and keeps the invariant.
SOURCE: linear_probing_hashmap.h:82-146 -/
theorem Kept.defined (h : Kept t) (hfits : Fits t op) :
    ∃ result t', t.step op = .ok (result, t') ∧ Kept t' := by
  have hdefined : ∃ result t', t.step op = .ok (result, t') := by
    cases op with
    | insert k v =>
      obtain ⟨t', hinsert, -⟩ := h.insert k v
      refine ⟨.void, t', ?_⟩
      rw [LinearProbingHashmap.step, hinsert]
      rfl
    | remove k =>
      obtain ⟨t', hremove⟩ := h.remove_defined hfits
      refine ⟨.void, t', ?_⟩
      rw [LinearProbingHashmap.step, hremove]
      rfl
    | lookUp k =>
      obtain ⟨value, hlookUp⟩ := h.lookUp_defined hfits
      refine ⟨.value value, t, ?_⟩
      rw [LinearProbingHashmap.step, hlookUp]
      rfl
    | forEach =>
      obtain ⟨visited, hvisit⟩ := h.forEach_defined
      refine ⟨.visited visited, t, ?_⟩
      rw [LinearProbingHashmap.step, hvisit]
      rfl
  obtain ⟨result, t', hstep⟩ := hdefined
  exact ⟨result, t', hstep, h.step hstep⟩

end Operations

/-- **The probe chains of every table**: after every sequence of operations on a new table that
is defined, no empty bucket lies between an element and the bucket its key hashes to, the loop of
`InsertWithoutSize` always has a bucket to stop at, and `InternalFind` misses no key whose
elements are in buckets with indices that are `int`s.  The sequence is defined if the keys that are
looked up or removed are all such.
SOURCE: linear_probing_hashmap.h:82-168 -/
theorem probe_chain [DecidableEq K] (hash : K → ℕ) {initialCapacity : ℕ}
    (hcapacity : 1 ≤ initialCapacity) (ops : List (MapOp K V)) :
    (Guarded step Fits (LinearProbingHashmap.new hash initialCapacity) ops →
      ∃ results t,
        runMap step (LinearProbingHashmap.new hash initialCapacity) ops = .ok (results, t)) ∧
    ∀ results t,
      runMap step (LinearProbingHashmap.new hash initialCapacity) ops = .ok (results, t) →
      (∀ i entry, t.entries[i]? = some entry → entry.state = .element →
        ∃ k, entry.key = some k ∧ ∃ j < t.entries.length,
          (t.hash k + j) % t.entries.length = i ∧
          ∀ j' < j, ¬ EmptyAt t.entries ((t.hash k + j') % t.entries.length)) ∧
      (∀ k v table, Probes t.hash t.size (t.size + 2) t.entries k v table →
        ∃ entry ∈ table, entry.state ≠ .element) ∧
      (∀ k v, ∃ t', t.insert k v = .ok t') ∧
      (∀ k, IndicesFit t k → t.internalFind k = -1 →
        ∀ entry ∈ t.entries, entry.state = .element → entry.key ≠ some k) := by
  have hnew : Kept (LinearProbingHashmap.new hash initialCapacity : LinearProbingHashmap K V) :=
    kept_new hash hcapacity
  refine ⟨runMap_defined step (fun _ _ hkept hfits => hkept.defined hfits) hnew, ?_⟩
  intro results t hrun
  have hkept : Kept t := runMap_keeps step (fun _ _ _ _ h hstep => h.step hstep) hnew hrun
  refine ⟨?_, ?_, ?_, ?_⟩
  · intro i entry hentry hstate
    obtain ⟨k, v, rfl⟩ := hkept.unbroken.whole entry (List.mem_of_getElem? hentry) hstate
    exact ⟨k, rfl, hkept.unbroken.path i k v hentry⟩
  · intro k v table hprobes
    exact exists_not_element (probes_room hkept hprobes)
  · intro k v
    obtain ⟨t', hinsert, -⟩ := hkept.insert k v
    exact ⟨t', hinsert⟩
  · intro k hfit hfind entry hmem hstate hkey
    obtain ⟨i, hi⟩ := List.mem_iff_getElem?.mp hmem
    obtain ⟨k', v, rfl⟩ := hkept.unbroken.whole entry hmem hstate
    cases hkey
    obtain ⟨-, hnone⟩ | ⟨i', v', hi', hfound⟩ := hkept.unbroken.find_cases (k := k)
    · exact hnone i v hi
    · apply (entryAt_toInt hfit hi').1
      rw [← hfound]
      exact hfind

/-- Keys that all hash to the last of two buckets.  The second insertion of key 1 finds a deleted
bucket before its own, the third one resizes the table. -/
def wrappingOps : List (MapOp ℕ ℕ) :=
  [.insert 0 1, .insert 1 2, .remove 0, .insert 1 3, .insert 1 4, .lookUp 1]

/-- A table of two buckets, whose paths wrap around its end.
SOURCE: linear_probing_hashmap.h:82-146 -/
theorem probe_chain_wrappingOps :
    ∃ t, runMap step (LinearProbingHashmap.new (fun _ => 1) 2) wrappingOps =
        .ok ([.void, .void, .void, .void, .void, .value (some 4)], t) ∧
      ∀ k v table, Probes t.hash t.size (t.size + 2) t.entries k v table →
        ∃ entry ∈ table, entry.state ≠ .element := by
  have hcapacity : 1 ≤ 2 := by decide
  refine ⟨_, rfl, ?_⟩
  exact ((probe_chain (fun _ => 1) hcapacity wrappingOps).2 _ _ rfl).2.1

/-! ## A bucket whose index is `-1` -/

section Last

variable [DecidableEq K] {hash : K → ℕ} {entries : List (Entry K V)} {k : K}

/-- An element goes to the first bucket of its path if that is free.
SOURCE: linear_probing_hashmap.h:121-130 -/
theorem place_home (hpos : 0 < entries.length)
    (hfree : heldByOther entries k (hash k % entries.length) = false) (v : V) :
    place hash entries k v =
      .ok (entries.set (hash k % entries.length) ⟨.element, some k, some v⟩) := by
  have hwalk : walk entries.length (fun i => !heldByOther entries k i) entries.length
      (hash k % entries.length) = some ((hash k + 0) % entries.length) := by
    apply walk_eq_some hpos
    · exact congrArg not hfree
    · intro i hi
      exact absurd hi (Nat.not_lt_zero i)
  rw [place, hwalk, Nat.add_zero]

/-- The last index of such a table is converted to `-1`.
SOURCE: linear_probing_hashmap.h:165 -/
theorem toInt_last {n : ℕ} (hpos : 0 < n) (hn : n % 2 ^ 32 = 0) : toInt (n - 1) = -1 := by
  have hlow : (n - 1) % 2 ^ 32 = 2 ^ 32 - 1 := by omega
  rw [toInt, hlow]
  rfl

/-- In a table whose number of buckets is a multiple of `2 ^ 32`, an element in the last bucket is
not found.
SOURCE: linear_probing_hashmap.h:149-168 -/
theorem internalFind_last {n : ℕ} (hpos : 0 < n) (hn : n % 2 ^ 32 = 0) (k : K) (v : V) :
    ∃ t, runMap step (LinearProbingHashmap.new (fun _ => n - 1) n) [.insert k v] =
        .ok ([.void], t) ∧
      ElementAt t.entries (n - 1) k v ∧ t.internalFind k = -1 := by
  have hlength : (List.replicate n (.new : Entry K V)).length = n := List.length_replicate
  have hhome : (n - 1) % (List.replicate n (.new : Entry K V)).length = n - 1 := by
    rw [hlength]
    exact Nat.mod_eq_of_lt (Nat.sub_one_lt_of_lt hpos)
  have hfree : heldByOther (List.replicate n (.new : Entry K V)) k (n - 1) = false := by
    by_contra hheld
    rw [Bool.not_eq_false] at hheld
    obtain ⟨entry, hentry, hstate⟩ := heldByOther_element hheld
    cases List.eq_of_mem_replicate (List.mem_of_getElem? hentry)
    cases hstate
  have hload : overloaded 0 n = false := by
    rw [overloaded, decide_eq_false_iff_not]
    omega
  have hplace : place (fun _ => n - 1) (List.replicate n (.new : Entry K V)) k v =
      .ok ((List.replicate n .new).set (n - 1) ⟨.element, some k, some v⟩) := by
    rw [place_home (by omega) (by rw [hhome]; exact hfree), hhome]
  obtain ⟨t, hinsert, hkept⟩ := (kept_new (fun _ : K => n - 1) hpos).insert k v
  have ht : t.entries = (List.replicate n .new).set (n - 1) ⟨.element, some k, some v⟩ := by
    rw [LinearProbingHashmap.insert, LinearProbingHashmap.new, insertWithoutSize, hlength, hload,
      if_neg Bool.false_ne_true, hplace] at hinsert
    cases hinsert
    rfl
  have hat : ElementAt t.entries (n - 1) k v := by
    rw [ht]
    exact (elementAt_set_self (by omega)).mpr rfl
  refine ⟨t, ?_, hat, ?_⟩
  · simp only [runMap, LinearProbingHashmap.step, hinsert, Except.map]
  · obtain ⟨-, hnone⟩ | ⟨i, v', hi, hfind⟩ := hkept.unbroken.find_cases (k := k)
    · exact absurd hat (hnone (n - 1) v)
    · -- the table has no other element
      have hlast : i = n - 1 := by
        by_contra hne
        rw [ht, elementAt_set_ne hne] at hi
        exact not_holds_replicate k v' ⟨i, hi⟩
      rw [hfind, hlast, toInt_last hpos hn]

end Last

/-- **An element that `InternalFind` does not find**: the only key of a table of `2 ^ 32` buckets,
in the last one.
SOURCE: linear_probing_hashmap.h:82-97, 149-168 -/
theorem lastBucket_lost :
    ∃ t, runMap step (LinearProbingHashmap.new (fun _ => 2 ^ 32 - 1) (2 ^ 32))
        [.insert "k" "v"] = .ok ([.void], t) ∧
      ElementAt t.entries (2 ^ 32 - 1) "k" "v" ∧ t.internalFind "k" = -1 := by
  exact internalFind_last (by decide) (by decide) "k" "v"

end MyRedis.Analysis

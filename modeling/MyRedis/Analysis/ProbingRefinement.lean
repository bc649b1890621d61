import MyRedis.Model.LinearProbingHashmap

/-!
# Where linear probing is a map

A table is probed well (`Probed`) when every element can be found: between the bucket its key
hashes to and its own there is no empty bucket and no other element with the same key.
`Remove` keeps this, and so does an `Insert` of a key that is not there.  An `Insert` of a key
that is there keeps it exactly when the loop does not stop before it reaches that key, at a
bucket that was deleted: it would then place a second element with the key.

So every sequence of operations in which no `Insert` meets a deleted bucket on its way to its
own key, and no key is looked up in a bucket whose index does not fit an `int`, is answered
as its history says (`probing_refines`).
-/

set_option autoImplicit false

namespace MyRedis.Analysis

open MyRedis.Model MyRedis.Lib LinearProbingHashmap

variable {K V : Type}

/-- The bucket holds this element. -/
def ElementAt (entries : List (Entry K V)) (i : ℕ) (k : K) (v : V) : Prop :=
  entries[i]? = some ⟨.element, some k, some v⟩

/-- The table holds this element. -/
def Holds (entries : List (Entry K V)) (k : K) (v : V) : Prop := ∃ i, ElementAt entries i k v

/-- The bucket that the loops come to after `j` steps. -/
def probe (hash : K → ℕ) (entries : List (Entry K V)) (k : K) (j : ℕ) : ℕ :=
  (hash k + j) % entries.length

/-- An element has its key and its value. -/
def Whole (entry : Entry K V) : Prop :=
  entry.state = .element → ∃ k v, entry = ⟨.element, some k, some v⟩

/-- Every element is whole, and `InternalFind` comes to it. -/
structure Probed [DecidableEq K] (hash : K → ℕ) (entries : List (Entry K V)) : Prop where
  nonempty : 0 < entries.length
  whole : ∀ entry ∈ entries, Whole entry
  path : ∀ i k v, ElementAt entries i k v → ∃ j < entries.length,
    probe hash entries k j = i ∧ ∀ j' < j, passes entries k (probe hash entries k j') = true

/-! ## Buckets -/

section Buckets

variable {hash : K → ℕ} {entries : List (Entry K V)} {entry : Entry K V} {i p : ℕ} {k k' : K}
  {v v' : V}

/-- An element is in a bucket of the table.
SOURCE: linear_probing_hashmap.h:116-168 -/
theorem ElementAt.lt (h : ElementAt entries i k v) : i < entries.length :=
  (List.getElem?_eq_some_iff.mp h).1

/-- What is in the bucket that was written to.
SOURCE: linear_probing_hashmap.h:116-168 -/
theorem elementAt_set_self (hp : p < entries.length) :
    ElementAt (entries.set p entry) p k v ↔ entry = ⟨.element, some k, some v⟩ := by
  rw [ElementAt, List.getElem?_set_self hp, Option.some.injEq]

/-- The other buckets hold what they held.
SOURCE: linear_probing_hashmap.h:116-168 -/
theorem elementAt_set_ne (hne : i ≠ p) :
    ElementAt (entries.set p entry) i k v ↔ ElementAt entries i k v := by
  rw [ElementAt, List.getElem?_set_ne (Ne.symm hne)]
  rfl

/-- Writing to a bucket changes no path.
SOURCE: linear_probing_hashmap.h:121, 125 -/
theorem probe_set (j : ℕ) : probe hash (entries.set p entry) k j = probe hash entries k j := by
  rw [probe, probe, List.length_set]

variable [DecidableEq K]

/-- A path stays in the table.
SOURCE: linear_probing_hashmap.h:121, 125 -/
theorem Probed.probe_lt (hprobed : Probed hash entries) (k : K) (j : ℕ) :
    probe hash entries k j < entries.length := Nat.mod_lt _ hprobed.nonempty

/-- `InternalFind` does not pass the bucket of its key.
SOURCE: linear_probing_hashmap.h:153-156 -/
theorem ElementAt.not_passes (h : ElementAt entries i k v) : passes entries k i = false := by
  rw [ElementAt] at h
  simp [passes, heldByOther, h]

/-- The bucket of another key is held.
SOURCE: linear_probing_hashmap.h:122-124 -/
theorem ElementAt.heldByOther (h : ElementAt entries i k v) (hne : k ≠ k') :
    heldByOther entries k' i = true := by
  rw [ElementAt] at h
  simp [LinearProbingHashmap.heldByOther, h, hne]

/-- `InternalFind` passes what `InsertWithoutSize` passes.
SOURCE: linear_probing_hashmap.h:122-124, 153-156 -/
theorem passes_of_heldByOther (h : heldByOther entries k i = true) : passes entries k i = true := by
  cases hentry : entries[i]? with
  | none => simp [heldByOther, hentry] at h
  | some entry => simp [passes, hentry, h]

/-- `InternalFind` passes the buckets that were not written to as before.
SOURCE: linear_probing_hashmap.h:153-156 -/
theorem passes_set_ne (hne : i ≠ p) :
    passes (entries.set p entry) k i = passes entries k i := by
  simp only [passes, heldByOther, List.getElem?_set_ne (Ne.symm hne)]

/-- **A key has one bucket.**
SOURCE: linear_probing_hashmap.h:116-168 -/
theorem Probed.unique (hprobed : Probed hash entries) (h : ElementAt entries i k v)
    (h' : ElementAt entries p k v') : i = p := by
  obtain ⟨j, -, rfl, hpass⟩ := hprobed.path i k v h
  obtain ⟨j', -, rfl, hpass'⟩ := hprobed.path p k v' h'
  obtain hlt | rfl | hlt := Nat.lt_trichotomy j j'
  · cases (hpass' j hlt).symm.trans h.not_passes
  · rfl
  · cases (hpass j' hlt).symm.trans h'.not_passes

/-! ## Writing to a bucket -/

/-- A bucket may be written to if the elements that are left are not cut off from their keys,
and the element that comes there, if it is one, is on the path of its key.
SOURCE: linear_probing_hashmap.h:121-130 -/
theorem Probed.set (hprobed : Probed hash entries) (hp : p < entries.length) (hwhole : Whole entry)
    (hothers : ∀ i k v, i ≠ p → ElementAt entries i k v →
      passes (entries.set p entry) k p = true)
    (hown : ∀ k v, entry = ⟨.element, some k, some v⟩ → ∃ j < entries.length,
      probe hash entries k j = p ∧
        ∀ j' < j, probe hash entries k j' ≠ p ∧
          passes entries k (probe hash entries k j') = true) :
    Probed hash (entries.set p entry) := by
  refine ⟨?_, ?_, ?_⟩
  · rw [List.length_set]
    exact hprobed.nonempty
  · intro e he
    obtain he | rfl := List.mem_or_eq_of_mem_set he
    · exact hprobed.whole e he
    · exact hwhole
  · intro i k v h
    simp only [probe_set, List.length_set]
    by_cases hi : i = p
    · subst hi
      obtain ⟨j, hj, hprobe, hpass⟩ := hown k v ((elementAt_set_self hp).mp h)
      refine ⟨j, hj, hprobe, ?_⟩
      intro j' hj'
      rw [passes_set_ne (hpass j' hj').1]
      exact (hpass j' hj').2
    · have hold := (elementAt_set_ne hi).mp h
      obtain ⟨j, hj, hprobe, hpass⟩ := hprobed.path i k v hold
      refine ⟨j, hj, hprobe, ?_⟩
      intro j' hj'
      by_cases heq : probe hash entries k j' = p
      · rw [heq]
        exact hothers i k v hi hold
      · rw [passes_set_ne heq]
        exact hpass j' hj'

/-- **Placing an element** in the first bucket that is free or its key's own.
SOURCE: linear_probing_hashmap.h:121-130 -/
theorem Probed.place (hprobed : Probed hash entries) {j : ℕ} (hj : j < entries.length)
    (hfree : heldByOther entries k (probe hash entries k j) = false)
    (hbefore : ∀ j' < j, heldByOther entries k (probe hash entries k j') = true)
    (hown : ∀ i v, ElementAt entries i k v → i = probe hash entries k j) (v : V) :
    Probed hash (entries.set (probe hash entries k j) ⟨.element, some k, some v⟩) ∧
      ∀ k' v', Holds (entries.set (probe hash entries k j) ⟨.element, some k, some v⟩) k' v' ↔
        if k' = k then v' = v else Holds entries k' v' := by
  have hp := hprobed.probe_lt k j
  have hplaced : ElementAt (entries.set (probe hash entries k j) ⟨.element, some k, some v⟩)
      (probe hash entries k j) k v := (elementAt_set_self hp).mpr rfl
  refine ⟨hprobed.set hp (fun _ => ⟨k, v, rfl⟩) ?_ ?_, ?_⟩
  · intro i k' v' hi h
    have hne : k ≠ k' := by
      rintro rfl
      exact hi (hown i v' h)
    exact passes_of_heldByOther (hplaced.heldByOther hne)
  · intro k' v' hentry
    cases hentry
    refine ⟨j, hj, rfl, ?_⟩
    intro j' hj'
    refine ⟨?_, passes_of_heldByOther (hbefore j' hj')⟩
    intro heq
    have hheld := hbefore j' hj'
    rw [heq, hfree] at hheld
    cases hheld
  · intro k' v'
    by_cases hk : k' = k
    · subst hk
      rw [if_pos rfl]
      constructor
      · rintro ⟨i, h⟩
        by_cases hi : i = probe hash entries k' j
        · subst hi
          cases (elementAt_set_self hp).mp h
          rfl
        · exact absurd (hown i v' ((elementAt_set_ne hi).mp h)) hi
      · rintro rfl
        exact ⟨_, hplaced⟩
    · rw [if_neg hk]
      constructor
      · rintro ⟨i, h⟩
        by_cases hi : i = probe hash entries k j
        · subst hi
          cases (elementAt_set_self hp).mp h
          exact absurd rfl hk
        · exact ⟨i, (elementAt_set_ne hi).mp h⟩
      · rintro ⟨i, h⟩
        have hi : i ≠ probe hash entries k j := by
          rintro rfl
          cases hfree.symm.trans (h.heldByOther hk)
        exact ⟨i, (elementAt_set_ne hi).mpr h⟩

/-- **Deleting an element.**
SOURCE: linear_probing_hashmap.h:102 -/
theorem Probed.delete (hprobed : Probed hash entries) (h : ElementAt entries p k v) :
    Probed hash (entries.set p ⟨.deleted, some k, some v⟩) ∧
      ∀ k' v', Holds (entries.set p ⟨.deleted, some k, some v⟩) k' v' ↔
        k' ≠ k ∧ Holds entries k' v' := by
  have hp := h.lt
  refine ⟨hprobed.set hp ?_ ?_ ?_, ?_⟩
  · intro hstate
    cases hstate
  · intro i k' v' _ _
    simp [passes, List.getElem?_set_self hp]
  · intro k' v' hentry
    cases hentry
  · intro k' v'
    constructor
    · rintro ⟨i, hi⟩
      by_cases heq : i = p
      · subst heq
        cases (elementAt_set_self hp).mp hi
      · have hold := (elementAt_set_ne heq).mp hi
        refine ⟨?_, i, hold⟩
        rintro rfl
        exact heq (hprobed.unique hold h)
    · rintro ⟨hne, i, hi⟩
      refine ⟨i, (elementAt_set_ne ?_).mpr hi⟩
      rintro rfl
      rw [ElementAt, h] at hi
      cases hi
      exact hne rfl

end Buckets

/-! ## Finding a key -/

section Find

variable [DecidableEq K] {t : LinearProbingHashmap K V} {i : ℕ} {k : K} {v : V}

/-- An index less than `2 ^ 31` is converted to itself.
SOURCE: linear_probing_hashmap.h:165 -/
theorem toInt_of_lt (h : i < 2 ^ 31) : toInt i = i := by
  have hlow : i % 2 ^ 32 = i := Nat.mod_eq_of_lt (by omega)
  rw [toInt, hlow, if_pos h]

/-- A key that is there is found at its bucket.
SOURCE: linear_probing_hashmap.h:149-168 -/
theorem internalFind_present (hprobed : Probed t.hash t.entries)
    (h : ElementAt t.entries i k v) : t.internalFind k = toInt i := by
  obtain ⟨j, hj, rfl, hpass⟩ := hprobed.path i k v h
  have hwalk : walk t.entries.length (fun i => !passes t.entries k i) t.entries.length
      (t.hash k % t.entries.length) = some (probe t.hash t.entries k j) := by
    apply walk_eq_some hj
    · exact congrArg not h.not_passes
    · intro j' hj'
      exact congrArg not (hpass j' hj')
  rw [ElementAt] at h
  rw [internalFind, hwalk]
  simp only [h]

/-- A key that is not there is not found.
SOURCE: linear_probing_hashmap.h:149-168 -/
theorem internalFind_absent (hprobed : Probed t.hash t.entries)
    (h : ∀ v, ¬ Holds t.entries k v) : t.internalFind k = -1 := by
  rw [internalFind]
  obtain ⟨j, -, hwalk, hstop, -⟩ | ⟨hwalk, -⟩ := walk_cases t.entries.length (t.hash k)
    (fun i => !passes t.entries k i) t.entries.length
  · rw [hwalk]
    simp only
    split
    · rename_i key value hentry
      -- the loop has stopped at an element, so it is one of `k`
      obtain ⟨k', v', heq⟩ := hprobed.whole _ (List.mem_of_getElem? hentry) rfl
      cases heq
      have hk : k' = k := by
        by_contra hne
        have hheld := ElementAt.heldByOther hentry hne
        rw [passes_of_heldByOther hheld] at hstop
        cases hstop
      subst hk
      exact absurd ⟨_, hentry⟩ (h v')
    · rfl
  · rw [hwalk]

end Find

/-! ## Room -/

section Room

variable {hash : K → ℕ} {entries : List (Entry K V)} {k : K}

/-- The number of elements. -/
def elements (entries : List (Entry K V)) : ℕ := entries.countP fun entry => entry.state = .element

/-- No bucket is deleted. -/
def Undeleted (entries : List (Entry K V)) : Prop := ∀ entry ∈ entries, entry.state ≠ .deleted

instance : Decidable (Undeleted entries) :=
  inferInstanceAs (Decidable (∀ entry ∈ entries, entry.state ≠ .deleted))

/-- No bucket that the loops come to before the one of `k` is deleted. -/
def NoGap (hash : K → ℕ) (entries : List (Entry K V)) (k : K) : Prop :=
  ∀ i v j, ElementAt entries i k v → (∀ j' ≤ j, probe hash entries k j' ≠ i) →
    ∀ entry, entries[probe hash entries k j]? = some entry → entry.state ≠ .deleted

/-- Without deleted buckets no path has a gap.
SOURCE: linear_probing_hashmap.h:116-168 -/
theorem Undeleted.noGap (h : Undeleted entries) : NoGap hash entries k :=
  fun _ _ _ _ _ entry hentry => h entry (List.mem_of_getElem? hentry)

/-- Writing to a bucket adds one element at most.
SOURCE: linear_probing_hashmap.h:116-168 -/
theorem elements_set_le (entries : List (Entry K V)) (i : ℕ) (entry : Entry K V) :
    elements (entries.set i entry) ≤ elements entries + 1 ∧
      (entry.state ≠ .element → elements (entries.set i entry) ≤ elements entries) := by
  by_cases hi : i < entries.length
  · rw [elements, elements, List.countP_set hi]
    refine ⟨by split_ifs <;> omega, ?_⟩
    intro hstate
    simp only [hstate, decide_false, Bool.false_eq_true, if_false]
    omega
  · rw [List.set_eq_of_length_le (Nat.le_of_not_lt hi)]
    exact ⟨Nat.le_succ _, fun _ => le_rfl⟩

variable [DecidableEq K]

/-- A held bucket has an element.
SOURCE: linear_probing_hashmap.h:122-124 -/
theorem heldByOther_element {i : ℕ} (h : heldByOther entries k i = true) :
    ∃ entry, entries[i]? = some entry ∧ entry.state = .element := by
  cases hentry : entries[i]? with
  | none => simp [heldByOther, hentry] at h
  | some entry =>
    simp only [heldByOther, hentry, Bool.and_eq_true, beq_iff_eq] at h
    exact ⟨entry, rfl, h.1.1⟩

/-- With a bucket that holds no element, the loop of `InsertWithoutSize` ends.
SOURCE: linear_probing_hashmap.h:122-126 -/
theorem exists_place (hroom : elements entries < entries.length) (hash : K → ℕ) (k : K) :
    ∃ j < entries.length,
      walk entries.length (fun i => !heldByOther entries k i) entries.length
          (hash k % entries.length) = some (probe hash entries k j) ∧
        heldByOther entries k (probe hash entries k j) = false ∧
        ∀ j' < j, heldByOther entries k (probe hash entries k j') = true := by
  obtain ⟨j, hj, hwalk, hstop, hpass⟩ | ⟨-, hpass⟩ := walk_cases entries.length (hash k)
    (fun i => !heldByOther entries k i) entries.length
  · simp only [Bool.not_eq_eq_eq_not, Bool.not_true, Bool.not_false] at hstop hpass
    exact ⟨j, hj, hwalk, hstop, hpass⟩
  · exfalso
    simp only [Bool.not_eq_eq_eq_not, Bool.not_false] at hpass
    refine Nat.ne_of_lt hroom (List.countP_eq_length.mpr ?_)
    intro entry hmem
    obtain ⟨i, hi, rfl⟩ := List.mem_iff_getElem.mp hmem
    obtain ⟨j, hj, hprobe⟩ := exists_walk_step hi (hash k)
    have hheld := hpass j hj
    rw [hprobe] at hheld
    obtain ⟨entry, hentry, helement⟩ := heldByOther_element hheld
    rw [List.getElem?_eq_getElem hi] at hentry
    cases hentry
    exact decide_eq_true helement

/-- Without a gap the loop stops at the bucket of the key, if it has one.
SOURCE: linear_probing_hashmap.h:122-126 -/
theorem Probed.stops_at_own (hprobed : Probed hash entries) (hgap : NoGap hash entries k) {j : ℕ}
    (hfree : heldByOther entries k (probe hash entries k j) = false)
    (hbefore : ∀ j' < j, heldByOther entries k (probe hash entries k j') = true) (i : ℕ) (v : V)
    (h : ElementAt entries i k v) : i = probe hash entries k j := by
  obtain ⟨ji, -, rfl, hpass⟩ := hprobed.path i k v h
  obtain hlt | rfl | hlt := Nat.lt_trichotomy j ji
  · exfalso
    have hearlier (j' : ℕ) (hj' : j' ≤ j) : probe hash entries k j' ≠ probe hash entries k ji := by
      intro heq
      have hpassed := hpass j' (lt_of_le_of_lt hj' hlt)
      rw [heq, h.not_passes] at hpassed
      cases hpassed
    have hpassed := hpass j hlt
    have hentry := List.getElem?_eq_getElem (hprobed.probe_lt k j)
    rw [passes, hentry] at hpassed
    simp only [hfree, Bool.or_false, beq_iff_eq] at hpassed
    exact hgap _ v j h hearlier _ hentry hpassed
  · rfl
  · have hheld := hbefore ji hlt
    rw [ElementAt] at h
    simp [heldByOther, h] at hheld

/-- **`InsertWithoutSize` behind its check**, with room and without a gap.
SOURCE: linear_probing_hashmap.h:121-130 -/
theorem place_ok (hprobed : Probed hash entries) (hroom : elements entries < entries.length)
    (hgap : NoGap hash entries k) (v : V) :
    ∃ entries', place hash entries k v = .ok entries' ∧ Probed hash entries' ∧
      entries'.length = entries.length ∧ elements entries' ≤ elements entries + 1 ∧
      (Undeleted entries → Undeleted entries') ∧
      ∀ k' v', Holds entries' k' v' ↔ if k' = k then v' = v else Holds entries k' v' := by
  obtain ⟨j, hj, hwalk, hfree, hbefore⟩ := exists_place hroom hash k
  obtain ⟨hprobed', hholds⟩ := hprobed.place hj hfree hbefore
    (hprobed.stops_at_own hgap hfree hbefore) v
  refine ⟨_, ?_, hprobed', List.length_set, (elements_set_le entries _ _).1, ?_, hholds⟩
  · rw [place, hwalk]
  · intro hundeleted entry hmem
    obtain hmem | rfl := List.mem_or_eq_of_mem_set hmem
    · exact hundeleted entry hmem
    · exact State.noConfusion

end Room

/-! ## Resizing -/

section Resize

variable {hash : K → ℕ} {entries : List (Entry K V)}

/-- Two entries are not elements with one key. -/
def KeysApart (entry entry' : Entry K V) : Prop :=
  ∀ k v v', entry = ⟨.element, some k, some v⟩ → entry' ≠ ⟨.element, some k, some v'⟩

/-- The entries of a table are its elements.
SOURCE: linear_probing_hashmap.h:116-168 -/
theorem mem_iff_holds {k : K} {v : V} :
    (⟨.element, some k, some v⟩ : Entry K V) ∈ entries ↔ Holds entries k v :=
  List.mem_iff_getElem?

/-- The elements of a table, with one bucket more.
SOURCE: linear_probing_hashmap.h:116-168 -/
theorem holds_cons {entry : Entry K V} {k : K} {v : V} :
    Holds (entry :: entries) k v ↔ entry = ⟨.element, some k, some v⟩ ∨ Holds entries k v := by
  rw [← mem_iff_holds, List.mem_cons, mem_iff_holds, eq_comm]

/-- `ForEach` visits the elements in the order of their buckets.
SOURCE: linear_probing_hashmap.h:106-113 -/
theorem visit_ok (hwhole : ∀ entry ∈ entries, Whole entry) (hapart : entries.Pairwise KeysApart) :
    ∃ visited, (entries.filter fun entry => entry.state = .element).mapM Entry.pair =
        .ok visited ∧
      (visited.map Prod.fst).Nodup ∧ ∀ k v, (k, v) ∈ visited ↔ Holds entries k v := by
  induction entries with
  | nil =>
    refine ⟨[], rfl, List.nodup_nil, ?_⟩
    intro k v
    rw [← mem_iff_holds]
    exact iff_of_false List.not_mem_nil List.not_mem_nil
  | cons entry entries ih =>
    rw [List.pairwise_cons] at hapart
    obtain ⟨visited, hvisit, hnodup, hmem⟩ :=
      ih (fun e he => hwhole e (List.mem_cons_of_mem _ he)) hapart.2
    by_cases hstate : entry.state = .element
    · obtain ⟨k, v, rfl⟩ := hwhole entry List.mem_cons_self hstate
      have hfirst (v' : V) : (k, v') ∉ visited := by
        intro hin
        exact hapart.1 _ (mem_iff_holds.mpr ((hmem k v').mp hin)) k v v' rfl rfl
      refine ⟨(k, v) :: visited, ?_, ?_, ?_⟩
      · rw [List.filter_cons_of_pos (by simp), List.mapM_cons, hvisit]
        rfl
      · rw [List.map_cons, List.nodup_cons]
        refine ⟨?_, hnodup⟩
        intro hin
        obtain ⟨⟨k', v'⟩, hvisited, rfl⟩ := List.mem_map.mp hin
        exact hfirst v' hvisited
      · intro k' v'
        rw [List.mem_cons, hmem, holds_cons]
        simp [eq_comm]
    · refine ⟨visited, ?_, hnodup, ?_⟩
      · rw [List.filter_cons_of_neg (by simpa using hstate)]
        exact hvisit
      · intro k v
        have hother : entry ≠ ⟨.element, some k, some v⟩ := by
          rintro rfl
          exact hstate rfl
        rw [hmem, holds_cons, or_iff_right hother]

/-- An empty table holds nothing.
SOURCE: linear_probing_hashmap.h:136-137 -/
theorem not_holds_replicate {n : ℕ} (k : K) (v : V) :
    ¬ Holds (List.replicate n (.new : Entry K V)) k v := by
  rintro ⟨i, h⟩
  cases List.eq_of_mem_replicate (List.mem_of_getElem? h)

variable [DecidableEq K]

/-- No two buckets hold one key.
SOURCE: linear_probing_hashmap.h:116-168 -/
theorem Probed.keysApart (hprobed : Probed hash entries) : entries.Pairwise KeysApart := by
  rw [List.pairwise_iff_getElem]
  intro i j hi hj hlt k v v' h h'
  have hat : ElementAt entries i k v := (List.getElem?_eq_getElem hi).trans (congrArg some h)
  have hat' : ElementAt entries j k v' := (List.getElem?_eq_getElem hj).trans (congrArg some h')
  exact Nat.ne_of_lt hlt (hprobed.unique hat hat')

/-- The table `Resize` starts from.
SOURCE: linear_probing_hashmap.h:136-137 -/
theorem probed_replicate {n : ℕ} (hn : 0 < n) :
    Probed hash (List.replicate n (.new : Entry K V)) := by
  refine ⟨?_, ?_, ?_⟩
  · rw [List.length_replicate]
    exact hn
  · intro entry hmem hstate
    cases List.eq_of_mem_replicate hmem
    cases hstate
  · intro i k v h
    cases List.eq_of_mem_replicate (List.mem_of_getElem? h)

/-- The loop of `Resize` keeps what placing an element keeps, if `InsertWithoutSize` does not
resize the table again.  `I` is about the buckets it has still to come to and the new table.
SOURCE: linear_probing_hashmap.h:139-145 -/
theorem reinsert_induct {size n : ℕ} (depth : ℕ) (hload : overloaded size n = false)
    {I : List (Entry K V) → List (Entry K V) → Prop}
    (hlength : ∀ old acc, I old acc → acc.length = n)
    (hwhole : ∀ old acc, I old acc → ∀ entry ∈ old, Whole entry)
    (hskip : ∀ entry old acc, entry.state ≠ .element → I (entry :: old) acc → I old acc)
    (hplace : ∀ k v old acc, I (⟨.element, some k, some v⟩ :: old) acc →
      ∃ acc', place hash acc k v = .ok acc' ∧ I old acc')
    {old acc : List (Entry K V)} (hI : I old acc) :
    ∃ acc', old.foldlM (reinsert (insertWithoutSize hash size (depth + 1))) acc = .ok acc' ∧
      I [] acc' := by
  induction old generalizing acc with
  | nil => exact ⟨acc, rfl, hI⟩
  | cons entry old ih =>
    rw [List.foldlM_cons]
    by_cases hstate : entry.state = .element
    · obtain ⟨k, v, rfl⟩ := hwhole _ acc hI entry List.mem_cons_self hstate
      obtain ⟨acc₁, hplaced, hI₁⟩ := hplace k v old acc hI
      have hreinsert : reinsert (insertWithoutSize hash size (depth + 1)) acc
          ⟨.element, some k, some v⟩ = .ok acc₁ := by
        rw [reinsert, if_pos rfl]
        show insertWithoutSize hash size (depth + 1) acc k v = _
        rw [insertWithoutSize, hlength _ acc hI, hload]
        exact hplaced
      rw [hreinsert]
      exact ih hI₁
    · rw [reinsert, if_neg hstate]
      exact ih (hskip entry old acc hstate hI)

/-- `Resize` under way: the new table and the buckets it has still to come to hold at most
`total` elements between them, no key twice, and these are the elements of `target`. -/
structure Reinserting (hash : K → ℕ) (n total : ℕ) (target : K → V → Prop)
    (old acc : List (Entry K V)) : Prop where
  probed : Probed hash acc
  length : acc.length = n
  undeleted : Undeleted acc
  counted : elements acc + elements old ≤ total
  whole : ∀ entry ∈ old, Whole entry
  apart : old.Pairwise KeysApart
  fresh : ∀ k v v', Holds old k v → ¬ Holds acc k v'
  holds : ∀ k v, Holds acc k v ∨ Holds old k v ↔ target k v

/-- A bucket without an element is passed over.
SOURCE: linear_probing_hashmap.h:140 -/
theorem Reinserting.skip {n total : ℕ} {target : K → V → Prop} {entry : Entry K V}
    {old acc : List (Entry K V)} (hstate : entry.state ≠ .element)
    (h : Reinserting hash n total target (entry :: old) acc) :
    Reinserting hash n total target old acc := by
  have hcount : elements (entry :: old) = elements old :=
    List.countP_cons_of_neg (by simpa using hstate)
  have hholds (k : K) (v : V) : Holds (entry :: old) k v ↔ Holds old k v := by
    have hother : entry ≠ ⟨.element, some k, some v⟩ := by
      rintro rfl
      exact hstate rfl
    rw [holds_cons, or_iff_right hother]
  refine ⟨h.probed, h.length, h.undeleted, ?_, ?_, (List.pairwise_cons.mp h.apart).2, ?_, ?_⟩
  · rw [← hcount]
    exact h.counted
  · intro e hmem
    exact h.whole e (List.mem_cons_of_mem _ hmem)
  · intro k v v' hold
    exact h.fresh k v v' ((hholds k v).mpr hold)
  · intro k v
    rw [← hholds]
    exact h.holds k v

/-- An element comes into the new table.
SOURCE: linear_probing_hashmap.h:142-144 -/
theorem Reinserting.place {n total : ℕ} (htotal : total ≤ n) {target : K → V → Prop} {k : K}
    {v : V} {old acc : List (Entry K V)}
    (h : Reinserting hash n total target (⟨.element, some k, some v⟩ :: old) acc) :
    ∃ acc', LinearProbingHashmap.place hash acc k v = .ok acc' ∧
      Reinserting hash n total target old acc' := by
  have hcount : elements (⟨.element, some k, some v⟩ :: old) = elements old + 1 :=
    List.countP_cons_of_pos rfl
  have hcounted := h.counted
  have hlength := h.length
  rw [hcount] at hcounted
  obtain ⟨hfirst, hapart⟩ := List.pairwise_cons.mp h.apart
  obtain ⟨acc', hplace, hprobed, hlength', hcount', hundeleted, hholds⟩ :=
    place_ok (k := k) h.probed (by omega) h.undeleted.noGap v
  refine ⟨acc', hplace, hprobed, by omega, hundeleted h.undeleted, by omega, ?_, hapart, ?_, ?_⟩
  · intro e hmem
    exact h.whole e (List.mem_cons_of_mem _ hmem)
  · intro k' v₁ v₂ hold
    have hne : k' ≠ k := by
      rintro rfl
      exact hfirst _ (mem_iff_holds.mpr hold) k' v v₁ rfl rfl
    rw [hholds, if_neg hne]
    exact h.fresh k' v₁ v₂ (holds_cons.mpr (Or.inr hold))
  · intro k' v'
    rw [← h.holds, hholds, holds_cons]
    by_cases hk : k' = k
    · subst hk
      have habsent : ¬ Holds acc k' v' := h.fresh k' v v' (holds_cons.mpr (Or.inl rfl))
      simp [habsent, eq_comm]
    · simp [hk, Ne.symm hk]

/-- **`Resize`** keeps the elements and leaves no deleted bucket.
SOURCE: linear_probing_hashmap.h:133-146 -/
theorem resize_ok {size : ℕ} (depth : ℕ) (hprobed : Probed hash entries)
    (hcount : elements entries ≤ size)
    (hload : overloaded size (max 2 (entries.length * 2)) = false) :
    ∃ entries', resize (insertWithoutSize hash size (depth + 1)) entries = .ok entries' ∧
      Probed hash entries' ∧ entries'.length = max 2 (entries.length * 2) ∧ Undeleted entries' ∧
      elements entries' ≤ elements entries ∧
      ∀ k v, Holds entries' k v ↔ Holds entries k v := by
  have hpos := hprobed.nonempty
  have hempty : elements (List.replicate (max 2 (entries.length * 2)) (.new : Entry K V)) = 0 := by
    simp [elements, Entry.new]
  have hload' := of_decide_eq_false hload
  have hstart : Reinserting hash (max 2 (entries.length * 2)) (elements entries)
      (Holds entries) entries (List.replicate (max 2 (entries.length * 2)) .new) := by
    refine ⟨probed_replicate (by omega), List.length_replicate, ?_, by omega, hprobed.whole,
      hprobed.keysApart, fun k _ v' _ => not_holds_replicate k v', ?_⟩
    · intro entry hmem
      cases List.eq_of_mem_replicate hmem
      exact State.noConfusion
    · intro k v
      rw [or_iff_right (not_holds_replicate k v)]
  obtain ⟨entries', hfold, hend⟩ := reinsert_induct depth hload
    (fun _ _ h => h.length) (fun _ _ h => h.whole) (fun _ _ _ hstate h => h.skip hstate)
    (fun _ _ _ _ h => h.place (by omega)) hstart
  refine ⟨entries', hfold, hend.probed, hend.length, hend.undeleted, hend.counted, ?_⟩
  intro k v
  have hnone : ¬ Holds ([] : List (Entry K V)) k v := by
    rw [← mem_iff_holds]
    exact List.not_mem_nil
  rw [← hend.holds, or_iff_left hnone]

end Resize

/-! ## The operations -/

section Operations

variable [DecidableEq K] {t : LinearProbingHashmap K V} {m : K → Option V} {k : K}

/-- The table holds the map.  `size_` is no less than the number of elements, and at most one
insertion beyond the load factor. -/
structure Good (t : LinearProbingHashmap K V) (m : K → Option V) : Prop where
  probed : Probed t.hash t.entries
  holds : ∀ k v, Holds t.entries k v ↔ m k = some v
  counted : elements t.entries ≤ t.size
  loaded : 4 * t.size ≤ 3 * t.entries.length + 4

/-- The elements with the key are in buckets whose indices are `int`s. -/
def IndicesFit (t : LinearProbingHashmap K V) (k : K) : Prop :=
  ∀ i v, ElementAt t.entries i k v → i < 2 ^ 31

/-- An `Insert` that does not resize the table meets no deleted bucket on its way to its own
key, and a key is looked up only in a bucket whose index is an `int`. -/
def Clear (t : LinearProbingHashmap K V) : MapOp K V → Prop
  | .insert k _ => overloaded t.size t.entries.length = false → NoGap t.hash t.entries k
  | .remove k => IndicesFit t k
  | .lookUp k => IndicesFit t k
  | .forEach => True

omit [DecidableEq K] in
/-- Such an index comes back unchanged from the conversions to `int` and to `size_t`.
SOURCE: linear_probing_hashmap.h:83-88, 100-102, 165 -/
theorem entryAt_toInt {i : ℕ} {v : V} (hfit : IndicesFit t k) (h : ElementAt t.entries i k v) :
    toInt i ≠ -1 ∧ t.entryAt (toInt i) = .ok (i, ⟨.element, some k, some v⟩) := by
  have hlt := hfit i v h
  have hindex : ((i : ℤ) % 2 ^ 64).toNat = i := by omega
  rw [toInt_of_lt hlt]
  rw [ElementAt] at h
  refine ⟨by omega, ?_⟩
  simp only [entryAt, hindex, h]

/-- **`InsertWithoutSize`** puts the value under its key and leaves the others, if no deleted bucket
stands before the key's own or the table is resized.
SOURCE: linear_probing_hashmap.h:116-131 -/
theorem insertWithoutSize_ok (hgood : Good t m)
    (hclear : overloaded t.size t.entries.length = false → NoGap t.hash t.entries k) (v : V) :
    ∃ entries', insertWithoutSize t.hash t.size (t.size + 2) t.entries k v = .ok entries' ∧
      Probed t.hash entries' ∧ elements entries' ≤ t.size + 1 ∧
      4 * t.size ≤ 3 * entries'.length ∧
      ∀ k' v', Holds entries' k' v' ↔ if k' = k then v' = v else Holds t.entries k' v' := by
  have hpos := hgood.probed.nonempty
  have hcounted := hgood.counted
  have hloaded := hgood.loaded
  rw [insertWithoutSize]
  cases hload : overloaded t.size t.entries.length with
  | false =>
    have hload' := of_decide_eq_false hload
    obtain ⟨entries', hplace, hprobed, hlength, hcount, -, hholds⟩ :=
      place_ok hgood.probed (by omega) (hclear hload) v
    refine ⟨entries', ?_, hprobed, by omega, by omega, hholds⟩
    simpa using hplace
  | true =>
    have hload' : overloaded t.size (max 2 (t.entries.length * 2)) = false := by
      rw [overloaded, decide_eq_false_iff_not]
      omega
    obtain ⟨entries₁, hresize, hprobed₁, hlength₁, hundeleted₁, hcount₁, hholds₁⟩ :=
      resize_ok t.size hgood.probed hcounted hload'
    obtain ⟨entries', hplace, hprobed, hlength, hcount, -, hholds⟩ :=
      place_ok (k := k) hprobed₁ (by omega) hundeleted₁.noGap v
    refine ⟨entries', ?_, hprobed, by omega, by omega, ?_⟩
    · rw [if_pos rfl, hresize]
      exact hplace
    · intro k' v'
      rw [hholds, hholds₁]

/-- `Insert` updates the map.
SOURCE: linear_probing_hashmap.h:94-97 -/
theorem insert_ok (hgood : Good t m)
    (hclear : overloaded t.size t.entries.length = false → NoGap t.hash t.entries k) (v : V) :
    ∃ t', t.insert k v = .ok t' ∧ Good t' (Function.update m k (some v)) := by
  obtain ⟨entries', hinsert, hprobed, hcount, hload, hholds⟩ := insertWithoutSize_ok hgood hclear v
  refine ⟨{ t with entries := entries', size := t.size + 1 }, ?_, hprobed, ?_, hcount, ?_⟩
  · rw [LinearProbingHashmap.insert, hinsert]
    rfl
  · intro k' v'
    rw [hholds, hgood.holds]
    by_cases hk : k' = k
    · rw [hk, if_pos rfl, Function.update_self, Option.some.injEq, eq_comm]
    · rw [if_neg hk, Function.update_of_ne hk]
  · show 4 * (t.size + 1) ≤ 3 * entries'.length + 4
    omega

/-- What `InternalFind` finds, as `LookUp` and `Remove` use it.
SOURCE: linear_probing_hashmap.h:149-168 -/
theorem find_cases (hgood : Good t m) (hfit : IndicesFit t k) :
    (t.internalFind k = -1 ∧ m k = none) ∨
      ∃ i v, t.internalFind k ≠ -1 ∧ ElementAt t.entries i k v ∧ m k = some v ∧
        t.entryAt (t.internalFind k) = .ok (i, ⟨.element, some k, some v⟩) := by
  cases hm : m k with
  | none =>
    refine Or.inl ⟨internalFind_absent hgood.probed ?_, rfl⟩
    intro v hholds
    rw [hgood.holds, hm] at hholds
    cases hholds
  | some v =>
    obtain ⟨i, hi⟩ := (hgood.holds k v).mpr hm
    obtain ⟨hne, hentry⟩ := entryAt_toInt hfit hi
    rw [← internalFind_present hgood.probed hi] at hne hentry
    exact Or.inr ⟨i, v, hne, hi, rfl, hentry⟩

/-- `LookUp` answers what the map has.
SOURCE: linear_probing_hashmap.h:82-92 -/
theorem lookUp_ok (hgood : Good t m) (hfit : IndicesFit t k) : t.lookUp k = .ok (m k) := by
  unfold lookUp
  obtain ⟨hfind, hm⟩ | ⟨i, v, hfind, -, hm, hentry⟩ := find_cases hgood hfit
  · simp only [hfind, hm, ne_eq, not_true_eq_false, if_false]
  · simp only [if_pos hfind, hentry, hm]
    rfl

/-- `Remove` takes the key out of the map.
SOURCE: linear_probing_hashmap.h:99-104 -/
theorem remove_ok (hgood : Good t m) (hfit : IndicesFit t k) :
    ∃ t', t.remove k = .ok t' ∧ Good t' (Function.update m k none) := by
  unfold remove
  obtain ⟨hfind, hm⟩ | ⟨i, v, hfind, hi, -, hentry⟩ := find_cases hgood hfit
  · refine ⟨t, ?_, ?_⟩
    · simp only [hfind, ne_eq, not_true_eq_false, if_false]
    · rw [← hm, Function.update_eq_self]
      exact hgood
  · obtain ⟨hprobed, hholds⟩ := hgood.probed.delete hi
    refine ⟨{ t with entries := t.entries.set i ⟨.deleted, some k, some v⟩ }, ?_, hprobed, ?_, ?_,
      ?_⟩
    · simp only [if_pos hfind, hentry]
      rfl
    · intro k' v'
      rw [hholds, hgood.holds]
      by_cases hk : k' = k
      · simp [hk]
      · rw [Function.update_of_ne hk, and_iff_right hk]
    · have hfewer := (elements_set_le t.entries i ⟨.deleted, some k, some v⟩).2
        State.noConfusion
      exact le_trans hfewer hgood.counted
    · rw [List.length_set]
      exact hgood.loaded

/-- `ForEach` lists the map.
SOURCE: linear_probing_hashmap.h:106-113 -/
theorem forEach_ok (hgood : Good t m) : ∃ visited, t.forEach = .ok visited ∧ Lists m visited := by
  obtain ⟨visited, hvisit, hnodup, hmem⟩ := visit_ok hgood.probed.whole hgood.probed.keysApart
  refine ⟨visited, hvisit, hnodup, ?_⟩
  intro k v
  rw [hmem, hgood.holds]

/-- **Every operation does to the table what it does to the map.**
SOURCE: linear_probing_hashmap.h:82-146 -/
theorem step_ok {op : MapOp K V} (hgood : Good t m) (hclear : Clear t op) :
    ∃ result t', t.step op = .ok (result, t') ∧ ResultOk m op result ∧ Good t' (effect m op) := by
  cases op with
  | insert k v =>
    obtain ⟨t', hinsert, hgood'⟩ := insert_ok hgood hclear v
    refine ⟨.void, t', ?_, trivial, hgood'⟩
    rw [step, hinsert]
    rfl
  | remove k =>
    obtain ⟨t', hremove, hgood'⟩ := remove_ok hgood hclear
    refine ⟨.void, t', ?_, trivial, hgood'⟩
    rw [step, hremove]
    rfl
  | lookUp k =>
    refine ⟨.value (m k), t, ?_, rfl, hgood⟩
    rw [step, lookUp_ok hgood hclear]
    rfl
  | forEach =>
    obtain ⟨visited, hvisit, hlists⟩ := forEach_ok hgood
    refine ⟨.visited visited, t, ?_, hlists, hgood⟩
    rw [step, hvisit]
    rfl

/-- The constructor makes a table that holds the empty map.
SOURCE: linear_probing_hashmap.h:74-80 -/
theorem good_new (hash : K → ℕ) {initialCapacity : ℕ} (h : 1 ≤ initialCapacity) :
    Good (LinearProbingHashmap.new hash initialCapacity : LinearProbingHashmap K V)
      (lastInsert []) := by
  refine ⟨probed_replicate h, ?_, ?_, ?_⟩
  · intro k v
    exact iff_of_false (not_holds_replicate k v) (Option.some_ne_none v).symm
  · simp [LinearProbingHashmap.new, elements, Entry.new]
  · simp [LinearProbingHashmap.new]

end Operations

/-- **Where linear probing is a map**: every sequence of operations on a new table that are all
clear is answered as its history says.
SOURCE: linear_probing_hashmap.h:82-168 -/
theorem probing_refines [DecidableEq K] (hash : K → ℕ) {initialCapacity : ℕ}
    (hcapacity : 1 ≤ initialCapacity) (ops : List (MapOp K V))
    (hclear : Guarded step Clear (LinearProbingHashmap.new hash initialCapacity) ops) :
    ∃ results t, runMap step (LinearProbingHashmap.new hash initialCapacity) ops =
      .ok (results, t) ∧ ResultsOk [] ops results := by
  obtain ⟨results, t, hrun, hresults, -⟩ := runMap_refines step
    (fun _ _ _ hgood hclear => step_ok hgood hclear) (good_new hash hcapacity) hclear
  exact ⟨results, t, hrun, hresults⟩

/-- A map of numbers whose keys all hash to the first bucket. -/
def colliding : LinearProbingHashmap ℕ ℕ := .new (fun _ => 0) 16

/-- Two keys are inserted, the second one is overwritten, the first one removed. -/
def clearOps : List (MapOp ℕ ℕ) :=
  [.insert 0 1, .insert 1 2, .insert 1 3, .remove 0, .lookUp 1, .forEach]

/-- In a table of 16 buckets the indices fit.
SOURCE: linear_probing_hashmap.h:116-168 -/
theorem indicesFit_of_length {t : LinearProbingHashmap ℕ ℕ} (h : t.entries.length = 16) (k : ℕ) :
    IndicesFit t k := by
  intro i v hi
  have hlt := hi.lt
  omega

/-- These operations meet no gap.
SOURCE: linear_probing_hashmap.h:116-168 -/
theorem clearOps_clear : Guarded step Clear colliding clearOps := by
  refine ⟨fun _ => Undeleted.noGap (by decide), fun _ _ hstep => ?_⟩
  cases hstep
  refine ⟨fun _ => Undeleted.noGap (by decide), fun _ _ hstep => ?_⟩
  cases hstep
  refine ⟨fun _ => Undeleted.noGap (by decide), fun _ _ hstep => ?_⟩
  cases hstep
  refine ⟨indicesFit_of_length rfl _, fun _ _ hstep => ?_⟩
  cases hstep
  refine ⟨indicesFit_of_length rfl _, fun _ _ hstep => ?_⟩
  cases hstep
  exact ⟨trivial, fun _ _ _ => trivial⟩

/-- A table in which all keys collide.
SOURCE: linear_probing_hashmap.h:82-146 -/
theorem probing_refines_clearOps :
    Guarded step Clear colliding clearOps ∧
      ∃ results t, runMap step colliding clearOps = .ok (results, t) ∧
        ResultsOk [] clearOps results :=
  ⟨clearOps_clear, probing_refines (fun _ => 0) (by decide) clearOps clearOps_clear⟩

/-- **A removed key comes back with an old value**: key 1 is in the second bucket, the first one
is deleted, and the `Insert` of key 1 takes the first one. -/
def staleOps : List (MapOp ℕ ℕ) :=
  [.insert 0 1, .insert 1 2, .remove 0, .insert 1 3, .forEach, .remove 1, .lookUp 1]

/-- **A removed value comes back**: a second element of the key was put into a deleted bucket, and
`Remove` takes out only the first.
SOURCE: linear_probing_hashmap.h:82-146 -/
theorem stale_value :
    ∃ t, runMap step colliding staleOps = .ok ([.void, .void, .void, .void,
        .visited [(1, 3), (1, 2)], .void, .value (some 2)], t) ∧
      lastInsert staleOps 1 = none := by
  exact ⟨_, rfl, rfl⟩

end MyRedis.Analysis

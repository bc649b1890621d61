import MyRedis.Model.ChainedHashmap

/-!
# A table of chains is a map

The chains together list the map, every entry is in the bucket of its key and `size_` is the
number of entries (`Chained`).  The walks of `Insert` and `Remove` along a chain change it in
one place; seen in the whole table this puts an entry in front, overwrites one or takes one
out, up to the order of the entries.  `Resize` inserts the entries of the old table into an
empty one, each of them new there.
-/

set_option autoImplicit false

namespace MyRedis.Analysis

open MyRedis.Model MyRedis.Lib ChainedHashmap

variable {K V : Type}

/-- The table holds the map. -/
structure Chained (t : ChainedHashmap K V) (m : K → Option V) : Prop where
  nonempty : t.entries ≠ []
  placed : ∀ i chain entry, t.entries[i]? = some chain → entry ∈ chain →
    t.getBucketIndex entry.1 = i
  lists : Lists m t.entries.flatten
  size : t.size = t.entries.flatten.length

/-! ## Chains -/

section Chains

variable [DecidableEq K] {k : K} {chain : List (K × V)}

/-- A key is not in a chain, or it has a first place there.
SOURCE: linked_list_hashmap.h:30-145, StripedHashmap.h:29-148 -/
theorem chain_cases (k : K) (chain : List (K × V)) :
    k ∉ chain.map Prod.fst ∨
      ∃ before v after, k ∉ before.map Prod.fst ∧ chain = before ++ (k, v) :: after := by
  induction chain with
  | nil => exact Or.inl List.not_mem_nil
  | cons entry chain ih =>
    obtain ⟨k', v'⟩ := entry
    by_cases hk : k' = k
    · subst hk
      exact Or.inr ⟨[], v', chain, List.not_mem_nil, rfl⟩
    · have hhead {before : List (K × V)} (h : k ∉ before.map Prod.fst) :
          k ∉ ((k', v') :: before).map Prod.fst := by
        rw [List.map_cons, List.mem_cons, not_or]
        exact ⟨Ne.symm hk, h⟩
      obtain habsent | ⟨before, v, after, hbefore, rfl⟩ := ih
      · exact Or.inl (hhead habsent)
      · exact Or.inr ⟨(k', v') :: before, v, after, hhead hbefore, rfl⟩

/-- A new key is put at the end of its chain.
SOURCE: linked_list_hashmap.h:30-50, StripedHashmap.h:29-50 -/
theorem insertChain_absent (h : k ∉ chain.map Prod.fst) (v : V) :
    insertChain k v chain = (chain ++ [(k, v)], true) := by
  induction chain with
  | nil => rfl
  | cons entry chain ih =>
    rw [List.map_cons, List.mem_cons, not_or] at h
    rw [insertChain, if_neg (Ne.symm h.1), ih h.2]
    rfl

/-- A key that is in the chain keeps its place and gets the new value.
SOURCE: linked_list_hashmap.h:30-50, StripedHashmap.h:29-50 -/
theorem insertChain_present {v : V} {after : List (K × V)} (h : k ∉ chain.map Prod.fst) (v' : V) :
    insertChain k v' (chain ++ (k, v) :: after) = (chain ++ (k, v') :: after, false) := by
  induction chain with
  | nil =>
    rw [List.nil_append, insertChain, if_pos rfl]
    rfl
  | cons entry chain ih =>
    rw [List.map_cons, List.mem_cons, not_or] at h
    rw [List.cons_append, insertChain, if_neg (Ne.symm h.1), ih h.2]
    rfl

/-- A chain without the key stays as it is.
SOURCE: linked_list_hashmap.h:118-135, StripedHashmap.h:113-132 -/
theorem removeChain_absent (h : k ∉ chain.map Prod.fst) : removeChain k chain = (chain, false) := by
  induction chain with
  | nil => rfl
  | cons entry chain ih =>
    rw [List.map_cons, List.mem_cons, not_or] at h
    rw [removeChain, if_neg (Ne.symm h.1), ih h.2]

/-- The entry of the key is taken out of its chain.
SOURCE: linked_list_hashmap.h:118-135, StripedHashmap.h:113-132 -/
theorem removeChain_present {v : V} {after : List (K × V)} (h : k ∉ chain.map Prod.fst) :
    removeChain k (chain ++ (k, v) :: after) = (chain ++ after, true) := by
  induction chain with
  | nil =>
    rw [List.nil_append, removeChain, if_pos rfl]
    rfl
  | cons entry chain ih =>
    rw [List.map_cons, List.mem_cons, not_or] at h
    rw [List.cons_append, removeChain, if_neg (Ne.symm h.1), ih h.2]
    rfl

/-- A chain without the key has no value for it.
SOURCE: linked_list_hashmap.h:98-109, StripedHashmap.h:86-99 -/
theorem lookUpChain_absent (h : k ∉ chain.map Prod.fst) : lookUpChain k chain = none := by
  induction chain with
  | nil => rfl
  | cons entry chain ih =>
    rw [List.map_cons, List.mem_cons, not_or] at h
    rw [lookUpChain, if_neg (Ne.symm h.1), ih h.2]

/-- The first entry with the key has its value.
SOURCE: linked_list_hashmap.h:98-109, StripedHashmap.h:86-99 -/
theorem lookUpChain_present {v : V} {after : List (K × V)} (h : k ∉ chain.map Prod.fst) :
    lookUpChain k (chain ++ (k, v) :: after) = some v := by
  induction chain with
  | nil => rw [List.nil_append, lookUpChain, if_pos rfl]
  | cons entry chain ih =>
    rw [List.map_cons, List.mem_cons, not_or] at h
    rw [List.cons_append, lookUpChain, if_neg (Ne.symm h.1), ih h.2]

end Chains

/-! ## One bucket of the table -/

section Buckets

variable {t : ChainedHashmap K V} {m : K → Option V} {k : K} {v : V}
  {before middle after : List (K × V)}

/-- A key has a bucket in the table.
SOURCE: StripedHashmap.h:26 -/
theorem Chained.index_lt (h : Chained t m) (k : K) : t.getBucketIndex k < t.entries.length :=
  Nat.mod_lt _ (List.length_pos_iff.mpr h.nonempty)

/-- The bucket of a key is the one at its index.
SOURCE: StripedHashmap.h:26 -/
theorem Chained.getElem?_bucket (h : Chained t m) (k : K) :
    t.entries[t.getBucketIndex k]? = some (t.bucket k) := by
  rw [bucket, List.getD_eq_getElem?_getD, List.getElem?_eq_getElem (h.index_lt k),
    Option.getD_some]

/-- A new chain in a bucket moves no key to another one.
SOURCE: StripedHashmap.h:26 -/
theorem getBucketIndex_setBucket (chain : List (K × V)) (k' : K) :
    (t.setBucket k chain).getBucketIndex k' = t.getBucketIndex k' := by
  rw [getBucketIndex, setBucket, List.length_set]
  rfl

/-- A key that is in the table is in its bucket.
SOURCE: linked_list_hashmap.h:30-145, StripedHashmap.h:29-148 -/
theorem Chained.mem_bucket (h : Chained t m) (hmem : (k, v) ∈ t.entries.flatten) :
    (k, v) ∈ t.bucket k := by
  obtain ⟨chain, hchain, hentry⟩ := List.mem_flatten.mp hmem
  obtain ⟨i, hi⟩ := List.mem_iff_getElem?.mp hchain
  have hindex := h.placed i chain (k, v) hi hentry
  have hbucket := h.getElem?_bucket k
  rw [hindex, hi] at hbucket
  cases hbucket
  exact hentry

/-- What is in a bucket is in the table.
SOURCE: linked_list_hashmap.h:30-145, StripedHashmap.h:29-148 -/
theorem Chained.mem_flatten (h : Chained t m) {entry : K × V} (hmem : entry ∈ t.bucket k) :
    entry ∈ t.entries.flatten :=
  List.mem_flatten.mpr ⟨_, List.mem_of_getElem? (h.getElem?_bucket k), hmem⟩

/-- A key that is not in its bucket is not in the map.
SOURCE: linked_list_hashmap.h:30-145, StripedHashmap.h:29-148 -/
theorem Chained.absent (h : Chained t m) (hk : k ∉ (t.bucket k).map Prod.fst) : m k = none := by
  cases hm : m k with
  | none => rfl
  | some v =>
    have hmem := h.mem_bucket ((h.lists.2 k v).mpr hm)
    exact absurd (List.mem_map.mpr ⟨(k, v), hmem, rfl⟩) hk

/-- Entries of the bucket may be exchanged for others with the key.
SOURCE: linked_list_hashmap.h:30-145, StripedHashmap.h:29-148 -/
theorem Chained.placed_setBucket (h : Chained t m) {chain : List (K × V)}
    (hchain : ∀ entry ∈ chain, entry ∈ t.bucket k ∨ entry.1 = k) (i : ℕ) (chain' : List (K × V))
    (entry : K × V) (hi : (t.setBucket k chain).entries[i]? = some chain')
    (hentry : entry ∈ chain') : (t.setBucket k chain).getBucketIndex entry.1 = i := by
  rw [getBucketIndex_setBucket]
  by_cases heq : t.getBucketIndex k = i
  · subst heq
    rw [setBucket, List.getElem?_set_self (h.index_lt k)] at hi
    cases hi
    obtain hold | rfl := hchain entry hentry
    · exact h.placed _ _ entry (h.getElem?_bucket k) hold
    · rfl
  · rw [setBucket, List.getElem?_set_ne heq] at hi
    exact h.placed i chain' entry hi hentry

/-- What a change in the bucket of a key is in the whole table.
SOURCE: linked_list_hashmap.h:30-145, StripedHashmap.h:29-148 -/
theorem Chained.splice (h : Chained t m) (hbucket : t.bucket k = before ++ middle ++ after) :
    ∃ left right, t.entries.flatten = left ++ middle ++ right ∧
      ∀ middle', (t.setBucket k (before ++ middle' ++ after)).entries.flatten =
        left ++ middle' ++ right := by
  have hlt := h.index_lt k
  refine ⟨(t.entries.take (t.getBucketIndex k)).flatten ++ before,
    after ++ (t.entries.drop (t.getBucketIndex k + 1)).flatten, ?_, ?_⟩
  · have hget : t.entries[t.getBucketIndex k] = t.bucket k :=
      Option.some.inj ((List.getElem?_eq_getElem hlt).symm.trans (h.getElem?_bucket k))
    conv_lhs => rw [← List.take_append_drop (t.getBucketIndex k) t.entries,
      List.drop_eq_getElem_cons hlt, hget, hbucket]
    simp only [List.flatten_append, List.flatten_cons, List.append_assoc]
  · intro middle'
    have hset : (t.setBucket k (before ++ middle' ++ after)).entries =
        t.entries.take (t.getBucketIndex k) ++ (before ++ middle' ++ after) ::
          t.entries.drop (t.getBucketIndex k + 1) :=
      List.set_eq_take_append_cons_drop.trans (if_pos hlt)
    rw [hset]
    simp only [List.flatten_append, List.flatten_cons, List.append_assoc]

/-- The entries of one bucket may be listed first. -/
theorem perm_middle_front (left middle right : List (K × V)) :
    (left ++ middle ++ right).Perm (middle ++ (left ++ right)) := by
  rw [List.append_assoc]
  exact List.perm_append_comm_assoc left middle right

/-- **A change in one bucket**, from what it does to the map, the rest of the table being as it
was.
SOURCE: linked_list_hashmap.h:30-145, StripedHashmap.h:29-148 -/
theorem Chained.change (h : Chained t m) {m' : K → Option V} {size : ℕ}
    (before middle middle' after : List (K × V))
    (hbucket : t.bucket k = before ++ middle ++ after) (hmiddle : ∀ entry ∈ middle', entry.1 = k)
    (hlists : ∀ rest, Lists m (middle ++ rest) → Lists m' (middle' ++ rest))
    (hsize : size + middle.length = t.size + middle'.length) :
    Chained { t.setBucket k (before ++ middle' ++ after) with size := size } m' := by
  obtain ⟨left, right, hflat, hflat'⟩ := h.splice hbucket
  have hold := h.lists
  have hcount := h.size
  rw [hflat] at hold hcount
  refine ⟨?_, h.placed_setBucket ?_, ?_, ?_⟩
  · intro hnil
    have hlength := congrArg List.length hnil
    rw [setBucket, List.length_set] at hlength
    exact h.nonempty (List.length_eq_zero_iff.mp hlength)
  · intro entry hentry
    rw [List.mem_append, List.mem_append] at hentry
    rw [hbucket, List.mem_append, List.mem_append]
    obtain (hbefore | hnew) | hafter := hentry
    · exact Or.inl (Or.inl (Or.inl hbefore))
    · exact Or.inr (hmiddle entry hnew)
    · exact Or.inl (Or.inr hafter)
  · rw [hflat']
    exact (hlists _ (hold.perm (perm_middle_front ..))).perm (perm_middle_front ..).symm
  · rw [hflat']
    simp only [List.length_append] at hcount ⊢
    omega

/-- Empty buckets hold the empty map.
SOURCE: linked_list_hashmap.h:61-63, StripedHashmap.h:66-68 -/
theorem chained_replicate (hash : K → ℕ) {n : ℕ} (hn : 0 < n) :
    Chained (⟨hash, 0, List.replicate n []⟩ : ChainedHashmap K V) (fun _ => none) := by
  have hflat : (List.replicate n ([] : List (K × V))).flatten = [] := List.flatten_replicate_nil
  refine ⟨?_, ?_, ?_, ?_⟩
  · rw [ne_eq, List.replicate_eq_nil_iff]
    exact Nat.ne_of_gt hn
  · intro i chain entry hi hentry
    cases List.eq_of_mem_replicate (List.mem_of_getElem? hi)
    cases hentry
  · rw [hflat]
    exact .nil
  · rw [hflat]
    rfl

end Buckets

/-! ## The operations -/

section Operations

variable [DecidableEq K] {t : ChainedHashmap K V} {m : K → Option V} {k : K}

/-- **`InsertWithoutResize`**, and what it does to the entries if the key is new.
SOURCE: linked_list_hashmap.h:30-50, StripedHashmap.h:29-50 -/
theorem Chained.insertWithoutResize (h : Chained t m) (k : K) (v : V) :
    Chained (t.insertWithoutResize k v) (Function.update m k (some v)) := by
  unfold ChainedHashmap.insertWithoutResize
  obtain habsent | ⟨before, v₀, after, hbefore, hbucket⟩ := chain_cases k (t.bucket k)
  · rw [insertChain_absent habsent, ← List.append_nil (t.bucket k ++ [(k, v)])]
    refine h.change (t.bucket k) [] [(k, v)] [] (by simp) (by simp) ?_ rfl
    intro rest hrest
    exact hrest.cons (h.absent habsent) v
  · rw [hbucket, insertChain_present hbefore, ← List.singleton_append, ← List.append_assoc]
    refine h.change before [(k, v₀)] [(k, v)] after ?_ (by simp) ?_ rfl
    · rw [hbucket, List.append_assoc, List.singleton_append]
    · intro rest hrest
      exact hrest.overwrite v

/-- **`Remove`** takes the key out of the map.
SOURCE: linked_list_hashmap.h:118-135, StripedHashmap.h:113-132 -/
theorem Chained.remove (h : Chained t m) (k : K) :
    Chained (t.remove k) (Function.update m k none) := by
  unfold ChainedHashmap.remove
  rw [if_neg h.nonempty]
  obtain habsent | ⟨before, v₀, after, hbefore, hbucket⟩ := chain_cases k (t.bucket k)
  · rw [removeChain_absent habsent, ← h.absent habsent, Function.update_eq_self,
      ← List.append_nil (t.bucket k), ← List.append_nil (t.bucket k ++ [])]
    refine h.change (t.bucket k) [] [] [] (by simp) (by simp) ?_ rfl
    intro rest hrest
    exact hrest
  · have hmem : (k, v₀) ∈ t.bucket k := by
      rw [hbucket]
      exact List.mem_append_right before List.mem_cons_self
    have hpos : 0 < t.size := by
      rw [h.size]
      exact List.length_pos_of_mem (h.mem_flatten hmem)
    rw [hbucket, removeChain_present hbefore, ← List.append_nil before]
    refine h.change before [(k, v₀)] [] after ?_ (by simp) ?_ ?_
    · rw [hbucket, List.append_assoc, List.singleton_append]
    · intro rest hrest
      exact hrest.tail
    · exact Nat.sub_add_cancel hpos

/-- **`LookUp`** answers what the map has for the key.
SOURCE: linked_list_hashmap.h:98-109, StripedHashmap.h:86-99 -/
theorem Chained.lookUp (h : Chained t m) (k : K) : t.lookUp k = m k := by
  unfold ChainedHashmap.lookUp
  rw [if_neg h.nonempty]
  obtain habsent | ⟨before, v₀, after, hbefore, hbucket⟩ := chain_cases k (t.bucket k)
  · rw [lookUpChain_absent habsent, h.absent habsent]
  · have hmem : (k, v₀) ∈ t.bucket k := by
      rw [hbucket]
      exact List.mem_append_right before List.mem_cons_self
    rw [hbucket, lookUpChain_present hbefore]
    exact ((h.lists.2 k v₀).mp (h.mem_flatten hmem)).symm

/-! ### Resizing -/

/-- The loop of `Resize`, for entries whose keys are new.
SOURCE: linked_list_hashmap.h:64-66, StripedHashmap.h:69-71 -/
theorem Chained.foldl_insert {l entries : List (K × V)} (h : Chained t m) (hlists : Lists m entries)
    (hnew : ∀ entry ∈ l, m entry.1 = none) (hnodup : (l.map Prod.fst).Nodup) :
    ∃ m', Chained (l.foldl (fun t entry => t.insertWithoutResize entry.1 entry.2) t) m' ∧
      Lists m' (l.reverse ++ entries) := by
  induction l generalizing t m entries with
  | nil => exact ⟨m, h, hlists⟩
  | cons entry l ih =>
    obtain ⟨k, v⟩ := entry
    rw [List.map_cons, List.nodup_cons] at hnodup
    have hnew' (entry : K × V) (hentry : entry ∈ l) :
        Function.update m k (some v) entry.1 = none := by
      have hne : entry.1 ≠ k := by
        rintro rfl
        exact hnodup.1 (List.mem_map.mpr ⟨entry, hentry, rfl⟩)
      rw [Function.update_of_ne hne]
      exact hnew entry (List.mem_cons_of_mem _ hentry)
    obtain ⟨m', hfold, hlists'⟩ := ih (h.insertWithoutResize k v)
      (hlists.cons (hnew (k, v) List.mem_cons_self) v) hnew' hnodup.2
    refine ⟨m', hfold, ?_⟩
    rw [List.reverse_cons, List.append_assoc, List.singleton_append]
    exact hlists'

/-- **`Resize`** keeps the map.
SOURCE: linked_list_hashmap.h:52-67, StripedHashmap.h:52-72 -/
theorem Chained.resize (h : Chained t m) : Chained t.resize m := by
  have hpos : 0 < max 2 (t.size * 2) := by omega
  obtain ⟨m', hfold, hlists⟩ :=
    (chained_replicate t.hash hpos).foldl_insert .nil (fun _ _ => rfl) h.lists.1
  rw [List.append_nil] at hlists
  cases (hlists.perm (List.reverse_perm _)).unique h.lists
  exact hfold

/-- **`Insert`**, whether or not it resizes the table.
SOURCE: linked_list_hashmap.h:111-116, StripedHashmap.h:101-111 -/
theorem Chained.insert (h : Chained t m) (overloaded : ℕ → ℕ → Bool) (k : K) (v : V) :
    Chained (t.insert overloaded k v) (Function.update m k (some v)) := by
  unfold ChainedHashmap.insert
  split_ifs
  · exact h.resize.insertWithoutResize k v
  · exact h.insertWithoutResize k v

/-- `Resize` keeps the hash function.
SOURCE: linked_list_hashmap.h:52-67, StripedHashmap.h:52-72 -/
theorem hash_resize (t : ChainedHashmap K V) : t.resize.hash = t.hash := by
  have hfold (l : List (K × V)) (t : ChainedHashmap K V) :
      (l.foldl (fun t entry => t.insertWithoutResize entry.1 entry.2) t).hash = t.hash := by
    induction l generalizing t with
    | nil => rfl
    | cons entry l ih =>
      rw [List.foldl_cons, ih]
      rfl
  exact hfold _ _

/-- `Insert` keeps the hash function.
SOURCE: linked_list_hashmap.h:111-116, StripedHashmap.h:101-111 -/
theorem hash_insert (t : ChainedHashmap K V) (overloaded : ℕ → ℕ → Bool) (k : K) (v : V) :
    (t.insert overloaded k v).hash = t.hash := by
  unfold ChainedHashmap.insert
  split_ifs
  · exact hash_resize t
  · rfl

/-- `Remove` keeps the hash function.
SOURCE: linked_list_hashmap.h:118-135, StripedHashmap.h:113-132 -/
theorem hash_remove (t : ChainedHashmap K V) (k : K) : (t.remove k).hash = t.hash := by
  unfold ChainedHashmap.remove
  split_ifs
  · rfl
  · rfl

/-- **Every operation does to the table what it does to the map.**
SOURCE: linked_list_hashmap.h:30-145, StripedHashmap.h:29-148 -/
theorem Chained.step (h : Chained t m) (overloaded : ℕ → ℕ → Bool) (op : MapOp K V) :
    ∃ result t', t.step overloaded op = .ok (result, t') ∧ ResultOk m op result ∧
      Chained t' (effect m op) ∧ t'.hash = t.hash := by
  cases op with
  | insert k v =>
    exact ⟨.void, _, rfl, trivial, h.insert overloaded k v, hash_insert t overloaded k v⟩
  | remove k => exact ⟨.void, _, rfl, trivial, h.remove k, hash_remove t k⟩
  | lookUp k => exact ⟨.value (t.lookUp k), t, rfl, h.lookUp k, h, rfl⟩
  | forEach => exact ⟨.visited t.forEach, t, rfl, h.lists, h, rfl⟩

end Operations

/-! ## Whole histories -/

section Histories

variable [DecidableEq K]

/-- The constructor makes a table that holds the empty map.
SOURCE: linked_list_hashmap.h:91-96, StripedHashmap.h:75-84 -/
theorem chained_new (hash : K → ℕ) :
    Chained (ChainedHashmap.new hash : ChainedHashmap K V) (lastInsert []) :=
  chained_replicate hash (by decide)

/-- **The table after a history holds the map of the history.**
SOURCE: linked_list_hashmap.h:30-145, StripedHashmap.h:29-148 -/
theorem chained_of_history (overloaded : ℕ → ℕ → Bool) (hash : K → ℕ) (ops : List (MapOp K V)) :
    ∃ results t, runMap (ChainedHashmap.step overloaded) (ChainedHashmap.new hash) ops =
        .ok (results, t) ∧
      ResultsOk [] ops results ∧ Chained t (lastInsert ops) ∧ t.hash = hash := by
  refine runMap_refines (ChainedHashmap.step overloaded)
    (R := fun t m => Chained t m ∧ t.hash = hash) ?_ ⟨chained_new hash, rfl⟩ (guarded_true ..)
  rintro t m op ⟨hchained, hhash⟩ -
  obtain ⟨result, t', hstep, hresult, hchained', hhash'⟩ := hchained.step overloaded op
  exact ⟨result, t', hstep, hresult, hchained', hhash'.trans hhash⟩

/-- **`LinkedListHashmap` is a map**, for every hash function, every load factor and every
sequence of operations: the results are those of the history, `size_` is the number of keys
that are present and every entry is in the bucket of its key.
SOURCE: linked_list_hashmap.h:30-145 -/
theorem chaining_refines (overloaded : ℕ → ℕ → Bool) (hash : K → ℕ) (ops : List (MapOp K V)) :
    ∃ results t, runMap (ChainedHashmap.step overloaded) (ChainedHashmap.new hash) ops =
        .ok (results, t) ∧
      ResultsOk [] ops results ∧ Lists (lastInsert ops) t.forEach ∧
      t.size = {k | (lastInsert ops k).isSome}.ncard ∧
      ∀ i chain entry, t.entries[i]? = some chain → entry ∈ chain →
        i = hash entry.1 % t.entries.length := by
  obtain ⟨results, t, hrun, hresults, hchained, rfl⟩ := chained_of_history overloaded hash ops
  refine ⟨results, t, hrun, hresults, hchained.lists, ?_, ?_⟩
  · rw [hchained.size, hchained.lists.length_eq]
  · intro i chain entry hi hentry
    exact (hchained.placed i chain entry hi hentry).symm

end Histories

end MyRedis.Analysis

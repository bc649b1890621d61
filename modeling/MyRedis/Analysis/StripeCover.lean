import MyRedis.Analysis.ChainedRefinement

/-!
# Where the stripes cover the buckets

With 16 buckets and 16 locks two keys of one bucket have one lock.  The first `Resize` comes
when an `Insert` finds 13 keys, and makes 26 buckets of the 16: then keys whose hashes are 0 and
26 share a bucket and not a lock.  So the locks cover the buckets, for every hash function and
at every point of a history, exactly when no `Insert` of the history finds more than 12 keys
(`stripesCover_iff`).
-/

set_option autoImplicit false

namespace MyRedis.Analysis

open MyRedis.Model MyRedis.Lib StripedHashmap

variable {K V : Type}

/-- Two keys with the same bucket have the same lock. -/
def StripesCover (t : StripedHashmap K V) : Prop :=
  ∀ k k', t.getBucketIndex k = t.getBucketIndex k' → t.getLockIndex k = t.getLockIndex k'

variable [DecidableEq K]

/-- The number of keys that are present after a history. -/
noncomputable def presentKeys (history : List (MapOp K V)) : ℕ :=
  {k | (lastInsert history k).isSome}.ncard

/-- No `Insert` of the history finds more than 12 keys. -/
def FewKeys (history : List (MapOp K V)) : Prop :=
  ∀ earlier k v, earlier ++ [.insert k v] <+: history → presentKeys earlier ≤ 12

/-! ## The table after a history -/

section Tables

variable (hash : K → ℕ) (history : List (MapOp K V))

/-- One more call.
SOURCE: StripedHashmap.h:86-148 -/
theorem after_append (op : MapOp K V) :
    after hash (history ++ [op]) = (after hash history).call op := List.foldl_append

/-- The number of locks is never changed.
SOURCE: StripedHashmap.h:84 -/
theorem locks_after : (after hash history).locks = 16 := by
  induction history using List.reverseRecOn with
  | nil => rfl
  | append_singleton history op ih =>
    rw [after_append]
    cases op with
    | insert k v => exact ih
    | remove k => exact ih
    | lookUp k => exact ih
    | forEach => exact ih

/-- The hash function is never changed.
SOURCE: StripedHashmap.h:20 -/
theorem hash_after : (after hash history).table.hash = hash := by
  induction history using List.reverseRecOn with
  | nil => rfl
  | append_singleton history op ih =>
    rw [after_append]
    cases op with
    | insert k v => exact (hash_insert _ _ k v).trans ih
    | remove k => exact (hash_remove _ k).trans ih
    | lookUp k => exact ih
    | forEach => exact ih

/-- The table holds the map of the calls.
SOURCE: StripedHashmap.h:26-132 -/
theorem chained_after : Chained (after hash history).table (lastInsert history) := by
  induction history using List.reverseRecOn with
  | nil => exact chained_new hash
  | append_singleton history op ih =>
    rw [after_append, lastInsert_append]
    cases op with
    | insert k v => exact ih.insert _ k v
    | remove k => exact ih.remove k
    | lookUp k => exact ih
    | forEach => exact ih

/-- Its size is the number of keys.
SOURCE: StripedHashmap.h:35, 48 -/
theorem size_after : (after hash history).table.size = presentKeys history := by
  have hchained := chained_after hash history
  rw [hchained.size, hchained.lists.length_eq]
  rfl

end Tables

section Sizes

variable (t : ChainedHashmap K V) (k : K) (v : V)

/-- `InsertWithoutResize` keeps the buckets and adds one entry at most.
SOURCE: StripedHashmap.h:29-50 -/
theorem insertWithoutResize_sizes :
    (t.insertWithoutResize k v).entries.length = t.entries.length ∧
      (t.insertWithoutResize k v).size ≤ t.size + 1 := by
  refine ⟨List.length_set, ?_⟩
  show (if _ then _ else _) ≤ _
  split_ifs
  · exact le_rfl
  · exact Nat.le_succ _

/-- `Remove` keeps the buckets and adds none.
SOURCE: StripedHashmap.h:113-132 -/
theorem remove_sizes :
    (t.remove k).entries.length = t.entries.length ∧ (t.remove k).size ≤ t.size := by
  unfold ChainedHashmap.remove
  split_ifs
  · exact ⟨rfl, le_rfl⟩
  · refine ⟨List.length_set, ?_⟩
    show (if _ then _ else _) ≤ _
    split_ifs
    · exact Nat.sub_le _ _
    · exact le_rfl

/-- `Insert` below the load factor does not resize the table.
SOURCE: StripedHashmap.h:101-111 -/
theorem insert_of_not_overloaded {overloaded : ℕ → ℕ → Bool} (hnonempty : t.entries ≠ [])
    (h : overloaded t.size t.entries.length = false) :
    t.insert overloaded k v = t.insertWithoutResize k v := by
  unfold ChainedHashmap.insert
  simp only [hnonempty, h, Bool.false_eq_true, or_self, if_false]

/-- `Insert` above the load factor resizes the table first.
SOURCE: StripedHashmap.h:101-111 -/
theorem insert_of_overloaded {overloaded : ℕ → ℕ → Bool}
    (h : overloaded t.size t.entries.length = true) :
    t.insert overloaded k v = t.resize.insertWithoutResize k v := by
  unfold ChainedHashmap.insert
  simp only [h, or_true, if_true]

/-- The number of buckets after `Resize`.
SOURCE: StripedHashmap.h:67 -/
theorem length_resize : t.resize.entries.length = max 2 (t.size * 2) := by
  have hfold (l : List (K × V)) (t : ChainedHashmap K V) :
      (l.foldl (fun t entry => t.insertWithoutResize entry.1 entry.2) t).entries.length =
        t.entries.length := by
    induction l generalizing t with
    | nil => rfl
    | cons entry l ih => rw [List.foldl_cons, ih, (insertWithoutResize_sizes t _ _).1]
  exact (hfold _ _).trans List.length_replicate

end Sizes

/-- **With few keys the table is not resized.**
SOURCE: StripedHashmap.h:101-111 -/
theorem small_after (hash : K → ℕ) {history : List (MapOp K V)} (hfew : FewKeys history) :
    (after hash history).table.entries.length = 16 ∧ presentKeys history ≤ 13 := by
  rw [← size_after hash]
  induction history using List.reverseRecOn with
  | nil => exact ⟨rfl, Nat.zero_le 13⟩
  | append_singleton history op ih =>
    obtain ⟨hlength, hsize⟩ := ih fun earlier k v hinitial =>
      hfew earlier k v (hinitial.trans (List.prefix_append history [op]))
    rw [after_append]
    cases op with
    | insert k v =>
      have hpresent := hfew history k v List.prefix_rfl
      rw [← size_after hash] at hpresent
      have hload : overloaded (after hash history).table.size
          (after hash history).table.entries.length = false := by
        rw [hlength, overloaded, decide_eq_false_iff_not]
        omega
      have hinsert := insert_of_not_overloaded _ k v (chained_after hash history).nonempty hload
      obtain ⟨hlength', hsize'⟩ := insertWithoutResize_sizes (after hash history).table k v
      show ((after hash history).table.insert overloaded k v).entries.length = 16 ∧
        ((after hash history).table.insert overloaded k v).size ≤ 13
      rw [hinsert]
      exact ⟨hlength'.trans hlength, by omega⟩
    | remove k =>
      obtain ⟨hlength', hsize'⟩ := remove_sizes (after hash history).table k
      exact ⟨hlength'.trans hlength, hsize'.trans hsize⟩
    | lookUp k => exact ⟨hlength, hsize⟩
    | forEach => exact ⟨hlength, hsize⟩

/-- The `Insert` that finds 13 keys leaves 26 buckets.
SOURCE: StripedHashmap.h:67, 101-111 -/
theorem resized_after (hash : K → ℕ) {history : List (MapOp K V)} (hfew : FewKeys history)
    (hmany : 12 < presentKeys history) (k : K) (v : V) :
    (after hash (history ++ [.insert k v])).table.entries.length = 26 := by
  obtain ⟨hlength, hpresent⟩ := small_after hash hfew
  have hsize : (after hash history).table.size = 13 := by
    rw [size_after]
    omega
  have hload : overloaded (after hash history).table.size
      (after hash history).table.entries.length = true := by
    rw [hlength, hsize]
    rfl
  rw [after_append]
  show ((after hash history).table.insert overloaded k v).entries.length = 26
  rw [insert_of_overloaded _ k v hload, (insertWithoutResize_sizes _ _ _).1, length_resize, hsize]
  rfl

/-- A hash function under which two keys share one of 26 buckets and not one of 16 locks. -/
def strandingHash (k : K) : K → UInt64 := fun k' => if k' = k then 26 else 0

/-- With 26 buckets and 16 locks two keys can share a bucket and not a lock.
SOURCE: StripedHashmap.h:26-27 -/
theorem not_stripesCover {history : List (MapOp K V)} {k k' : K} (hne : k' ≠ k)
    (hlength : (after (fun x => (strandingHash k x).toNat) history).table.entries.length = 26) :
    ¬ StripesCover (after (fun x => (strandingHash k x).toNat) history) := by
  have hk : (strandingHash k k).toNat = 26 := by
    rw [strandingHash, if_pos rfl]
    rfl
  have hk' : (strandingHash k k').toNat = 0 := by
    rw [strandingHash, if_neg hne]
    rfl
  intro hcover
  have hlock := hcover k k' ?_
  · rw [getLockIndex, getLockIndex, locks_after, hash_after, hk, hk'] at hlock
    cases hlock
  · rw [getBucketIndex, getBucketIndex, ChainedHashmap.getBucketIndex,
      ChainedHashmap.getBucketIndex, hlength, hash_after, hk, hk']

/-- **Where the stripes cover the buckets.**
SOURCE: StripedHashmap.h:26-132 -/
theorem stripesCover_iff (ops : List (MapOp K V)) :
    (∀ (hash : K → UInt64) (history : List (MapOp K V)), history <+: ops →
        StripesCover (after (fun k => (hash k).toNat) history)) ↔
      FewKeys ops := by
  constructor
  · intro hcover earlier k v hearlier
    -- the first `Insert` that finds too many keys finds 13 of them
    induction hn : earlier.length using Nat.strong_induction_on generalizing earlier k v with
    | _ n ih =>
      subst hn
      have hfew : FewKeys earlier := by
        intro earlier' k' v' hearlier'
        have hlength := hearlier'.length_le
        rw [List.length_append, List.length_singleton] at hlength
        exact ih _ hlength earlier' k' v'
          (hearlier'.trans ((List.prefix_append earlier _).trans hearlier)) rfl
      by_contra hmany
      rw [not_le] at hmany
      obtain ⟨a, b, -, -, hne⟩ :=
        (Set.one_lt_ncard_iff (Set.finite_of_ncard_pos (Nat.zero_lt_of_lt hmany))).mp
          (lt_trans (by decide) hmany)
      exact not_stripesCover (Ne.symm hne) (resized_after _ hfew hmany k v)
        (hcover (strandingHash a) (earlier ++ [.insert k v]) hearlier)
  · intro hfew hash history hinitial k k' hbucket
    have hfew' : FewKeys history := fun earlier k v h => hfew earlier k v (h.trans hinitial)
    rw [getBucketIndex, getBucketIndex, ChainedHashmap.getBucketIndex,
      ChainedHashmap.getBucketIndex, (small_after _ hfew').1] at hbucket
    rw [getLockIndex, getLockIndex, locks_after]
    exact hbucket

/-- Fourteen numbers are inserted, each its own hash. -/
def fourteenKeys : List (MapOp UInt64 Unit) :=
  (List.range 14).map fun i => .insert (UInt64.ofNat i) ()

/-- After the fourteenth `Insert` the keys 0 and 26 are in one chain under different locks.
SOURCE: StripedHashmap.h:26-27, 67 -/
theorem stripes_apart :
    (after UInt64.toNat fourteenKeys).table.entries.length = 26 ∧
      (after UInt64.toNat fourteenKeys).getBucketIndex 0 =
        (after UInt64.toNat fourteenKeys).getBucketIndex 26 ∧
      (after UInt64.toNat fourteenKeys).getLockIndex 0 ≠
        (after UInt64.toNat fourteenKeys).getLockIndex 26 := by
  decide +kernel

end MyRedis.Analysis

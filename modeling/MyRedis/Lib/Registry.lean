import Mathlib.Data.Finset.Card
import Mathlib.Data.Set.Insert

/-!
# Groups and their members

A registry holds a set of members for some groups; a group without a set has no members.  `join`
and `leave` change the set of one group, and only one member's place in it (`member_join`,
`member_leave`).  `GroupCount` is the number of groups of a member: it goes up where the member was
not in the group it joins, and down where it was in the group it leaves.
-/

set_option autoImplicit false

namespace MyRedis.Lib

/-- The sets of members, of the groups that have one. -/
structure Registry (γ α : Type) where
  sets : γ → Option (Set α)

namespace Registry

variable {γ α : Type}

/-- No group has a set. -/
def empty : Registry γ α := ⟨fun _ => none⟩

/-- The set of the group has the member. -/
def Member (r : Registry γ α) (a : α) (g : γ) : Prop := ∃ S, r.sets g = some S ∧ a ∈ S

/-- Nobody is in a group of the empty registry. -/
theorem not_member_empty (a : α) (g : γ) : ¬ (empty : Registry γ α).Member a g := by
  rintro ⟨S, hS, -⟩
  cases hS

/-- Nobody is in a group that does not exist. -/
theorem not_member_of_none {r : Registry γ α} {g : γ} (h : r.sets g = none) (a : α) :
    ¬ r.Member a g := by
  rintro ⟨S, hS, -⟩
  rw [h] at hS
  cases hS

/-- The members of a group that exists are those in its set. -/
theorem member_iff {r : Registry γ α} {g : γ} {S : Set α} (h : r.sets g = some S) (a : α) :
    r.Member a g ↔ a ∈ S := by
  rw [Member, h]
  simp

/-- The members of a group. -/
def members (r : Registry γ α) (g : γ) : Set α := (r.sets g).getD ∅

/-- The set of members of a group, which is empty if the group does not exist. -/
theorem mem_members (r : Registry γ α) (a : α) (g : γ) : a ∈ r.members g ↔ r.Member a g := by
  cases h : r.sets g with
  | none =>
    have hnot := not_member_of_none h a
    simp [members, h, hnot]
  | some S =>
    rw [member_iff h, members, h]
    rfl

/-- The member is in `n` groups. -/
def GroupCount (r : Registry γ α) (a : α) (n : ℤ) : Prop :=
  ∃ groups : Finset γ, (∀ g, g ∈ groups ↔ r.Member a g) ∧ n = groups.card

section GroupCount

variable {r r' : Registry γ α} {a : α} {n n' : ℤ}

/-- A number of groups is not negative. -/
theorem GroupCount.nonneg (h : r.GroupCount a n) : 0 ≤ n := by
  obtain ⟨groups, -, rfl⟩ := h
  exact Int.natCast_nonneg groups.card

/-- There is one number of groups. -/
theorem GroupCount.unique (h : r.GroupCount a n) (h' : r.GroupCount a n') : n = n' := by
  obtain ⟨groups, hmem, rfl⟩ := h
  obtain ⟨groups', hmem', rfl⟩ := h'
  have heq : groups = groups' := by
    ext g
    rw [hmem, hmem']
  rw [heq]

/-- The number of groups depends on the memberships only. -/
theorem GroupCount.congr (h : r.GroupCount a n) (hsame : ∀ g, r'.Member a g ↔ r.Member a g) :
    r'.GroupCount a n := by
  obtain ⟨groups, hmem, hn⟩ := h
  refine ⟨groups, ?_, hn⟩
  intro g
  rw [hmem, hsame]

/-- Nobody is in any group at the start. -/
theorem groupCount_empty (a : α) : (empty : Registry γ α).GroupCount a 0 := by
  refine ⟨∅, ?_, rfl⟩
  intro g
  exact iff_of_false (Finset.notMem_empty g) (not_member_empty a g)

end GroupCount

/-! ## Joining and leaving -/

variable [DecidableEq γ]

/-- The registry with another set for a group. -/
def put (r : Registry γ α) (g : γ) (S : Set α) : Registry γ α :=
  ⟨Function.update r.sets g (some S)⟩

/-- The set that has just been put. -/
theorem put_sets_self (r : Registry γ α) (g : γ) (S : Set α) : (r.put g S).sets g = some S := by
  simp only [put, Function.update_self]

/-- The sets of the other groups are as they were. -/
theorem put_sets_ne (r : Registry γ α) {g h : γ} (hne : h ≠ g) (S : Set α) :
    (r.put g S).sets h = r.sets h := by
  simp only [put, Function.update_of_ne hne]

/-- The members after a set has been put: the new ones in that group, the old ones in the others. -/
theorem member_put (r : Registry γ α) (g : γ) (S : Set α) (a : α) (h : γ) :
    (r.put g S).Member a h ↔ if h = g then a ∈ S else r.Member a h := by
  split_ifs with heq
  · subst heq
    exact member_iff (r.put_sets_self h S) a
  · rw [Member, r.put_sets_ne heq]
    rfl

/-- A member is added; a group without a set gets one. -/
def join (r : Registry γ α) (a : α) (g : γ) : Registry γ α := r.put g (insert a (r.members g))

/-- A member is taken out. -/
def leave (r : Registry γ α) (a : α) (g : γ) : Registry γ α := r.put g (r.members g \ {a})

/-- A group that exists still exists when a set is put. -/
theorem put_sets_ne_none {r : Registry γ α} {h : γ} (hsome : r.sets h ≠ none) (g : γ) (S : Set α) :
    (r.put g S).sets h ≠ none := by
  by_cases heq : h = g
  · rw [heq, put_sets_self]
    exact Option.some_ne_none S
  · rw [put_sets_ne r heq]
    exact hsome

/-- No group loses its set. -/
theorem join_sets_ne_none (r : Registry γ α) {a : α} {g h : γ} (hsome : r.sets h ≠ none) :
    (r.join a g).sets h ≠ none := put_sets_ne_none hsome g _

/-- A group does not disappear when a member leaves. -/
theorem leave_sets_ne_none (r : Registry γ α) {a : α} {g h : γ} (hsome : r.sets h ≠ none) :
    (r.leave a g).sets h ≠ none := put_sets_ne_none hsome g _

/-- Joining makes one membership more. -/
theorem member_join (r : Registry γ α) (a b : α) (g h : γ) :
    (r.join a g).Member b h ↔ (b = a ∧ h = g) ∨ r.Member b h := by
  rw [join, member_put]
  split_ifs with heq
  · subst heq
    rw [Set.mem_insert_iff, mem_members]
    simp
  · simp [heq]

/-- Leaving makes one membership less. -/
theorem member_leave (r : Registry γ α) (a b : α) (g h : γ) :
    (r.leave a g).Member b h ↔ r.Member b h ∧ ¬ (b = a ∧ h = g) := by
  rw [leave, member_put]
  split_ifs with heq
  · subst heq
    rw [Set.mem_sdiff, mem_members, Set.mem_singleton_iff]
    simp
  · simp [heq]

/-! ## Joining, leaving and the number of groups -/

section GroupCount

variable {r : Registry γ α} {a b : α} {g : γ} {n : ℤ}

/-- Who joins a new group is in one more. -/
theorem GroupCount.join (h : r.GroupCount a n) (hnot : ¬ r.Member a g) :
    (r.join a g).GroupCount a (n + 1) := by
  obtain ⟨groups, hmem, rfl⟩ := h
  have hnotMem : g ∉ groups := fun hg => hnot ((hmem g).mp hg)
  refine ⟨insert g groups, ?_, ?_⟩
  · intro g'
    rw [Finset.mem_insert, hmem, member_join]
    simp
  · rw [Finset.card_insert_of_notMem hnotMem]
    rfl

/-- Who joins a group again is in as many as before. -/
theorem GroupCount.join_again (h : r.GroupCount a n) (hmem : r.Member a g) :
    (r.join a g).GroupCount a n := by
  apply h.congr
  intro g'
  rw [member_join]
  constructor
  · rintro (⟨-, rfl⟩ | hmem')
    · exact hmem
    · exact hmem'
  · exact Or.inr

/-- Who joins does not change the number of another. -/
theorem GroupCount.join_ne (h : r.GroupCount b n) (hne : b ≠ a) :
    (r.join a g).GroupCount b n := by
  apply h.congr
  intro g'
  simp [member_join, hne]

/-- Who leaves a group of its own is in one less. -/
theorem GroupCount.leave (h : r.GroupCount a n) (hmem : r.Member a g) :
    (r.leave a g).GroupCount a (n - 1) := by
  obtain ⟨groups, hgroups, rfl⟩ := h
  have hg : g ∈ groups := (hgroups g).mpr hmem
  refine ⟨groups.erase g, ?_, ?_⟩
  · intro g'
    rw [Finset.mem_erase, hgroups, member_leave]
    simp [and_comm]
  · have hpos := Finset.card_pos.mpr ⟨g, hg⟩
    rw [Finset.card_erase_of_mem hg]
    omega

/-- Who leaves a group it is not in is in as many as before. -/
theorem GroupCount.leave_again (h : r.GroupCount a n) (hnot : ¬ r.Member a g) :
    (r.leave a g).GroupCount a n := by
  apply h.congr
  intro g'
  rw [member_leave]
  constructor
  · exact And.left
  · intro hmem
    refine ⟨hmem, ?_⟩
    rintro ⟨-, rfl⟩
    exact hnot hmem

/-- Who leaves does not change the number of another. -/
theorem GroupCount.leave_ne (h : r.GroupCount b n) (hne : b ≠ a) :
    (r.leave a g).GroupCount b n := by
  apply h.congr
  intro g'
  simp [member_leave, hne]

end GroupCount

end Registry

end MyRedis.Lib

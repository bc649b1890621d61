import MyRedis.Analysis.ChainedRefinement
import MyRedis.Lib.Registry
import MyRedis.Model.PubSubChannels

/-!
# The channels as a registry

`Registers p r counts` says that the maps of `PubSubChannels` hold the registry `r` of channels and
their subscribers and the numbers `counts`.  Each access to the maps does to the registry what it
is for: a client joins a channel or leaves it, or its number changes.  Behind these lemmas nothing
is used of buckets, chains and resizing.
-/

set_option autoImplicit false

namespace MyRedis.Analysis

open MyRedis.Model MyRedis.Lib

/-- The set holds the elements. -/
def SetHolds {V : Type} (s : MapBasedSet V) (S : Set V) : Prop :=
  ∃ m, Chained s.map.table m ∧ ∀ a, a ∈ S ↔ (m a).isSome = true

section Sets

variable {V : Type} [DecidableEq V] {s : MapBasedSet V} {S : Set V}

/-- `Contains` says who is in the set.
SOURCE: MapBasedSet.h:17-19 -/
theorem SetHolds.contains (h : SetHolds s S) (a : V) : s.contains a = true ↔ a ∈ S := by
  obtain ⟨m, hm, hmem⟩ := h
  rw [hmem, MapBasedSet.contains, StripedHashmap.lookUp, hm.lookUp]

/-- A set that the factory has made is empty.
SOURCE: StripedSetFactory.h:16-23 -/
theorem setHolds_new (hash : V → ℕ) : SetHolds (MapBasedSet.new hash) (∅ : Set V) := by
  refine ⟨_, chained_new hash, ?_⟩
  intro a
  exact iff_of_false (Set.notMem_empty a) (by simp [lastInsert, valueAfter])

/-- `Insert` adds one element.
SOURCE: MapBasedSet.h:21 -/
theorem SetHolds.insert (h : SetHolds s S) (a : V) : SetHolds (s.insert a) (insert a S) := by
  obtain ⟨m, hm, hmem⟩ := h
  refine ⟨_, hm.insert StripedHashmap.overloaded a (), ?_⟩
  intro b
  by_cases hb : b = a
  · subst hb
    simp
  · simp [hb, hmem]

/-- `Remove` takes one element out.
SOURCE: MapBasedSet.h:23 -/
theorem SetHolds.remove (h : SetHolds s S) (a : V) : SetHolds (s.remove a) (S \ {a}) := by
  obtain ⟨m, hm, hmem⟩ := h
  refine ⟨_, hm.remove a, ?_⟩
  intro b
  by_cases hb : b = a
  · subst hb
    simp
  · simp [hb, hmem]

end Sets

/-- The number stored for a client; there is none before its first subscription. -/
def storedNumber (counts : Fd → Option Int32) (clientFd : Fd) : ℤ :=
  match counts clientFd with
  | none => 0
  | some count => count.toInt

/-- The number of a client is an `int`.
SOURCE: PubSubChannels.h:29-37 -/
theorem storedNumber_range (counts : Fd → Option Int32) (clientFd : Fd) :
    -2 ^ 31 ≤ storedNumber counts clientFd ∧ storedNumber counts clientFd < 2 ^ 31 := by
  unfold storedNumber
  cases counts clientFd with
  | none => simp
  | some count => exact ⟨count.le_toInt, count.toInt_lt⟩

/-- The maps hold the registry and the numbers. -/
structure Registers (p : PubSubChannels) (r : Registry Bytes Fd) (counts : Fd → Option Int32) :
    Prop where
  sets : ∃ m, Chained p.channelToClientFds.table m ∧
    ∀ channel, Option.Rel SetHolds (m channel) (r.sets channel)
  counts : Chained p.clientFdToConnection.table counts

namespace Registers

variable {p : PubSubChannels} {r : Registry Bytes Fd} {counts : Fd → Option Int32}
  {clientFd : Fd} {channel : Bytes} {set : MapBasedSet Fd}

/-- At the start there are no channels and no numbers.
SOURCE: PubSubChannels.cpp:7-16 -/
theorem new (stringHash : Bytes → ℕ) (intHash : Fd → ℕ) :
    Registers (.new stringHash intHash) .empty (fun _ => none) := by
  constructor
  · refine ⟨_, chained_new stringHash, ?_⟩
    intro channel
    exact .none
  · exact chained_new intHash

/-! ## Looking up -/

/-- `LookUp` finds the number of a client.
SOURCE: PubSubChannels.cpp:28, 60 -/
theorem lookUp_counts (h : Registers p r counts) (clientFd : Fd) :
    p.clientFdToConnection.lookUp clientFd = counts clientFd := h.counts.lookUp clientFd

/-- `LookUp` finds the numbers of all clients.
SOURCE: PubSubChannels.cpp:28, 60 -/
theorem lookUp_counts_eq (h : Registers p r counts) : p.clientFdToConnection.lookUp = counts :=
  funext h.lookUp_counts

/-- `LookUp` finds a set that holds what the registry has for the channel.
SOURCE: PubSubChannels.cpp:20, 63 -/
theorem lookUp_sets (h : Registers p r counts) (channel : Bytes) :
    Option.Rel SetHolds (p.channelToClientFds.lookUp channel) (r.sets channel) := by
  obtain ⟨m, hm, hrel⟩ := h.sets
  rw [StripedHashmap.lookUp, hm.lookUp]
  exact hrel channel

/-- A channel that is not found is not in the registry.
SOURCE: PubSubChannels.cpp:21, 65 -/
theorem sets_none (h : Registers p r counts) (hlook : p.channelToClientFds.lookUp channel = none) :
    r.sets channel = none := by
  have hrel := h.lookUp_sets channel
  rw [hlook] at hrel
  cases hsets : r.sets channel with
  | none => rfl
  | some S =>
    rw [hsets] at hrel
    cases hrel

/-- The set that is found holds the members of the channel.
SOURCE: PubSubChannels.cpp:20, 63 -/
theorem sets_some (h : Registers p r counts)
    (hlook : p.channelToClientFds.lookUp channel = some set) :
    ∃ S, r.sets channel = some S ∧ SetHolds set S := by
  have hrel := h.lookUp_sets channel
  rw [hlook] at hrel
  cases hsets : r.sets channel with
  | none =>
    rw [hsets] at hrel
    cases hrel
  | some S =>
    rw [hsets] at hrel
    cases hrel with
    | some hS => exact ⟨S, rfl, hS⟩

/-- A channel is found exactly if it is in the registry.
SOURCE: PubSubChannels.cpp:20, 63 -/
theorem lookUp_sets_none (h : Registers p r counts) :
    p.channelToClientFds.lookUp channel = none ↔ r.sets channel = none := by
  constructor
  · exact h.sets_none
  · intro hnone
    cases hlook : p.channelToClientFds.lookUp channel with
    | none => rfl
    | some set =>
      obtain ⟨S, hS, -⟩ := h.sets_some hlook
      rw [hnone] at hS
      cases hS

/-- **What the subscriber sets contain is membership in the registry.**
SOURCE: PubSubChannels.h:29-37 -/
theorem subscribed_iff (h : Registers p r counts) (clientFd : Fd) (channel : Bytes) :
    p.subscribed clientFd channel = true ↔ r.Member clientFd channel := by
  unfold PubSubChannels.subscribed
  cases hlook : p.channelToClientFds.lookUp channel with
  | none =>
    have hnot := Registry.not_member_of_none (h.sets_none hlook) clientFd
    simp [hnot]
  | some set =>
    obtain ⟨S, hS, hset⟩ := h.sets_some hlook
    rw [Registry.member_iff hS]
    exact hset.contains clientFd

/-! ## The accesses -/

/-- A set is put into the map, by `Insert` or through a reference.
SOURCE: PubSubChannels.h:29-37 -/
theorem put_sets {m : Bytes → Option (MapBasedSet Fd)} {S : Set Fd}
    (hrel : ∀ channel, Option.Rel SetHolds (m channel) (r.sets channel)) (channel : Bytes)
    (hset : SetHolds set S) (channel' : Bytes) :
    Option.Rel SetHolds (Function.update m channel (some set) channel')
      ((r.put channel S).sets channel') := by
  by_cases heq : channel' = channel
  · subst heq
    rw [Function.update_self, Registry.put_sets_self]
    exact .some hset
  · rw [Function.update_of_ne heq, Registry.put_sets_ne r heq]
    exact hrel channel'

/-- A new set has one member, whatever set the channel had before.
SOURCE: PubSubChannels.cpp:22-24 -/
theorem createSet (h : Registers p r counts) (clientFd : Fd) (channel : Bytes) :
    Registers (p.createSet clientFd channel) (r.put channel {clientFd}) counts := by
  obtain ⟨m, hm, hrel⟩ := h.sets
  have hset : SetHolds ((MapBasedSet.new p.setFactory).insert clientFd) {clientFd} := by
    rw [← insert_empty_eq]
    exact (setHolds_new p.setFactory).insert clientFd
  constructor
  · exact ⟨_, hm.insert StripedHashmap.overloaded channel _, put_sets hrel channel hset⟩
  · exact h.counts

/-- The first client of a channel joins it by a new set.
SOURCE: PubSubChannels.cpp:21-24 -/
theorem createSet_join (h : Registers p r counts) (clientFd : Fd)
    (hlook : p.channelToClientFds.lookUp channel = none) :
    Registers (p.createSet clientFd channel) (r.join clientFd channel) counts := by
  have hput := h.createSet clientFd channel
  rw [Registry.join, Registry.members, h.sets_none hlook, Option.getD_none, insert_empty_eq]
  exact hput

/-- A client joins a channel through the reference to its set.
SOURCE: PubSubChannels.cpp:26 -/
theorem insertClient (h : Registers p r counts) (clientFd : Fd)
    (hlook : p.channelToClientFds.lookUp channel = some set) :
    Registers (p.insertClient clientFd channel set) (r.join clientFd channel) counts := by
  obtain ⟨S, hS, hset⟩ := h.sets_some hlook
  obtain ⟨m, hm, hrel⟩ := h.sets
  rw [Registry.join, Registry.members, hS, Option.getD_some]
  constructor
  · exact ⟨_, hm.insertWithoutResize channel _, put_sets hrel channel (hset.insert clientFd)⟩
  · exact h.counts

/-- A client leaves a channel through the reference to its set.
SOURCE: PubSubChannels.cpp:67 -/
theorem removeClient (h : Registers p r counts) (clientFd : Fd)
    (hlook : p.channelToClientFds.lookUp channel = some set) :
    Registers (p.removeClient clientFd channel set) (r.leave clientFd channel) counts := by
  obtain ⟨S, hS, hset⟩ := h.sets_some hlook
  obtain ⟨m, hm, hrel⟩ := h.sets
  rw [Registry.leave, Registry.members, hS, Option.getD_some]
  constructor
  · exact ⟨_, hm.insertWithoutResize channel _, put_sets hrel channel (hset.remove clientFd)⟩
  · exact h.counts

/-- The first number of a client is 1.
SOURCE: PubSubChannels.cpp:31 -/
theorem insertCount (h : Registers p r counts) (clientFd : Fd) :
    Registers (p.insertCount clientFd) r (Function.update counts clientFd (some 1)) := by
  constructor
  · exact h.sets
  · exact h.counts.insert StripedHashmap.overloaded clientFd 1

/-- The number changes as it should, where the result fits an `int`.
SOURCE: PubSubChannels.cpp:35, 68 -/
theorem changeCount (h : Registers p r counts) {count n : Int32} {change : ℤ} {p' : PubSubChannels}
    (hchange : p.changeCount clientFd count change = .ok (n, p')) :
    n.toInt = count.toInt + change ∧ Registers p' r (Function.update counts clientFd (some n)) := by
  obtain ⟨n', hn', hpair⟩ := bind_eq_ok.mp hchange
  cases hpair
  refine ⟨signed32_eq_ok.mp hn', ?_⟩
  constructor
  · exact h.sets
  · exact h.counts.insertWithoutResize clientFd n

/-- To count up or down is defined exactly where the result is an `int`.
SOURCE: PubSubChannels.cpp:35, 68 -/
theorem exists_changeCount (p : PubSubChannels) (clientFd : Fd) (count : Int32) (change : ℤ) :
    (∃ n p', p.changeCount clientFd count change = .ok (n, p')) ↔
      -2 ^ 31 ≤ count.toInt + change ∧ count.toInt + change < 2 ^ 31 := by
  constructor
  · rintro ⟨n, p', hchange⟩
    obtain ⟨n', hn', -⟩ := bind_eq_ok.mp hchange
    rw [← signed32_eq_ok.mp hn']
    exact ⟨n'.le_toInt, n'.toInt_lt⟩
  · intro hrange
    have hfits : signed32 (count.toInt + change) = .ok (Int32.ofInt (count.toInt + change)) :=
      if_pos hrange
    unfold PubSubChannels.changeCount
    rw [hfits]
    exact ⟨_, _, rfl⟩

/-! ## The operations -/

/-- The first half of `Subscribe`, whether or not the channel has a set.
SOURCE: PubSubChannels.cpp:20-27 -/
theorem addClient (h : Registers p r counts) (clientFd : Fd) (channel : Bytes) :
    Registers (p.addClient clientFd channel) (r.join clientFd channel) counts := by
  unfold PubSubChannels.addClient
  cases hlook : p.channelToClientFds.lookUp channel with
  | none => exact h.createSet_join clientFd hlook
  | some set => exact h.insertClient clientFd hlook

/-- **`Subscribe` lets the client join and counts up.**
SOURCE: PubSubChannels.cpp:18-36 -/
theorem subscribe (h : Registers p r counts) {n : Int32} {p' : PubSubChannels}
    (hcall : p.subscribe clientFd channel = .ok (n, p')) :
    n.toInt = storedNumber counts clientFd + 1 ∧
      Registers p' (r.join clientFd channel) (Function.update counts clientFd (some n)) := by
  have hjoin := h.addClient clientFd channel
  unfold PubSubChannels.subscribe at hcall
  simp only [hjoin.lookUp_counts] at hcall
  unfold storedNumber
  cases hcount : counts clientFd with
  | none =>
    rw [hcount] at hcall
    cases hcall
    exact ⟨rfl, hjoin.insertCount clientFd⟩
  | some count =>
    rw [hcount] at hcall
    exact hjoin.changeCount hcall

/-- `Subscribe` has a result exactly where the number does not overflow.
SOURCE: PubSubChannels.cpp:18-36 -/
theorem exists_subscribe (h : Registers p r counts) (clientFd : Fd) (channel : Bytes) :
    (∃ n p', p.subscribe clientFd channel = .ok (n, p')) ↔
      storedNumber counts clientFd + 1 < 2 ^ 31 := by
  have hjoin := h.addClient clientFd channel
  unfold PubSubChannels.subscribe storedNumber
  simp only [hjoin.lookUp_counts]
  cases counts clientFd with
  | none => simp
  | some count =>
    have hrange := count.le_toInt
    simp only [exists_changeCount]
    constructor
    · exact And.right
    · intro hlt
      exact ⟨by omega, hlt⟩

/-- **`Unsubscribe` lets the client leave and counts down**, if it has a number and the channel has
a set; otherwise it changes nothing.
SOURCE: PubSubChannels.cpp:58-69 -/
theorem unsubscribe (h : Registers p r counts) {n : Int32} {p' : PubSubChannels}
    (hcall : p.unsubscribe clientFd channel = .ok (n, p')) :
    ((counts clientFd = none ∨ r.sets channel = none) ∧ n.toInt = storedNumber counts clientFd ∧
        p' = p) ∨
      (counts clientFd ≠ none ∧ r.sets channel ≠ none ∧ n.toInt = storedNumber counts clientFd - 1 ∧
        Registers p' (r.leave clientFd channel) (Function.update counts clientFd (some n))) := by
  unfold PubSubChannels.unsubscribe at hcall
  rw [h.lookUp_counts] at hcall
  unfold storedNumber
  cases hcount : counts clientFd with
  | none =>
    rw [hcount] at hcall
    cases hcall
    exact Or.inl ⟨Or.inl rfl, rfl, rfl⟩
  | some count =>
    rw [hcount] at hcall
    cases hlook : p.channelToClientFds.lookUp channel with
    | none =>
      simp only [hlook] at hcall
      cases hcall
      exact Or.inl ⟨Or.inr (h.sets_none hlook), rfl, rfl⟩
    | some set =>
      simp only [hlook] at hcall
      obtain ⟨S, hS, -⟩ := h.sets_some hlook
      obtain ⟨hn, hholds⟩ := (h.removeClient clientFd hlook).changeCount hcall
      refine Or.inr ⟨by simp, by simp [hS], hn, hholds⟩

/-- `Unsubscribe` has a result, unless the number is the least one.
SOURCE: PubSubChannels.cpp:58-69 -/
theorem exists_unsubscribe (h : Registers p r counts) (clientFd : Fd) (channel : Bytes)
    (hnumber : 0 ≤ storedNumber counts clientFd) :
    ∃ n p', p.unsubscribe clientFd channel = .ok (n, p') := by
  unfold PubSubChannels.unsubscribe
  rw [h.lookUp_counts]
  unfold storedNumber at hnumber
  cases hcount : counts clientFd with
  | none => exact ⟨_, _, rfl⟩
  | some count =>
    rw [hcount] at hnumber
    have hlt := count.toInt_lt
    cases hlook : p.channelToClientFds.lookUp channel with
    | none => exact ⟨_, _, rfl⟩
    | some set =>
      apply (exists_changeCount _ clientFd count (-1)).mpr
      simp only at hnumber
      omega

end Registers

end MyRedis.Analysis

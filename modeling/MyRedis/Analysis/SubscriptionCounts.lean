import MyRedis.Analysis.ChannelRegistry

/-!
# The numbers `Subscribe` and `Unsubscribe` return

The number stored for a client is counted up by every `Subscribe` and down by every `Unsubscribe`
from a channel that has a set, whether or not the set of the channel changes.  So it is the number
of channels of the client as long as each of these calls does change the set, and not longer: a
client that subscribes twice is counted twice, and one that unsubscribes from a channel of others
may get a negative number.  `countsFaithful_iff` makes that precise for every sequence of calls.
-/

set_option autoImplicit false

namespace MyRedis.Analysis

open MyRedis.Model MyRedis.Model.PubSubChannels MyRedis.Lib

/-! ## The property -/

/-- There are `n` channels whose subscriber set contains the client; so `n` is not negative. -/
def NumberOfChannels (p : PubSubChannels) (clientFd : Fd) (n : ℤ) : Prop :=
  ∃ channels : Finset Bytes,
    (∀ channel, channel ∈ channels ↔ p.subscribed clientFd channel = true) ∧ n = channels.card

/-- The numbers stored are those of the sets. -/
def CountsMatch (p : PubSubChannels) : Prop :=
  ∀ clientFd, NumberOfChannels p clientFd (storedNumber p.clientFdToConnection.lookUp clientFd)

/-- The number returned to the client is that of the sets the call leaves. -/
def ReturnsNumber (p : PubSubChannels) (n : Int32) : Call → Prop
  | .subscribe clientFd _ => NumberOfChannels p clientFd n.toInt
  | .unsubscribe clientFd _ => NumberOfChannels p clientFd n.toInt
  | .publish _ _ => True

/-- Every call returns, and the numbers it stores and returns are those of the sets. -/
def CountsFaithful : PubSubChannels → List Call → Prop
  | _, [] => True
  | p, c :: calls => ∃ n p', p.call c = .ok (n, p') ∧ CountsMatch p' ∧ ReturnsNumber p' n c ∧
      CountsFaithful p' calls

/-! ## The condition -/

/-- A subscription is a new one and the number does not overflow; an unsubscription of a client
with a number, from a channel with a set, is from a channel the client subscribes to; and an
`int` can count the subscribers that are published to. -/
def ChangesSet (p : PubSubChannels) : Call → Prop
  | .subscribe clientFd channel => p.subscribed clientFd channel = false ∧
      storedNumber p.clientFdToConnection.lookUp clientFd + 1 < 2 ^ 31
  | .unsubscribe clientFd channel => p.clientFdToConnection.lookUp clientFd ≠ none →
      p.channelToClientFds.lookUp channel ≠ none → p.subscribed clientFd channel = true
  | .publish channel _ => ∀ set, p.channelToClientFds.lookUp channel = some set →
      set.forEach.length < 2 ^ 31

/-- Every call meets the condition in the state it finds. -/
def AllChangeSets : PubSubChannels → List Call → Prop
  | _, [] => True
  | p, c :: calls => ChangesSet p c ∧ ∀ n p', p.call c = .ok (n, p') → AllChangeSets p' calls

/-! ## One call -/

section Calls

variable {p p' : PubSubChannels} {r r' : Registry Bytes Fd} {counts counts' : Fd → Option Int32}
  {clientFd : Fd} {channel : Bytes} {n : Int32}

/-- In how many channels a client is, by the sets and by the registry.
SOURCE: PubSubChannels.h:29-37 -/
theorem numberOfChannels_iff (h : Registers p r counts) {k : ℤ} :
    NumberOfChannels p clientFd k ↔ r.GroupCount clientFd k := by
  simp only [NumberOfChannels, Registry.GroupCount, h.subscribed_iff]

/-- The numbers match the sets if they match the registry.
SOURCE: PubSubChannels.h:29-37 -/
theorem countsMatch_iff (h : Registers p r counts) :
    CountsMatch p ↔ ∀ clientFd, r.GroupCount clientFd (storedNumber counts clientFd) := by
  simp only [CountsMatch, numberOfChannels_iff h, h.lookUp_counts_eq]

/-- The number that was stored.
SOURCE: PubSubChannels.cpp:31, 35, 68 -/
theorem storedNumber_update_self (counts : Fd → Option Int32) (clientFd : Fd) (n : Int32) :
    storedNumber (Function.update counts clientFd (some n)) clientFd = n.toInt := by
  simp only [storedNumber, Function.update_self]

/-- The numbers of the other clients are as before.
SOURCE: PubSubChannels.cpp:31, 35, 68 -/
theorem storedNumber_update_ne (counts : Fd → Option Int32) {clientFd clientFd' : Fd}
    (hne : clientFd' ≠ clientFd) (n : Int32) :
    storedNumber (Function.update counts clientFd (some n)) clientFd' =
      storedNumber counts clientFd' := by
  simp only [storedNumber, Function.update_of_ne hne]

/-- A call that stores a number for one client: the numbers match afterwards if that one does.
SOURCE: PubSubChannels.cpp:18-69 -/
theorem countsMatch_update (h : Registers p' r' (Function.update counts clientFd (some n)))
    (hself : r'.GroupCount clientFd n.toInt)
    (hother : ∀ clientFd', clientFd' ≠ clientFd →
      r'.GroupCount clientFd' (storedNumber counts clientFd')) :
    CountsMatch p' ∧ NumberOfChannels p' clientFd n.toInt := by
  refine ⟨(countsMatch_iff h).mpr ?_, (numberOfChannels_iff h).mpr hself⟩
  intro clientFd'
  by_cases heq : clientFd' = clientFd
  · subst heq
    rw [storedNumber_update_self]
    exact hself
  · rw [storedNumber_update_ne counts heq]
    exact hother clientFd' heq

/-- `Subscribe` keeps the numbers right exactly if the client was not in the channel and its number
does not overflow.
SOURCE: PubSubChannels.cpp:18-36 -/
theorem subscribe_faithful_iff (h : Registers p r counts) (hmatch : CountsMatch p) :
    (∃ n p', p.call (.subscribe clientFd channel) = .ok (n, p') ∧ CountsMatch p' ∧
      ReturnsNumber p' n (.subscribe clientFd channel)) ↔
      ChangesSet p (.subscribe clientFd channel) := by
  have hcount := (countsMatch_iff h).mp hmatch
  simp only [ChangesSet, h.lookUp_counts_eq, ← h.exists_subscribe clientFd channel,
    ← Bool.not_eq_true, h.subscribed_iff]
  constructor
  · rintro ⟨n, p', hcall, -, hreturns⟩
    refine ⟨?_, n, p', hcall⟩
    intro hmember
    obtain ⟨hn, hholds⟩ := h.subscribe hcall
    -- the set is as it was, and the number is one more
    have hsame := ((hcount clientFd).join_again hmember).unique
      ((numberOfChannels_iff hholds).mp hreturns)
    omega
  · rintro ⟨hnot, n, p', hcall⟩
    obtain ⟨hn, hholds⟩ := h.subscribe hcall
    have hself := (hcount clientFd).join hnot
    rw [← hn] at hself
    exact ⟨n, p', hcall, countsMatch_update hholds hself
      fun clientFd' hne => (hcount clientFd').join_ne hne⟩

/-- `Unsubscribe` keeps the numbers right exactly if the client was in the channel, or has no
number, or the channel has no set.
SOURCE: PubSubChannels.cpp:58-69 -/
theorem unsubscribe_faithful_iff (h : Registers p r counts) (hmatch : CountsMatch p) :
    (∃ n p', p.call (.unsubscribe clientFd channel) = .ok (n, p') ∧ CountsMatch p' ∧
      ReturnsNumber p' n (.unsubscribe clientFd channel)) ↔
      ChangesSet p (.unsubscribe clientFd channel) := by
  have hcount := (countsMatch_iff h).mp hmatch
  simp only [ChangesSet, h.lookUp_counts_eq, ne_eq, h.lookUp_sets_none, h.subscribed_iff]
  constructor
  · rintro ⟨n, p', hcall, -, hreturns⟩ hstored hset
    by_contra hnot
    rcases h.unsubscribe hcall with ⟨hnone, -⟩ | ⟨-, -, hn, hholds⟩
    · rcases hnone with hnone | hnone
      · exact hstored hnone
      · exact hset hnone
    · -- the set is as it was, and the number is one less
      have hsame := ((hcount clientFd).leave_again hnot).unique
        ((numberOfChannels_iff hholds).mp hreturns)
      omega
  · intro hmember
    obtain ⟨n, p', hcall⟩ := h.exists_unsubscribe clientFd channel (hcount clientFd).nonneg
    refine ⟨n, p', hcall, ?_⟩
    rcases h.unsubscribe hcall with ⟨-, hn, rfl⟩ | ⟨hstored, hset, hn, hholds⟩
    · refine ⟨hmatch, (numberOfChannels_iff h).mpr ?_⟩
      rw [hn]
      exact hcount clientFd
    · have hself := (hcount clientFd).leave (hmember hstored hset)
      rw [← hn] at hself
      exact countsMatch_update hholds hself
        fun clientFd' hne => (hcount clientFd').leave_ne hne

/-- `Publish` has a result exactly where its count does not overflow.
SOURCE: PubSubChannels.cpp:38-56 -/
theorem exists_publish (p : PubSubChannels) (channel message : Bytes) :
    (∃ published, p.publish channel message = .ok published) ↔
      ∀ set, p.channelToClientFds.lookUp channel = some set → set.forEach.length < 2 ^ 31 := by
  unfold PubSubChannels.publish
  split
  · next hnone =>
    constructor
    · intro _ set hset
      rw [hnone] at hset
      cases hset
    · intro _
      exact ⟨_, rfl⟩
  · next set hset =>
    constructor
    · rintro ⟨published, hpublished⟩ set' hset'
      rw [hset] at hset'
      cases hset'
      obtain ⟨number, hnumber, -⟩ := bind_eq_ok.mp hpublished
      have hlt := number.toInt_lt
      rw [signed32_eq_ok.mp hnumber] at hlt
      omega
    · intro hlength
      have hlt := hlength set hset
      have hfits : signed32 (set.forEach.length : ℤ) =
          .ok (Int32.ofInt set.forEach.length) := if_pos (by omega)
      rw [hfits]
      exact ⟨_, rfl⟩

/-- `Publish` keeps the numbers right exactly if its count does not overflow.
SOURCE: PubSubChannels.cpp:38-56 -/
theorem publish_faithful_iff {message : Bytes} (hmatch : CountsMatch p) :
    (∃ n p', p.call (.publish channel message) = .ok (n, p') ∧ CountsMatch p' ∧
      ReturnsNumber p' n (.publish channel message)) ↔
      ChangesSet p (.publish channel message) := by
  apply Iff.trans ?_ (exists_publish p channel message)
  constructor
  · rintro ⟨n, p', hcall, -⟩
    obtain ⟨published, hpublished, -⟩ := map_eq_ok.mp hcall
    exact ⟨published, hpublished⟩
  · rintro ⟨published, hpublished⟩
    refine ⟨published.1, p, ?_, hmatch, trivial⟩
    exact map_eq_ok.mpr ⟨published, hpublished, rfl⟩

/-- **One call keeps the numbers right exactly where it meets the condition.**
SOURCE: PubSubChannels.cpp:18-69 -/
theorem call_faithful_iff (h : Registers p r counts) (hmatch : CountsMatch p) (c : Call) :
    (∃ n p', p.call c = .ok (n, p') ∧ CountsMatch p' ∧ ReturnsNumber p' n c) ↔ ChangesSet p c := by
  cases c with
  | subscribe clientFd channel => exact subscribe_faithful_iff h hmatch
  | unsubscribe clientFd channel => exact unsubscribe_faithful_iff h hmatch
  | publish channel message => exact publish_faithful_iff hmatch

/-- The maps hold a registry after every call.
SOURCE: PubSubChannels.cpp:18-69 -/
theorem holds_call (h : Registers p r counts) {c : Call} (hcall : p.call c = .ok (n, p')) :
    ∃ r' counts', Registers p' r' counts' := by
  cases c with
  | subscribe clientFd channel => exact ⟨_, _, (h.subscribe hcall).2⟩
  | unsubscribe clientFd channel =>
    rcases h.unsubscribe hcall with ⟨-, -, rfl⟩ | ⟨-, -, -, hholds⟩
    · exact ⟨r, counts, h⟩
    · exact ⟨_, _, hholds⟩
  | publish channel message =>
    obtain ⟨published, -, hpair⟩ := map_eq_ok.mp hcall
    cases hpair
    exact ⟨r, counts, h⟩

end Calls

/-! ## Sequences of calls -/

/-- **A sequence of calls**, from any registry whose numbers match.
SOURCE: PubSubChannels.cpp:18-69 -/
theorem faithful_iff {p : PubSubChannels} {r : Registry Bytes Fd} {counts : Fd → Option Int32}
    (h : Registers p r counts) (hmatch : CountsMatch p) (calls : List Call) :
    CountsFaithful p calls ↔ AllChangeSets p calls := by
  induction calls generalizing p r counts with
  | nil => exact Iff.rfl
  | cons c calls ih =>
    have hone := call_faithful_iff h hmatch c
    constructor
    · rintro ⟨n, p', hcall, hmatch', hreturns, hrest⟩
      refine ⟨hone.mp ⟨n, p', hcall, hmatch', hreturns⟩, ?_⟩
      intro n' p'' hcall'
      rw [hcall] at hcall'
      cases hcall'
      obtain ⟨r', counts', h'⟩ := holds_call h hcall
      exact (ih h' hmatch').mp hrest
    · rintro ⟨hchanges, hrest⟩
      obtain ⟨n, p', hcall, hmatch', hreturns⟩ := hone.mpr hchanges
      obtain ⟨r', counts', h'⟩ := holds_call h hcall
      exact ⟨n, p', hcall, hmatch', hreturns, (ih h' hmatch').mpr (hrest n p' hcall)⟩

/-- At the start all numbers are zero.
SOURCE: PubSubChannels.cpp:7-16 -/
theorem countsMatch_new (stringHash : Bytes → ℕ) (intHash : Fd → ℕ) :
    CountsMatch (.new stringHash intHash) := by
  apply (countsMatch_iff (.new stringHash intHash)).mpr
  exact Registry.groupCount_empty

/-- **The numbers are those of the sets, through a whole run, exactly where every subscription is a
new one and every unsubscription is from a channel of the client.**
SOURCE: PubSubChannels.cpp:18-69 -/
theorem countsFaithful_iff (stringHash : Bytes → ℕ) (intHash : Fd → ℕ) (calls : List Call) :
    CountsFaithful (.new stringHash intHash) calls ↔
      AllChangeSets (.new stringHash intHash) calls :=
  faithful_iff (.new stringHash intHash) (countsMatch_new stringHash intHash) calls

/-- The numbers returned by a sequence of calls. -/
def returned (p : PubSubChannels) : List Call → Defined (List Int32)
  | [] => .ok []
  | c :: calls => do
    let (n, p) ← p.call c
    return n :: (← returned p calls)

/-- A client that subscribes twice to a channel is in two channels by its number, and one that
unsubscribes from the channel of another client gets a negative number.
SOURCE: PubSubChannels.cpp:18-69 -/
theorem counts_diverge :
    (returned (.new (fun _ => 0) (fun _ => 0))
        [.subscribe 5 (ascii "a"), .subscribe 5 (ascii "a")] = .ok [1, 2] ∧
      ¬ CountsFaithful (.new (fun _ => 0) (fun _ => 0))
        [.subscribe 5 (ascii "a"), .subscribe 5 (ascii "a")]) ∧
    returned (.new (fun _ => 0) (fun _ => 0))
      [.subscribe 5 (ascii "a"), .subscribe 6 (ascii "b"), .unsubscribe 5 (ascii "b"),
        .unsubscribe 5 (ascii "b")] = .ok [1, 1, 0, -1] := by
  refine ⟨⟨by decide +kernel, ?_⟩, by decide +kernel⟩
  intro hfaithful
  obtain ⟨-, hsecond⟩ := (faithful_iff (.new _ _) (countsMatch_new _ _) _).mp hfaithful
  obtain ⟨⟨hnew, -⟩, -⟩ := hsecond 1 _ rfl
  revert hnew
  decide +kernel

end MyRedis.Analysis

import MyRedis.Analysis.ChannelRegistry
import MyRedis.Lib.TransitionSystem
import MyRedis.Model.PubSubCalls

/-!
# Concurrent subscriptions

`Subscribe` looks the channel up and, if there is no set, inserts one with the client in it.  Two
first subscriptions to a channel may both find no set; the second `Insert` then replaces the set of
the first, and that subscription is lost (`subscription_lost`).  A reference that `LookUp` returned
may also dangle, if another client's `Insert` resizes the map before it is used.

`subscriptions_kept`: as long as neither happens, and no number overflows, every interleaving of
the clients' calls keeps the sets right.  The invariant says for each client, by the phase of its
call, which of its calls the sets show already, that its references are valid, and that it has a
number if it is in a set.  A step changes these for one client only (`Inv.of_client`).
-/

set_option autoImplicit false

namespace MyRedis.Analysis

open MyRedis.Model MyRedis.Model.PubSubCalls MyRedis.Lib

/-! ## The property and the condition -/

/-- The last of the calls on the channel is a `Subscribe`. -/
def LastSubscribes (calls : List Call) (channel : Bytes) : Prop :=
  (calls.filter fun c => c.channel = channel).getLast? = some (.subscribe channel)

/-- No set is replaced by a new one, no reference is destroyed by a `Resize` and no number
overflows. -/
def Undisturbed (s : State) : Action → Prop
  | .call _ _ => True
  | .advance clientFd =>
    match s.phases clientFd with
    | .setMissing channel => s.channels.channelToClientFds.lookUp channel = none ∧
        (s.channels.channelToClientFds.resizes = true →
          ∀ clientFd', (s.phases clientFd').setRef = none)
    | .countMissing => s.channels.clientFdToConnection.resizes = true →
        ∀ clientFd', (s.phases clientFd').countRef = none
    | .countFound _ =>
      storedNumber s.channels.clientFdToConnection.lookUp clientFd + 1 < 2 ^ 31
    | .removed _ =>
      -2 ^ 31 ≤ storedNumber s.channels.clientFdToConnection.lookUp clientFd - 1
    | _ => True

/-- The states that calls of the clients can lead to. -/
abbrev Interleaving (guard : State → Action → Prop) (stringHash : Bytes → ℕ) (intHash : Fd → ℕ)
    (s : State) : Prop :=
  Reaches (fun s a s' => s.step a = some s') guard (.init stringHash intHash) s

/-! ## The invariant -/

/-- The call whose effect on the sets is still to come. -/
def pending : Phase → List Call
  | .called call => [call]
  | .setMissing channel => [.subscribe channel]
  | .setFound channel _ => [.subscribe channel]
  | .leaving channel _ => [.unsubscribe channel]
  | .leavingFound channel _ _ => [.unsubscribe channel]
  | _ => []

/-- The client is in a set and may not have a number yet. -/
def uncounted : Phase → Bool
  | .inserted => true
  | .countMissing => true
  | _ => false

/-- What holds of a client. -/
structure ClientOk (r : Registry Bytes Fd) (counts : Fd → Option Int32)
    (setGeneration countGeneration : ℕ) (clientFd : Fd) (phase : Phase) (calls : List Call) :
    Prop where
  setRef : ∀ channel ref, phase.setRef = some (channel, ref) →
    ref = setGeneration ∧ r.sets channel ≠ none
  countRef : ∀ ref, phase.countRef = some ref → ref = countGeneration ∧ counts clientFd ≠ none
  members : ∃ before, calls = before ++ pending phase ∧
    ∀ channel, r.Member clientFd channel ↔ LastSubscribes before channel
  counted : ∀ channel, r.Member clientFd channel → counts clientFd ≠ none ∨ uncounted phase = true

/-- What holds of all clients. -/
structure Inv (s : State) (r : Registry Bytes Fd) (counts : Fd → Option Int32) : Prop where
  defined : s.undefined = false
  holds : Registers s.channels r counts
  clients : ∀ clientFd, ClientOk r counts s.setGeneration s.countGeneration clientFd
    (s.phases clientFd) (s.history clientFd)

section Histories

variable {calls : List Call} {channel : Bytes}

/-- After a subscription that channel is subscribed to, the others as before. -/
theorem lastSubscribes_subscribe (calls : List Call) (channel channel' : Bytes) :
    LastSubscribes (calls ++ [.subscribe channel]) channel' ↔
      channel' = channel ∨ LastSubscribes calls channel' := by
  unfold LastSubscribes
  by_cases heq : channel = channel'
  · simp [Call.channel, heq]
  · have heq' : channel' ≠ channel := fun h => heq h.symm
    simp [Call.channel, heq, heq']

/-- After an unsubscription that channel is not subscribed to, the others as before. -/
theorem lastSubscribes_unsubscribe (calls : List Call) (channel channel' : Bytes) :
    LastSubscribes (calls ++ [.unsubscribe channel]) channel' ↔
      LastSubscribes calls channel' ∧ channel' ≠ channel := by
  unfold LastSubscribes
  by_cases heq : channel = channel'
  · simp [Call.channel, heq]
  · have heq' : channel' ≠ channel := fun h => heq h.symm
    simp [Call.channel, heq, heq']

end Histories

/-! ## A step concerns one client -/

section Frame

variable {r r' : Registry Bytes Fd} {counts counts' : Fd → Option Int32}
  {setGeneration setGeneration' countGeneration countGeneration' : ℕ}
  {clientFd : Fd} {phase : Phase} {calls : List Call} {s s' : State}

/-- What another client does to the registry.
SOURCE: PubSubChannels.cpp:18-36, 58-69 -/
theorem ClientOk.frame
    (h : ClientOk r counts setGeneration countGeneration clientFd phase calls)
    (hmember : ∀ channel, r'.Member clientFd channel ↔ r.Member clientFd channel)
    (hcounts : counts' clientFd = counts clientFd)
    (hsets : ∀ channel, r.sets channel ≠ none → r'.sets channel ≠ none)
    (hset : setGeneration' = setGeneration ∨ phase.setRef = none)
    (hcount : countGeneration' = countGeneration ∨ phase.countRef = none) :
    ClientOk r' counts' setGeneration' countGeneration' clientFd phase calls := by
  constructor
  · intro channel ref href
    obtain ⟨hnow, hsome⟩ := h.setRef channel ref href
    rcases hset with rfl | hnone
    · exact ⟨hnow, hsets channel hsome⟩
    · rw [hnone] at href
      cases href
  · intro ref href
    rw [hcounts]
    rcases hcount with rfl | hnone
    · exact h.countRef ref href
    · rw [hnone] at href
      cases href
  · obtain ⟨before, hcalls, hbefore⟩ := h.members
    refine ⟨before, hcalls, ?_⟩
    intro channel
    rw [hmember]
    exact hbefore channel
  · intro channel hchannel
    rw [hcounts]
    exact h.counted channel ((hmember channel).mp hchannel)

/-- **A step of one client keeps the invariant if it keeps what holds of that client.**
SOURCE: PubSubChannels.cpp:18-36, 58-69 -/
theorem Inv.of_client (h : Inv s r counts) (clientFd : Fd) (phase : Phase) (calls : List Call)
    (hdefined : s'.undefined = false) (hholds : Registers s'.channels r' counts')
    (hphases : s'.phases = Function.update s.phases clientFd phase)
    (hhistory : s'.history = Function.update s.history clientFd calls)
    (hmember : ∀ other, other ≠ clientFd → ∀ channel,
      r'.Member other channel ↔ r.Member other channel)
    (hcounts : ∀ other, other ≠ clientFd → counts' other = counts other)
    (hsets : ∀ channel, r.sets channel ≠ none → r'.sets channel ≠ none)
    (hset : s'.setGeneration = s.setGeneration ∨ ∀ other, (s.phases other).setRef = none)
    (hcount : s'.countGeneration = s.countGeneration ∨
      ∀ other, (s.phases other).countRef = none)
    (hself : ClientOk r' counts' s'.setGeneration s'.countGeneration clientFd phase calls) :
    Inv s' r' counts' := by
  refine ⟨hdefined, hholds, ?_⟩
  intro other
  rw [hphases, hhistory]
  by_cases heq : other = clientFd
  · rw [heq, Function.update_self, Function.update_self]
    exact hself
  · rw [Function.update_of_ne heq, Function.update_of_ne heq]
    refine (h.clients other).frame (hmember other heq) (hcounts other heq) hsets ?_ ?_
    · exact hset.imp_right fun hall => hall other
    · exact hcount.imp_right fun hall => hall other

/-- A step that leaves the channels as they are.
SOURCE: PubSubChannels.cpp:18-36, 58-69 -/
theorem Inv.of_phase (h : Inv s r counts) (clientFd : Fd) (phase : Phase) (calls : List Call)
    (hdefined : s'.undefined = false) (hchannels : s'.channels = s.channels)
    (hphases : s'.phases = Function.update s.phases clientFd phase)
    (hhistory : s'.history = Function.update s.history clientFd calls)
    (hset : s'.setGeneration = s.setGeneration) (hcount : s'.countGeneration = s.countGeneration)
    (hself : ClientOk r counts s.setGeneration s.countGeneration clientFd phase calls) :
    Inv s' r counts := by
  have hholds : Registers s'.channels r counts := by
    rw [hchannels]
    exact h.holds
  refine h.of_client clientFd phase calls hdefined hholds hphases hhistory
    (fun _ _ _ => Iff.rfl) (fun _ _ => rfl) (fun _ hsome => hsome) (Or.inl hset) (Or.inl hcount) ?_
  rw [hset, hcount]
  exact hself

end Frame

/-! ## What a client does -/

section Client

variable {r r' : Registry Bytes Fd} {counts : Fd → Option Int32}
  {setGeneration countGeneration : ℕ} {clientFd : Fd} {phase phase' : Phase}
  {calls : List Call} {channel : Bytes}

/-- The calls that the sets show, once no call is pending.
SOURCE: PubSubChannels.cpp:18-36, 58-69 -/
theorem ClientOk.members_of_settled
    (h : ClientOk r counts setGeneration countGeneration clientFd phase calls)
    (hpending : pending phase = []) (channel : Bytes) :
    r.Member clientFd channel ↔ LastSubscribes calls channel := by
  obtain ⟨before, hcalls, hbefore⟩ := h.members
  rw [hcalls, hpending, List.append_nil]
  exact hbefore channel

/-- The client has joined the channel.
SOURCE: PubSubChannels.cpp:20-27 -/
theorem ClientOk.members_of_join
    (h : ClientOk r counts setGeneration countGeneration clientFd phase calls)
    (hpending : pending phase = [.subscribe channel]) (channel' : Bytes) :
    (r.join clientFd channel).Member clientFd channel' ↔ LastSubscribes calls channel' := by
  obtain ⟨before, hcalls, hbefore⟩ := h.members
  rw [hcalls, hpending, lastSubscribes_subscribe, Registry.member_join, hbefore]
  simp

/-- The client has left the channel.
SOURCE: PubSubChannels.cpp:67 -/
theorem ClientOk.members_of_leave
    (h : ClientOk r counts setGeneration countGeneration clientFd phase calls)
    (hpending : pending phase = [.unsubscribe channel]) (channel' : Bytes) :
    (r.leave clientFd channel).Member clientFd channel' ↔ LastSubscribes calls channel' := by
  obtain ⟨before, hcalls, hbefore⟩ := h.members
  rw [hcalls, hpending, lastSubscribes_unsubscribe, Registry.member_leave, hbefore]
  simp

/-- The client was not in the channel it leaves.
SOURCE: PubSubChannels.cpp:65 -/
theorem ClientOk.members_of_absent
    (h : ClientOk r counts setGeneration countGeneration clientFd phase calls)
    (hpending : pending phase = [.unsubscribe channel]) (hnot : ¬ r.Member clientFd channel)
    (channel' : Bytes) : r.Member clientFd channel' ↔ LastSubscribes calls channel' := by
  rw [← h.members_of_leave hpending, Registry.member_leave]
  constructor
  · intro hmember
    refine ⟨hmember, ?_⟩
    rintro ⟨-, rfl⟩
    exact hnot hmember
  · exact And.left

/-- A phase in which no call is pending.
SOURCE: PubSubChannels.cpp:18-36, 58-69 -/
theorem clientOk_of_settled (hpending : pending phase = []) (hset : phase.setRef = none)
    (hcount : ∀ ref, phase.countRef = some ref → ref = countGeneration ∧ counts clientFd ≠ none)
    (hmembers : ∀ channel, r.Member clientFd channel ↔ LastSubscribes calls channel)
    (hcounted : ∀ channel, r.Member clientFd channel →
      counts clientFd ≠ none ∨ uncounted phase = true) :
    ClientOk r counts setGeneration countGeneration clientFd phase calls := by
  refine ⟨?_, hcount, ⟨calls, ?_, hmembers⟩, hcounted⟩
  · intro channel ref href
    rw [hset] at href
    cases href
  · rw [hpending, List.append_nil]

/-- A step that only looks something up, on the way of the same call.
SOURCE: PubSubChannels.cpp:18-36, 58-69 -/
theorem ClientOk.move
    (h : ClientOk r counts setGeneration countGeneration clientFd phase calls)
    (hpending : pending phase' = pending phase)
    (hset : ∀ channel ref, phase'.setRef = some (channel, ref) →
      ref = setGeneration ∧ r.sets channel ≠ none)
    (hcount : ∀ ref, phase'.countRef = some ref → ref = countGeneration ∧ counts clientFd ≠ none)
    (hcounted : counts clientFd ≠ none ∨ uncounted phase' = uncounted phase) :
    ClientOk r counts setGeneration countGeneration clientFd phase' calls := by
  refine ⟨hset, hcount, ?_, ?_⟩
  · rw [hpending]
    exact h.members
  · intro channel hmember
    rcases hcounted with hsome | hsame
    · exact Or.inl hsome
    · rw [hsame]
      exact h.counted channel hmember

end Client

/-! ## Steps -/

section Steps

variable {s : State} {r : Registry Bytes Fd} {counts : Fd → Option Int32} {clientFd : Fd}
  {phase : Phase} {channel : Bytes}

/-- A step that changes nothing but the phase of the client.
SOURCE: PubSubChannels.cpp:18-36, 58-69 -/
theorem Inv.goto (h : Inv s r counts)
    (hself : ClientOk r counts s.setGeneration s.countGeneration clientFd phase
      (s.history clientFd)) : Inv (s.goto clientFd phase) r counts :=
  h.of_phase clientFd phase (s.history clientFd) h.defined rfl rfl
    (Function.update_eq_self clientFd s.history).symm rfl rfl hself

/-- A call that returns and changes nothing else.
SOURCE: PubSubChannels.cpp:61, 65 -/
theorem Inv.finish (h : Inv s r counts) (n : Int32)
    (hself : ClientOk r counts s.setGeneration s.countGeneration clientFd .idle
      (s.history clientFd)) : Inv (s.finish clientFd n) r counts :=
  h.of_phase clientFd .idle (s.history clientFd) h.defined rfl rfl
    (Function.update_eq_self clientFd s.history).symm rfl rfl hself

/-- A call begins.
SOURCE: PubSubChannels.cpp:18-36, 58-69 -/
theorem Inv.call (h : Inv s r counts) (hidle : s.phases clientFd = .idle) (c : Call) {s' : State}
    (hstep : s.step (.call clientFd c) = some s') : Inv s' r counts := by
  unfold State.step at hstep
  rw [h.defined] at hstep
  simp only [Bool.false_eq_true, if_false, hidle, if_true, Option.some.injEq] at hstep
  subst hstep
  have hclient := h.clients clientFd
  rw [hidle] at hclient
  refine h.of_phase clientFd (.called c) _ rfl rfl rfl rfl rfl rfl ?_
  refine ⟨?_, ?_, ⟨s.history clientFd, rfl, hclient.members_of_settled rfl⟩, ?_⟩
  · intro channel ref href
    cases href
  · intro ref href
    cases href
  · exact hclient.counted

/-- The client joins the channel, by a new set or by the set there is.
SOURCE: PubSubChannels.cpp:20-27 -/
theorem Inv.join {s' : State} (h : Inv s r counts)
    (hpending : pending (s.phases clientFd) = [.subscribe channel])
    (hdefined : s'.undefined = false)
    (hholds : Registers s'.channels (r.join clientFd channel) counts)
    (hphases : s'.phases = Function.update s.phases clientFd .inserted)
    (hhistory : s'.history = s.history)
    (hset : s'.setGeneration = s.setGeneration ∨ ∀ other, (s.phases other).setRef = none)
    (hcount : s'.countGeneration = s.countGeneration) :
    Inv s' (r.join clientFd channel) counts := by
  refine h.of_client clientFd .inserted (s.history clientFd) hdefined hholds hphases ?_ ?_
    (fun _ _ => rfl) ?_ hset (Or.inl hcount) ?_
  · rw [hhistory, Function.update_eq_self]
  · intro other hne channel'
    simp [Registry.member_join, hne]
  · intro channel' hsome
    exact r.join_sets_ne_none hsome
  · refine clientOk_of_settled rfl rfl ?_ ((h.clients clientFd).members_of_join hpending) ?_
    · intro ref href
      cases href
    · intro _ _
      exact Or.inr rfl

/-- The client leaves the channel.
SOURCE: PubSubChannels.cpp:67 -/
theorem Inv.leave {s' : State} {countRef : ℕ} (h : Inv s r counts)
    (hpending : pending (s.phases clientFd) = [.unsubscribe channel])
    (href : (s.phases clientFd).countRef = some countRef)
    (hdefined : s'.undefined = false)
    (hholds : Registers s'.channels (r.leave clientFd channel) counts)
    (hphases : s'.phases = Function.update s.phases clientFd (.removed countRef))
    (hhistory : s'.history = s.history)
    (hset : s'.setGeneration = s.setGeneration) (hcount : s'.countGeneration = s.countGeneration) :
    Inv s' (r.leave clientFd channel) counts := by
  have hclient := h.clients clientFd
  have hvalid := hclient.countRef countRef href
  refine h.of_client clientFd (.removed countRef) (s.history clientFd) hdefined hholds hphases ?_
    ?_ (fun _ _ => rfl) ?_ (Or.inl hset) (Or.inl hcount) ?_
  · rw [hhistory, Function.update_eq_self]
  · intro other hne channel'
    simp [Registry.member_leave, hne]
  · intro channel' hsome
    exact r.leave_sets_ne_none hsome
  · refine clientOk_of_settled rfl rfl ?_ (hclient.members_of_leave hpending) ?_
    · intro ref href'
      cases href'
      rw [hcount]
      exact hvalid
    · intro _ _
      exact Or.inl hvalid.2

/-- The number of the client is stored, and its call returns.
SOURCE: PubSubChannels.cpp:31-35, 68 -/
theorem Inv.count {s' : State} {n : Int32} (h : Inv s r counts)
    (hpending : pending (s.phases clientFd) = [])
    (hdefined : s'.undefined = false)
    (hholds : Registers s'.channels r (Function.update counts clientFd (some n)))
    (hphases : s'.phases = Function.update s.phases clientFd .idle)
    (hhistory : s'.history = s.history)
    (hset : s'.setGeneration = s.setGeneration)
    (hcount : s'.countGeneration = s.countGeneration ∨
      ∀ other, (s.phases other).countRef = none) :
    Inv s' r (Function.update counts clientFd (some n)) := by
  refine h.of_client clientFd .idle (s.history clientFd) hdefined hholds hphases ?_
    (fun _ _ _ => Iff.rfl) ?_ (fun _ hsome => hsome) (Or.inl hset) hcount ?_
  · rw [hhistory, Function.update_eq_self]
  · intro other hne
    exact Function.update_of_ne hne _ _
  · refine clientOk_of_settled rfl rfl ?_ ((h.clients clientFd).members_of_settled hpending) ?_
    · intro ref href
      cases href
    · intro _ _
      rw [Function.update_self]
      exact Or.inl (Option.some_ne_none n)

/-- A valid reference to a set leads to the set.
SOURCE: PubSubChannels.cpp:26, 67 -/
theorem Inv.derefSet (h : Inv s r counts) {setRef : ℕ}
    (href : (s.phases clientFd).setRef = some (channel, setRef)) :
    ∃ set, s.derefSet channel setRef = some set ∧
      s.channels.channelToClientFds.lookUp channel = some set := by
  obtain ⟨rfl, hsome⟩ := (h.clients clientFd).setRef channel setRef href
  rw [State.derefSet, if_pos rfl]
  obtain ⟨set, hset⟩ := Option.ne_none_iff_exists'.mp fun hnone =>
    hsome (h.holds.lookUp_sets_none.mp hnone)
  exact ⟨set, hset, hset⟩

/-- A valid reference to a number leads to the number.
SOURCE: PubSubChannels.cpp:35, 65, 68 -/
theorem Inv.derefCount (h : Inv s r counts) {countRef : ℕ}
    (href : (s.phases clientFd).countRef = some countRef) :
    ∃ count, s.derefCount clientFd countRef = some count ∧ counts clientFd = some count := by
  obtain ⟨rfl, hsome⟩ := (h.clients clientFd).countRef countRef href
  rw [State.derefCount, if_pos rfl, h.holds.lookUp_counts]
  obtain ⟨count, hcount⟩ := Option.ne_none_iff_exists'.mp hsome
  exact ⟨count, hcount, hcount⟩

/-- A number that does not overflow is changed, and the call returns.
SOURCE: PubSubChannels.cpp:35, 68 -/
theorem Inv.changeCount (h : Inv s r counts) {countRef : ℕ} {change : ℤ}
    (hpending : pending (s.phases clientFd) = [])
    (href : (s.phases clientFd).countRef = some countRef)
    (hlow : -2 ^ 31 ≤ storedNumber counts clientFd + change)
    (hhigh : storedNumber counts clientFd + change < 2 ^ 31) :
    ∃ r' counts', Inv (s.changeCount clientFd countRef change) r' counts' := by
  obtain ⟨count, hderef, hcount⟩ := h.derefCount href
  rw [storedNumber, hcount] at hlow hhigh
  obtain ⟨n, channels, hchange⟩ :=
    (Registers.exists_changeCount s.channels clientFd count change).mpr ⟨hlow, hhigh⟩
  have hresult : s.changeCount clientFd countRef change =
      { s with channels }.finish clientFd n := by
    simp only [State.changeCount, hderef, hchange]
  rw [hresult]
  refine ⟨r, _, h.count hpending h.defined (h.holds.changeCount hchange).2 rfl rfl rfl ?_⟩
  exact Or.inl rfl

/-- `Subscribe` looks its channel up.
SOURCE: PubSubChannels.cpp:20-21 -/
theorem Inv.advance_subscribe {s' : State} (h : Inv s r counts)
    (hphase : s.phases clientFd = .called (.subscribe channel))
    (hstep : s.advance clientFd = some s') : Inv s' r counts := by
  have hclient := h.clients clientFd
  rw [hphase] at hclient
  simp only [State.advance, hphase] at hstep
  cases hlook : s.channels.channelToClientFds.lookUp channel with
  | none =>
    simp only [hlook, Option.some.injEq] at hstep
    subst hstep
    apply h.goto
    exact hclient.move rfl (by simp [Phase.setRef]) (by simp [Phase.countRef]) (Or.inr rfl)
  | some set =>
    simp only [hlook, Option.some.injEq] at hstep
    subst hstep
    obtain ⟨S, hS, -⟩ := h.holds.sets_some hlook
    apply h.goto
    refine hclient.move rfl ?_ (by simp [Phase.countRef]) (Or.inr rfl)
    intro channel' ref href
    cases href
    exact ⟨rfl, by simp [hS]⟩

/-- `Unsubscribe` looks the number of the client up, and returns if there is none.
SOURCE: PubSubChannels.cpp:60-61 -/
theorem Inv.advance_unsubscribe {s' : State} (h : Inv s r counts)
    (hphase : s.phases clientFd = .called (.unsubscribe channel))
    (hstep : s.advance clientFd = some s') : Inv s' r counts := by
  have hclient := h.clients clientFd
  rw [hphase] at hclient
  simp only [State.advance, hphase, h.holds.lookUp_counts] at hstep
  cases hlook : counts clientFd with
  | none =>
    simp only [hlook, Option.some.injEq] at hstep
    subst hstep
    -- a client without a number is in no set
    have hnot : ∀ channel', ¬ r.Member clientFd channel' := by
      intro channel' hmember
      rcases hclient.counted channel' hmember with hsome | hfalse
      · exact hsome hlook
      · cases hfalse
    apply h.finish
    refine clientOk_of_settled rfl rfl (by simp [Phase.countRef])
      (hclient.members_of_absent rfl (hnot channel)) ?_
    intro channel' hmember
    exact absurd hmember (hnot channel')
  | some count =>
    simp only [hlook, Option.some.injEq] at hstep
    subst hstep
    apply h.goto
    refine hclient.move rfl (by simp [Phase.setRef]) ?_ (Or.inr rfl)
    intro ref href
    cases href
    exact ⟨rfl, by simp [hlook]⟩

/-- `Subscribe` looks the number of the client up.
SOURCE: PubSubChannels.cpp:28-30 -/
theorem Inv.advance_inserted {s' : State} (h : Inv s r counts)
    (hphase : s.phases clientFd = .inserted) (hstep : s.advance clientFd = some s') :
    Inv s' r counts := by
  have hclient := h.clients clientFd
  rw [hphase] at hclient
  simp only [State.advance, hphase, h.holds.lookUp_counts] at hstep
  cases hlook : counts clientFd with
  | none =>
    simp only [hlook, Option.some.injEq] at hstep
    subst hstep
    apply h.goto
    exact hclient.move rfl (by simp [Phase.setRef]) (by simp [Phase.countRef]) (Or.inr rfl)
  | some count =>
    simp only [hlook, Option.some.injEq] at hstep
    subst hstep
    have hsome : counts clientFd ≠ none := by simp [hlook]
    apply h.goto
    refine hclient.move rfl (by simp [Phase.setRef]) ?_ (Or.inl hsome)
    intro ref href
    cases href
    exact ⟨rfl, hsome⟩

/-- `Unsubscribe` looks its channel up.
SOURCE: PubSubChannels.cpp:63-65 -/
theorem Inv.advance_leaving {s' : State} {countRef : ℕ} (h : Inv s r counts)
    (hphase : s.phases clientFd = .leaving channel countRef)
    (hstep : s.advance clientFd = some s') : Inv s' r counts := by
  have hclient := h.clients clientFd
  rw [hphase] at hclient
  have hvalid := hclient.countRef countRef rfl
  simp only [State.advance, hphase] at hstep
  cases hlook : s.channels.channelToClientFds.lookUp channel with
  | none =>
    simp only [hlook, Option.some.injEq] at hstep
    subst hstep
    have hnot := Registry.not_member_of_none (h.holds.sets_none hlook) clientFd
    apply h.goto
    refine clientOk_of_settled rfl rfl ?_ (hclient.members_of_absent rfl hnot) ?_
    · intro ref href
      cases href
      exact hvalid
    · intro _ _
      exact Or.inl hvalid.2
  | some set =>
    simp only [hlook, Option.some.injEq] at hstep
    subst hstep
    obtain ⟨S, hS, -⟩ := h.holds.sets_some hlook
    apply h.goto
    refine hclient.move rfl ?_ ?_ (Or.inr rfl)
    · intro channel' ref href
      cases href
      exact ⟨rfl, by simp [hS]⟩
    · intro ref href
      cases href
      exact hvalid

/-- **Every step of a call keeps the invariant**, if nothing disturbs it.
SOURCE: PubSubChannels.cpp:18-36, 58-69 -/
theorem Inv.advance {s' : State} (h : Inv s r counts) (hguard : Undisturbed s (.advance clientFd))
    (hstep : s.advance clientFd = some s') : ∃ r' counts', Inv s' r' counts' := by
  have hrange := storedNumber_range counts clientFd
  cases hphase : s.phases clientFd with
  | idle =>
    simp only [State.advance, hphase] at hstep
    cases hstep
  | called c =>
    cases c with
    | subscribe channel => exact ⟨r, counts, h.advance_subscribe hphase hstep⟩
    | unsubscribe channel => exact ⟨r, counts, h.advance_unsubscribe hphase hstep⟩
  | setMissing channel =>
    simp only [Undisturbed, hphase] at hguard
    simp only [State.advance, hphase] at hstep
    cases hstep
    refine ⟨_, _, h.join (by rw [hphase]; rfl) h.defined
      (h.holds.createSet_join clientFd hguard.1) rfl rfl ?_ rfl⟩
    by_cases hresizes : s.channels.channelToClientFds.resizes = true
    · exact Or.inr (hguard.2 hresizes)
    · exact Or.inl (if_neg hresizes)
  | setFound channel setRef =>
    obtain ⟨set, hderef, hlook⟩ := h.derefSet (by rw [hphase]; rfl)
    simp only [State.advance, hphase, hderef, Option.some.injEq] at hstep
    subst hstep
    exact ⟨_, _, h.join (by rw [hphase]; rfl) h.defined (h.holds.insertClient clientFd hlook) rfl
      rfl (Or.inl rfl) rfl⟩
  | inserted => exact ⟨r, counts, h.advance_inserted hphase hstep⟩
  | countMissing =>
    simp only [Undisturbed, hphase] at hguard
    simp only [State.advance, hphase] at hstep
    cases hstep
    refine ⟨_, _, h.count (by rw [hphase]; rfl) h.defined (h.holds.insertCount clientFd) rfl rfl
      rfl ?_⟩
    by_cases hresizes : s.channels.clientFdToConnection.resizes = true
    · exact Or.inr (hguard hresizes)
    · exact Or.inl (if_neg hresizes)
  | countFound countRef =>
    simp only [Undisturbed, hphase, h.holds.lookUp_counts_eq] at hguard
    simp only [State.advance, hphase] at hstep
    cases hstep
    exact h.changeCount (by rw [hphase]; rfl) (by rw [hphase]; rfl) (by omega) hguard
  | leaving channel countRef => exact ⟨r, counts, h.advance_leaving hphase hstep⟩
  | leavingMissing countRef =>
    have hclient := h.clients clientFd
    rw [hphase] at hclient
    obtain ⟨count, hderef, -⟩ := h.derefCount (by rw [hphase]; rfl)
    simp only [State.advance, hphase, hderef, Option.some.injEq] at hstep
    subst hstep
    refine ⟨r, counts, h.finish count ?_⟩
    exact hclient.move rfl (by simp [Phase.setRef]) (by simp [Phase.countRef]) (Or.inr rfl)
  | leavingFound channel countRef setRef =>
    obtain ⟨set, hderef, hlook⟩ := h.derefSet (by rw [hphase]; rfl)
    simp only [State.advance, hphase, hderef, Option.some.injEq] at hstep
    subst hstep
    exact ⟨_, _, h.leave (by rw [hphase]; rfl) (by rw [hphase]; rfl) h.defined
      (h.holds.removeClient clientFd hlook) rfl rfl rfl rfl⟩
  | removed countRef =>
    simp only [Undisturbed, hphase, h.holds.lookUp_counts_eq] at hguard
    simp only [State.advance, hphase] at hstep
    cases hstep
    exact h.changeCount (by rw [hphase]; rfl) (by rw [hphase]; rfl) hguard (by omega)

end Steps

/-! ## Interleavings -/

/-- At the start nobody has called, and the registry is empty.
SOURCE: PubSubChannels.cpp:7-16 -/
theorem inv_init (stringHash : Bytes → ℕ) (intHash : Fd → ℕ) :
    Inv (.init stringHash intHash) .empty (fun _ => none) := by
  refine ⟨rfl, .new stringHash intHash, ?_⟩
  intro clientFd
  refine clientOk_of_settled rfl rfl (by simp [State.init, Phase.countRef]) ?_ ?_
  · intro channel
    exact iff_of_false (Registry.not_member_empty clientFd channel)
      (by simp [State.init, LastSubscribes])
  · intro channel hmember
    exact absurd hmember (Registry.not_member_empty clientFd channel)

/-- **Every undisturbed step keeps the invariant**, for some registry and some numbers.
SOURCE: PubSubChannels.cpp:18-36, 58-69 -/
theorem inv_step {s s' : State} {a : Action} (h : ∃ r counts, Inv s r counts)
    (hguard : Undisturbed s a) (hstep : s.step a = some s') : ∃ r counts, Inv s' r counts := by
  obtain ⟨r, counts, hinv⟩ := h
  cases a with
  | call clientFd c =>
    by_cases hidle : s.phases clientFd = .idle
    · exact ⟨r, counts, hinv.call hidle c hstep⟩
    · simp only [State.step, hidle, if_false, ite_self] at hstep
      cases hstep
  | advance clientFd =>
    simp only [State.step, hinv.defined, Bool.false_eq_true, if_false] at hstep
    exact hinv.advance hguard hstep

/-- **Subscriptions are kept by every interleaving in which no set is replaced, no reference is
destroyed and no number overflows**: nothing undefined happens, and when all calls have returned, a
client is in the set of a channel exactly if its last call on the channel was a `Subscribe`.
SOURCE: PubSubChannels.cpp:18-69, PubSubChannels.h:21-27 -/
theorem subscriptions_kept (stringHash : Bytes → ℕ) (intHash : Fd → ℕ) {s : State}
    (h : Interleaving Undisturbed stringHash intHash s) :
    s.undefined = false ∧
      ((∀ clientFd, s.phases clientFd = .idle) → ∀ clientFd channel,
        s.channels.subscribed clientFd channel = true ↔
          LastSubscribes (s.history clientFd) channel) := by
  obtain ⟨r, counts, hinv⟩ := h.invariant ⟨_, _, inv_init stringHash intHash⟩
    fun _ _ _ hinv hguard hstep => inv_step hinv hguard hstep
  refine ⟨hinv.defined, ?_⟩
  intro hidle clientFd channel
  have hclient := hinv.clients clientFd
  rw [hidle clientFd] at hclient
  rw [hinv.holds.subscribed_iff]
  exact hclient.members_of_settled rfl channel

/-! ## Two runs -/

/-- The client of an action. -/
def clientOf : Action → Fd
  | .call clientFd _ => clientFd
  | .advance clientFd => clientFd

/-- To change a number leaves the phases of the other clients as they are.
SOURCE: PubSubChannels.cpp:35, 68 -/
theorem phases_changeCount_ne {s : State} {clientFd other : Fd} (hne : other ≠ clientFd)
    (countRef : ℕ) (change : ℤ) :
    (s.changeCount clientFd countRef change).phases other = s.phases other := by
  unfold State.changeCount
  split
  · rfl
  · split
    · rfl
    · exact Function.update_of_ne hne _ _

/-- The next step of a call leaves the phases of the other clients as they are.
SOURCE: PubSubChannels.cpp:18-36, 58-69 -/
theorem phases_advance_ne {s s' : State} {clientFd other : Fd} (hne : other ≠ clientFd)
    (hstep : s.advance clientFd = some s') : s'.phases other = s.phases other := by
  have hother (phase : Phase) :
      Function.update s.phases clientFd phase other = s.phases other :=
    Function.update_of_ne hne _ _
  unfold State.advance at hstep
  cases hphase : s.phases clientFd with
  | idle =>
    simp only [hphase] at hstep
    cases hstep
  | called call =>
    cases call with
    | subscribe | unsubscribe =>
      simp only [hphase] at hstep
      split at hstep
      · cases hstep
        exact hother _
      · cases hstep
        exact hother _
  | setMissing | countMissing =>
    simp only [hphase] at hstep
    cases hstep
    exact hother _
  | inserted | leaving =>
    simp only [hphase] at hstep
    split at hstep
    · cases hstep
      exact hother _
    · cases hstep
      exact hother _
  | setFound | leavingMissing | leavingFound =>
    -- a reference that dangles ends the run, and no phase changes
    simp only [hphase] at hstep
    split at hstep
    · cases hstep
      rfl
    · cases hstep
      exact hother _
  | countFound | removed =>
    simp only [hphase] at hstep
    cases hstep
    exact phases_changeCount_ne hne _ _

/-- A step leaves the phases of the other clients as they are.
SOURCE: PubSubChannels.cpp:18-36, 58-69 -/
theorem phases_step_ne {s s' : State} {a : Action} {other : Fd} (hne : other ≠ clientOf a)
    (hstep : s.step a = some s') : s'.phases other = s.phases other := by
  unfold State.step at hstep
  split_ifs at hstep with hundefined
  cases a with
  | call clientFd c =>
    simp only at hstep
    split_ifs at hstep with hidle
    cases hstep
    exact Function.update_of_ne hne _ _
  | advance clientFd => exact phases_advance_ne hne hstep

/-- A client that takes no part in a run is where it was.
SOURCE: PubSubChannels.cpp:18-36, 58-69 -/
theorem phases_runAll_ne {guard : State → Action → Prop} [∀ s a, Decidable (guard s a)]
    {s s' : State} {actions : List Action} {other : Fd}
    (hnone : ∀ a ∈ actions, other ≠ clientOf a)
    (hrun : runAll State.step guard s actions = some s') : s'.phases other = s.phases other := by
  induction actions generalizing s with
  | nil =>
    cases hrun
    rfl
  | cons a actions ih =>
    rw [runAll] at hrun
    split_ifs at hrun
    obtain ⟨s₁, hstep, hrest⟩ := Option.bind_eq_some_iff.mp hrun
    rw [ih (fun b hb => hnone b (List.mem_cons_of_mem a hb)) hrest]
    exact phases_step_ne (hnone a List.mem_cons_self) hstep

/-- When the clients 5 and 6 have returned from their calls and nobody else has called, everybody
is idle. -/
theorem idle_of_returned {guard : State → Action → Prop} [∀ s a, Decidable (guard s a)]
    {s : State} {actions : List Action} (hfive : s.phases 5 = .idle) (hsix : s.phases 6 = .idle)
    (hclients : ∀ a ∈ actions, clientOf a = 5 ∨ clientOf a = 6)
    (hrun : runAll State.step guard (.init (fun _ => 0) (fun _ => 0)) actions = some s)
    (clientFd : Fd) : s.phases clientFd = .idle := by
  by_cases hmem : clientFd = 5 ∨ clientFd = 6
  · rcases hmem with rfl | rfl
    · exact hfive
    · exact hsix
  · apply phases_runAll_ne ?_ hrun
    rintro a ha rfl
    exact hmem (hclients a ha)

/-- `Undisturbed`, for runs in which no map is resized. -/
def calm (s : State) : Action → Bool
  | .call _ _ => true
  | .advance clientFd =>
    match s.phases clientFd with
    | .setMissing channel => (s.channels.channelToClientFds.lookUp channel).isNone &&
        !s.channels.channelToClientFds.resizes
    | .countMissing => !s.channels.clientFdToConnection.resizes
    | .countFound _ =>
      storedNumber s.channels.clientFdToConnection.lookUp clientFd + 1 < 2 ^ 31
    | .removed _ =>
      -2 ^ 31 ≤ storedNumber s.channels.clientFdToConnection.lookUp clientFd - 1
    | _ => true

/-- What `calm` checks on a state is what the guard asks of the step.
SOURCE: PubSubChannels.cpp:18-36, 58-69 -/
theorem undisturbed_of_calm (s : State) (a : Action) (h : calm s a = true) : Undisturbed s a := by
  cases a with
  | call clientFd c => trivial
  | advance clientFd =>
    unfold calm at h
    unfold Undisturbed
    cases hphase : s.phases clientFd with
    | setMissing channel =>
      simp only [hphase, Bool.and_eq_true, Option.isNone_iff_eq_none, Bool.not_eq_true'] at h ⊢
      refine ⟨h.1, fun hresizes => ?_⟩
      rw [h.2] at hresizes
      cases hresizes
    | countMissing =>
      simp only [hphase, Bool.not_eq_true'] at h ⊢
      intro hresizes
      rw [h] at hresizes
      cases hresizes
    | countFound | removed =>
      simp only [hphase] at h ⊢
      exact of_decide_eq_true h
    | idle | called | setFound | inserted | leaving | leavingMissing | leavingFound =>
      simp only [hphase]

/-- Two clients subscribe to a channel, and one of them unsubscribes while the other one still
subscribes; the second looks the channel up after the first has inserted its set. -/
def callsInTurn : List Action :=
  [.call 5 (.subscribe (ascii "a")), .call 6 (.subscribe (ascii "a")), .advance 5, .advance 5,
    .advance 6, .advance 5, .advance 5, .call 5 (.unsubscribe (ascii "a")), .advance 5,
    .advance 6, .advance 5, .advance 6, .advance 5, .advance 6, .advance 5]

/-- Two clients subscribe to one channel, one after the other.
SOURCE: PubSubChannels.cpp:18-36, 58-69 -/
theorem subscriptions_kept_inTurn :
    ∃ s, Interleaving Undisturbed (fun _ => 0) (fun _ => 0) s ∧
      (∀ clientFd, s.phases clientFd = .idle) ∧ s.undefined = false ∧
      ∀ clientFd channel, s.channels.subscribed clientFd channel = true ↔
        LastSubscribes (s.history clientFd) channel := by
  have hreturned : (runAll State.step (fun s a => calm s a = true)
      (.init (fun _ => 0) (fun _ => 0)) callsInTurn).map (fun s => (s.phases 5, s.phases 6)) =
        some (.idle, .idle) := by
    decide +kernel
  obtain ⟨s, hrun, hphases⟩ := Option.map_eq_some_iff.mp hreturned
  have hidle := idle_of_returned (congrArg Prod.fst hphases) (congrArg Prod.snd hphases)
    (by simp [callsInTurn, clientOf]) hrun
  have hreach : Interleaving Undisturbed (fun _ => 0) (fun _ => 0) s :=
    (reaches_of_runAll hrun).mono undisturbed_of_calm
  obtain ⟨hdefined, hkept⟩ := subscriptions_kept (fun _ => 0) (fun _ => 0) hreach
  exact ⟨s, hreach, hidle, hdefined, hkept hidle⟩

/-- Two clients look the same channel up before either has inserted its set. -/
def bothMissing : List Action :=
  [.call 5 (.subscribe (ascii "a")), .call 6 (.subscribe (ascii "a")), .advance 5, .advance 6,
    .advance 5, .advance 6, .advance 5, .advance 6, .advance 5, .advance 6]

/-- Both calls have returned, and the first subscription is lost.
SOURCE: PubSubChannels.cpp:18-36, 58-69 -/
theorem subscription_lost :
    ∃ s, runAll State.step (fun _ _ => True) (.init (fun _ => 0) (fun _ => 0)) bothMissing =
        some s ∧
      (∀ clientFd, s.phases clientFd = .idle) ∧ LastSubscribes (s.history 5) (ascii "a") ∧
      s.channels.subscribed 5 (ascii "a") = false := by
  have hreturned : (runAll State.step (fun _ _ => True)
      (.init (fun _ => 0) (fun _ => 0)) bothMissing).map (fun s => ((s.phases 5, s.phases 6),
        s.history 5, s.channels.subscribed 5 (ascii "a"))) =
        some ((.idle, .idle), [.subscribe (ascii "a")], false) := by
    decide +kernel
  obtain ⟨s, hrun, hfacts⟩ := Option.map_eq_some_iff.mp hreturned
  obtain ⟨hphases, hfacts'⟩ := Prod.mk.inj hfacts
  obtain ⟨hhistory, hlost⟩ := Prod.mk.inj hfacts'
  refine ⟨s, hrun, ?_, ?_, hlost⟩
  · exact idle_of_returned (congrArg Prod.fst hphases) (congrArg Prod.snd hphases)
      (by simp [bothMissing, clientOf]) hrun
  · rw [hhistory]
    rfl

end MyRedis.Analysis

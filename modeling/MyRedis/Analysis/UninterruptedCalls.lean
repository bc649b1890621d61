import MyRedis.Lib.TransitionSystem
import MyRedis.Model.PubSubCalls

/-!
# Calls that are not interrupted

The steps of `PubSubCalls.lean`, taken by one client after another without interruption, are the
operations of `PubSubChannels.lean`: `call_alone`.  So what is proved of sequences of operations is
about the same code as what is proved of interleavings.
-/

set_option autoImplicit false

namespace MyRedis.Analysis

open MyRedis.Model MyRedis.Model.PubSubCalls MyRedis.Lib

/-- The operation a call is of. -/
def sequential (p : PubSubChannels) (clientFd : Fd) : Call → Defined (Int32 × PubSubChannels)
  | .subscribe channel => p.subscribe clientFd channel
  | .unsubscribe channel => p.unsubscribe clientFd channel

/-- The state after steps of one client only. -/
def advances (s : State) (clientFd : Fd) (steps : ℕ) : Option State :=
  runAll State.step (fun _ _ => True) s (List.replicate steps (.advance clientFd))

/-- The client has returned `n` and leaves the channels `p`. -/
def Returned (s s' : State) (clientFd : Fd) (n : Int32) (p : PubSubChannels) : Prop :=
  s'.undefined = false ∧ s'.channels = p ∧ s'.phases clientFd = .idle ∧
    s'.returned clientFd = s.returned clientFd ++ [n]

section Steps

variable {s : State} {clientFd : Fd} {channel : Bytes} {n : Int32} {p : PubSubChannels}

/-- Some steps and some more.
SOURCE: PubSubChannels.cpp:18-36, 58-69 -/
theorem advances_add (s : State) (clientFd : Fd) (first second : ℕ) :
    advances s clientFd (first + second) =
      (advances s clientFd first).bind fun s' => advances s' clientFd second := by
  unfold advances
  rw [← List.replicate_append_replicate, runAll_append]

/-- A number is changed through a reference that is still valid.
SOURCE: PubSubChannels.cpp:35, 68 -/
theorem changeCount_returned {count : Int32} {change : ℤ} (hdefined : s.undefined = false)
    (hlook : s.channels.clientFdToConnection.lookUp clientFd = some count)
    (hchange : s.channels.changeCount clientFd count change = .ok (n, p)) :
    Returned s (s.changeCount clientFd s.countGeneration change) clientFd n p := by
  have hresult : s.changeCount clientFd s.countGeneration change =
      { s with channels := p }.finish clientFd n := by
    simp only [State.changeCount, State.derefCount, if_true, hlook, hchange]
  rw [hresult]
  exact ⟨hdefined, rfl, Function.update_self .., Function.update_self ..⟩

/-- The first half of `Subscribe`, in two steps.
SOURCE: PubSubChannels.cpp:20-27 -/
theorem addClient_alone (hdefined : s.undefined = false)
    (hphase : s.phases clientFd = .called (.subscribe channel)) :
    ∃ s', advances s clientFd 2 = some s' ∧ s'.undefined = false ∧
      s'.channels = s.channels.addClient clientFd channel ∧ s'.phases clientFd = .inserted ∧
      s'.returned = s.returned := by
  unfold PubSubChannels.addClient
  cases hlook : s.channels.channelToClientFds.lookUp channel with
  | none =>
    simp [advances, runAll, State.step, State.advance, State.goto, State.createSet, hdefined,
      hphase, hlook]
  | some set =>
    simp [advances, runAll, State.step, State.advance, State.goto, State.derefSet, hdefined,
      hphase, hlook]

/-- The second half of `Subscribe`, in two steps.
SOURCE: PubSubChannels.cpp:28-32 -/
theorem countUp_alone (hdefined : s.undefined = false) (hphase : s.phases clientFd = .inserted)
    (hlook : s.channels.clientFdToConnection.lookUp clientFd = none) :
    ∃ s', advances s clientFd 2 = some s' ∧
      Returned s s' clientFd 1 (s.channels.insertCount clientFd) := by
  simp [advances, runAll, State.step, State.advance, State.goto, State.insertCount, State.finish,
    Returned, hdefined, hphase, hlook]

/-- The second half of `Subscribe` for a client that has a number.
SOURCE: PubSubChannels.cpp:28, 35 -/
theorem countUp_alone_again {count : Int32} (hdefined : s.undefined = false)
    (hphase : s.phases clientFd = .inserted)
    (hlook : s.channels.clientFdToConnection.lookUp clientFd = some count)
    (hchange : s.channels.changeCount clientFd count 1 = .ok (n, p)) :
    ∃ s', advances s clientFd 2 = some s' ∧ Returned s s' clientFd n p := by
  have hreturned := @changeCount_returned (s.goto clientFd (.countFound s.countGeneration))
    clientFd n p count 1 hdefined hlook hchange
  refine ⟨_, ?_, hreturned⟩
  simp [advances, runAll, State.step, State.advance, State.goto, hdefined, hphase, hlook]

/-- `Subscribe` takes four steps.
SOURCE: PubSubChannels.cpp:18-36 -/
theorem subscribe_alone (hdefined : s.undefined = false)
    (hphase : s.phases clientFd = .called (.subscribe channel))
    (hcall : s.channels.subscribe clientFd channel = .ok (n, p)) :
    ∃ s', advances s clientFd 4 = some s' ∧ Returned s s' clientFd n p := by
  obtain ⟨s₁, hfirst, hdefined₁, hchannels, hphase₁, hsame⟩ := addClient_alone hdefined hphase
  unfold PubSubChannels.subscribe at hcall
  simp only [← hchannels] at hcall
  have hsecond : ∃ s', advances s₁ clientFd 2 = some s' ∧ Returned s₁ s' clientFd n p := by
    cases hlook : s₁.channels.clientFdToConnection.lookUp clientFd with
    | none =>
      simp only [hlook] at hcall
      cases hcall
      exact countUp_alone hdefined₁ hphase₁ hlook
    | some count =>
      simp only [hlook] at hcall
      exact countUp_alone_again hdefined₁ hphase₁ hlook hcall
  obtain ⟨s', hrest, hreturned⟩ := hsecond
  refine ⟨s', ?_, ?_⟩
  · rw [advances_add s clientFd 2 2, hfirst]
    exact hrest
  · rw [Returned, ← hsame]
    exact hreturned

/-- `Unsubscribe` of a client without a number returns at once.
SOURCE: PubSubChannels.cpp:60-61 -/
theorem unsubscribe_alone_uncounted (hdefined : s.undefined = false)
    (hphase : s.phases clientFd = .called (.unsubscribe channel))
    (hlook : s.channels.clientFdToConnection.lookUp clientFd = none) :
    ∃ s', advances s clientFd 1 = some s' ∧ Returned s s' clientFd 0 s.channels := by
  simp [advances, runAll, State.step, State.advance, State.finish, Returned, hdefined, hphase,
    hlook]

/-- `Unsubscribe` from a channel without a set returns the number it has found.
SOURCE: PubSubChannels.cpp:63-65 -/
theorem unsubscribe_alone_missing {count : Int32} (hdefined : s.undefined = false)
    (hphase : s.phases clientFd = .called (.unsubscribe channel))
    (hlook : s.channels.clientFdToConnection.lookUp clientFd = some count)
    (hset : s.channels.channelToClientFds.lookUp channel = none) :
    ∃ s', advances s clientFd 3 = some s' ∧ Returned s s' clientFd count s.channels := by
  simp [advances, runAll, State.step, State.advance, State.goto, State.derefCount, State.finish,
    Returned, hdefined, hphase, hlook, hset]

/-- `Unsubscribe` from a channel with a set goes on to the number in three steps.
SOURCE: PubSubChannels.cpp:60-67 -/
theorem removeClient_alone {count : Int32} {set : MapBasedSet Fd} (hdefined : s.undefined = false)
    (hphase : s.phases clientFd = .called (.unsubscribe channel))
    (hlook : s.channels.clientFdToConnection.lookUp clientFd = some count)
    (hset : s.channels.channelToClientFds.lookUp channel = some set) :
    advances s clientFd 3 =
      some ({ s with channels := s.channels.removeClient clientFd channel set }.goto clientFd
        (.removed s.countGeneration)) := by
  simp [advances, runAll, State.step, State.advance, State.goto, State.derefSet, hdefined, hphase,
    hlook, hset]

/-- `Unsubscribe` takes one step, three or four.
SOURCE: PubSubChannels.cpp:58-69 -/
theorem unsubscribe_alone (hdefined : s.undefined = false)
    (hphase : s.phases clientFd = .called (.unsubscribe channel))
    (hcall : s.channels.unsubscribe clientFd channel = .ok (n, p)) :
    ∃ steps s', advances s clientFd steps = some s' ∧ Returned s s' clientFd n p := by
  unfold PubSubChannels.unsubscribe at hcall
  cases hlook : s.channels.clientFdToConnection.lookUp clientFd with
  | none =>
    simp only [hlook] at hcall
    cases hcall
    exact ⟨1, unsubscribe_alone_uncounted hdefined hphase hlook⟩
  | some count =>
    cases hset : s.channels.channelToClientFds.lookUp channel with
    | none =>
      simp only [hlook, hset] at hcall
      cases hcall
      exact ⟨3, unsubscribe_alone_missing hdefined hphase hlook hset⟩
    | some set =>
      simp only [hlook, hset] at hcall
      have hfirst := removeClient_alone hdefined hphase hlook hset
      set s₁ := State.goto { s with channels := s.channels.removeClient clientFd channel set }
        clientFd (.removed s.countGeneration) with hs₁
      -- The removal leaves the map of the numbers alone, so the reference is still valid.
      have hreturned : Returned s₁ (s₁.changeCount clientFd s₁.countGeneration (-1)) clientFd n p :=
        changeCount_returned hdefined hlook hcall
      refine ⟨3 + 1, _, ?_, hreturned⟩
      rw [advances_add, hfirst]
      simp [advances, runAll, State.step, State.advance, State.goto, hs₁, hdefined]

end Steps

/-- A call whose steps nothing interrupts does and returns what the operation does and returns.
SOURCE: PubSubChannels.cpp:18-36, 58-69 -/
theorem call_alone {s : State} {clientFd : Fd} {call : Call} {n : Int32} {p : PubSubChannels}
    (hdefined : s.undefined = false) (hidle : s.phases clientFd = .idle)
    (hcall : sequential s.channels clientFd call = .ok (n, p)) :
    ∃ steps s', runAll State.step (fun _ _ => True) s
        (.call clientFd call :: List.replicate steps (.advance clientFd)) = some s' ∧
      Returned s s' clientFd n p := by
  let called : State :=
    { s with
      phases := Function.update s.phases clientFd (.called call)
      history := Function.update s.history clientFd (s.history clientFd ++ [call]) }
  have hfirst : s.step (.call clientFd call) = some called := by
    simp [State.step, hdefined, hidle, called]
  have hphase : called.phases clientFd = .called call := Function.update_self ..
  have hrest : ∃ steps s', advances called clientFd steps = some s' ∧
      Returned called s' clientFd n p := by
    cases call with
    | subscribe channel => exact ⟨4, subscribe_alone hdefined hphase hcall⟩
    | unsubscribe channel => exact unsubscribe_alone hdefined hphase hcall
  obtain ⟨steps, s', hadvances, hreturned⟩ := hrest
  refine ⟨steps, s', ?_, hreturned⟩
  rw [runAll, if_pos trivial, hfirst]
  exact hadvances

end MyRedis.Analysis

import MyRedis.Model.ChainedHashmap
import MyRedis.Model.Connection
import MyRedis.Model.RespValue

/-!
# The channels of v1

`PubSubChannels.cpp` with `MapBasedSet.h`: a map from a channel to the set of the clients that
subscribe to it, and a map from a client to the number of its channels, which `Subscribe` and
`Unsubscribe` count up and down.  Both are `StripedHashmap`s, and so is the map inside a set.

`LookUp` returns a reference to the value in the map, here a `unique_ptr`; what is done to the
object it points to is done in the map.  The operations are cut up into these accesses, which
`PubSubCalls.lean` interleaves.
-/

set_option autoImplicit false

namespace MyRedis.Model

/-- What is written through the reference that `LookUp` returned.  The key is in the map, so there
is no new entry. -/
def StripedHashmap.assign {K V : Type} [DecidableEq K] (t : StripedHashmap K V) (key : K)
    (value : V) : StripedHashmap K V :=
  { t with table := t.table.insertWithoutResize key value }

/-- `MapBasedSet`
SOURCE: MapBasedSet.h:9-31 -/
structure MapBasedSet (V : Type) where
  map : StripedHashmap V Unit

namespace MapBasedSet

variable {V : Type}

/-- `StripedSetFactory::CreateSet`
SOURCE: StripedSetFactory.h:16-23 -/
def new (hash : V → ℕ) : MapBasedSet V := ⟨.new hash⟩

variable [DecidableEq V]

/-- `Contains`
SOURCE: MapBasedSet.h:17-19 -/
def contains (s : MapBasedSet V) (element : V) : Bool := (s.map.lookUp element).isSome

/-- `Insert`
SOURCE: MapBasedSet.h:21 -/
def insert (s : MapBasedSet V) (element : V) : MapBasedSet V := ⟨s.map.insert element ()⟩

/-- `Remove`
SOURCE: MapBasedSet.h:23 -/
def remove (s : MapBasedSet V) (element : V) : MapBasedSet V := ⟨s.map.remove element⟩

/-- `ForEach`, with an action that only reads.
SOURCE: MapBasedSet.h:25-27 -/
def forEach (s : MapBasedSet V) : List V := s.map.table.forEach.map Prod.fst

end MapBasedSet

/-- The result of an operation on `int` whose mathematical value is `n`. -/
def signed32 (n : ℤ) : Defined Int32 :=
  if -2 ^ 31 ≤ n ∧ n < 2 ^ 31 then .ok (Int32.ofInt n) else .error .signedOverflow

/-- An operation on `int` has a result where its mathematical value fits, and that is the value. -/
theorem signed32_eq_ok {n : ℤ} {m : Int32} : signed32 n = .ok m ↔ m.toInt = n := by
  unfold signed32
  constructor
  · intro h
    split_ifs at h with hfits
    cases h
    exact Int32.toInt_ofInt_of_le hfits.1 hfits.2
  · rintro rfl
    rw [if_pos ⟨m.le_toInt, m.toInt_lt⟩, Int32.ofInt_toInt]

/-- `PubSubResponse`
SOURCE: PubSubResponse.cpp:5-8 -/
def pubSubResponse (action channel : Bytes) (contents : RespValue) : RespValue :=
  .array [.bulkString (some action), .bulkString (some channel), contents]

/-- `PubSubChannels`.  `setFactory` is the hash function of the sets.
SOURCE: PubSubChannels.h:29-37 -/
structure PubSubChannels where
  channelToClientFds : StripedHashmap Bytes (MapBasedSet Fd)
  setFactory : Fd → ℕ
  clientFdToConnection : StripedHashmap Fd Int32

namespace PubSubChannels

/-- The channels as the constructor leaves them, for a hash function on each type of key.
SOURCE: PubSubChannels.cpp:7-16, ServerApp.cpp:39-45 -/
def new (stringHash : Bytes → ℕ) (intHash : Fd → ℕ) : PubSubChannels :=
  ⟨.new stringHash, intHash, .new intHash⟩

/-! ## The accesses -/

/-- `set->Insert(client_fd); channel_to_client_fds_->Insert(channel, std::move(set))`, for a new
set.
SOURCE: PubSubChannels.cpp:22-24 -/
def createSet (p : PubSubChannels) (clientFd : Fd) (channel : Bytes) : PubSubChannels :=
  { p with
    channelToClientFds :=
      p.channelToClientFds.insert channel ((MapBasedSet.new p.setFactory).insert clientFd) }

/-- `channels_client_fds->get()->Insert(client_fd)`
SOURCE: PubSubChannels.cpp:26 -/
def insertClient (p : PubSubChannels) (clientFd : Fd) (channel : Bytes) (set : MapBasedSet Fd) :
    PubSubChannels :=
  { p with channelToClientFds := p.channelToClientFds.assign channel (set.insert clientFd) }

/-- `channels_client_fds->get()->Remove(client_fd)`
SOURCE: PubSubChannels.cpp:67 -/
def removeClient (p : PubSubChannels) (clientFd : Fd) (channel : Bytes) (set : MapBasedSet Fd) :
    PubSubChannels :=
  { p with channelToClientFds := p.channelToClientFds.assign channel (set.remove clientFd) }

/-- `client_fd_to_connection_->Insert(client_fd, std::make_unique<int>(1))`
SOURCE: PubSubChannels.cpp:31 -/
def insertCount (p : PubSubChannels) (clientFd : Fd) : PubSubChannels :=
  { p with clientFdToConnection := p.clientFdToConnection.insert clientFd 1 }

/-- `*current_connections->get() += change`, with what it evaluates to.
SOURCE: PubSubChannels.cpp:35, 68 -/
def changeCount (p : PubSubChannels) (clientFd : Fd) (count : Int32) (change : ℤ) :
    Defined (Int32 × PubSubChannels) := do
  let count ← signed32 (count.toInt + change)
  return (count,
    { p with clientFdToConnection := p.clientFdToConnection.assign clientFd count })

/-! ## The operations -/

/-- The first half of `Subscribe`.
SOURCE: PubSubChannels.cpp:20-27 -/
def addClient (p : PubSubChannels) (clientFd : Fd) (channel : Bytes) : PubSubChannels :=
  match p.channelToClientFds.lookUp channel with
  | none => p.createSet clientFd channel
  | some set => p.insertClient clientFd channel set

/-- `Subscribe`
SOURCE: PubSubChannels.cpp:18-36 -/
def subscribe (p : PubSubChannels) (clientFd : Fd) (channel : Bytes) :
    Defined (Int32 × PubSubChannels) :=
  let p := p.addClient clientFd channel
  match p.clientFdToConnection.lookUp clientFd with
  | none => .ok (1, p.insertCount clientFd)
  | some count => p.changeCount clientFd count 1

/-- `Publish`: the number of clients and what they are sent.
SOURCE: PubSubChannels.cpp:38-56 -/
def publish (p : PubSubChannels) (channel message : Bytes) :
    Defined (Int32 × List (Fd × Bytes)) :=
  match p.channelToClientFds.lookUp channel with
  | none => .ok (0, [])
  | some set => do
    let response := pubSubResponse (ascii "message") channel (.bulkString (some message))
    let number ← signed32 set.forEach.length
    return (number, set.forEach.map fun clientFd => (clientFd, response.serialize))

/-- `Unsubscribe`
SOURCE: PubSubChannels.cpp:58-69 -/
def unsubscribe (p : PubSubChannels) (clientFd : Fd) (channel : Bytes) :
    Defined (Int32 × PubSubChannels) :=
  match p.clientFdToConnection.lookUp clientFd with
  | none => .ok (0, p)
  | some count =>
    match p.channelToClientFds.lookUp channel with
    | none => .ok (count, p)
    | some set => (p.removeClient clientFd channel set).changeCount clientFd count (-1)

/-- A call of one of the operations. -/
inductive Call where
  | subscribe (clientFd : Fd) (channel : Bytes)
  | unsubscribe (clientFd : Fd) (channel : Bytes)
  | publish (channel message : Bytes)

/-- What a call returns, and what it leaves. -/
def call (p : PubSubChannels) : Call → Defined (Int32 × PubSubChannels)
  | .subscribe clientFd channel => p.subscribe clientFd channel
  | .unsubscribe clientFd channel => p.unsubscribe clientFd channel
  | .publish channel message => (p.publish channel message).map fun r => (r.1, p)

/-- The subscriber set of the channel contains the client. -/
def subscribed (p : PubSubChannels) (clientFd : Fd) (channel : Bytes) : Bool :=
  match p.channelToClientFds.lookUp channel with
  | none => false
  | some set => set.contains clientFd

end PubSubChannels

end MyRedis.Model

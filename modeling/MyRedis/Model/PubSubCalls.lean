import MyRedis.Model.PubSubChannels

/-!
# Concurrent subscriptions in v1

`Subscribe` and `Unsubscribe` of `PubSubChannels.cpp`, called by many clients at the same time.
The steps are the accesses to the maps and the sets; between any two of them every other client may
take steps.  The calls of one client do not overlap, as `PubSubChannels.h` demands, so a client is
in at most one call.

A reference that `LookUp` returned stands for the value that the map then holds, until a `Resize`
destroys the entries: to go through it afterwards is undefined.  To put the client into a new set is
one step with the `Insert` of that set, since nobody else can reach the set before.
-/

set_option autoImplicit false

namespace MyRedis.Model

namespace PubSubCalls

/-- A call of a client. -/
inductive Call where
  | subscribe (channel : Bytes)
  | unsubscribe (channel : Bytes)
  deriving DecidableEq

/-- The channel of a call. -/
def Call.channel : Call → Bytes
  | .subscribe channel => channel
  | .unsubscribe channel => channel

/-- Where a client is in its call, by what it did last.  A number says which `Resize` a reference
is from: `setRef` for one to a set, `countRef` for one to a number.
SOURCE: PubSubChannels.cpp:18-36, 58-69 -/
inductive Phase where
  | idle
  | called (call : Call)
  | setMissing (channel : Bytes)
  | setFound (channel : Bytes) (setRef : ℕ)
  | inserted
  | countMissing
  | countFound (countRef : ℕ)
  | leaving (channel : Bytes) (countRef : ℕ)
  | leavingMissing (countRef : ℕ)
  | leavingFound (channel : Bytes) (countRef setRef : ℕ)
  | removed (countRef : ℕ)
  deriving DecidableEq

namespace Phase

/-- The channel and the time of a reference to a set. -/
def setRef : Phase → Option (Bytes × ℕ)
  | setFound channel setRef => some (channel, setRef)
  | leavingFound channel _ setRef => some (channel, setRef)
  | _ => none

/-- The time of a reference to the number of the client. -/
def countRef : Phase → Option ℕ
  | countFound countRef => some countRef
  | leaving _ countRef => some countRef
  | leavingMissing countRef => some countRef
  | leavingFound _ countRef _ => some countRef
  | removed countRef => some countRef
  | _ => none

end Phase

/-- The channels and the clients.  `history` and `returned` are the calls a client has made and what
they returned. -/
structure State where
  undefined : Bool
  channels : PubSubChannels
  setGeneration : ℕ
  countGeneration : ℕ
  phases : Fd → Phase
  history : Fd → List Call
  returned : Fd → List Int32

inductive Action where
  | call (clientFd : Fd) (call : Call)
  | advance (clientFd : Fd)

namespace State

/-- The channels as the constructor leaves them. -/
def init (stringHash : Bytes → ℕ) (intHash : Fd → ℕ) : State where
  undefined := false
  channels := .new stringHash intHash
  setGeneration := 0
  countGeneration := 0
  phases := fun _ => .idle
  history := fun _ => []
  returned := fun _ => []

def goto (s : State) (clientFd : Fd) (phase : Phase) : State :=
  { s with phases := Function.update s.phases clientFd phase }

/-- `return n` -/
def finish (s : State) (clientFd : Fd) (n : Int32) : State :=
  { s with
    phases := Function.update s.phases clientFd .idle
    returned := Function.update s.returned clientFd (s.returned clientFd ++ [n]) }

/-- A set, through a reference to it. -/
def derefSet (s : State) (channel : Bytes) (setRef : ℕ) : Option (MapBasedSet Fd) :=
  if setRef = s.setGeneration then s.channels.channelToClientFds.lookUp channel else none

/-- The number of a client, through a reference to it. -/
def derefCount (s : State) (clientFd : Fd) (countRef : ℕ) : Option Int32 :=
  if countRef = s.countGeneration then s.channels.clientFdToConnection.lookUp clientFd else none

/-- `channel_to_client_fds_->Insert` of a new set -/
def createSet (s : State) (clientFd : Fd) (channel : Bytes) : State :=
  { s with
    channels := s.channels.createSet clientFd channel
    setGeneration :=
      if s.channels.channelToClientFds.resizes then s.setGeneration + 1 else s.setGeneration }

/-- `client_fd_to_connection_->Insert` -/
def insertCount (s : State) (clientFd : Fd) : State :=
  { s with
    channels := s.channels.insertCount clientFd
    countGeneration :=
      if s.channels.clientFdToConnection.resizes then s.countGeneration + 1
      else s.countGeneration }

/-- `return ++(*current_connections->get())`, and the same with `--`. -/
def changeCount (s : State) (clientFd : Fd) (countRef : ℕ) (change : ℤ) : State :=
  match s.derefCount clientFd countRef with
  | none => { s with undefined := true }
  | some count =>
    match s.channels.changeCount clientFd count change with
    | .error _ => { s with undefined := true }
    | .ok (n, channels) => { s with channels }.finish clientFd n

/-- The next step of a client's call. -/
def advance (s : State) (clientFd : Fd) : Option State :=
  match s.phases clientFd with
  | .idle => none
  | .called (.subscribe channel) =>
    match s.channels.channelToClientFds.lookUp channel with
    | none => some (s.goto clientFd (.setMissing channel))
    | some _ => some (s.goto clientFd (.setFound channel s.setGeneration))
  | .setMissing channel => some ((s.createSet clientFd channel).goto clientFd .inserted)
  | .setFound channel setRef =>
    match s.derefSet channel setRef with
    | none => some { s with undefined := true }
    | some set =>
      some ({ s with channels := s.channels.insertClient clientFd channel set }.goto clientFd
        .inserted)
  | .inserted =>
    match s.channels.clientFdToConnection.lookUp clientFd with
    | none => some (s.goto clientFd .countMissing)
    | some _ => some (s.goto clientFd (.countFound s.countGeneration))
  | .countMissing => some ((s.insertCount clientFd).finish clientFd 1)
  | .countFound countRef => some (s.changeCount clientFd countRef 1)
  | .called (.unsubscribe channel) =>
    match s.channels.clientFdToConnection.lookUp clientFd with
    | none => some (s.finish clientFd 0)
    | some _ => some (s.goto clientFd (.leaving channel s.countGeneration))
  | .leaving channel countRef =>
    match s.channels.channelToClientFds.lookUp channel with
    | none => some (s.goto clientFd (.leavingMissing countRef))
    | some _ => some (s.goto clientFd (.leavingFound channel countRef s.setGeneration))
  | .leavingMissing countRef =>
    match s.derefCount clientFd countRef with
    | none => some { s with undefined := true }
    | some count => some (s.finish clientFd count)
  | .leavingFound channel countRef setRef =>
    match s.derefSet channel setRef with
    | none => some { s with undefined := true }
    | some set =>
      some ({ s with channels := s.channels.removeClient clientFd channel set }.goto clientFd
        (.removed countRef))
  | .removed countRef => some (s.changeCount clientFd countRef (-1))

/-- A client calls, or takes the next step of its call. -/
def step (s : State) (a : Action) : Option State :=
  if s.undefined then none
  else
    match a with
    | .call clientFd call =>
      if s.phases clientFd = .idle then
        some { s with
          phases := Function.update s.phases clientFd (.called call)
          history := Function.update s.history clientFd (s.history clientFd ++ [call]) }
      else none
    | .advance clientFd => s.advance clientFd

end State

end PubSubCalls

end MyRedis.Model

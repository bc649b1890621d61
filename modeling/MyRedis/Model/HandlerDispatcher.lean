import MyRedis.Model.PubSubChannels
import MyRedis.Model.Requests

/-!
# The handlers of v1

`handler/`, with the store and the channels that `ServerApp` makes for them.  A handler sends its
replies itself: what it has sent is a list of descriptors and bytes.  It may throw what the
constructor of its request throws, and nobody catches that; `Insert` and `Remove` of the store do
not throw, so the replies `INTERNAL_ERROR_RESP` are never sent.  Logging is left out.

The names are those of v2, so all of this is in a namespace of its own.
-/

set_option autoImplicit false

namespace MyRedis.Model

namespace V1

/-- Why a handler does not return. -/
inductive Failure where
  | thrown (exception : StdException)
  | undefined (undefined : Undefined)
  deriving DecidableEq

/-- What the handlers share.
SOURCE: ServerApp.cpp:36-45 -/
structure Shared where
  store : StripedHashmap Bytes (Option Bytes)
  pubSubChannels : PubSubChannels

/-- An empty store and no channels, for a hash function on each type of key. -/
def Shared.new (stringHash : Bytes → ℕ) (intHash : Fd → ℕ) : Shared :=
  ⟨.new stringHash, .new stringHash intHash⟩

/-- `Handler`
SOURCE: Handler.h:6-11 -/
structure Handler where
  isHandler : RespValue → Bool
  handle : Shared → Fd → RespValue → Except Failure (List (Fd × Bytes) × Shared)

namespace Handler

/-- `GetRequestHandler`
SOURCE: GetRequestHandler.cpp:7-30 -/
def get : Handler where
  isHandler := GetRequest.isRequest
  handle shared clientFd respValue := do
    let request ← (GetRequest.new respValue).mapError .thrown
    match shared.store.lookUp request.firstArg with
    | none => return ([(clientFd, (RespValue.bulkString none).serialize)], shared)
    | some none => return ([(clientFd, (RespValue.bulkString none).serialize)], shared)
    | some (some value) =>
      return ([(clientFd, (RespValue.bulkString (some value)).serialize)], shared)

/-- `SetRequestHandler`
SOURCE: SetRequestHandler.cpp:6-20, HandlerHelpers.h:10 -/
def set : Handler where
  isHandler := SetRequest.isRequest
  handle shared clientFd respValue := do
    let request ← (SetRequest.new respValue).mapError .thrown
    return ([(clientFd, ascii "+OK\r\n")],
      { shared with store := shared.store.insert request.key request.value })

/-- `DelRequestHandler`
SOURCE: DelRequestHandler.cpp:7-21 -/
def del : Handler where
  isHandler := DelRequest.isRequest
  handle shared clientFd respValue := do
    let request ← (DelRequest.new respValue).mapError .thrown
    return ([(clientFd, (RespValue.integer 1).serialize)],
      { shared with store := shared.store.remove request.firstArg })

/-- The loop of `SubscribeRequestHandler::Handle` and `UnsubscribeRequestHandler::Handle`: what has
been sent after it.
SOURCE: SubscribeRequestHandler.cpp:21-28, UnsubscribeRequestHandler.cpp:21-28 -/
def eachChannel (action : Bytes)
    (call : PubSubChannels → Fd → Bytes → Defined (Int32 × PubSubChannels)) (clientFd : Fd) :
    Shared → List Bytes → Except Failure (List (Fd × Bytes) × Shared)
  | shared, [] => .ok ([], shared)
  | shared, channel :: channels => do
    let (numChannels, pubSubChannels) ←
      (call shared.pubSubChannels clientFd channel).mapError .undefined
    let response := pubSubResponse action channel (.integer numChannels.toInt64)
    let (sent, shared) ← eachChannel action call clientFd { shared with pubSubChannels } channels
    return ((clientFd, response.serialize) :: sent, shared)

/-- `SubscribeRequestHandler`
SOURCE: SubscribeRequestHandler.cpp:14-29 -/
def subscribe : Handler where
  isHandler := SubscribeRequest.isRequest
  handle shared clientFd respValue := do
    let request ← (SubscribeRequest.new respValue).mapError .thrown
    eachChannel (ascii "subscribe") PubSubChannels.subscribe clientFd shared request.channels

/-- `PublishRequestHandler`
SOURCE: PublishRequestHandler.cpp:13-23 -/
def publish : Handler where
  isHandler := PublishRequest.isRequest
  handle shared clientFd respValue := do
    let request ← (PublishRequest.new respValue).mapError .thrown
    let (numPublishedTo, sent) ←
      (shared.pubSubChannels.publish request.channel request.message).mapError .undefined
    return (sent ++ [(clientFd, (RespValue.integer numPublishedTo.toInt64).serialize)], shared)

/-- `UnsubscribeRequestHandler`
SOURCE: UnsubscribeRequestHandler.cpp:14-29 -/
def unsubscribe : Handler where
  isHandler := UnsubscribeRequest.isRequest
  handle shared clientFd respValue := do
    let request ← (UnsubscribeRequest.new respValue).mapError .thrown
    eachChannel (ascii "unsubscribe") PubSubChannels.unsubscribe clientFd shared request.channels

/-- `UnknownRequestHandler`
SOURCE: UnknownRequestHandler.cpp:7-16 -/
def unknown : Handler where
  isHandler _ := true
  handle shared clientFd _ :=
    .ok ([(clientFd, (RespValue.simpleError (ascii "Unknown subcommand or command")).serialize)],
      shared)

end Handler

/-- The handlers, in the order in which `ServerApp` puts them into the vector.
SOURCE: ServerApp.cpp:47-57 -/
def handlers : List Handler :=
  [.get, .set, .del, .subscribe, .publish, .unsubscribe, .unknown]

/-- The loop of `HandlerDispatcher::DispatchRequest`.
SOURCE: HandlerDispatcher.cpp:16-21 -/
def dispatchAmong (shared : Shared) (clientFd : Fd) (respValue : RespValue) :
    List Handler → Except Failure (List (Fd × Bytes) × Shared)
  | [] => .ok ([], shared)
  | handler :: handlers =>
    if handler.isHandler respValue then handler.handle shared clientFd respValue
    else dispatchAmong shared clientFd respValue handlers

/-- `HandlerDispatcher::DispatchRequest`
SOURCE: HandlerDispatcher.cpp:13-22 -/
def dispatchRequest (shared : Shared) (clientFd : Fd) (respValue : RespValue) :
    Except Failure (List (Fd × Bytes) × Shared) :=
  dispatchAmong shared clientFd respValue handlers

/-- What a computation has thrown. -/
def exception {α : Type} : Except StdException α → Option StdException
  | .ok _ => none
  | .error e => some e

/-- What leaves `DispatchRequest`: the handler that it calls first constructs its request, and
nothing that it does then throws, whatever the handlers share.
SOURCE: HandlerDispatcher.cpp:16-21, GetRequestHandler.cpp:13, SetRequestHandler.cpp:12,
DelRequestHandler.cpp:13, SubscribeRequestHandler.cpp:20, PublishRequestHandler.cpp:19,
UnsubscribeRequestHandler.cpp:20 -/
def uncaught (respValue : RespValue) : Option StdException :=
  if GetRequest.isRequest respValue then exception (GetRequest.new respValue)
  else if SetRequest.isRequest respValue then exception (SetRequest.new respValue)
  else if DelRequest.isRequest respValue then exception (DelRequest.new respValue)
  else if SubscribeRequest.isRequest respValue then exception (SubscribeRequest.new respValue)
  else if PublishRequest.isRequest respValue then exception (PublishRequest.new respValue)
  else if UnsubscribeRequest.isRequest respValue then exception (UnsubscribeRequest.new respValue)
  else none

end V1

end MyRedis.Model

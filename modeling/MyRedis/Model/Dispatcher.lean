import MyRedis.Model.RespValue
import MyRedis.Model.Store

/-!
# Requests and their handlers

`command.h`, the handlers and `request_dispatcher.cc`.  A handler decides in `isHandler`
whether a request is its own and answers it in `handle`; the dispatcher asks the handlers
in order.  Both work on `*command->args[i]`, so both may be undefined: on an argument that
is not there, on a null argument, and where a deadline does not fit `int64_t`.  A handler
reads the clock at most once; `now` is that reading.
-/

set_option autoImplicit false

namespace MyRedis.Model

/-- `Command`
SOURCE: command.h:20-23 -/
structure Command where
  name : Bytes
  args : List (Option Bytes)

/-- The arguments of a command: bulk strings only.
SOURCE: command.h:42-47 -/
def parseArgs : List RespValue → Option (List (Option Bytes))
  | [] => some []
  | .bulkString arg :: rest => (parseArgs rest).map (arg :: ·)
  | _ :: _ => none

/-- `ParseCommand`
SOURCE: command.h:28-49 -/
def parseCommand : RespValue → Option Command
  | .array (.bulkString (some name) :: rest) =>
    if name = [] then none else (parseArgs rest).map fun args => ⟨name, args⟩
  | _ => none

/-- `Handler`
SOURCE: handler.h -/
structure Handler where
  isHandler : RespValue → Defined Bool
  handle : Store → Int64 → RespValue → Defined (RespValue × Store)

namespace Handler

/-- `command && command->name == name && ...`: the part of `IsHandler` that all handlers
share, with the rest as a test on the arguments. -/
def named (name : Bytes) (test : List (Option Bytes) → Defined Bool) (request : RespValue) :
    Defined Bool :=
  match parseCommand request with
  | none => .ok false
  | some command => if command.name = name then test command.args else .ok false

/-- `command->args[0].has_value() && !command->args[0]->empty()` -/
def hasKey (args : List (Option Bytes)) : Defined Bool := do
  match ← index args 0 with
  | none => return false
  | some key => return !key.isEmpty

/-- `command->args.size() == count`, and a key. -/
def keyAnd (count : ℕ) (args : List (Option Bytes)) : Defined Bool :=
  if args.length = count then hasKey args else .ok false

/-- `command->args`, in `Handle` -/
def argsOf (request : RespValue) : Defined (List (Option Bytes)) := do
  return (← deref (parseCommand request)).args

/-- `*command->args[0]` -/
def keyOf (args : List (Option Bytes)) : Defined Bytes := do deref (← index args 0)

/-- `GetRequestHandler`
SOURCE: get_request_handler.h -/
def get : Handler where
  isHandler := named (ascii "GET") (keyAnd 1)
  handle store now request := do
    let key ← keyOf (← argsOf request)
    return (.bulkString (store.get now key), store)

/-- `SetRequestHandler`
SOURCE: set_request_handler.h -/
def set : Handler where
  isHandler := named (ascii "SET") (keyAnd 2)
  handle store _ request := do
    let args ← argsOf request
    let key ← keyOf args
    let value ← index args 1
    return (.simpleString (ascii "OK"), store.set key value)

/-- `DelRequestHandler`
SOURCE: del_request_handler.h -/
def del : Handler where
  isHandler := named (ascii "DEL") (keyAnd 1)
  handle store _ request := do
    let key ← keyOf (← argsOf request)
    return (.integer 1, store.del key)

/-- `ExpireRequestHandler::ParseInteger`
SOURCE: expire_request_handler.h:59-69 -/
def parseInteger (arg : Option Bytes) : Option Int64 :=
  match arg with
  | none => none
  | some s =>
    if s = [] then none
    else
      match fromChars s with
      | .error _ => none
      | .ok (value, taken) => if taken = s.length then some value else none

/-- The arguments `ExpireRequestHandler::IsHandler` accepts.
SOURCE: expire_request_handler.h:35-43 -/
def expireArgs (args : List (Option Bytes)) : Defined Bool :=
  if args.length = 2 ∨ args.length = 3 then do
    if ← hasKey args then
      if (parseInteger (← index args 1)).isSome then
        if args.length = 2 then return true
        else
          let option ← deref (← index args 2)
          return (Store.toExpireOption option).isSome
      else return false
    else return false
  else .ok false

/-- The option `ExpireRequestHandler::Handle` works with.
SOURCE: expire_request_handler.h:48-50 -/
def expireOption (args : List (Option Bytes)) : Defined Store.ExpireOption :=
  if args.length = 3 then do
    let option ← deref (← index args 2)
    deref (Store.toExpireOption option)
  else .ok .na

/-- `ExpireRequestHandler`
SOURCE: expire_request_handler.h:24-79 -/
def expire (handlerName : Bytes) (timeConversionFactor : ℤ) (relativeToNow : Bool) : Handler where
  isHandler := named handlerName expireArgs
  handle store now request := do
    let args ← argsOf request
    let value ← deref (parseInteger (← index args 1))
    let option ← expireOption args
    let base : Int64 := if relativeToNow then now else 0
    let product ← signed64 (value.toInt * timeConversionFactor)
    let proposedExpiry ← signed64 (base.toInt + product.toInt)
    let key ← keyOf args
    let (set, store) := store.expireAt key proposedExpiry option
    return (.integer (if set then 1 else 0), store)

/-- `TtlRequestHandler`
SOURCE: ttl_request_handler.h:17-49 -/
def ttl (handlerName : Bytes) (timeConversionFactor : Int64) : Handler where
  isHandler := named handlerName (keyAnd 1)
  handle store now request := do
    let key ← keyOf (← argsOf request)
    let result ← store.ttl now key
    return (.integer (if result < 0 then result else result / timeConversionFactor), store)

/-- `PersistRequestHandler`
SOURCE: persist_request_handler.h:18-41 -/
def persist : Handler where
  isHandler := named (ascii "PERSIST") (keyAnd 1)
  handle store now request := do
    let key ← keyOf (← argsOf request)
    let (persisted, store) := store.persist now key
    return (.integer (if persisted then 1 else 0), store)

/-- `EchoRequestHandler`
SOURCE: echo_request_handler.h -/
def echo : Handler where
  isHandler := named (ascii "ECHO") fun args => .ok (args.length == 1)
  handle store _ request := do
    let arg ← index (← argsOf request) 0
    return (.bulkString arg, store)

/-- `PingRequestHandler`
SOURCE: ping_request_handler.h -/
def ping : Handler where
  isHandler := named (ascii "PING") fun args => .ok (args.length == 0 || args.length == 1)
  handle store _ request := do
    let args ← argsOf request
    if args.length = 0 then return (.simpleString (ascii "PONG"), store)
    else return (.bulkString (← index args 0), store)

/-- The reply of `HelloRequestHandler` to a supported version.
SOURCE: hello_request_handler.h -/
def helloReply : RespValue :=
  .array [.bulkString (ascii "server"), .bulkString (ascii "myredis"),
    .bulkString (ascii "version"), .bulkString (ascii "0.1.0"),
    .bulkString (ascii "proto"), .integer 2,
    .bulkString (ascii "mode"), .bulkString (ascii "standalone"),
    .bulkString (ascii "role"), .bulkString (ascii "master"),
    .bulkString (ascii "modules"), .array []]

/-- `command->args.size() == 1 && command->args[0] != "2"` -/
def otherProtocol (args : List (Option Bytes)) : Defined Bool :=
  if args.length = 1 then do
    return (← index args 0) != some (ascii "2")
  else .ok false

/-- `HelloRequestHandler`
SOURCE: hello_request_handler.h -/
def hello : Handler where
  isHandler := named (ascii "HELLO") fun args => .ok (args.length ≤ 1)
  handle store _ request := do
    if ← otherProtocol (← argsOf request) then
      return (.simpleError (ascii "NOPROTO unsupported protocol version"), store)
    else return (helloReply, store)

/-- `UnknownRequestHandler`
SOURCE: unknown_request_handler.h -/
def unknown : Handler where
  isHandler _ := .ok true
  handle store _ _ := .ok (.simpleError (ascii "Unknown subcommand or command"), store)

end Handler

/-- `handlers_`, in the order in which the constructor puts them there.
SOURCE: request_dispatcher.cc:24-54 -/
def handlers : List Handler :=
  [.get, .set, .del,
    .expire (ascii "EXPIRE") 1000 true, .expire (ascii "PEXPIRE") 1 true,
    .expire (ascii "EXPIREAT") 1000 false, .expire (ascii "PEXPIREAT") 1 false,
    .ttl (ascii "TTL") 1000, .ttl (ascii "PTTL") 1,
    .persist, .echo, .ping, .hello, .unknown]

/-- The loop of `RequestDispatcher::Dispatch`.
SOURCE: request_dispatcher.cc:57-63 -/
def dispatchAmong (store : Store) (now : Int64) (request : RespValue) :
    List Handler → Defined (RespValue × Store)
  | [] => .ok (.simpleError (ascii "Unknown subcommand or command"), store)
  | handler :: handlers => do
    if ← handler.isHandler request then handler.handle store now request
    else dispatchAmong store now request handlers

/-- `RequestDispatcher::Dispatch`
SOURCE: request_dispatcher.cc:56-64 -/
def dispatch (store : Store) (now : Int64) (request : RespValue) : Defined (RespValue × Store) :=
  dispatchAmong store now request handlers

/-- `Server::Execute`
SOURCE: server.cc:244-246 -/
def execute (store : Store) (now : Int64) (request : RespValue) : Defined (Bytes × Store) := do
  let (reply, store) ← dispatch store now request
  return (reply.serialize, store)

/-- The loop of `Server::ExecuteAndRespond` over the requests of a batch, each with the
clock reading it is executed at: `response` is what has been collected before.
SOURCE: server.cc:234-237 -/
def executeBatch (store : Store) (response : Bytes) :
    List (Int64 × RespValue) → Defined (Bytes × Store)
  | [] => .ok (response, store)
  | (now, value) :: values => do
    let (bytes, store) ← execute store now value
    executeBatch store (response ++ bytes) values

end MyRedis.Model

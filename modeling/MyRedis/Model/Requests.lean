import MyRedis.Model.RespValue

/-!
# The requests of v1

`requests/`.  Each type of request has a static `IsRequest`, by which a handler finds out whether a
RESP value is its own, and a constructor, which makes the checks once more and throws
`invalid_argument` where one fails.  The two are written independently of each other, and so are
they here.
-/

set_option autoImplicit false

namespace MyRedis.Model

/-- `holds_alternative<RespBulkString>(v.getValue())
&& get<RespBulkString>(v.getValue()) == text` -/
def RespValue.isText (text : Bytes) : RespValue → Bool
  | .bulkString (some s) => s = text
  | _ => false

/-- `s.has_value() && !s->empty()` -/
def hasText : Option Bytes → Bool
  | none => false
  | some s => !s.isEmpty

/-- `OneArgRequest`, as its constructor leaves it.  `getFirstArg` throws only where the argument is
empty.
SOURCE: OneArgRequest.h:7-20, OneArgRequest.cpp:46-49 -/
structure OneArgRequest where
  firstArg : Bytes
  nonempty : firstArg ≠ []

namespace OneArgRequest

/-- SOURCE: OneArgRequest.cpp:10-12, 18-20, 27-29 -/
def expectation (requestType : String) : String :=
  requestType ++ " request resp must be an array containing " ++ requestType ++
    " and then the <key>"

/-- The constructor.
SOURCE: OneArgRequest.cpp:5-41 -/
def new (respValue : RespValue) (requestType : String) : Except StdException OneArgRequest :=
  match respValue with
  | .array [get, key] =>
    if get.isText (ascii requestType) then
      match key with
      | .bulkString (some firstArg) =>
        if h : firstArg = [] then .error (.invalidArgument "Key is not a valid key")
        else .ok ⟨firstArg, h⟩
      | .bulkString none => .error (.invalidArgument "Key is not a valid key")
      | _ => .error (.invalidArgument "Key is not a bulk string")
    else .error (.invalidArgument (expectation requestType))
  | _ => .error (.invalidArgument (expectation requestType))

/-- `IsRequest`
SOURCE: OneArgRequest.cpp:51-75 -/
def isRequest (requestType : String) : RespValue → Bool
  | .array [get, .bulkString key] => get.isText (ascii requestType) && hasText key
  | _ => false

end OneArgRequest

/-- `GetRequest`
SOURCE: GetRequest.cpp:5-14 -/
def GetRequest.new (respValue : RespValue) : Except StdException OneArgRequest :=
  OneArgRequest.new respValue "GET"

def GetRequest.isRequest (respValue : RespValue) : Bool :=
  OneArgRequest.isRequest "GET" respValue

/-- `DelRequest`
SOURCE: DelRequest.cpp:3-12 -/
def DelRequest.new (respValue : RespValue) : Except StdException OneArgRequest :=
  OneArgRequest.new respValue "DEL"

def DelRequest.isRequest (respValue : RespValue) : Bool :=
  OneArgRequest.isRequest "DEL" respValue

/-- `SetRequest`
SOURCE: SetRequest.h:6-16 -/
structure SetRequest where
  key : Bytes
  value : Option Bytes
  nonempty : key ≠ []

namespace SetRequest

/-- SOURCE: SetRequest.cpp:7-8, 14-15, 23-24 -/
def expectation : String := "Get request resp must be an array containing SET and then the <key>"

/-- The constructor.
SOURCE: SetRequest.cpp:5-38 -/
def new : RespValue → Except StdException SetRequest
  | .array [set, key, value] =>
    if set.isText (ascii "SET") then
      match key, value with
      | .bulkString (some key), .bulkString value =>
        if h : key = [] then .error (.invalidArgument "Key is not a valid key")
        else .ok ⟨key, value, h⟩
      | .bulkString none, .bulkString _ => .error (.invalidArgument "Key is not a valid key")
      | _, _ => .error (.invalidArgument "Key is not a bulk string")
    else .error (.invalidArgument expectation)
  | _ => .error (.invalidArgument expectation)

/-- `IsRequest`
SOURCE: SetRequest.cpp:46-73 -/
def isRequest : RespValue → Bool
  | .array [set, .bulkString key, .bulkString _] => set.isText (ascii "SET") && hasText key
  | _ => false

end SetRequest

/-- `PublishRequest`
SOURCE: PublishRequest.h:7-17 -/
structure PublishRequest where
  channel : Bytes
  message : Bytes

namespace PublishRequest

/-- The constructor.
SOURCE: PublishRequest.cpp:5-41 -/
def new : RespValue → Except StdException PublishRequest
  | .array [publish, channel, message] =>
    if publish.isText (ascii "PUBLISH") then
      match channel, message with
      | .bulkString channel, .bulkString message =>
        if !hasText channel then .error (.invalidArgument "Channel argument is empty")
        else if !hasText message then .error (.invalidArgument "Message argument is empty")
        else .ok ⟨channel.getD [], message.getD []⟩
      | _, _ => .error (.invalidArgument "Arguments are not strings")
    else .error (.invalidArgument "Resp value is not a PUBLISH request")
  | .array _ =>
    .error (.invalidArgument
      "Publish must have exactly three elements: PUBLISH, channel, and message")
  | _ => .error (.invalidArgument "Publish must be an array of values")

/-- `IsRequest`
SOURCE: PublishRequest.cpp:47-79 -/
def isRequest : RespValue → Bool
  | .array [publish, .bulkString channel, .bulkString message] =>
    publish.isText (ascii "PUBLISH") && hasText channel && hasText message
  | _ => false

end PublishRequest

/-- `VarArgRequest`
SOURCE: VarArgRequest.h:8-20 -/
structure VarArgRequest where
  args : List Bytes

namespace VarArgRequest

/-- The constructor has moved `request_type` away before it puts it into this text.
SOURCE: VarArgRequest.cpp:7-11, 17-19, 24-26 -/
def expectation : String := " request resp must be an array containing  and then the arguments"

/-- The body of the constructor's loop.
SOURCE: VarArgRequest.cpp:28-41 -/
def arg : RespValue → Except StdException Bytes
  | .bulkString value =>
    if !hasText value then .error (.invalidArgument "Empty argument not allowed")
    else .ok (value.getD [])
  | _ => .error (.invalidArgument "Element is not a bulk string")

/-- The constructor.
SOURCE: VarArgRequest.cpp:5-42 -/
def new (respValue : RespValue) (requestType : String) : Except StdException VarArgRequest :=
  match respValue with
  | .array (get :: first :: rest) =>
    if get.isText (ascii requestType) then do
      return ⟨← (first :: rest).mapM arg⟩
    else .error (.invalidArgument expectation)
  | _ => .error (.invalidArgument expectation)

/-- `IsRequest`, which does not look at the arguments.
SOURCE: VarArgRequest.cpp:55-70 -/
def isRequest (requestType : String) : RespValue → Bool
  | .array (get :: _ :: _) => get.isText (ascii requestType)
  | _ => false

/-- `static_cast<int>(args_.size())`
SOURCE: VarArgRequest.cpp:47 -/
def numArgs (request : VarArgRequest) : Int32 := Int32.ofNat request.args.length

/-- What `getArg(i)` returns for the `i` from 0 up to `numArgs()`.  There is no exception, since
`numArgs()` is not more than the number of arguments.
SOURCE: VarArgRequest.cpp:49-53 -/
def channels (request : VarArgRequest) : List Bytes :=
  request.args.take request.numArgs.toInt.toNat

end VarArgRequest

/-- `SubscribeRequest`
SOURCE: SubscribeRequest.cpp:3-14 -/
def SubscribeRequest.new (respValue : RespValue) : Except StdException VarArgRequest :=
  VarArgRequest.new respValue "SUBSCRIBE"

def SubscribeRequest.isRequest (respValue : RespValue) : Bool :=
  VarArgRequest.isRequest "SUBSCRIBE" respValue

/-- `UnsubscribeRequest`
SOURCE: UnsubscribeRequest.cpp:3-16 -/
def UnsubscribeRequest.new (respValue : RespValue) : Except StdException VarArgRequest :=
  VarArgRequest.new respValue "UNSUBSCRIBE"

def UnsubscribeRequest.isRequest (respValue : RespValue) : Bool :=
  VarArgRequest.isRequest "UNSUBSCRIBE" respValue

end MyRedis.Model

import MyRedis.Analysis.ChainedRefinement
import MyRedis.Analysis.DispatchSafety
import MyRedis.Analysis.RequestGuards
import MyRedis.Lib.Service
import MyRedis.Model.HandlerDispatcher

/-!
# What both versions answer

GET, SET and DEL are the commands that v1 and v2 share.  What they mean is said here without either:
`operation` reads a request and `perform` does the operation on the values by their keys.  The
handlers of v1 over a `StripedHashmap` implement that (`v1_implements`), and so does the dispatcher
of v2 over a `Store` none of whose entries has a deadline (`v2_implements`).  So they send the same
bytes (`replies_agree`).
-/

set_option autoImplicit false

namespace MyRedis.Analysis

open MyRedis.Model MyRedis.Model.Store MyRedis.Lib

/-! ## The commands -/

/-- What a request asks for. -/
inductive Operation where
  | get (key : Bytes)
  | set (key : Bytes) (value : Option Bytes)
  | del (key : Bytes)
  | unknown

/-- The values by their keys.  A value may be null. -/
abbrev Values : Type := Bytes → Option (Option Bytes)

/-- Reads a request.  A key is not null and not empty. -/
def operation : RespValue → Operation
  | .array [.bulkString (some name), .bulkString (some key)] =>
    if key = [] then .unknown
    else if name = ascii "GET" then .get key
    else if name = ascii "DEL" then .del key
    else .unknown
  | .array [.bulkString (some name), .bulkString (some key), .bulkString value] =>
    if key = [] then .unknown
    else if name = ascii "SET" then .set key value
    else .unknown
  | _ => .unknown

/-- The reply to an operation, and the values it leaves. -/
def perform (m : Values) : Operation → RespValue × Values
  | .get key => (.bulkString (m key).join, m)
  | .set key value => (.simpleString (ascii "OK"), Function.update m key (some value))
  | .del key => (.integer 1, Function.update m key none)
  | .unknown => (.simpleError (ascii "Unknown subcommand or command"), m)

section Operations

variable {request : RespValue} {key : Bytes} {value : Option Bytes}

/-- What is read as GET is a GET with a key.
SOURCE: OneArgRequest.cpp:51-75, SetRequest.cpp:46-73, command.h:28-49 -/
theorem operation_eq_get (h : operation request = .get key) :
    key ≠ [] ∧ request = withKey (ascii "GET") key := by
  unfold operation at h
  split at h
  · split_ifs at h with hkey hname
    cases h
    exact ⟨hkey, by rw [hname, withKey]⟩
  · split_ifs at h
  · cases h

/-- What is read as DEL is a DEL with a key.
SOURCE: OneArgRequest.cpp:51-75, SetRequest.cpp:46-73, command.h:28-49 -/
theorem operation_eq_del (h : operation request = .del key) :
    key ≠ [] ∧ request = withKey (ascii "DEL") key := by
  unfold operation at h
  split at h
  · split_ifs at h with hkey hget hname
    cases h
    exact ⟨hkey, by rw [hname, withKey]⟩
  · split_ifs at h
  · cases h

/-- What is read as SET is a SET with a key and a value.
SOURCE: OneArgRequest.cpp:51-75, SetRequest.cpp:46-73, command.h:28-49 -/
theorem operation_eq_set (h : operation request = .set key value) :
    key ≠ [] ∧ request = withKeyAndValue (ascii "SET") key value := by
  unfold operation at h
  split at h
  · split_ifs at h
  · split_ifs at h with hkey hname
    cases h
    exact ⟨hkey, by rw [hname, withKeyAndValue]⟩
  · cases h

/-- A GET with a key is read as one.
SOURCE: OneArgRequest.cpp:51-75, SetRequest.cpp:46-73, command.h:28-49 -/
theorem operation_get (hkey : key ≠ []) : operation (withKey (ascii "GET") key) = .get key := by
  rw [withKey, operation, if_neg hkey, if_pos rfl]

/-- A DEL with a key is read as one.
SOURCE: OneArgRequest.cpp:51-75, SetRequest.cpp:46-73, command.h:28-49 -/
theorem operation_del (hkey : key ≠ []) : operation (withKey (ascii "DEL") key) = .del key := by
  rw [withKey, operation, if_neg hkey, if_neg (by decide), if_pos rfl]

/-- A SET with a key and a value is read as one.
SOURCE: OneArgRequest.cpp:51-75, SetRequest.cpp:46-73, command.h:28-49 -/
theorem operation_set (hkey : key ≠ []) :
    operation (withKeyAndValue (ascii "SET") key value) = .set key value := by
  rw [withKeyAndValue, operation, if_neg hkey, if_pos rfl]

end Operations

/-- An array whose first element is the bulk string SET, GET or DEL. -/
def SharedCommand (request : RespValue) : Prop :=
  ∃ name rest, name ∈ [ascii "SET", ascii "GET", ascii "DEL"] ∧
    request = .array (.bulkString (some name) :: rest)

/-! ## v1 -/

section V1

variable {request : RespValue} {name : Bytes} {handler : V1.Handler}

/-- The handlers of v1 but the last, each with the name of its requests. -/
def handlersOfV1 : List (Bytes × V1.Handler) :=
  [(ascii "GET", .get), (ascii "SET", .set), (ascii "DEL", .del),
    (ascii "SUBSCRIBE", .subscribe), (ascii "PUBLISH", .publish),
    (ascii "UNSUBSCRIBE", .unsubscribe)]

/-- A handler of v1 accepts only requests with its name.
SOURCE: ServerApp.cpp:47-57 -/
theorem handlersOfV1_names (hmem : (name, handler) ∈ handlersOfV1)
    (h : handler.isHandler request = true) : commandName request = some name := by
  simp only [handlersOfV1, List.mem_cons, Prod.mk.injEq, List.not_mem_nil, or_false] at hmem
  obtain ⟨rfl, rfl⟩ | ⟨rfl, rfl⟩ | ⟨rfl, rfl⟩ | ⟨rfl, rfl⟩ | ⟨rfl, rfl⟩ | ⟨rfl, rfl⟩ := hmem
  · obtain ⟨key, -, rfl⟩ := oneArg_isRequest h
    rfl
  · obtain ⟨key, value, -, rfl⟩ := set_isRequest h
    rfl
  · obtain ⟨key, -, rfl⟩ := oneArg_isRequest h
    rfl
  · exact varArg_isRequest h
  · exact publish_isRequest h
  · exact varArg_isRequest h

/-- The loop of `DispatchRequest`, whose last handler accepts everything.
SOURCE: HandlerDispatcher.cpp:16-21 -/
theorem v1_dispatchAmong_eq (shared : V1.Shared) (clientFd : Fd) (hs : List V1.Handler) :
    V1.dispatchAmong shared clientFd request (hs ++ [.unknown]) =
      firstAccepting (fun h => .ok (h.isHandler request))
        (fun h => h.handle shared clientFd request)
        (V1.Handler.unknown.handle shared clientFd request) hs := by
  induction hs with
  | nil => rfl
  | cons h hs ih =>
    rw [List.cons_append, V1.dispatchAmong, ih, firstAccepting]
    rfl

/-- A request goes to the handler with its name, or to the last one.
SOURCE: HandlerDispatcher.cpp:13-22 -/
theorem v1_dispatchRequest_eq (hmem : (name, handler) ∈ handlersOfV1)
    (hname : commandName request = some name) (shared : V1.Shared) (clientFd : Fd) :
    V1.dispatchRequest shared clientFd request =
      if handler.isHandler request then handler.handle shared clientFd request
      else V1.Handler.unknown.handle shared clientFd request := by
  have hhandlers : V1.handlers = handlersOfV1.map Prod.snd ++ [.unknown] := rfl
  rw [V1.dispatchRequest, hhandlers, v1_dispatchAmong_eq,
    firstAccepting_named (by decide) hmem]
  · rfl
  · intro h hmem' hother
    rw [Except.ok.injEq, ← Bool.not_eq_true]
    intro haccepted
    apply hother
    rw [← Option.some_inj, ← hname, handlersOfV1_names hmem' haccepted]

variable {shared : V1.Shared} {m : Values} {key : Bytes}

/-- v1 answers GET with the value, or with the null bulk string.
SOURCE: GetRequestHandler.cpp:11-30 -/
theorem v1_get (h : Chained shared.store.table m) (hkey : key ≠ []) (clientFd : Fd) :
    V1.dispatchRequest shared clientFd (withKey (ascii "GET") key) =
      .ok ([(clientFd, (RespValue.bulkString (m key).join).serialize)], shared) := by
  have hmem : (ascii "GET", V1.Handler.get) ∈ handlersOfV1 := by simp [handlersOfV1]
  have haccepted : V1.Handler.get.isHandler (withKey (ascii "GET") key) = true :=
    oneArg_isRequest_withKey "GET" hkey
  have hlook : shared.store.lookUp key = m key := h.lookUp key
  rw [v1_dispatchRequest_eq hmem rfl, if_pos haccepted]
  simp only [V1.Handler.get, GetRequest.new, oneArg_new _ hkey, Except.mapError]
  cases hvalue : m key with
  | none => simp [hlook, hvalue, bind, Except.bind, pure, Except.pure]
  | some value =>
    cases value with
    | none => simp [hlook, hvalue, bind, Except.bind, pure, Except.pure]
    | some value => simp [hlook, hvalue, bind, Except.bind, pure, Except.pure]

/-- v1 answers SET with `OK` and stores the value.
SOURCE: SetRequestHandler.cpp:6-20 -/
theorem v1_set (h : Chained shared.store.table m) (hkey : key ≠ []) (value : Option Bytes)
    (clientFd : Fd) :
    ∃ shared', V1.dispatchRequest shared clientFd (withKeyAndValue (ascii "SET") key value) =
        .ok ([(clientFd, (RespValue.simpleString (ascii "OK")).serialize)], shared') ∧
      Chained shared'.store.table (Function.update m key (some value)) := by
  have hmem : (ascii "SET", V1.Handler.set) ∈ handlersOfV1 := by simp [handlersOfV1]
  have haccepted : V1.Handler.set.isHandler (withKeyAndValue (ascii "SET") key value) = true :=
    set_isRequest_withKeyAndValue hkey value
  refine ⟨{ shared with store := shared.store.insert key value }, ?_, ?_⟩
  · rw [v1_dispatchRequest_eq hmem rfl, if_pos haccepted]
    simp only [V1.Handler.set, set_new hkey, Except.mapError]
    rfl
  · exact h.insert _ key value

/-- v1 answers DEL with 1 and removes the key.
SOURCE: DelRequestHandler.cpp:7-21 -/
theorem v1_del (h : Chained shared.store.table m) (hkey : key ≠ []) (clientFd : Fd) :
    ∃ shared', V1.dispatchRequest shared clientFd (withKey (ascii "DEL") key) =
        .ok ([(clientFd, (RespValue.integer 1).serialize)], shared') ∧
      Chained shared'.store.table (Function.update m key none) := by
  have hmem : (ascii "DEL", V1.Handler.del) ∈ handlersOfV1 := by simp [handlersOfV1]
  have haccepted : V1.Handler.del.isHandler (withKey (ascii "DEL") key) = true :=
    oneArg_isRequest_withKey "DEL" hkey
  refine ⟨{ shared with store := shared.store.remove key }, ?_, ?_⟩
  · rw [v1_dispatchRequest_eq hmem rfl, if_pos haccepted]
    simp only [V1.Handler.del, DelRequest.new, oneArg_new _ hkey, Except.mapError]
    rfl
  · exact h.remove key

/-- The guards of v1 accept only what `operation` reads.
SOURCE: ServerApp.cpp:47-57, UnknownRequestHandler.cpp:7-16 -/
theorem v1_unknown (hcommand : SharedCommand request) (hunknown : operation request = .unknown)
    (shared : V1.Shared) (clientFd : Fd) :
    V1.dispatchRequest shared clientFd request =
      V1.Handler.unknown.handle shared clientFd request := by
  obtain ⟨name, rest, hname, rfl⟩ := hcommand
  simp only [List.mem_cons, List.not_mem_nil, or_false] at hname
  obtain rfl | rfl | rfl := hname
  · have hmem : (ascii "SET", V1.Handler.set) ∈ handlersOfV1 := by simp [handlersOfV1]
    rw [v1_dispatchRequest_eq hmem rfl, if_neg]
    intro haccepted
    obtain ⟨key, value, hkey, heq⟩ := set_isRequest haccepted
    rw [heq, operation_set hkey] at hunknown
    cases hunknown
  · have hmem : (ascii "GET", V1.Handler.get) ∈ handlersOfV1 := by simp [handlersOfV1]
    rw [v1_dispatchRequest_eq hmem rfl, if_neg]
    intro haccepted
    obtain ⟨key, hkey, heq⟩ := oneArg_isRequest haccepted
    rw [heq, operation_get hkey] at hunknown
    cases hunknown
  · have hmem : (ascii "DEL", V1.Handler.del) ∈ handlersOfV1 := by simp [handlersOfV1]
    rw [v1_dispatchRequest_eq hmem rfl, if_neg]
    intro haccepted
    obtain ⟨key, hkey, heq⟩ := oneArg_isRequest haccepted
    rw [heq, operation_del hkey] at hunknown
    cases hunknown

end V1

/-! ## v2 -/

section V2

variable {request : RespValue} {name : Bytes} {handler : Handler}

/-- The handlers of v2 are those with a name, and the last one.
SOURCE: request_dispatcher.cc:24-54 -/
theorem handlers_eq : handlers = handlersOfV2.map Prod.snd ++ [.unknown] := by rfl

/-- The loop of `Dispatch`, whose last handler accepts everything.
SOURCE: request_dispatcher.cc:57-61 -/
theorem v2_dispatchAmong_eq (store : Store) (now : Int64) (hs : List Handler) :
    dispatchAmong store now request (hs ++ [.unknown]) =
      firstAccepting (fun h => h.isHandler request) (fun h => h.handle store now request)
        (Handler.unknown.handle store now request) hs := by
  induction hs with
  | nil => rfl
  | cons h hs ih => rw [List.cons_append, dispatchAmong, ih, firstAccepting]

/-- A request goes to the handler with its name, or to the last one.
SOURCE: request_dispatcher.cc:56-64 -/
theorem v2_dispatch_eq {own : Bool} (hmem : (name, handler) ∈ handlersOfV2)
    (hname : commandName request = some name) (hown : handler.isHandler request = .ok own)
    (store : Store) (now : Int64) :
    dispatch store now request =
      if own then handler.handle store now request
      else Handler.unknown.handle store now request := by
  rw [dispatch, handlers_eq, v2_dispatchAmong_eq, firstAccepting_named (by decide) hmem]
  · cases own with
    | false => exact firstAccepting_cons_of_rejects hown []
    | true => exact firstAccepting_cons_of_accepts hown []
  · intro h hmem' hother
    apply (handlersOfV2_hasName h hmem').rejects
    intro command hcommand hsame
    rw [parseCommand_eq_some hcommand] at hname
    exact hother (hsame.symm.trans (Option.some.inj hname))

/-- The store holds the values, and nothing in it has a deadline. -/
def HoldsValues (store : Store) (m : Values) : Prop :=
  ∀ key, store.lookUp key = (m key).map fun value => { value := value }

variable {store : Store} {m : Values} {key : Bytes} {now : Int64}

/-- `Get` of a store without deadlines.
SOURCE: store.cc:19-27 -/
theorem HoldsValues.get (h : HoldsValues store m) (now : Int64) (key : Bytes) :
    store.get now key = (m key).join := by
  unfold Store.get
  rw [h key]
  cases m key with
  | none => rfl
  | some value => rfl

/-- `Set` stores a value without a deadline.
SOURCE: store.cc:29-31 -/
theorem HoldsValues.set (h : HoldsValues store m) (key : Bytes) (value : Option Bytes) :
    HoldsValues (store.set key value) (Function.update m key (some value)) := by
  intro key'
  rw [Store.set, lookUp_insert, h key', Function.update_apply]
  split_ifs
  · rfl
  · rfl

/-- `Del` removes the key.
SOURCE: store.cc:33 -/
theorem HoldsValues.del (h : HoldsValues store m) (key : Bytes) :
    HoldsValues (store.del key) (Function.update m key none) := by
  intro key'
  rw [Store.del, lookUp_remove, h key', Function.update_apply]
  split_ifs
  · rfl
  · rfl

/-- A command with a key, as v2 parses it.
SOURCE: command.h:28-49 -/
theorem parseCommand_withKey (hname : name ≠ []) (key : Bytes) :
    parseCommand (withKey name key) = some ⟨name, [some key]⟩ := by
  rw [withKey, parseCommand, if_neg hname]
  rfl

/-- A command with a key and a value, as v2 parses it.
SOURCE: command.h:28-49 -/
theorem parseCommand_withKeyAndValue (hname : name ≠ []) (key : Bytes) (value : Option Bytes) :
    parseCommand (withKeyAndValue name key value) = some ⟨name, [some key, value]⟩ := by
  rw [withKeyAndValue, parseCommand, if_neg hname]
  rfl

/-- The guard of a handler whose first argument is a key, on a command with its name.
SOURCE: command.h:28-49 -/
theorem named_keyAnd {rest : List (Option Bytes)}
    (hcommand : parseCommand request = some ⟨name, some key :: rest⟩) (hkey : key ≠ []) :
    Handler.named name (Handler.keyAnd (rest.length + 1)) request = .ok true := by
  rw [Handler.named, hcommand]
  cases key with
  | nil => exact absurd rfl hkey
  | cons c key => simp [Handler.keyAnd, Handler.hasKey, index, bind, Except.bind, pure, Except.pure]

/-- v2 answers GET with the value, or with the null bulk string.
SOURCE: get_request_handler.h:29-34 -/
theorem v2_get (h : HoldsValues store m) (hkey : key ≠ []) (now : Int64) :
    dispatch store now (withKey (ascii "GET") key) = .ok (.bulkString (m key).join, store) := by
  have hmem : (ascii "GET", Handler.get) ∈ handlersOfV2 := by simp [handlersOfV2]
  have hcommand : parseCommand (withKey (ascii "GET") key) = some ⟨ascii "GET", [some key]⟩ :=
    parseCommand_withKey (by decide) key
  have haccepted : Handler.get.isHandler (withKey (ascii "GET") key) = .ok true :=
    named_keyAnd hcommand hkey
  rw [v2_dispatch_eq hmem rfl haccepted, if_pos rfl, ← h.get now key]
  simp only [Handler.get, argsOf_eq hcommand]
  rfl

/-- v2 answers SET with `OK` and stores the value.
SOURCE: set_request_handler.h:28-32 -/
theorem v2_set (h : HoldsValues store m) (hkey : key ≠ []) (value : Option Bytes) (now : Int64) :
    ∃ store', dispatch store now (withKeyAndValue (ascii "SET") key value) =
        .ok (.simpleString (ascii "OK"), store') ∧
      HoldsValues store' (Function.update m key (some value)) := by
  have hmem : (ascii "SET", Handler.set) ∈ handlersOfV2 := by simp [handlersOfV2]
  have hcommand : parseCommand (withKeyAndValue (ascii "SET") key value) =
      some ⟨ascii "SET", [some key, value]⟩ :=
    parseCommand_withKeyAndValue (by decide) key value
  have haccepted :
      Handler.set.isHandler (withKeyAndValue (ascii "SET") key value) = .ok true :=
    named_keyAnd hcommand hkey
  refine ⟨store.set key value, ?_, h.set key value⟩
  rw [v2_dispatch_eq hmem rfl haccepted, if_pos rfl]
  simp only [Handler.set, argsOf_eq hcommand]
  rfl

/-- v2 answers DEL with 1 and removes the key.
SOURCE: del_request_handler.h:28-32 -/
theorem v2_del (h : HoldsValues store m) (hkey : key ≠ []) (now : Int64) :
    ∃ store', dispatch store now (withKey (ascii "DEL") key) = .ok (.integer 1, store') ∧
      HoldsValues store' (Function.update m key none) := by
  have hmem : (ascii "DEL", Handler.del) ∈ handlersOfV2 := by simp [handlersOfV2]
  have hcommand : parseCommand (withKey (ascii "DEL") key) = some ⟨ascii "DEL", [some key]⟩ :=
    parseCommand_withKey (by decide) key
  have haccepted : Handler.del.isHandler (withKey (ascii "DEL") key) = .ok true :=
    named_keyAnd hcommand hkey
  refine ⟨store.del key, ?_, h.del key⟩
  rw [v2_dispatch_eq hmem rfl haccepted, if_pos rfl]
  simp only [Handler.del, argsOf_eq hcommand]
  rfl

/-- What a guard for one key accepts is a command with a key.
SOURCE: get_request_handler.h:23-27 -/
theorem named_keyAnd_one (h : Handler.named name (Handler.keyAnd 1) request = .ok true) :
    ∃ key, key ≠ [] ∧ request = withKey name key := by
  obtain ⟨args, hcommand, htest⟩ := named_eq_true h
  obtain ⟨key, rfl⟩ := keyAnd_one_eq_true htest
  refine ⟨key, ?_, parseCommand_eq_some hcommand⟩
  rintro rfl
  cases htest

/-- What a guard for a key and a value accepts is a command with both.
SOURCE: set_request_handler.h:22-26 -/
theorem named_keyAnd_two (h : Handler.named name (Handler.keyAnd 2) request = .ok true) :
    ∃ key value, key ≠ [] ∧ request = withKeyAndValue name key value := by
  obtain ⟨args, hcommand, htest⟩ := named_eq_true h
  obtain ⟨key, value, rfl⟩ := keyAnd_two_eq_true htest
  refine ⟨key, value, ?_, parseCommand_eq_some hcommand⟩
  rintro rfl
  cases htest

/-- A request that the handler with its name does not accept goes to the last one.
SOURCE: request_dispatcher.cc:56-64 -/
theorem v2_rejected {rest : ℕ} (hmem : (name, handler) ∈ handlersOfV2)
    (hname : commandName request = some name)
    (hguard : handler.isHandler = Handler.named name (Handler.keyAnd (rest + 1)))
    (hrejected : handler.isHandler request ≠ .ok true) (store : Store) (now : Int64) :
    dispatch store now request = Handler.unknown.handle store now request := by
  obtain ⟨own, hown⟩ := named_keyAnd_total rest.succ_pos request
  rw [← hguard] at hown
  rw [v2_dispatch_eq hmem hname hown]
  apply if_neg
  rintro rfl
  exact hrejected hown

/-- The guards of v2 accept only what `operation` reads.
SOURCE: request_dispatcher.cc:56-64 -/
theorem v2_unknown (hcommand : SharedCommand request) (hunknown : operation request = .unknown)
    (store : Store) (now : Int64) :
    dispatch store now request = Handler.unknown.handle store now request := by
  obtain ⟨name, rest, hname, rfl⟩ := hcommand
  simp only [List.mem_cons, List.not_mem_nil, or_false] at hname
  obtain rfl | rfl | rfl := hname
  · have hmem : (ascii "SET", Handler.set) ∈ handlersOfV2 := by simp [handlersOfV2]
    apply v2_rejected hmem rfl rfl
    intro haccepted
    obtain ⟨key, value, hkey, heq⟩ := named_keyAnd_two haccepted
    rw [heq, operation_set hkey] at hunknown
    cases hunknown
  · have hmem : (ascii "GET", Handler.get) ∈ handlersOfV2 := by simp [handlersOfV2]
    apply v2_rejected hmem rfl rfl
    intro haccepted
    obtain ⟨key, hkey, heq⟩ := named_keyAnd_one haccepted
    rw [heq, operation_get hkey] at hunknown
    cases hunknown
  · have hmem : (ascii "DEL", Handler.del) ∈ handlersOfV2 := by simp [handlersOfV2]
    apply v2_rejected hmem rfl rfl
    intro haccepted
    obtain ⟨key, hkey, heq⟩ := named_keyAnd_one haccepted
    rw [heq, operation_del hkey] at hunknown
    cases hunknown

end V2

/-! ## Runs -/

/-- A request, with who sent it and the clock reading at which it is executed.  v1 does not ask for
the time, and v2 leaves the sending to its caller. -/
structure Arrival where
  clientFd : Fd
  now : Int64
  request : RespValue

/-- v1 sends the replies to a request itself. -/
def serveV1 (shared : V1.Shared) (a : Arrival) :
    Except V1.Failure (List (Fd × Bytes) × V1.Shared) :=
  V1.dispatchRequest shared a.clientFd a.request

/-- v2 returns the reply to a request. -/
def serveV2 (store : Store) (a : Arrival) : Defined (Bytes × Store) := execute store a.now a.request

/-- What both are to do: the bytes of the reply, and the values left. -/
def specifyReply (m : Values) (a : Arrival) : Bytes × Values :=
  let (reply, m) := perform m (operation a.request)
  (reply.serialize, m)

/-- **v1 implements the specification**: its table holds the values, and it sends the replies.
SOURCE: HandlerDispatcher.cpp:13-22, ServerApp.cpp:47-57 -/
theorem v1_implements :
    Implements serveV1 specifyReply (fun a => SharedCommand a.request)
      (fun a reply => [(a.clientFd, reply)]) fun shared m => Chained shared.store.table m := by
  intro shared m a h hcommand
  unfold serveV1 specifyReply
  cases hop : operation a.request with
  | get key =>
    obtain ⟨hkey, heq⟩ := operation_eq_get hop
    rw [heq]
    exact ⟨shared, v1_get h hkey a.clientFd, h⟩
  | set key value =>
    obtain ⟨hkey, heq⟩ := operation_eq_set hop
    rw [heq]
    exact v1_set h hkey value a.clientFd
  | del key =>
    obtain ⟨hkey, heq⟩ := operation_eq_del hop
    rw [heq]
    exact v1_del h hkey a.clientFd
  | unknown => exact ⟨shared, v1_unknown hcommand hop shared a.clientFd, h⟩

/-- `Server::Execute`, where the dispatcher is defined.
SOURCE: server.cc:244-246 -/
theorem execute_of_dispatch {store : Store} {now : Int64} {request : RespValue} {reply : RespValue}
    {related : Store → Prop}
    (h : ∃ store', dispatch store now request = .ok (reply, store') ∧ related store') :
    ∃ store', execute store now request = .ok (reply.serialize, store') ∧ related store' := by
  obtain ⟨store', hdispatch, hrelated⟩ := h
  refine ⟨store', ?_, hrelated⟩
  rw [execute, hdispatch]
  rfl

/-- **v2 implements the specification**: its store holds the values, and it returns the replies.
SOURCE: server.cc:244-246, request_dispatcher.cc:24-64 -/
theorem v2_implements :
    Implements serveV2 specifyReply (fun a => SharedCommand a.request) (fun _ reply => reply)
      HoldsValues := by
  intro store m a h hcommand
  unfold serveV2 specifyReply
  apply execute_of_dispatch
  cases hop : operation a.request with
  | get key =>
    obtain ⟨hkey, heq⟩ := operation_eq_get hop
    rw [heq]
    exact ⟨store, v2_get h hkey a.now, h⟩
  | set key value =>
    obtain ⟨hkey, heq⟩ := operation_eq_set hop
    rw [heq]
    exact v2_set h hkey value a.now
  | del key =>
    obtain ⟨hkey, heq⟩ := operation_eq_del hop
    rw [heq]
    exact v2_del h hkey a.now
  | unknown => exact ⟨store, v2_unknown hcommand hop store a.now, h⟩

/-- **v1 and v2 agree on GET, SET and DEL.**  For all hash functions and from empty stores, v1 sends
to the client of each request one reply, and it has the bytes of the reply of v2.
SOURCE: OneArgRequest.cpp:5-75, SetRequest.cpp:5-73, request_dispatcher.cc:24-64 -/
theorem replies_agree (stringHash : Bytes → ℕ) (intHash : Fd → ℕ) (arrivals : List Arrival)
    (h : ∀ a ∈ arrivals, SharedCommand a.request) :
    ∃ replies : List Bytes, replies.length = arrivals.length ∧
      (∃ shared, serveAll serveV1 (V1.Shared.new stringHash intHash) arrivals =
        .ok (List.zipWith (fun a reply => [(a.clientFd, reply)]) arrivals replies, shared)) ∧
      ∃ store, serveAll serveV2 Store.empty arrivals = .ok (replies, store) := by
  have hlength := length_specifyAll specifyReply (fun _ => none) arrivals
  have hv1 : Chained (V1.Shared.new stringHash intHash).store.table (fun _ => none) :=
    chained_new stringHash
  have hv2 : HoldsValues Store.empty fun _ => none := fun key => lookUp_empty key
  obtain ⟨store, hstore⟩ := v2_implements.serveAll hv2 h
  refine ⟨specifyAll specifyReply (fun _ => none) arrivals, hlength, ?_, store, ?_⟩
  · exact v1_implements.serveAll hv1 h
  · have hsame : List.zipWith (fun _ reply => reply) arrivals
        (specifyAll specifyReply (fun _ => none) arrivals) =
          specifyAll specifyReply (fun _ => none) arrivals := by
      rw [← List.map_uncurry_zip_eq_zipWith]
      exact List.map_snd_zip (le_of_eq hlength)
    rw [hstore, hsame]

/-- A run with a null value, an empty key, an argument too many and one of another type. -/
def mixedRun : List Arrival :=
  [⟨4, 0, withKeyAndValue (ascii "SET") (ascii "k") none⟩,
    ⟨5, 1, withKey (ascii "GET") (ascii "k")⟩, ⟨4, 2, withKey (ascii "GET") []⟩,
    ⟨4, 2, withKeyAndValue (ascii "DEL") (ascii "k") none⟩,
    ⟨5, 3, .array [.bulkString (some (ascii "GET")), .integer 7]⟩]

/-- The replies to a null value, an empty key, an argument too many and one of another type.
SOURCE: HandlerDispatcher.cpp:13-22, server.cc:244-246 -/
theorem replies_agree_mixedRun :
    (∀ a ∈ mixedRun, SharedCommand a.request) ∧
      ∃ replies : List Bytes, replies.length = mixedRun.length ∧
        (∃ shared, serveAll serveV1 (V1.Shared.new List.length id) mixedRun =
          .ok (List.zipWith (fun a reply => [(a.clientFd, reply)]) mixedRun replies, shared)) ∧
        ∃ store, serveAll serveV2 Store.empty mixedRun = .ok (replies, store) := by
  have hshared : ∀ a ∈ mixedRun, SharedCommand a.request := by
    simp only [mixedRun, List.forall_mem_cons]
    refine ⟨⟨ascii "SET", _, by simp, rfl⟩, ⟨ascii "GET", _, by simp, rfl⟩,
      ⟨ascii "GET", _, by simp, rfl⟩, ⟨ascii "DEL", _, by simp, rfl⟩,
      ⟨ascii "GET", _, by simp, rfl⟩, ?_⟩
    exact fun a hmem => absurd hmem List.not_mem_nil
  exact ⟨hshared, replies_agree List.length id mixedRun hshared⟩

end MyRedis.Analysis

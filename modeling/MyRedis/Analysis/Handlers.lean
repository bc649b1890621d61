import MyRedis.Analysis.StoreKeys
import MyRedis.Model.Dispatcher

/-!
# What a handler does

A handler that has accepted a request either answers it without the store (`Answers`) or by
one call on the entry of the key that the request names (`Serves`).  `accepted_cases` says
so for every handler of the dispatcher; it reads the guards of `IsHandler` once, and what
`Handle` dereferences under them.  `dispatch_cases` is the loop of the dispatcher.
-/

set_option autoImplicit false

namespace MyRedis.Analysis

open MyRedis.Model MyRedis.Model.Store

/-! ## Commands -/

/-- Arguments are bulk strings.
SOURCE: command.h:42-47 -/
theorem parseArgs_eq_some {vs : List RespValue} {args : List (Option Bytes)}
    (h : parseArgs vs = some args) : vs = args.map .bulkString := by
  induction vs generalizing args with
  | nil =>
    cases h
    rfl
  | cons v vs ih =>
    cases v with
    | bulkString arg =>
      obtain ⟨rest, hrest, rfl⟩ := Option.map_eq_some_iff.mp h
      rw [List.map_cons, ← ih hrest]
    | simpleString _ => cases h
    | simpleError _ => cases h
    | integer _ => cases h
    | array _ => cases h

/-- A command is an array of bulk strings, the first of them its name.
SOURCE: command.h:28-49 -/
theorem parseCommand_eq_some {request : RespValue} {command : Command}
    (h : parseCommand request = some command) :
    request = .array (.bulkString (some command.name) :: command.args.map .bulkString) := by
  unfold parseCommand at h
  split at h
  · split_ifs at h
    obtain ⟨args, hargs, rfl⟩ := Option.map_eq_some_iff.mp h
    rw [parseArgs_eq_some hargs]
  · cases h

/-! ## The guards -/

section Guards

variable {name : Bytes} {args : List (Option Bytes)} {request : RespValue}

/-- An accepted request has the name of the handler, and arguments that pass its test.
SOURCE: command.h:28-49 -/
theorem named_eq_true {test : List (Option Bytes) → Defined Bool}
    (h : Handler.named name test request = .ok true) :
    ∃ args, parseCommand request = some ⟨name, args⟩ ∧ test args = .ok true := by
  unfold Handler.named at h
  split at h
  · cases h
  · rename_i command hcommand
    split_ifs at h with hname
    · exact ⟨command.args, by rw [hcommand, ← hname], h⟩
    · cases h

/-- The test for a key and a number of arguments is defined, and accepts no others.
SOURCE: get_request_handler.h:23-27, set_request_handler.h:22-26 -/
theorem keyAnd_total (args : List (Option Bytes)) {count : ℕ} (h : 0 < count) :
    ∃ own, Handler.keyAnd count args = .ok own ∧
      (own = true → args.length = count ∧ ∃ key rest, args = some key :: rest) := by
  unfold Handler.keyAnd
  split_ifs with hlength
  · cases args with
    | nil =>
      rw [List.length_nil] at hlength
      omega
    | cons first rest =>
      cases first with
      | none => exact ⟨false, rfl, fun hfalse => absurd hfalse Bool.false_ne_true⟩
      | some key => exact ⟨!key.isEmpty, rfl, fun _ => ⟨hlength, key, rest, rfl⟩⟩
  · exact ⟨false, rfl, fun hfalse => absurd hfalse Bool.false_ne_true⟩

/-- With one argument, it is the key.
SOURCE: get_request_handler.h:23-27 -/
theorem keyAnd_one_eq_true (h : Handler.keyAnd 1 args = .ok true) : ∃ key, args = [some key] := by
  obtain ⟨own, hown, himp⟩ := keyAnd_total args Nat.one_pos
  cases hown.symm.trans h
  obtain ⟨hlength, key, rest, rfl⟩ := himp rfl
  cases List.length_eq_zero_iff.mp (Nat.succ.inj hlength)
  exact ⟨key, rfl⟩

/-- With two, the first is the key.
SOURCE: set_request_handler.h:22-26 -/
theorem keyAnd_two_eq_true (h : Handler.keyAnd 2 args = .ok true) :
    ∃ key value, args = [some key, value] := by
  obtain ⟨own, hown, himp⟩ := keyAnd_total args Nat.two_pos
  cases hown.symm.trans h
  obtain ⟨hlength, key, rest, rfl⟩ := himp rfl
  obtain ⟨value, rfl⟩ := List.length_eq_one_iff.mp (Nat.succ.inj hlength)
  exact ⟨key, value, rfl⟩

/-- The arguments of an expire command with a null option: the test of its option is the one
dereference without a guard. -/
def NullOptionArgs (args : List (Option Bytes)) : Prop :=
  ∃ key value, key ≠ [] ∧ (Handler.parseInteger value).isSome ∧ args = [some key, value, none]

section ExpireArgs

variable {c : UInt8} {key : Bytes} {value : Option Bytes} {ms : Int64} {rest : List (Option Bytes)}

/-- A value that is not a number is not accepted.
SOURCE: expire_request_handler.h:40 -/
theorem expireArgs_of_no_value (h : Handler.parseInteger value = none) :
    Handler.expireArgs (some (c :: key) :: value :: rest) = .ok false := by
  simp [Handler.expireArgs, Handler.hasKey, index, h, bind, Except.bind, pure, Except.pure]

/-- A key and a number are.
SOURCE: expire_request_handler.h:38-41 -/
theorem expireArgs_two (h : Handler.parseInteger value = some ms) :
    Handler.expireArgs [some (c :: key), value] = .ok true := by
  simp [Handler.expireArgs, Handler.hasKey, index, h, bind, Except.bind, pure, Except.pure]

/-- A third argument is dereferenced, and has to be an option.
SOURCE: expire_request_handler.h:42 -/
theorem expireArgs_three (h : Handler.parseInteger value = some ms) (option : Option Bytes) :
    Handler.expireArgs [some (c :: key), value, option] =
      (deref option).map fun option => (toExpireOption option).isSome := by
  cases option <;>
    simp [Handler.expireArgs, Handler.hasKey, index, h, deref, bind, Except.bind, pure,
      Except.pure, Except.map]

end ExpireArgs

/-- What `expireArgs` finds.
SOURCE: expire_request_handler.h:35-43 -/
theorem expireArgs_cases (args : List (Option Bytes)) :
    Handler.expireArgs args = .ok false ∨
      Handler.expireArgs args = .error .emptyOptional ∧ NullOptionArgs args ∨
      Handler.expireArgs args = .ok true ∧ ∃ key value ms rest option,
        args = some key :: value :: rest ∧ Handler.parseInteger value = some ms ∧
          Handler.expireOption args = .ok option := by
  by_cases hlength : args.length = 2 ∨ args.length = 3
  · obtain _ | ⟨_ | (_ | ⟨c, key⟩), _ | ⟨value, rest⟩⟩ := args
    · simp at hlength
    · simp at hlength
    · exact Or.inl (if_pos hlength)
    · simp at hlength
    · exact Or.inl (if_pos hlength)
    · simp at hlength
    · cases hvalue : Handler.parseInteger value with
      | none => exact Or.inl (expireArgs_of_no_value hvalue)
      | some ms =>
        obtain _ | ⟨option, _ | ⟨extra, rest⟩⟩ := rest
        · exact Or.inr (Or.inr ⟨expireArgs_two hvalue, c :: key, value, ms, [], .na, rfl, hvalue,
            rfl⟩)
        · rw [expireArgs_three hvalue option]
          cases option with
          | none =>
            have hsome : (Handler.parseInteger value).isSome = true := by rw [hvalue]; rfl
            exact Or.inr (Or.inl ⟨rfl, c :: key, value, List.cons_ne_nil _ _, hsome, rfl⟩)
          | some option =>
            cases hknown : toExpireOption option with
            | none => exact Or.inl (congrArg Except.ok (congrArg Option.isSome hknown))
            | some known =>
              have hoption : Handler.expireOption [some (c :: key), value, some option] =
                  deref (toExpireOption option) := rfl
              rw [hknown] at hoption
              exact Or.inr (Or.inr ⟨congrArg Except.ok (congrArg Option.isSome hknown), c :: key,
                value, ms, _, known, rfl, hvalue, hoption⟩)
        · simp at hlength
  · exact Or.inl (if_neg hlength)

end Guards

/-! ## Answers and calls -/

/-- The handler answers the request without the store. -/
def Answers (handler : Handler) (request : RespValue) : Prop :=
  ∃ reply, ∀ store now, handler.handle store now request = .ok (reply, store)

/-- How the handlers turn the result of a call into a reply. -/
def replyOf (void : RespValue) (convert : Int64 → Int64) : Result → RespValue
  | .value value => .bulkString value
  | .void => void
  | .bool b => .integer (if b then 1 else 0)
  | .ms n => .integer (convert n)

/-- The handler serves the request by one call on the entry of `k`.  What it computes before
the call may overflow. -/
def Serves (handler : Handler) (request : RespValue) (k : Bytes) : Prop :=
  ∃ (prepare : Int64 → Defined Call) (void : RespValue) (convert : Int64 → Int64),
    (∀ now, prepare now = .error .signedOverflow ∨ ∃ c, prepare now = .ok c ∧ key c = k) ∧
      ∀ store now, handler.handle store now request = prepare now >>= fun c =>
        (store.call now c).map fun r => (replyOf void convert r.1, r.2)

/-- The commands that work on a key. -/
def keyCommands : List Bytes :=
  [ascii "GET", ascii "SET", ascii "DEL", ascii "EXPIRE", ascii "PEXPIRE", ascii "EXPIREAT",
    ascii "PEXPIREAT", ascii "TTL", ascii "PTTL", ascii "PERSIST"]

/-- The request is a command that works on a key, and its first argument is `k`. -/
def names (k : Bytes) (request : RespValue) : Bool :=
  match parseCommand request with
  | none => false
  | some command => keyCommands.contains command.name && command.args.head? == some (some k)

section Calls

variable {request : RespValue} {name k : Bytes}

/-- A handler finds the arguments its guard has seen.
SOURCE: command.h:28-49 -/
theorem argsOf_eq {args : List (Option Bytes)} (h : parseCommand request = some ⟨name, args⟩) :
    Handler.argsOf request = .ok args := by
  rw [Handler.argsOf, h]
  rfl

/-- `Handle` of GET makes one call on its key.
SOURCE: get_request_handler.h:29-34 -/
theorem get_serves (h : parseCommand request = some ⟨name, [some k]⟩) : Serves .get request k := by
  refine ⟨fun _ => .ok (.get k), .bulkString none, id, fun _ => Or.inr ⟨_, rfl, rfl⟩, ?_⟩
  intro store now
  simp only [Handler.get, argsOf_eq h]
  rfl

/-- `Handle` of SET makes one call on its key.
SOURCE: set_request_handler.h:28-32 -/
theorem set_serves {value : Option Bytes}
    (h : parseCommand request = some ⟨name, [some k, value]⟩) : Serves .set request k := by
  refine ⟨fun _ => .ok (.set k value), .simpleString (ascii "OK"), id,
    fun _ => Or.inr ⟨_, rfl, rfl⟩, ?_⟩
  intro store now
  simp only [Handler.set, argsOf_eq h]
  rfl

/-- `Handle` of DEL makes one call on its key.
SOURCE: del_request_handler.h:28-32 -/
theorem del_serves (h : parseCommand request = some ⟨name, [some k]⟩) : Serves .del request k := by
  refine ⟨fun _ => .ok (.del k), .integer 1, id, fun _ => Or.inr ⟨_, rfl, rfl⟩, ?_⟩
  intro store now
  simp only [Handler.del, argsOf_eq h]
  rfl

/-- The call of an expire command, once its arguments are parsed. -/
def expireCall (factor : ℤ) (relative : Bool) (k : Bytes) (ms : Int64) (option : ExpireOption)
    (now : Int64) : Defined Call := do
  let base : Int64 := if relative then now else 0
  let product ← signed64 (ms.toInt * factor)
  let expiry ← signed64 (base.toInt + product.toInt)
  return .expireAt k expiry option

/-- A number fits, or the arithmetic overflows. -/
theorem signed64_cases (n : ℤ) :
    signed64 n = .error .signedOverflow ∨ ∃ m, signed64 n = .ok m := by
  unfold signed64
  split_ifs
  · exact Or.inr ⟨_, rfl⟩
  · exact Or.inl rfl

/-- The call that an expire command makes is one on its key, if the arithmetic does not overflow.
SOURCE: expire_request_handler.h:51-54 -/
theorem expireCall_cases (factor : ℤ) (relative : Bool) (ms : Int64) (option : ExpireOption)
    (now : Int64) : expireCall factor relative k ms option now = .error .signedOverflow ∨
      ∃ c, expireCall factor relative k ms option now = .ok c ∧ key c = k := by
  unfold expireCall
  obtain hproduct | ⟨product, hproduct⟩ := signed64_cases (ms.toInt * factor)
  · rw [hproduct]
    exact Or.inl rfl
  · rw [hproduct]
    simp only [bind, Except.bind]
    obtain hsum | ⟨expiry, hsum⟩ :=
      signed64_cases ((if relative = true then now else 0).toInt + product.toInt)
    · rw [hsum]
      exact Or.inl rfl
    · rw [hsum]
      exact Or.inr ⟨_, rfl, rfl⟩

section Expire

variable {value : Option Bytes} {rest : List (Option Bytes)} {ms : Int64} {option : ExpireOption}
  {handlerName : Bytes} {factor : ℤ} {relative : Bool}

/-- What `ExpireRequestHandler::Handle` does, once its arguments are parsed.
SOURCE: expire_request_handler.h:45-56 -/
theorem handle_expire (h : parseCommand request = some ⟨name, some k :: value :: rest⟩)
    (hms : Handler.parseInteger value = some ms)
    (hoption : Handler.expireOption (some k :: value :: rest) = .ok option) (store : Store)
    (now : Int64) :
    (Handler.expire handlerName factor relative).handle store now request =
      expireCall factor relative k ms option now >>= fun c =>
        (store.call now c).map fun r => (replyOf (.bulkString none) id r.1, r.2) := by
  have hvalue : index (some k :: value :: rest) 1 = .ok value := rfl
  have hkey : Handler.keyOf (some k :: value :: rest) = .ok k := rfl
  simp only [Handler.expire, argsOf_eq h, hvalue, hms, hoption, hkey, deref, expireCall, bind,
    Except.bind]
  cases signed64 (ms.toInt * factor) with
  | error u => rfl
  | ok product =>
    simp only
    cases signed64 ((if relative = true then now else 0).toInt + product.toInt) with
    | error u => rfl
    | ok expiry => rfl

/-- `Handle` of the expire commands makes one call on its key, or overflows.
SOURCE: expire_request_handler.h:45-56 -/
theorem expire_serves (h : parseCommand request = some ⟨name, some k :: value :: rest⟩)
    (hms : Handler.parseInteger value = some ms)
    (hoption : Handler.expireOption (some k :: value :: rest) = .ok option) :
    Serves (.expire handlerName factor relative) request k :=
  ⟨expireCall factor relative k ms option, .bulkString none, id,
    expireCall_cases factor relative ms option, handle_expire h hms hoption⟩

end Expire

/-- `Handle` of TTL and PTTL makes one call on its key.
SOURCE: ttl_request_handler.h:33-39 -/
theorem ttl_serves {handlerName : Bytes} {factor : Int64}
    (h : parseCommand request = some ⟨name, [some k]⟩) :
    Serves (.ttl handlerName factor) request k := by
  refine ⟨fun _ => .ok (.ttl k), .bulkString none,
    fun result => if result < 0 then result else result / factor,
    fun _ => Or.inr ⟨_, rfl, rfl⟩, ?_⟩
  intro store now
  have hkey : Handler.keyOf [some k] = .ok k := rfl
  simp only [Handler.ttl, argsOf_eq h, hkey, Store.call, bind, Except.bind]
  cases store.ttl now k with
  | error u => rfl
  | ok result => rfl

/-- ECHO is answered without the store.
SOURCE: echo_request_handler.h:17-20 -/
theorem echo_answers {arg : Option Bytes} (h : parseCommand request = some ⟨name, [arg]⟩) :
    Answers .echo request := by
  refine ⟨.bulkString arg, ?_⟩
  intro store now
  simp only [Handler.echo, argsOf_eq h]
  rfl

/-- PING is answered without the store.
SOURCE: ping_request_handler.h:18-24 -/
theorem ping_answers {args : List (Option Bytes)} (h : parseCommand request = some ⟨name, args⟩)
    (hlength : args.length ≤ 1) : Answers .ping request := by
  obtain _ | ⟨arg, _ | ⟨extra, rest⟩⟩ := args
  · refine ⟨.simpleString (ascii "PONG"), ?_⟩
    intro store now
    simp only [Handler.ping, argsOf_eq h]
    rfl
  · refine ⟨.bulkString arg, ?_⟩
    intro store now
    simp only [Handler.ping, argsOf_eq h]
    rfl
  · simp at hlength

/-- HELLO is answered without the store.
SOURCE: hello_request_handler.h:21-41 -/
theorem hello_answers {args : List (Option Bytes)} (h : parseCommand request = some ⟨name, args⟩)
    (hlength : args.length ≤ 1) : Answers .hello request := by
  obtain _ | ⟨arg, _ | ⟨extra, rest⟩⟩ := args
  · refine ⟨Handler.helloReply, ?_⟩
    intro store now
    simp only [Handler.hello, argsOf_eq h]
    rfl
  · by_cases harg : arg = some (ascii "2")
    · subst harg
      refine ⟨Handler.helloReply, ?_⟩
      intro store now
      simp only [Handler.hello, argsOf_eq h]
      rfl
    · refine ⟨.simpleError (ascii "NOPROTO unsupported protocol version"), ?_⟩
      intro store now
      have hother : Handler.otherProtocol [arg] = .ok true := by
        show Except.ok (arg != some (ascii "2")) = _
        rw [bne_iff_ne.mpr harg]
      simp only [Handler.hello, argsOf_eq h, hother, bind, Except.bind]
      rfl
  · simp at hlength

/-- `Handle` of PERSIST makes one call on its key.
SOURCE: persist_request_handler.h:30-34 -/
theorem persist_serves (h : parseCommand request = some ⟨name, [some k]⟩) :
    Serves .persist request k := by
  refine ⟨fun _ => .ok (.persist k), .bulkString none, id, fun _ => Or.inr ⟨_, rfl, rfl⟩, ?_⟩
  intro store now
  simp only [Handler.persist, argsOf_eq h]
  rfl

end Calls

/-! ## The handlers of the dispatcher -/

/-- A command on keys names its first argument.
SOURCE: command.h:28-49 -/
theorem names_of_command {request : RespValue} {name k : Bytes} {rest : List (Option Bytes)}
    (h : parseCommand request = some ⟨name, some k :: rest⟩) (hname : name ∈ keyCommands) :
    names k request = true := by
  unfold names
  rw [h]
  simp [hname]

/-- **An accepted request is answered, or served by a call on the key it names.**
SOURCE: request_dispatcher.cc:24-54 -/
theorem accepted_cases {handler : Handler} {request : RespValue} (hhandler : handler ∈ handlers)
    (h : handler.isHandler request = .ok true) :
    Answers handler request ∨ ∃ k, names k request = true ∧ Serves handler request k := by
  simp only [handlers, List.mem_cons, List.not_mem_nil, or_false] at hhandler
  have hkey {name : Bytes} (hname : name ∈ keyCommands)
      (h : Handler.named name (Handler.keyAnd 1) request = .ok true) :
      ∃ k, names k request = true ∧ parseCommand request = some ⟨name, [some k]⟩ := by
    obtain ⟨args, hcommand, htest⟩ := named_eq_true h
    obtain ⟨k, rfl⟩ := keyAnd_one_eq_true htest
    exact ⟨k, names_of_command hcommand hname, hcommand⟩
  have hexpire {name : Bytes} {factor : ℤ} {relative : Bool} (hname : name ∈ keyCommands)
      (h : Handler.named name Handler.expireArgs request = .ok true) :
      ∃ k, names k request = true ∧ Serves (.expire name factor relative) request k := by
    obtain ⟨args, hcommand, htest⟩ := named_eq_true h
    obtain hfalse | ⟨herror, -⟩ | ⟨-, k, value, ms, rest, option, rfl, hms, hoption⟩ :=
      expireArgs_cases args
    · cases hfalse.symm.trans htest
    · cases herror.symm.trans htest
    · exact ⟨k, names_of_command hcommand hname, expire_serves hcommand hms hoption⟩
  rcases hhandler with
    rfl | rfl | rfl | rfl | rfl | rfl | rfl | rfl | rfl | rfl | rfl | rfl | rfl | rfl
  · obtain ⟨k, hnames, hcommand⟩ := hkey (by decide) h
    exact Or.inr ⟨k, hnames, get_serves hcommand⟩
  · obtain ⟨args, hcommand, htest⟩ := named_eq_true h
    obtain ⟨k, value, rfl⟩ := keyAnd_two_eq_true htest
    exact Or.inr ⟨k, names_of_command hcommand (by decide), set_serves hcommand⟩
  · obtain ⟨k, hnames, hcommand⟩ := hkey (by decide) h
    exact Or.inr ⟨k, hnames, del_serves hcommand⟩
  · exact Or.inr (hexpire (by decide) h)
  · exact Or.inr (hexpire (by decide) h)
  · exact Or.inr (hexpire (by decide) h)
  · exact Or.inr (hexpire (by decide) h)
  · obtain ⟨k, hnames, hcommand⟩ := hkey (by decide) h
    exact Or.inr ⟨k, hnames, ttl_serves hcommand⟩
  · obtain ⟨k, hnames, hcommand⟩ := hkey (by decide) h
    exact Or.inr ⟨k, hnames, ttl_serves hcommand⟩
  · obtain ⟨k, hnames, hcommand⟩ := hkey (by decide) h
    exact Or.inr ⟨k, hnames, persist_serves hcommand⟩
  · dsimp only [Handler.echo] at h
    obtain ⟨args, hcommand, htest⟩ := named_eq_true h
    obtain ⟨arg, rfl⟩ := List.length_eq_one_iff.mp (beq_iff_eq.mp (Except.ok.inj htest))
    exact Or.inl (echo_answers hcommand)
  · dsimp only [Handler.ping] at h
    obtain ⟨args, hcommand, htest⟩ := named_eq_true h
    refine Or.inl (ping_answers hcommand ?_)
    have hlength := Except.ok.inj htest
    simp only [Bool.or_eq_true, beq_iff_eq] at hlength
    omega
  · dsimp only [Handler.hello] at h
    obtain ⟨args, hcommand, htest⟩ := named_eq_true h
    exact Or.inl (hello_answers hcommand (of_decide_eq_true (Except.ok.inj htest)))
  · exact Or.inl ⟨_, fun _ _ => rfl⟩

/-- The handler takes only the requests with this name. -/
def HasName (handler : Handler) (name : Bytes) : Prop :=
  ∃ test, handler.isHandler = Handler.named name test

/-- A handler rejects the requests with other names.
SOURCE: command.h:28-49 -/
theorem HasName.rejects {handler : Handler} {name : Bytes} {request : RespValue}
    (h : HasName handler name)
    (hother : ∀ command, parseCommand request = some command → command.name ≠ name) :
    handler.isHandler request = .ok false := by
  obtain ⟨test, htest⟩ := h
  rw [htest, Handler.named]
  cases hcommand : parseCommand request with
  | none => rfl
  | some command => exact if_neg (hother command hcommand)

/-- The handlers of v2 but the last, each with the name of its requests. -/
def handlersOfV2 : List (Bytes × Handler) :=
  [(ascii "GET", .get), (ascii "SET", .set), (ascii "DEL", .del),
    (ascii "EXPIRE", .expire (ascii "EXPIRE") 1000 true),
    (ascii "PEXPIRE", .expire (ascii "PEXPIRE") 1 true),
    (ascii "EXPIREAT", .expire (ascii "EXPIREAT") 1000 false),
    (ascii "PEXPIREAT", .expire (ascii "PEXPIREAT") 1 false),
    (ascii "TTL", .ttl (ascii "TTL") 1000), (ascii "PTTL", .ttl (ascii "PTTL") 1),
    (ascii "PERSIST", .persist), (ascii "ECHO", .echo), (ascii "PING", .ping),
    (ascii "HELLO", .hello)]

/-- Each handler has the name it is listed with.
SOURCE: request_dispatcher.cc:24-54 -/
theorem handlersOfV2_hasName : ∀ h ∈ handlersOfV2, HasName h.2 h.1 := by
  simp only [handlersOfV2, List.forall_mem_cons]
  refine ⟨⟨_, rfl⟩, ⟨_, rfl⟩, ⟨_, rfl⟩, ⟨_, rfl⟩, ⟨_, rfl⟩, ⟨_, rfl⟩, ⟨_, rfl⟩, ⟨_, rfl⟩,
    ⟨_, rfl⟩, ⟨_, rfl⟩, ⟨fun args => .ok (args.length == 1), rfl⟩,
    ⟨fun args => .ok (args.length == 0 || args.length == 1), rfl⟩,
    ⟨fun args => .ok (args.length ≤ 1), rfl⟩, ?_⟩
  exact fun h hmem => absurd hmem List.not_mem_nil

/-- The first ten handlers are those of the commands on keys, in this order.
SOURCE: request_dispatcher.cc:26-48 -/
theorem handlers_hasName : List.Forall₂ HasName (handlers.take 10) keyCommands := by
  refine .cons ⟨_, rfl⟩ (.cons ⟨_, rfl⟩ (.cons ⟨_, rfl⟩ (.cons ⟨_, rfl⟩ (.cons ⟨_, rfl⟩ ?_))))
  exact .cons ⟨_, rfl⟩ (.cons ⟨_, rfl⟩ (.cons ⟨_, rfl⟩ (.cons ⟨_, rfl⟩ (.cons ⟨_, rfl⟩ .nil))))

/-- The loop goes past the handlers with other names.
SOURCE: request_dispatcher.cc:57-61 -/
theorem dispatchAmong_append {hs rest : List Handler} {others : List Bytes} {request : RespValue}
    {command : Command} (h : List.Forall₂ HasName hs others)
    (hcommand : parseCommand request = some command) (hother : command.name ∉ others)
    (store : Store) (now : Int64) :
    dispatchAmong store now request (hs ++ rest) = dispatchAmong store now request rest := by
  induction h with
  | nil => rfl
  | @cons handler name hs others hname _ ih =>
    rw [List.mem_cons, not_or] at hother
    have hreject : handler.isHandler request = .ok false := by
      apply hname.rejects
      intro command' hcommand'
      cases hcommand.symm.trans hcommand'
      exact hother.1
    rw [List.cons_append, dispatchAmong, hreject]
    exact ih hother.2

/-- The loop comes to the handlers behind those with other names.
SOURCE: request_dispatcher.cc:56-64 -/
theorem dispatch_from {request : RespValue} {command : Command} {count : ℕ} {rest : List Handler}
    (hcommand : parseCommand request = some command)
    (hbefore : command.name ∉ keyCommands.take count)
    (hhandlers : handlers = (handlers.take 10).take count ++ rest) (store : Store) (now : Int64) :
    dispatch store now request = dispatchAmong store now request rest := by
  rw [dispatch, hhandlers]
  exact dispatchAmong_append (List.forall₂_take count handlers_hasName) hcommand hbefore store now

/-- A request is handled by the first handler that has its name and accepts it.
SOURCE: request_dispatcher.cc:56-64 -/
theorem dispatch_at {request : RespValue} {command : Command} {count : ℕ} {handler : Handler}
    {rest : List Handler} (hcommand : parseCommand request = some command)
    (hbefore : command.name ∉ keyCommands.take count)
    (hhandlers : handlers = (handlers.take 10).take count ++ handler :: rest)
    (hown : handler.isHandler request = .ok true) (store : Store) (now : Int64) :
    dispatch store now request = handler.handle store now request := by
  rw [dispatch_from hcommand hbefore hhandlers, dispatchAmong, hown]
  rfl

/-- The loop of the dispatcher ends at the first handler that accepts the request, or whose
guard is undefined.
SOURCE: request_dispatcher.cc:57-61 -/
theorem dispatchAmong_cases (hs : List Handler) (request : RespValue) :
    (∃ handler ∈ hs, handler.isHandler request = .ok true ∧
        ∀ store now, dispatchAmong store now request hs = handler.handle store now request) ∨
      (∃ handler ∈ hs, ∃ u, handler.isHandler request = .error u ∧
        ∀ store now, dispatchAmong store now request hs = .error u) ∨
      ∀ handler ∈ hs, handler.isHandler request = .ok false := by
  induction hs with
  | nil => exact Or.inr (Or.inr fun handler hmem => absurd hmem List.not_mem_nil)
  | cons first hs ih =>
    cases hfirst : first.isHandler request with
    | error u =>
      refine Or.inr (Or.inl ⟨first, List.mem_cons_self, u, hfirst, ?_⟩)
      intro store now
      rw [dispatchAmong, hfirst]
      rfl
    | ok own =>
      cases own with
      | true =>
        refine Or.inl ⟨first, List.mem_cons_self, hfirst, ?_⟩
        intro store now
        rw [dispatchAmong, hfirst]
        rfl
      | false =>
        have hskip (store : Store) (now : Int64) :
            dispatchAmong store now request (first :: hs) = dispatchAmong store now request hs := by
          rw [dispatchAmong, hfirst]
          rfl
        obtain ⟨handler, hmem, hown, heq⟩ | ⟨handler, hmem, u, hundefined, heq⟩ | hnone := ih
        · refine Or.inl ⟨handler, List.mem_cons_of_mem _ hmem, hown, ?_⟩
          intro store now
          rw [hskip, heq]
        · refine Or.inr (Or.inl ⟨handler, List.mem_cons_of_mem _ hmem, u, hundefined, ?_⟩)
          intro store now
          rw [hskip, heq]
        · refine Or.inr (Or.inr ?_)
          intro handler hmem
          obtain rfl | hmem := List.mem_cons.mp hmem
          · exact hfirst
          · exact hnone handler hmem

/-- **What the dispatcher does.**  The last handler accepts every request.
SOURCE: request_dispatcher.cc:56-64 -/
theorem dispatch_cases (request : RespValue) :
    (∃ handler ∈ handlers, handler.isHandler request = .ok true ∧
        ∀ store now, dispatch store now request = handler.handle store now request) ∨
      ∃ handler ∈ handlers, ∃ u, handler.isHandler request = .error u ∧
        ∀ store now, dispatch store now request = .error u := by
  obtain hown | hundefined | hnone := dispatchAmong_cases handlers request
  · exact Or.inl hown
  · exact Or.inr hundefined
  · have hlast : Handler.unknown ∈ handlers := by simp [handlers]
    cases hnone _ hlast

end MyRedis.Analysis

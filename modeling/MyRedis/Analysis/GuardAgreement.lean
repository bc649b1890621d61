import MyRedis.Analysis.RequestGuards
import MyRedis.Model.HandlerDispatcher

/-!
# Guards and constructors of v1

The constructor of a GET, SET, DEL or PUBLISH request throws exactly where `IsRequest` returns
false.  `VarArgRequest::IsRequest` does not look at the arguments, and its constructor does: a
SUBSCRIBE or UNSUBSCRIBE with an argument that is null, empty or not a bulk string is accepted by
the guard, and the exception leaves the handler, the dispatcher and the worker thread.
`guards_agree_iff` says that these are the only values on which the two disagree or a handler
throws.
-/

set_option autoImplicit false

namespace MyRedis.Analysis

open MyRedis.Model

/-! ## Types of requests -/

/-- The types of requests of v1. -/
inductive RequestType where
  | get
  | set
  | del
  | publish
  | subscribe
  | unsubscribe
  deriving DecidableEq

/-- `IsRequest` of the type. -/
def RequestType.isRequest (v : RespValue) : RequestType → Bool
  | .get => GetRequest.isRequest v
  | .set => SetRequest.isRequest v
  | .del => DelRequest.isRequest v
  | .publish => PublishRequest.isRequest v
  | .subscribe => SubscribeRequest.isRequest v
  | .unsubscribe => UnsubscribeRequest.isRequest v

/-- What the constructor of the type throws, if it does. -/
def RequestType.construct (v : RespValue) : RequestType → Except StdException Unit
  | .get => (GetRequest.new v).map fun _ => ()
  | .set => (SetRequest.new v).map fun _ => ()
  | .del => (DelRequest.new v).map fun _ => ()
  | .publish => (PublishRequest.new v).map fun _ => ()
  | .subscribe => (SubscribeRequest.new v).map fun _ => ()
  | .unsubscribe => (UnsubscribeRequest.new v).map fun _ => ()

/-- A bulk string that is not null and not empty. -/
def Text (v : RespValue) : Prop := ∃ s, s ≠ [] ∧ v = .bulkString (some s)

/-- If the value is an array that begins with this name, the other elements are texts. -/
def TextArguments (requestType : String) (v : RespValue) : Prop :=
  ∀ args, v = .array (.bulkString (some (ascii requestType)) :: args) → ∀ arg ∈ args, Text arg

/-- The arguments of a type of request whose guard does not look at them are texts. -/
def RequestType.TextArguments (v : RespValue) : RequestType → Prop
  | .subscribe => Analysis.TextArguments "SUBSCRIBE" v
  | .unsubscribe => Analysis.TextArguments "UNSUBSCRIBE" v
  | _ => True

/-! ## Constructors -/

section Constructors

variable {v : RespValue} {requestType : String}

/-- The constructor and the guard of a request with one argument agree.
SOURCE: OneArgRequest.cpp:5-41, 51-75 -/
theorem oneArg_new_iff :
    (∃ r, OneArgRequest.new v requestType = .ok r) ↔
      OneArgRequest.isRequest requestType v = true := by
  constructor
  · rintro ⟨r, h⟩
    unfold OneArgRequest.new at h
    split at h
    · split_ifs at h with hname
      split at h
      · split_ifs at h with hkey
        rw [OneArgRequest.isRequest, hname, hasText_some hkey]
        rfl
      · cases h
      · cases h
    · cases h
  · intro h
    obtain ⟨key, hkey, rfl⟩ := oneArg_isRequest h
    exact ⟨_, oneArg_new requestType hkey⟩

/-- The constructor and the guard of SET agree.
SOURCE: SetRequest.cpp:5-38, 46-73 -/
theorem set_new_iff : (∃ r, SetRequest.new v = .ok r) ↔ SetRequest.isRequest v = true := by
  constructor
  · rintro ⟨r, h⟩
    unfold SetRequest.new at h
    split at h
    · split_ifs at h with hname
      split at h
      · split_ifs at h with hkey
        rw [SetRequest.isRequest, hname, hasText_some hkey]
        rfl
      · cases h
      · cases h
    · cases h
  · intro h
    obtain ⟨key, value, hkey, rfl⟩ := set_isRequest h
    exact ⟨_, set_new hkey value⟩

/-- The constructor and the guard of PUBLISH agree.
SOURCE: PublishRequest.cpp:5-41, 47-79 -/
theorem publish_new_iff :
    (∃ r, PublishRequest.new v = .ok r) ↔ PublishRequest.isRequest v = true := by
  constructor
  · rintro ⟨r, h⟩
    unfold PublishRequest.new at h
    split at h
    · split_ifs at h with hname
      split at h
      · split_ifs at h with hchannel hmessage
        simp only [Bool.not_eq_true, Bool.not_eq_false'] at hchannel hmessage
        rw [PublishRequest.isRequest, hname, hchannel, hmessage]
        rfl
      · cases h
    · cases h
    · cases h
  · intro h
    unfold PublishRequest.isRequest at h
    split at h
    · rename_i publish channel message
      simp only [Bool.and_eq_true] at h
      refine ⟨⟨channel.getD [], message.getD []⟩, ?_⟩
      rw [PublishRequest.new, if_pos h.1.1]
      simp only [h.1.2, h.2]
      rfl
    · cases h

/-- An argument is taken if it is a text.
SOURCE: VarArgRequest.cpp:31-40 -/
theorem arg_iff : (∃ s, VarArgRequest.arg v = .ok s) ↔ Text v := by
  constructor
  · rintro ⟨s, h⟩
    unfold VarArgRequest.arg at h
    split at h
    · rename_i value
      cases htext : hasText value with
      | false => simp [htext] at h
      | true =>
        obtain ⟨c, text, rfl⟩ := hasText_eq_true htext
        exact ⟨c :: text, List.cons_ne_nil c text, rfl⟩
    · cases h
  · rintro ⟨s, hs, rfl⟩
    refine ⟨s, ?_⟩
    simp [VarArgRequest.arg, hasText_some hs]

/-- The loop of the constructor goes through if every argument is a text.
SOURCE: VarArgRequest.cpp:28-41 -/
theorem mapM_arg_iff {vs : List RespValue} :
    (∃ args, vs.mapM VarArgRequest.arg = .ok args) ↔ ∀ v ∈ vs, Text v := by
  induction vs with
  | nil => simp [pure, Except.pure]
  | cons v vs ih =>
    rw [List.forall_mem_cons, ← ih, ← arg_iff, List.mapM_cons]
    constructor
    · rintro ⟨args, h⟩
      obtain ⟨s, hs, h⟩ := bind_eq_ok.mp h
      obtain ⟨rest, hrest, -⟩ := bind_eq_ok.mp h
      exact ⟨⟨s, hs⟩, rest, hrest⟩
    · rintro ⟨⟨s, hs⟩, rest, hrest⟩
      rw [hs, hrest]
      exact ⟨s :: rest, rfl⟩

/-- The constructor of a request with several arguments asks for texts as well, which its guard does
not.
SOURCE: VarArgRequest.cpp:5-42, 55-70 -/
theorem varArg_new_iff :
    (∃ r, VarArgRequest.new v requestType = .ok r) ↔
      VarArgRequest.isRequest requestType v = true ∧ TextArguments requestType v := by
  constructor
  · rintro ⟨r, h⟩
    unfold VarArgRequest.new at h
    split at h
    · rename_i get first rest
      split_ifs at h with hname
      obtain ⟨args, hargs, -⟩ := bind_eq_ok.mp h
      refine ⟨hname, ?_⟩
      intro args' heq
      cases heq
      exact mapM_arg_iff.mp ⟨args, hargs⟩
    · cases h
  · rintro ⟨h, hargs⟩
    unfold VarArgRequest.isRequest at h
    split at h
    · rename_i get first rest
      cases isText_eq_true h
      obtain ⟨args, hok⟩ := mapM_arg_iff.mpr (hargs _ rfl)
      refine ⟨⟨args⟩, ?_⟩
      rw [VarArgRequest.new, if_pos h, hok]
      rfl
    · cases h

/-- A computation that does not throw has a result. -/
theorem map_unit_eq_ok {α : Type} {x : Except StdException α} :
    x.map (fun _ => ()) = .ok () ↔ ∃ r, x = .ok r := by
  rw [map_eq_ok]
  simp only [and_true]

end Constructors

/-- The constructor of a type does not throw exactly on the values that its guard accepts and whose
arguments are texts, if the guard does not look at them.
SOURCE: OneArgRequest.cpp:5-75, SetRequest.cpp:5-73, PublishRequest.cpp:5-79,
VarArgRequest.cpp:5-70 -/
theorem construct_iff (v : RespValue) (t : RequestType) :
    t.construct v = .ok () ↔ t.isRequest v = true ∧ t.TextArguments v := by
  cases t with
  | get => exact map_unit_eq_ok.trans (oneArg_new_iff.trans (and_iff_left trivial).symm)
  | set => exact map_unit_eq_ok.trans (set_new_iff.trans (and_iff_left trivial).symm)
  | del => exact map_unit_eq_ok.trans (oneArg_new_iff.trans (and_iff_left trivial).symm)
  | publish => exact map_unit_eq_ok.trans (publish_new_iff.trans (and_iff_left trivial).symm)
  | subscribe => exact map_unit_eq_ok.trans varArg_new_iff
  | unsubscribe => exact map_unit_eq_ok.trans varArg_new_iff

/-! ## Handlers -/

/-- The handler does not throw. -/
def NoThrow {α : Type} (r : Except V1.Failure α) : Prop := ∀ e, r ≠ .error (.thrown e)

section Handlers

variable {shared : V1.Shared} {clientFd : Fd} {v : RespValue}

/-- A result is no exception. -/
theorem noThrow_ok {α : Type} (a : α) : NoThrow (.ok a) := by
  intro e h
  cases h

/-- A computation does not throw if neither of its two parts does. -/
theorem noThrow_bind {α β : Type} {x : Except V1.Failure α} {f : α → Except V1.Failure β}
    (hx : NoThrow x) (hf : ∀ a, x = .ok a → NoThrow (f a)) : NoThrow (x >>= f) := by
  cases x with
  | error failure =>
    intro e h
    cases h
    exact hx e rfl
  | ok a => exact hf a rfl

/-- Undefined behaviour is no exception.
SOURCE: HandlerDispatcher.cpp:16-21 -/
theorem noThrow_undefined {α : Type} (x : Defined α) : NoThrow (x.mapError .undefined) := by
  intro e h
  cases x with
  | error u => cases h
  | ok a => cases h

/-- A handler that throws nothing after it has constructed the request throws what the constructor
throws.
SOURCE: HandlerDispatcher.cpp:16-21 -/
theorem thrown_iff {α β : Type} {x : Except StdException α} {f : α → Except V1.Failure β}
    (hf : ∀ r, NoThrow (f r)) {e : StdException} :
    (x.mapError .thrown >>= f) = .error (.thrown e) ↔ x.map (fun _ => ()) = .error e := by
  cases x with
  | error e' =>
    constructor
    · intro h
      cases h
      rfl
    · intro h
      cases h
      rfl
  | ok r =>
    constructor
    · exact fun h => absurd h (hf r e)
    · intro h
      cases h

/-- The loop over the channels does not throw.
SOURCE: SubscribeRequestHandler.cpp:21-28, UnsubscribeRequestHandler.cpp:21-28 -/
theorem noThrow_eachChannel (action : Bytes)
    (call : PubSubChannels → Fd → Bytes → Defined (Int32 × PubSubChannels)) (clientFd : Fd)
    (shared : V1.Shared) (channels : List Bytes) :
    NoThrow (V1.Handler.eachChannel action call clientFd shared channels) := by
  induction channels generalizing shared with
  | nil => exact noThrow_ok _
  | cons channel channels ih =>
    apply noThrow_bind (noThrow_undefined _)
    rintro ⟨n, pubSubChannels⟩ -
    apply noThrow_bind (ih _)
    rintro ⟨sent, shared⟩ -
    exact noThrow_ok _

/-- The handler of the type. -/
def RequestType.handler : RequestType → V1.Handler
  | .get => .get
  | .set => .set
  | .del => .del
  | .publish => .publish
  | .subscribe => .subscribe
  | .unsubscribe => .unsubscribe

/-- A handler throws what the constructor of its request throws, and nothing else.
SOURCE: GetRequestHandler.cpp:13, SetRequestHandler.cpp:12, VarArgRequest.cpp:5-42 -/
theorem handle_thrown_iff (t : RequestType) {e : StdException} :
    t.handler.handle shared clientFd v = .error (.thrown e) ↔ t.construct v = .error e := by
  cases t with
  | get =>
    refine thrown_iff fun request => ?_
    cases shared.store.lookUp request.firstArg with
    | none => exact noThrow_ok _
    | some value =>
      cases value with
      | none => exact noThrow_ok _
      | some value => exact noThrow_ok _
  | set => exact thrown_iff fun request => noThrow_ok _
  | del => exact thrown_iff fun request => noThrow_ok _
  | publish =>
    refine thrown_iff fun request => noThrow_bind (noThrow_undefined _) ?_
    rintro ⟨n, sent⟩ -
    exact noThrow_ok _
  | subscribe => exact thrown_iff fun request => noThrow_eachChannel _ _ _ _ _
  | unsubscribe => exact thrown_iff fun request => noThrow_eachChannel _ _ _ _ _

/-- A handler does not throw once its request has been constructed.
SOURCE: HandlerDispatcher.cpp:18 -/
theorem noThrow_handle {t : RequestType} (h : t.construct v = .ok ()) :
    NoThrow (t.handler.handle shared clientFd v) := by
  intro e hthrown
  cases h.symm.trans ((handle_thrown_iff t).mp hthrown)

/-- What `exception` reads off is the exception that was thrown.
SOURCE: HandlerDispatcher.cpp:16-21 -/
theorem exception_iff {α : Type} {x : Except StdException α} {e : StdException} :
    V1.exception x = some e ↔ x.map (fun _ => ()) = .error e := by
  cases x with
  | ok a => exact ⟨fun h => (by cases h), fun h => (by cases h)⟩
  | error e' =>
    simp only [V1.exception, Except.map, Option.some.injEq, Except.error.injEq]

/-- **What leaves the dispatcher** depends only on the request.
SOURCE: HandlerDispatcher.cpp:13-22 -/
theorem dispatchRequest_thrown_iff (shared : V1.Shared) (clientFd : Fd) (v : RespValue)
    {e : StdException} :
    V1.dispatchRequest shared clientFd v = .error (.thrown e) ↔ V1.uncaught v = some e := by
  have hchosen : V1.dispatchRequest shared clientFd v =
      if GetRequest.isRequest v then RequestType.get.handler.handle shared clientFd v
      else if SetRequest.isRequest v then RequestType.set.handler.handle shared clientFd v
      else if DelRequest.isRequest v then RequestType.del.handler.handle shared clientFd v
      else if SubscribeRequest.isRequest v then
        RequestType.subscribe.handler.handle shared clientFd v
      else if PublishRequest.isRequest v then RequestType.publish.handler.handle shared clientFd v
      else if UnsubscribeRequest.isRequest v then
        RequestType.unsubscribe.handler.handle shared clientFd v
      else V1.Handler.unknown.handle shared clientFd v := rfl
  rw [hchosen, V1.uncaught]
  split_ifs
  · exact (handle_thrown_iff .get).trans exception_iff.symm
  · exact (handle_thrown_iff .set).trans exception_iff.symm
  · exact (handle_thrown_iff .del).trans exception_iff.symm
  · exact (handle_thrown_iff .subscribe).trans exception_iff.symm
  · exact (handle_thrown_iff .publish).trans exception_iff.symm
  · exact (handle_thrown_iff .unsubscribe).trans exception_iff.symm
  · exact ⟨fun h => (by cases h), fun h => (by cases h)⟩

/-- The loop of the dispatcher over handlers of types, and the one that accepts everything.
SOURCE: HandlerDispatcher.cpp:16-21 -/
theorem dispatchAmong_types (shared : V1.Shared) (clientFd : Fd) (v : RespValue)
    (ts : List RequestType) :
    (∃ t : RequestType, t.isRequest v = true ∧
        V1.dispatchAmong shared clientFd v (ts.map RequestType.handler ++ [.unknown]) =
          t.handler.handle shared clientFd v) ∨
      V1.dispatchAmong shared clientFd v (ts.map RequestType.handler ++ [.unknown]) =
        V1.Handler.unknown.handle shared clientFd v := by
  induction ts with
  | nil => exact Or.inr rfl
  | cons t ts ih =>
    have hguard : t.handler.isHandler v = t.isRequest v := by cases t <;> rfl
    rw [List.map_cons, List.cons_append, V1.dispatchAmong, hguard]
    by_cases haccepted : t.isRequest v = true
    · rw [if_pos haccepted]
      exact Or.inl ⟨t, haccepted, rfl⟩
    · rw [if_neg haccepted]
      exact ih

/-- The dispatcher runs the handler of a type whose guard accepts the request, or the last one.
SOURCE: HandlerDispatcher.cpp:13-22 -/
theorem dispatchRequest_cases (shared : V1.Shared) (clientFd : Fd) (v : RespValue) :
    (∃ t : RequestType, t.isRequest v = true ∧
        V1.dispatchRequest shared clientFd v = t.handler.handle shared clientFd v) ∨
      V1.dispatchRequest shared clientFd v = V1.Handler.unknown.handle shared clientFd v :=
  dispatchAmong_types shared clientFd v [.get, .set, .del, .subscribe, .publish, .unsubscribe]

end Handlers

/-- A SUBSCRIBE or UNSUBSCRIBE with an argument is accepted.
SOURCE: VarArgRequest.cpp:55-70 -/
theorem textArguments_of_accepted {requestType : String} {v : RespValue}
    (h : VarArgRequest.isRequest requestType v = true → TextArguments requestType v) :
    TextArguments requestType v := by
  rintro args rfl arg hmem
  cases args with
  | nil => cases hmem
  | cons first rest => exact h (isText_bulkString _) (first :: rest) rfl arg hmem

/-- **Guards and constructors agree, and no handler throws, exactly on the values that are no
SUBSCRIBE or UNSUBSCRIBE with an argument that is null, empty or not a bulk string.**
SOURCE: VarArgRequest.cpp:5-70, OneArgRequest.cpp:5-75, PublishRequest.cpp:5-79,
SetRequest.cpp:5-73 -/
theorem guards_agree_iff (v : RespValue) :
    ((∀ t : RequestType, t.isRequest v = true ↔ t.construct v = .ok ()) ∧
        ∀ shared clientFd e, V1.dispatchRequest shared clientFd v ≠ .error (.thrown e)) ↔
      TextArguments "SUBSCRIBE" v ∧ TextArguments "UNSUBSCRIBE" v := by
  constructor
  · rintro ⟨hagree, -⟩
    refine ⟨textArguments_of_accepted ?_, textArguments_of_accepted ?_⟩
    · intro haccepted
      exact ((construct_iff v .subscribe).mp ((hagree .subscribe).mp haccepted)).2
    · intro haccepted
      exact ((construct_iff v .unsubscribe).mp ((hagree .unsubscribe).mp haccepted)).2
  · rintro ⟨hsubscribe, hunsubscribe⟩
    have htexts (t : RequestType) : t.TextArguments v := by
      cases t with
      | subscribe => exact hsubscribe
      | unsubscribe => exact hunsubscribe
      | get => trivial
      | set => trivial
      | del => trivial
      | publish => trivial
    have hagree (t : RequestType) : t.isRequest v = true ↔ t.construct v = .ok () := by
      rw [construct_iff, and_iff_left (htexts t)]
    refine ⟨hagree, ?_⟩
    intro shared clientFd
    obtain ⟨t, haccepted, heq⟩ | heq := dispatchRequest_cases shared clientFd v
    · rw [heq]
      exact noThrow_handle ((hagree t).mp haccepted)
    · rw [heq]
      exact noThrow_ok _

/-- A SUBSCRIBE with a null argument. -/
def nullSubscription : RespValue :=
  .array [.bulkString (some (ascii "SUBSCRIBE")), .bulkString none]

/-- The guard accepts it, the constructor throws, and so does the dispatcher.
SOURCE: VarArgRequest.cpp:37-38, 55-70, HandlerDispatcher.cpp:13-22 -/
theorem nullSubscription_throws :
    RequestType.subscribe.isRequest nullSubscription = true ∧
      RequestType.subscribe.construct nullSubscription =
        .error (.invalidArgument "Empty argument not allowed") ∧
      V1.dispatchRequest (.new (fun _ => 0) (fun _ => 0)) 5 nullSubscription =
        .error (.thrown (.invalidArgument "Empty argument not allowed")) := by
  refine ⟨rfl, rfl, ?_⟩
  rfl

end MyRedis.Analysis

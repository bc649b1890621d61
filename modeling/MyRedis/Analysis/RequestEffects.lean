import MyRedis.Analysis.VersionAgreement

/-!
# What a request may change

A handler that reads leaves the store as it is.  A handler that writes works on the entry of one
key, its first argument; the expire commands and PERSIST write the value back that they have
found, and where they answer 0 they write nothing.  `Confined` says this of what one request does,
and `dispatch_confined` that it holds of every handler the dispatcher may choose.
-/

set_option autoImplicit false

namespace MyRedis.Analysis

open MyRedis.Model MyRedis.Model.Store

/-- The commands that set a deadline or remove it. -/
def deadlineCommands : List Bytes :=
  [ascii "EXPIRE", ascii "PEXPIRE", ascii "EXPIREAT", ascii "PEXPIREAT", ascii "PERSIST"]

/-- The commands that may change the store. -/
def writeCommands : List Bytes := [ascii "SET", ascii "DEL"] ++ deadlineCommands

/-- The first argument of a command. -/
def ownKey (request : RespValue) : Option Bytes :=
  (parseCommand request).bind fun command => command.args.head?.join

/-- The two stores differ at most in the entry of the key. -/
def SameBut (key : Bytes) (store store' : Store) : Prop :=
  ∀ other, other ≠ key → store'.lookUp other = store.lookUp other

/-- The value under the key is the same, or there is none in both. -/
def SameValue (key : Bytes) (store store' : Store) : Prop :=
  (store'.lookUp key).map Entry.value = (store.lookUp key).map Entry.value

/-- The reply says that nothing has been done. -/
def Refusal (reply : RespValue) : Prop :=
  (∃ message, reply = .simpleError message) ∨ reply = .integer 0

/-- What a request with this name may do. -/
structure Confined (name : Bytes) (request reply : RespValue) (store store' : Store) : Prop where
  refused : Refusal reply → store' = store
  reads : name ∉ writeCommands → store' = store
  writes : name ∈ writeCommands → ∃ key, ownKey request = some key ∧ SameBut key store store' ∧
    (name ∈ deadlineCommands → SameValue key store store')

/-! ## Operations of the store -/

section Operations

variable {s s' : Store} {now : Int64} {c : Call} {result : Result}

/-- A call leaves the entries of the other keys.
SOURCE: store.cc:19-94 -/
theorem sameBut_of_call (h : s.call now c = .ok (result, s')) : SameBut (key c) s s' := by
  rw [call_eq] at h
  obtain ⟨⟨_, left⟩, -, heq⟩ := map_eq_ok.mp h
  cases heq
  intro other hne
  rw [lookUp_put, if_neg hne]

/-- `ExpireAt` and `Persist` keep the value, and where they return false the whole entry.
SOURCE: store.cc:39-72, 86-94 -/
theorem callAt_bool {found left : Option Entry} {done : Bool}
    (h : callAt found now c = .ok (.bool done, left)) :
    left.map Entry.value = found.map Entry.value ∧ (done = false → left = found) := by
  cases c with
  | get k => cases h
  | set k value => cases h
  | del k => cases h
  | ttl k =>
    simp only [callAt] at h
    split at h
    · cases h
    · split_ifs at h
      · cases h
      · obtain ⟨remaining, -, hresult⟩ := map_eq_ok.mp h
        cases hresult
  | expireAt k timestampMs option =>
    simp only [callAt] at h
    split at h
    · cases h
      exact ⟨rfl, fun _ => rfl⟩
    · split_ifs at h
      · cases h
        exact ⟨rfl, fun _ => rfl⟩
      · cases h
        exact ⟨rfl, fun hfalse => absurd hfalse.symm Bool.false_ne_true⟩
  | persist k =>
    simp only [callAt] at h
    split at h
    · cases h
      exact ⟨rfl, fun _ => rfl⟩
    · split_ifs at h
      · cases h
        exact ⟨rfl, fun _ => rfl⟩
      · cases h
        exact ⟨rfl, fun _ => rfl⟩
      · cases h
        exact ⟨rfl, fun hfalse => absurd hfalse.symm Bool.false_ne_true⟩

/-- A call that says whether it has done something keeps the value of its key, and changes nothing
where it has not.
SOURCE: store.cc:39-72, 86-94 -/
theorem sameValue_of_call {done : Bool} (h : s.call now c = .ok (.bool done, s')) :
    SameValue (key c) s s' ∧ (done = false → s' = s) := by
  rw [call_eq] at h
  obtain ⟨⟨_, left⟩, hcall, heq⟩ := map_eq_ok.mp h
  cases heq
  obtain ⟨hvalue, hsame⟩ := callAt_bool hcall
  refine ⟨?_, ?_⟩
  · rw [SameValue, lookUp_put, if_pos rfl]
    exact hvalue
  · intro hfalse
    exact put_lookUp (hsame hfalse).symm

end Operations

/-! ## Handlers -/

/-- Whatever the handler does is what a request with this name may do. -/
def ConfinedHandler (name : Bytes) (handler : Handler) : Prop :=
  ∀ store now request reply store', handler.handle store now request = .ok (reply, store') →
    Confined name request reply store store'

section Handlers

variable {name : Bytes} {request reply : RespValue} {store store' : Store} {k : Bytes}

/-- The key a handler takes is the key of the request.
SOURCE: command.h:28-49 -/
theorem ownKey_of_keyOf {args : List (Option Bytes)} (hargs : Handler.argsOf request = .ok args)
    (hkey : Handler.keyOf args = .ok k) : ownKey request = some k := by
  unfold Handler.argsOf at hargs
  obtain ⟨command, hcommand, ⟨⟩⟩ := bind_eq_ok.mp hargs
  cases hparsed : parseCommand request with
  | none =>
    rw [hparsed] at hcommand
    cases hcommand
  | some command' =>
    rw [hparsed] at hcommand
    cases hcommand
    unfold Handler.keyOf at hkey
    obtain ⟨first, hfirst, hderef⟩ := bind_eq_ok.mp hkey
    rw [ownKey, hparsed]
    cases hargs' : command.args with
    | nil =>
      rw [hargs'] at hfirst
      cases hfirst
    | cons arg rest =>
      rw [hargs'] at hfirst
      cases hfirst
      cases first with
      | none => cases hderef
      | some key =>
        cases hderef
        simp [hargs']

/-- A handler that reads.
SOURCE: request_dispatcher.cc:24-64 -/
theorem confined_of_reads (hname : name ∉ writeCommands) (h : store' = store) :
    Confined name request reply store store' :=
  ⟨fun _ => h, fun _ => h, fun hwrites => absurd hwrites hname⟩

/-- GET changes nothing.
SOURCE: get_request_handler.h:29-34 -/
theorem confined_get : ConfinedHandler (ascii "GET") .get := by
  intro store now request reply store' h
  obtain ⟨args, -, h⟩ := bind_eq_ok.mp h
  obtain ⟨key, -, ⟨⟩⟩ := bind_eq_ok.mp h
  exact confined_of_reads (by decide) rfl

/-- TTL and PTTL change nothing.
SOURCE: ttl_request_handler.h:33-39 -/
theorem confined_ttl (hname : name ∉ writeCommands) (factor : Int64) :
    ConfinedHandler name (.ttl name factor) := by
  intro store now request reply store' h
  obtain ⟨args, -, h⟩ := bind_eq_ok.mp h
  obtain ⟨key, -, h⟩ := bind_eq_ok.mp h
  obtain ⟨result, -, ⟨⟩⟩ := bind_eq_ok.mp h
  exact confined_of_reads hname rfl

/-- ECHO changes nothing.
SOURCE: echo_request_handler.h:17-20 -/
theorem confined_echo : ConfinedHandler (ascii "ECHO") .echo := by
  intro store now request reply store' h
  obtain ⟨args, -, h⟩ := bind_eq_ok.mp h
  obtain ⟨arg, -, ⟨⟩⟩ := bind_eq_ok.mp h
  exact confined_of_reads (by decide) rfl

/-- PING changes nothing.
SOURCE: ping_request_handler.h:18-24 -/
theorem confined_ping : ConfinedHandler (ascii "PING") .ping := by
  intro store now request reply store' h
  obtain ⟨args, -, h⟩ := bind_eq_ok.mp h
  split_ifs at h with hlength
  · cases h
    exact confined_of_reads (by decide) rfl
  · obtain ⟨arg, -, ⟨⟩⟩ := bind_eq_ok.mp h
    exact confined_of_reads (by decide) rfl

/-- HELLO changes nothing.
SOURCE: hello_request_handler.h:21-41 -/
theorem confined_hello : ConfinedHandler (ascii "HELLO") .hello := by
  intro store now request reply store' h
  obtain ⟨args, -, h⟩ := bind_eq_ok.mp h
  obtain ⟨other, -, h⟩ := bind_eq_ok.mp h
  split_ifs at h
  · cases h
    exact confined_of_reads (by decide) rfl
  · cases h
    exact confined_of_reads (by decide) rfl

/-- A handler that answers with a success, whatever its call has done.
SOURCE: request_dispatcher.cc:24-64 -/
theorem confined_of_success {now : Int64} {c : Call} {result : Result}
    (hname : name ∈ [ascii "SET", ascii "DEL"]) (hreply : ¬ Refusal reply)
    (hkey : ownKey request = some (key c)) (hcall : store.call now c = .ok (result, store')) :
    Confined name request reply store store' := by
  have hdeadline : ∀ name ∈ [ascii "SET", ascii "DEL"], name ∉ deadlineCommands := by decide
  refine ⟨?_, ?_, ?_⟩
  · intro hrefused
    exact absurd hrefused hreply
  · intro hreads
    exact absurd (List.mem_append_left _ hname) hreads
  · intro _
    exact ⟨key c, hkey, sameBut_of_call hcall, fun h => absurd h (hdeadline name hname)⟩

/-- SET changes its own key.
SOURCE: set_request_handler.h:28-32 -/
theorem confined_set : ConfinedHandler (ascii "SET") .set := by
  intro store now request reply store' h
  obtain ⟨args, hargs, h⟩ := bind_eq_ok.mp h
  obtain ⟨k, hkey, h⟩ := bind_eq_ok.mp h
  obtain ⟨value, -, ⟨⟩⟩ := bind_eq_ok.mp h
  have hcall : store.call now (.set k value) = .ok (.void, store.set k value) := rfl
  exact confined_of_success (c := .set k value) (by decide) (by simp [Refusal])
    (ownKey_of_keyOf hargs hkey) hcall

/-- DEL changes its own key.
SOURCE: del_request_handler.h:28-32 -/
theorem confined_del : ConfinedHandler (ascii "DEL") .del := by
  intro store now request reply store' h
  obtain ⟨args, hargs, h⟩ := bind_eq_ok.mp h
  obtain ⟨k, hkey, ⟨⟩⟩ := bind_eq_ok.mp h
  have hcall : store.call now (.del k) = .ok (.void, store.del k) := rfl
  exact confined_of_success (c := .del k) (by decide) (by simp [Refusal])
    (ownKey_of_keyOf hargs hkey) hcall

/-- A handler that answers by a call which says whether it has done something.
SOURCE: request_dispatcher.cc:24-64 -/
theorem confined_of_done {now : Int64} {c : Call} {done : Bool} (hname : name ∈ deadlineCommands)
    (hkey : ownKey request = some (key c)) (hcall : store.call now c = .ok (.bool done, store')) :
    Confined name request (.integer (if done then 1 else 0)) store store' := by
  obtain ⟨hvalue, hsame⟩ := sameValue_of_call hcall
  refine ⟨?_, ?_, ?_⟩
  · rintro (⟨message, hmessage⟩ | hzero)
    · cases hmessage
    · cases done with
      | false => exact hsame rfl
      | true => exact absurd hzero (by simp)
  · intro hreads
    exact absurd (List.mem_append_right _ hname) hreads
  · intro _
    exact ⟨key c, hkey, sameBut_of_call hcall, fun _ => hvalue⟩

/-- The expire commands change the deadline of their own key, and nothing where they answer 0.
SOURCE: expire_request_handler.h:45-56 -/
theorem confined_expire (hname : name ∈ deadlineCommands) (factor : ℤ) (relative : Bool) :
    ConfinedHandler name (.expire name factor relative) := by
  intro store now request reply store' h
  obtain ⟨args, hargs, h⟩ := bind_eq_ok.mp h
  obtain ⟨arg, -, h⟩ := bind_eq_ok.mp h
  obtain ⟨value, -, h⟩ := bind_eq_ok.mp h
  obtain ⟨option, -, h⟩ := bind_eq_ok.mp h
  obtain ⟨product, -, h⟩ := bind_eq_ok.mp h
  obtain ⟨expiry, -, h⟩ := bind_eq_ok.mp h
  obtain ⟨k, hkey, ⟨⟩⟩ := bind_eq_ok.mp h
  have hcall : store.call now (.expireAt k expiry option) =
      .ok (.bool (store.expireAt k expiry option).1, (store.expireAt k expiry option).2) := rfl
  have hown : ownKey request = some (key (.expireAt k expiry option)) := ownKey_of_keyOf hargs hkey
  exact confined_of_done hname hown hcall

/-- PERSIST changes the deadline of its own key, and nothing where it answers 0.
SOURCE: persist_request_handler.h:30-34 -/
theorem confined_persist : ConfinedHandler (ascii "PERSIST") .persist := by
  intro store now request reply store' h
  obtain ⟨args, hargs, h⟩ := bind_eq_ok.mp h
  obtain ⟨k, hkey, ⟨⟩⟩ := bind_eq_ok.mp h
  have hcall : store.call now (.persist k) =
      .ok (.bool (store.persist now k).1, (store.persist now k).2) := rfl
  have hown : ownKey request = some (key (.persist k)) := ownKey_of_keyOf hargs hkey
  exact confined_of_done (by decide) hown hcall

/-- All handlers do what they may.
SOURCE: request_dispatcher.cc:24-54 -/
theorem handlersOfV2_confined : ∀ h ∈ handlersOfV2, ConfinedHandler h.1 h.2 := by
  simp only [handlersOfV2, List.forall_mem_cons]
  refine ⟨confined_get, confined_set, confined_del, confined_expire (by decide) _ _,
    confined_expire (by decide) _ _, confined_expire (by decide) _ _,
    confined_expire (by decide) _ _, confined_ttl (by decide) _, confined_ttl (by decide) _,
    confined_persist, confined_echo, confined_ping, confined_hello, ?_⟩
  exact fun h hmem => absurd hmem List.not_mem_nil

end Handlers

/-! ## The dispatcher -/

/-- The commands that only read. -/
def readCommands : List Bytes :=
  [ascii "GET", ascii "TTL", ascii "PTTL", ascii "PING", ascii "ECHO", ascii "HELLO"]

/-- An array whose first element is the name of such a command. -/
def ReadCommand (request : RespValue) : Prop :=
  ∃ name rest, name ∈ readCommands ∧ request = .array (.bulkString (some name) :: rest)

section Dispatcher

variable {store store' : Store} {now : Int64} {request reply : RespValue}

/-- No command is in both lists.
SOURCE: request_dispatcher.cc:24-64 -/
theorem readCommands_disjoint : ∀ name ∈ readCommands, name ∉ writeCommands := by decide

/-- A handler with a name accepts only requests with that name.
SOURCE: command.h:28-49 -/
theorem commandName_of_accepted {name : Bytes} {handler : Handler}
    (hmem : (name, handler) ∈ handlersOfV2) (haccepted : handler.isHandler request = .ok true) :
    commandName request = some name := by
  by_contra hother
  have hrejected : handler.isHandler request = .ok false := by
    apply (handlersOfV2_hasName _ hmem).rejects
    rintro command hcommand rfl
    exact hother (by rw [parseCommand_eq_some hcommand, commandName])
  cases hrejected.symm.trans haccepted

/-- What the dispatcher does is what a handler may do that has accepted the request, or nothing.
SOURCE: request_dispatcher.cc:24-64 -/
theorem dispatch_confined (h : dispatch store now request = .ok (reply, store')) :
    store' = store ∨
      ∃ name, commandName request = some name ∧ Confined name request reply store store' := by
  obtain ⟨handler, hmem, haccepted, hhandle⟩ | ⟨handler, -, u, -, hundefined⟩ :=
    dispatch_cases request
  · rw [hhandle] at h
    rw [handlers_eq, List.mem_append] at hmem
    obtain hnamed | hlast := hmem
    · obtain ⟨⟨name, handler'⟩, hpair, rfl⟩ := List.mem_map.mp hnamed
      refine Or.inr ⟨name, commandName_of_accepted hpair haccepted, ?_⟩
      exact handlersOfV2_confined _ hpair _ _ _ _ _ h
    · cases List.mem_singleton.mp hlast
      cases h
      exact Or.inl rfl
  · cases (hundefined store now).symm.trans h

/-- **A request that is refused or only reads changes nothing, and an accepted one at most the entry
of its own key**: the expire commands and PERSIST not its value.
SOURCE: request_dispatcher.cc:24-64, store.cc:29-94 -/
theorem request_effects (h : dispatch store now request = .ok (reply, store')) :
    ((∃ message, reply = .simpleError message) ∨ reply = .integer 0 ∨ ReadCommand request →
        store' = store) ∧
      ∀ name handler, (name, handler) ∈ handlersOfV2 → name ∈ writeCommands →
        handler.isHandler request = .ok true →
          ∃ key, ownKey request = some key ∧
            (∀ other, other ≠ key → store'.lookUp other = store.lookUp other) ∧
            (name ∈ deadlineCommands →
              (store'.lookUp key).map Entry.value = (store.lookUp key).map Entry.value) := by
  constructor
  · intro hquiet
    obtain hsame | ⟨name, hname, hconfined⟩ := dispatch_confined h
    · exact hsame
    · obtain hmessage | hzero | ⟨name', rest, hreads, rfl⟩ := hquiet
      · exact hconfined.refused (Or.inl hmessage)
      · exact hconfined.refused (Or.inr hzero)
      · apply hconfined.reads
        cases hname
        exact readCommands_disjoint name hreads
  · intro name handler hmem hwrites haccepted
    have hname := commandName_of_accepted hmem haccepted
    rw [v2_dispatch_eq hmem hname haccepted, if_pos rfl] at h
    exact (handlersOfV2_confined _ hmem _ _ _ _ _ h).writes hwrites

end Dispatcher

/-- `EXPIRE k 5 XX` on a key without a deadline. -/
def expireIfDeadline : RespValue :=
  .array [.bulkString (some (ascii "EXPIRE")), .bulkString (some (ascii "k")),
    .bulkString (some (ascii "5")), .bulkString (some (ascii "XX"))]

/-- EXPIRE with the option XX, on a key without a deadline.
SOURCE: request_dispatcher.cc:24-64 -/
theorem request_effects_expireIfDeadline :
    dispatch (empty.set (ascii "k") (some (ascii "v"))) 0 expireIfDeadline =
        .ok (.integer 0, empty.set (ascii "k") (some (ascii "v"))) ∧
      ∃ key, ownKey expireIfDeadline = some key := by
  have hdispatch : dispatch (empty.set (ascii "k") (some (ascii "v"))) 0 expireIfDeadline =
      .ok (.integer 0, empty.set (ascii "k") (some (ascii "v"))) := rfl
  have hmem : (ascii "EXPIRE", Handler.expire (ascii "EXPIRE") 1000 true) ∈ handlersOfV2 := by
    simp [handlersOfV2]
  obtain ⟨key, hkey, -⟩ := (request_effects hdispatch).2 _ _ hmem (by decide) rfl
  exact ⟨hdispatch, key, hkey⟩

end MyRedis.Analysis

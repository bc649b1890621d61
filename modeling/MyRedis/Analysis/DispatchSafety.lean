import MyRedis.Analysis.Handlers
import MyRedis.Analysis.RespRoundTrip

/-!
# Where the dispatcher is safe

Every handler checks in `IsHandler` what it dereferences there and in `Handle`, with one
exception: an expire command with three arguments tests its option without asking whether
it is null.  So the dispatcher dereferences an empty optional exactly on an expire command
whose key and time are accepted and whose option is null, and never indexes an argument that
is not there (`dispatch_safe_iff`).
-/

set_option autoImplicit false

namespace MyRedis.Analysis

open MyRedis.Model MyRedis.Model.Store

/-- The names of the expire commands. -/
def expireCommands : List Bytes :=
  [ascii "EXPIRE", ascii "PEXPIRE", ascii "EXPIREAT", ascii "PEXPIREAT"]

/-- The request is an expire command with a key that is not empty, an integer and a null
option. -/
def NullOption (request : RespValue) : Prop :=
  ∃ name ∈ expireCommands, ∃ args, parseCommand request = some ⟨name, args⟩ ∧ NullOptionArgs args

/-- The dispatcher neither dereferences an empty optional nor indexes an argument that is not
there. -/
def SafeDispatch (store : Store) (now : Int64) (request : RespValue) : Prop :=
  dispatch store now request ≠ .error .emptyOptional ∧
    dispatch store now request ≠ .error .indexOutOfBounds

/-! ## The guards -/

section Guards

variable {name : Bytes} {request : RespValue}

/-- A guard is defined if the test of the arguments is.
SOURCE: command.h:28-49 -/
theorem named_total {test : List (Option Bytes) → Defined Bool} (request : RespValue)
    (h : ∀ args, ∃ own, test args = .ok own) :
    ∃ own, Handler.named name test request = .ok own := by
  unfold Handler.named
  split
  · exact ⟨false, rfl⟩
  · rename_i command hcommand
    split_ifs
    · exact h command.args
    · exact ⟨false, rfl⟩

/-- The guards that ask for a key and a number of arguments are defined.
SOURCE: get_request_handler.h:23-27, set_request_handler.h:22-26 -/
theorem named_keyAnd_total {count : ℕ} (hcount : 0 < count) (request : RespValue) :
    ∃ own, Handler.named name (Handler.keyAnd count) request = .ok own := by
  apply named_total
  intro args
  obtain ⟨own, hown, -⟩ := keyAnd_total args hcount
  exact ⟨own, hown⟩

/-- The guards of the expire commands are defined, but for a null option.
SOURCE: expire_request_handler.h:35-43 -/
theorem named_expireArgs_cases (hname : name ∈ expireCommands) (request : RespValue) :
    (∃ own, Handler.named name Handler.expireArgs request = .ok own) ∨ NullOption request := by
  unfold Handler.named
  split
  · exact Or.inl ⟨false, rfl⟩
  · rename_i command hcommand
    split_ifs with heq
    · obtain hfalse | ⟨-, hnull⟩ | ⟨htrue, -⟩ := expireArgs_cases command.args
      · exact Or.inl ⟨false, hfalse⟩
      · exact Or.inr ⟨name, hname, command.args, by rw [hcommand, ← heq], hnull⟩
      · exact Or.inl ⟨true, htrue⟩
    · exact Or.inl ⟨false, rfl⟩

/-- **The guards of all handlers are defined**, but for a null option.
SOURCE: expire_request_handler.h:35-43 -/
theorem isHandler_cases {handler : Handler} (hhandler : handler ∈ handlers) (request : RespValue) :
    (∃ own, handler.isHandler request = .ok own) ∨ NullOption request := by
  simp only [handlers, List.mem_cons, List.not_mem_nil, or_false] at hhandler
  rcases hhandler with
    rfl | rfl | rfl | rfl | rfl | rfl | rfl | rfl | rfl | rfl | rfl | rfl | rfl | rfl
  · exact Or.inl (named_keyAnd_total Nat.one_pos request)
  · exact Or.inl (named_keyAnd_total Nat.two_pos request)
  · exact Or.inl (named_keyAnd_total Nat.one_pos request)
  · exact named_expireArgs_cases (by decide) request
  · exact named_expireArgs_cases (by decide) request
  · exact named_expireArgs_cases (by decide) request
  · exact named_expireArgs_cases (by decide) request
  · exact Or.inl (named_keyAnd_total Nat.one_pos request)
  · exact Or.inl (named_keyAnd_total Nat.one_pos request)
  · exact Or.inl (named_keyAnd_total Nat.one_pos request)
  · dsimp only [Handler.echo]
    exact Or.inl (named_total request fun args => ⟨_, rfl⟩)
  · dsimp only [Handler.ping]
    exact Or.inl (named_total request fun args => ⟨_, rfl⟩)
  · dsimp only [Handler.hello]
    exact Or.inl (named_total request fun args => ⟨_, rfl⟩)
  · exact Or.inl ⟨true, rfl⟩

end Guards

/-! ## What an accepted request can run into -/

/-- In `Ttl` only the subtraction can go wrong.
SOURCE: store.cc:79 -/
theorem ttl_error {s : Store} {now : Int64} {k : Bytes} {u : Undefined}
    (h : s.ttl now k = .error u) : u = .signedOverflow := by
  unfold Store.ttl at h
  split at h
  · cases h
  · rename_i entry hentry
    split_ifs at h
    obtain hoverflow | ⟨m, hm⟩ := signed64_cases (entry.expiry.toInt - now.toInt)
    · rw [hoverflow] at h
      cases h
      rfl
    · rw [hm] at h
      cases h

/-- In no call of the store can anything else go wrong.
SOURCE: store.cc:19-94 -/
theorem call_error {s : Store} {now : Int64} {c : Call} {u : Undefined}
    (h : s.call now c = .error u) : u = .signedOverflow := by
  cases c with
  | get k | set k value | del k | expireAt k timestampMs option | persist k => cases h
  | ttl k =>
    cases httl : s.ttl now k with
    | error v =>
      rw [Store.call, httl] at h
      cases h
      exact ttl_error httl
    | ok ms =>
      rw [Store.call, httl] at h
      cases h

/-- After an accepted guard only arithmetic can go wrong.
SOURCE: expire_request_handler.h:45-56, store.cc:79 -/
theorem handle_error {handler : Handler} {request : RespValue} {store : Store} {now : Int64}
    {u : Undefined} (hhandler : handler ∈ handlers) (hown : handler.isHandler request = .ok true)
    (h : handler.handle store now request = .error u) : u = .signedOverflow := by
  obtain ⟨reply, hanswer⟩ | ⟨k, -, prepare, void, convert, hprepare, hserve⟩ :=
    accepted_cases hhandler hown
  · rw [hanswer] at h
    cases h
  · rw [hserve] at h
    obtain hoverflow | ⟨c, hc, -⟩ := hprepare now
    · rw [hoverflow] at h
      cases h
      rfl
    · rw [hc] at h
      cases hcall : store.call now c with
      | error v =>
        simp only [hcall, bind, Except.bind, Except.map] at h
        cases h
        exact call_error hcall
      | ok r =>
        simp only [hcall, bind, Except.bind, Except.map] at h
        cases h

/-! ## A null option -/

/-- A null option is dereferenced by the guard.
SOURCE: expire_request_handler.h:42 -/
theorem expireArgs_nullOption {args : List (Option Bytes)} (h : NullOptionArgs args) :
    Handler.expireArgs args = .error .emptyOptional := by
  obtain ⟨key, value, hkey, hvalue, rfl⟩ := h
  have hguard : Handler.hasKey [some key, value, none] = .ok true := by
    cases key with
    | nil => exact absurd rfl hkey
    | cons c key => rfl
  have hindex : index [some key, value, none] 1 = .ok value := rfl
  have hlength : [some key, value, none].length = 2 ∨ [some key, value, none].length = 3 :=
    Or.inr rfl
  rw [Handler.expireArgs, if_pos hlength, hguard]
  simp only [bind, Except.bind, hindex, hvalue, if_true]
  rfl

/-- Such a request comes to the guard of its command, and the dispatcher dereferences the null.
SOURCE: request_dispatcher.cc:56-64 -/
theorem dispatch_nullOption {request : RespValue} (h : NullOption request) (store : Store)
    (now : Int64) : dispatch store now request = .error .emptyOptional := by
  obtain ⟨name, hname, args, hcommand, hargs⟩ := h
  have hguard : Handler.named name Handler.expireArgs request = .error .emptyOptional := by
    rw [Handler.named, hcommand]
    simp only [if_true]
    exact expireArgs_nullOption hargs
  have hfirst (count : ℕ) {factor : ℤ} {relative : Bool} {rest : List Handler}
      (hbefore : name ∉ keyCommands.take count)
      (hhandlers : handlers = (handlers.take 10).take count ++
        .expire name factor relative :: rest) :
      dispatch store now request = .error .emptyOptional := by
    rw [dispatch_from hcommand hbefore hhandlers, dispatchAmong]
    dsimp only [Handler.expire]
    rw [hguard]
    rfl
  simp only [expireCommands, List.mem_cons, List.not_mem_nil, or_false] at hname
  rcases hname with rfl | rfl | rfl | rfl
  · exact hfirst 3 (by decide) rfl
  · exact hfirst 4 (by decide) rfl
  · exact hfirst 5 (by decide) rfl
  · exact hfirst 6 (by decide) rfl

/-- **Where the dispatcher is safe**: on every request that is not an expire command with a
null option.
SOURCE: expire_request_handler.h:35-43, request_dispatcher.cc:56-64 -/
theorem dispatch_safe_iff (store : Store) (now : Int64) (request : RespValue) :
    SafeDispatch store now request ↔ ¬ NullOption request := by
  constructor
  · intro hsafe hnull
    exact hsafe.1 (dispatch_nullOption hnull store now)
  · intro hnull
    obtain ⟨handler, hmem, hown, heq⟩ | ⟨handler, hmem, u, hundefined, -⟩ := dispatch_cases request
    · have honly {u : Undefined} (hu : dispatch store now request = .error u) :
          u = .signedOverflow := by
        rw [heq] at hu
        exact handle_error hmem hown hu
      refine ⟨?_, ?_⟩
      · intro hu
        cases honly hu
      · intro hu
        cases honly hu
    · obtain ⟨own, hown⟩ := (isHandler_cases hmem request).resolve_right hnull
      cases hown.symm.trans hundefined

/-- `EXPIRE k 10` with a null bulk string for the option. -/
def expireNull : RespValue :=
  .array [.bulkString (some (ascii "EXPIRE")), .bulkString (some (ascii "k")),
    .bulkString (some (ascii "10")), .bulkString none]

/-- The request can be sent. -/
theorem expireNull_lineSafe : LineSafe expireNull := by
  refine .array fun v hv => ?_
  simp only [List.mem_cons, List.not_mem_nil, or_false] at hv
  rcases hv with rfl | rfl | rfl | rfl
  · exact .bulkString _
  · exact .bulkString _
  · exact .bulkString _
  · exact .bulkString _

/-- Its option is null.
SOURCE: expire_request_handler.h:42 -/
theorem expireNull_nullOption : NullOption expireNull := by
  refine ⟨ascii "EXPIRE", by decide, [some (ascii "k"), some (ascii "10"), none], rfl, ?_⟩
  exact ⟨ascii "k", some (ascii "10"), by decide, by decide, rfl⟩

/-- These 36 bytes of any client make the dispatcher dereference an empty optional.
SOURCE: expire_request_handler.h:42, request_dispatcher.cc:56-64 -/
theorem expireNull_unsafe :
    RespValue.fromString (ascii "*4\r\n$6\r\nEXPIRE\r\n$1\r\nk\r\n$2\r\n10\r\n$-1\r\n") =
        .ok (expireNull, 36) ∧
      ∀ store now, dispatch store now expireNull = .error .emptyOptional := by
  refine ⟨?_, fun store now => dispatch_nullOption expireNull_nullOption store now⟩
  have hbytes : ascii "*4\r\n$6\r\nEXPIRE\r\n$1\r\nk\r\n$2\r\n10\r\n$-1\r\n" =
      expireNull.serialize := by
    decide +kernel
  have hsize : expireNull.serialize.length = 36 := by
    decide +kernel
  have hreadable : Readable expireNull := expireNull_lineSafe.readable (by rw [hsize]; decide)
  have hread := hreadable.decodesAnywhere [] []
  rw [hbytes, fromString_eq]
  simpa [hsize] using hread

end MyRedis.Analysis

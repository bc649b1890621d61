import MyRedis.Analysis.KeyLocality

/-!
# The arithmetic of the expire commands

`ExpireRequestHandler::Handle` multiplies its argument with the unit of the command and adds the
clock for the relative commands, both in `int64_t`; before that nothing is checked but that the
argument is an `int64_t` itself.  `deadline_exact_iff` says which arguments of an accepted request
give the mathematical deadline, for a clock from 0 to `2^62`: in seconds, those of at most
`2^63 / 1000` before or after the base; in milliseconds, those that do not pass the end of
`int64_t` when the clock is added.
-/

set_option autoImplicit false

namespace MyRedis.Analysis

open MyRedis.Model MyRedis.Model.Store

/-- The expire commands, with their unit in milliseconds and whether they count from now.
SOURCE: request_dispatcher.cc:28-41 -/
def expireTable : List (Bytes × ℤ × Bool) :=
  [(ascii "EXPIRE", 1000, true), (ascii "PEXPIRE", 1, true), (ascii "EXPIREAT", 1000, false),
    (ascii "PEXPIREAT", 1, false)]

/-- A request that the handler of an expire command accepts, with what the handler reads from
it. -/
structure ExpireRequest where
  request : RespValue
  name : Bytes
  factor : ℤ
  relative : Bool
  key : Bytes
  argument : Option Bytes
  rest : List (Option Bytes)
  value : Int64
  option : ExpireOption
  known : (name, factor, relative) ∈ expireTable
  command : parseCommand request = some ⟨name, some key :: argument :: rest⟩
  accepted : Handler.expireArgs (some key :: argument :: rest) = .ok true
  parsed : Handler.parseInteger argument = some value
  chosen : Handler.expireOption (some key :: argument :: rest) = .ok option

namespace ExpireRequest

variable (r : ExpireRequest) (now : Int64)

/-- What the deadline counts from. -/
def base : ℤ := if r.relative then now.toInt else 0

/-- The mathematical deadline. -/
def target : ℤ := r.base now + r.value.toInt * r.factor

/-- The dispatcher gives the deadline `d` to `ExpireAt` and replies what it returns. -/
def Gives (d : Int64) : Prop :=
  ∀ store, dispatch store now r.request =
    .ok (.integer (if (store.expireAt r.key d r.option).1 then 1 else 0),
      (store.expireAt r.key d r.option).2)

/-- Product and sum fit `int64_t`. -/
def Fits : Prop :=
  (-2 ^ 63 ≤ r.value.toInt * r.factor ∧ r.value.toInt * r.factor < 2 ^ 63) ∧
    -2 ^ 63 ≤ r.target now ∧ r.target now < 2 ^ 63

/-- Product and sum fit `int64_t`, the deadline given to `ExpireAt` is the mathematical one, and a
smaller argument of the same command does not give a later one. -/
def ExactDeadline : Prop :=
  r.Fits now ∧ ∃ d : Int64, d.toInt = r.target now ∧ r.Gives now d ∧
    ∀ (r' : ExpireRequest) (d' : Int64), r'.name = r.name → r'.value ≤ r.value →
      r'.Gives now d' → d' ≤ d

/-- The argument is between the two bounds of its command. -/
def InBounds : Prop :=
  -(2 ^ 63 / r.factor) ≤ r.value.toInt ∧ r.value.toInt ≤ (2 ^ 63 - 1 - r.base now) / r.factor

end ExpireRequest

/-- Every request that the handler of an expire command accepts is such a request.
SOURCE: expire_request_handler.h:35-43 -/
theorem exists_expireRequest {request : RespValue} {name : Bytes} {factor : ℤ} {relative : Bool}
    (hknown : (name, factor, relative) ∈ expireTable)
    (hown : (Handler.expire name factor relative).isHandler request = .ok true) :
    ∃ r : ExpireRequest, r.request = request ∧ r.name = name := by
  obtain ⟨args, hcommand, haccepted⟩ := named_eq_true hown
  obtain hfalse | ⟨herror, -⟩ | ⟨-, key, argument, value, rest, option, rfl, hparsed, hchosen⟩ :=
    expireArgs_cases args
  · cases hfalse.symm.trans haccepted
  · cases herror.symm.trans haccepted
  · exact ⟨⟨request, name, factor, relative, key, argument, rest, value, option, hknown, hcommand,
      haccepted, hparsed, hchosen⟩, rfl, rfl⟩

/-! ## What the handler gives to `ExpireAt` -/

section Gives

variable {r : ExpireRequest} {now : Int64}

/-- A command has one unit and one base.
SOURCE: request_dispatcher.cc:24-64 -/
theorem ExpireRequest.entry_eq {r' : ExpireRequest} (h : r'.name = r.name) :
    r'.factor = r.factor ∧ r'.relative = r.relative := by
  have hnodup : (expireTable.map Prod.fst).Nodup := by decide
  have hentry := List.inj_on_of_nodup_map hnodup r'.known r.known h
  exact Prod.mk.inj (Prod.mk.inj hentry).2

/-- A command counts in seconds or in milliseconds.
SOURCE: request_dispatcher.cc:24-64 -/
theorem ExpireRequest.factor_cases (r : ExpireRequest) : r.factor = 1000 ∨ r.factor = 1 := by
  have hknown := r.known
  simp only [expireTable, List.mem_cons, Prod.mk.injEq, List.not_mem_nil, or_false] at hknown
  omega

/-- The request reaches its handler.
SOURCE: request_dispatcher.cc:24-64 -/
theorem ExpireRequest.dispatch_eq (r : ExpireRequest) (store : Store) (now : Int64) :
    dispatch store now r.request =
      expireCall r.factor r.relative r.key r.value r.option now >>= fun c =>
        (store.call now c).map fun x => (replyOf (.bulkString none) id x.1, x.2) := by
  obtain ⟨request, name, factor, relative, key, argument, rest, value, option, hknown, hcommand,
    haccepted, hparsed, hchosen⟩ := r
  have hown : (Handler.expire name factor relative).isHandler request = .ok true := by
    simp only [Handler.expire, Handler.named, hcommand, if_true, haccepted]
  have hfirst (count : ℕ) {rest' : List Handler} (hbefore : name ∉ keyCommands.take count)
      (hhandlers : handlers = (handlers.take 10).take count ++
        .expire name factor relative :: rest') :
      dispatch store now request = expireCall factor relative key value option now >>= fun c =>
        (store.call now c).map fun x => (replyOf (.bulkString none) id x.1, x.2) := by
    rw [dispatch_at hcommand hbefore hhandlers hown]
    exact handle_expire hcommand hparsed hchosen store now
  simp only [expireTable, List.mem_cons, Prod.mk.injEq, List.not_mem_nil, or_false] at hknown
  rcases hknown with ⟨rfl, rfl, rfl⟩ | ⟨rfl, rfl, rfl⟩ | ⟨rfl, rfl, rfl⟩ | ⟨rfl, rfl, rfl⟩
  · exact hfirst 3 (by decide) rfl
  · exact hfirst 4 (by decide) rfl
  · exact hfirst 5 (by decide) rfl
  · exact hfirst 6 (by decide) rfl

/-- What the value is added to, as a number.
SOURCE: expire_request_handler.h:51 -/
theorem ExpireRequest.base_eq (r : ExpireRequest) (now : Int64) :
    (if r.relative = true then now else 0).toInt = r.base now := by
  unfold ExpireRequest.base
  split_ifs
  · rfl
  · rfl

/-- Where the product and the sum fit, the handler stores the exact deadline.
SOURCE: expire_request_handler.h:45-56 -/
theorem ExpireRequest.gives_of_fits (h : r.Fits now) :
    ∃ d : Int64, d.toInt = r.target now ∧ r.Gives now d := by
  obtain ⟨hproduct, hsum⟩ := h
  have hproduct' := Int64.toInt_ofInt_of_le hproduct.1 hproduct.2
  have hsum' := Int64.toInt_ofInt_of_le hsum.1 hsum.2
  refine ⟨Int64.ofInt (r.target now), hsum', ?_⟩
  have hcall : expireCall r.factor r.relative r.key r.value r.option now =
      .ok (.expireAt r.key (Int64.ofInt (r.target now)) r.option) := by
    have hsigned : signed64 (r.base now + r.value.toInt * r.factor) =
        .ok (Int64.ofInt (r.target now)) := signed64_eq_ok.mpr hsum'
    simp only [expireCall, signed64_eq_ok.mpr hproduct', bind, Except.bind, r.base_eq, hproduct',
      hsigned]
    rfl
  intro store
  rw [r.dispatch_eq, hcall]
  rfl

/-- A deadline is given only where the product and the sum fit.
SOURCE: expire_request_handler.h:52 -/
theorem ExpireRequest.fits_of_gives {d : Int64} (h : r.Gives now d) : r.Fits now := by
  have hempty := h empty
  rw [r.dispatch_eq] at hempty
  obtain ⟨c, hcall, -⟩ := bind_eq_ok.mp hempty
  obtain ⟨product, hproduct, hcall⟩ := bind_eq_ok.mp hcall
  obtain ⟨sum, hsum, -⟩ := bind_eq_ok.mp hcall
  rw [signed64_eq_ok] at hproduct hsum
  rw [r.base_eq, hproduct] at hsum
  constructor
  · rw [← hproduct]
    exact int64_range product
  · rw [ExpireRequest.target, ← hsum]
    exact int64_range sum

/-- Two deadlines that are both given are equal, if some entry accepts the first.
SOURCE: expire_request_handler.h:45-56 -/
theorem ExpireRequest.eq_of_accepted {d d' : Int64} (h : r.Gives now d) (h' : r.Gives now d')
    (entry : Entry) (haccepts : r.option.refuses entry d = false) : d = d' := by
  have hlook : (empty.insert r.key entry).lookUp r.key = some entry := by
    rw [lookUp_insert, if_pos rfl]
  have hsame := Except.ok.inj ((h (empty.insert r.key entry)).symm.trans
    (h' (empty.insert r.key entry)))
  have hcall : (empty.insert r.key entry).expireAt r.key d r.option =
      (true, (empty.insert r.key entry).insert r.key { entry with expiry := d }) := by
    simp [expireAt, hlook, haccepts]
  cases hrefuses : r.option.refuses entry d' with
  | true =>
    have hcall' : (empty.insert r.key entry).expireAt r.key d' r.option =
        (false, empty.insert r.key entry) := by
      simp [expireAt, hlook, hrefuses]
    rw [hcall, hcall'] at hsame
    cases (Prod.mk.inj hsame).1
  | false =>
    have hcall' : (empty.insert r.key entry).expireAt r.key d' r.option =
        (true, (empty.insert r.key entry).insert r.key { entry with expiry := d' }) := by
      simp [expireAt, hlook, hrefuses]
    rw [hcall, hcall'] at hsame
    have hstores := congrArg (fun s : Store => s.lookUp r.key) (Prod.mk.inj hsame).2
    simp only [lookUp_insert, if_true] at hstores
    exact congrArg Entry.expiry (Option.some.inj hstores)

/-- Only one deadline can be given.  Every deadline is accepted by an entry, except the least one
under GT.
SOURCE: expire_request_handler.h:45-56 -/
theorem ExpireRequest.gives_unique {d d' : Int64} (h : r.Gives now d) (h' : r.Gives now d') :
    d = d' := by
  cases hoption : r.option with
  | nx => exact eq_of_accepted h h' { value := none } (by rw [hoption]; rfl)
  | xx => exact eq_of_accepted h h' ⟨0, none⟩ (by rw [hoption]; rfl)
  | lt => exact eq_of_accepted h h' { value := none } (by rw [hoption]; rfl)
  | na => exact eq_of_accepted h h' { value := none } (by rw [hoption]; rfl)
  | gt =>
    have haccepts {d : Int64} (hd : d ≠ Int64.minValue) :
        r.option.refuses ⟨Int64.minValue, none⟩ d = false := by
      have hlt : ¬ d ≤ Int64.minValue := fun hle => hd (Int64.le_antisymm hle (Int64.minValue_le d))
      rw [hoption, ExpireOption.refuses, decide_eq_false hlt]
      rfl
    by_cases hd : d = Int64.minValue
    · by_cases hd' : d' = Int64.minValue
      · rw [hd, hd']
      · exact (eq_of_accepted h' h ⟨Int64.minValue, none⟩ (haccepts hd')).symm
    · exact eq_of_accepted h h' ⟨Int64.minValue, none⟩ (haccepts hd)

end Gives

/-! ## Where the arithmetic is exact -/

section Bounds

variable {r : ExpireRequest} {now : Int64}

/-- With a clock in its range the two conditions come to bounds on the value alone.
SOURCE: expire_request_handler.h:51-52 -/
theorem ExpireRequest.fits_iff_inBounds (hnow : 0 ≤ now.toInt ∧ now.toInt < 2 ^ 62) :
    r.Fits now ↔ r.InBounds now := by
  have hbase : 0 ≤ r.base now ∧ r.base now < 2 ^ 62 := by
    unfold ExpireRequest.base
    split_ifs
    · exact hnow
    · omega
  have hvalue := int64_range r.value
  unfold ExpireRequest.Fits ExpireRequest.InBounds ExpireRequest.target
  rcases r.factor_cases with hfactor | hfactor
  · rw [hfactor]
    omega
  · rw [hfactor]
    omega

/-- **Where the deadline arithmetic is exact**, for a request that the dispatcher accepts and a
clock reading from 0 to `2^62`.
SOURCE: expire_request_handler.h:45-56 -/
theorem deadline_exact_iff (r : ExpireRequest) (now : Int64)
    (hnow : 0 ≤ now.toInt ∧ now.toInt < 2 ^ 62) : r.ExactDeadline now ↔ r.InBounds now := by
  rw [← ExpireRequest.fits_iff_inBounds hnow]
  constructor
  · rintro ⟨hfits, -⟩
    exact hfits
  · intro hfits
    obtain ⟨d, hd, hgives⟩ := ExpireRequest.gives_of_fits hfits
    refine ⟨hfits, d, hd, hgives, ?_⟩
    intro r' d' hname hvalue hgives'
    obtain ⟨d'', hd'', hgives''⟩ :=
      ExpireRequest.gives_of_fits (ExpireRequest.fits_of_gives hgives')
    cases ExpireRequest.gives_unique hgives' hgives''
    obtain ⟨hfactor, hrelative⟩ := ExpireRequest.entry_eq hname
    have hle := Int64.le_iff_toInt_le.mp hvalue
    rw [Int64.le_iff_toInt_le, hd, hd'', ExpireRequest.target, ExpireRequest.target,
      ExpireRequest.base, ExpireRequest.base, hfactor, hrelative]
    rcases r.factor_cases with hunit | hunit
    · rw [hunit]
      omega
    · rw [hunit]
      omega

end Bounds

/-- `EXPIRE k` with an argument that the handler accepts. -/
def expireOf (argument : String) (value : Int64)
    (haccepted : Handler.expireArgs [some (ascii "k"), some (ascii argument)] = .ok true)
    (hparsed : Handler.parseInteger (some (ascii argument)) = some value) : ExpireRequest where
  request := asciiCommand "EXPIRE" ["k", argument]
  name := ascii "EXPIRE"
  factor := 1000
  relative := true
  key := ascii "k"
  argument := some (ascii argument)
  rest := []
  value := value
  option := .na
  known := List.mem_cons_self
  command := rfl
  accepted := haccepted
  parsed := hparsed
  chosen := rfl

/-- `EXPIRE k 10` -/
def expireTen : ExpireRequest := expireOf "10" 10 rfl rfl

/-- EXPIRE by ten seconds at time 5.
SOURCE: expire_request_handler.h:45-56 -/
theorem deadline_exact_iff_expireTen : expireTen.ExactDeadline 5 :=
  (deadline_exact_iff expireTen 5 (by decide)).mpr (by unfold ExpireRequest.InBounds; decide)

/-- `EXPIRE k 9223372036854775807` -/
def expireMax : ExpireRequest := expireOf "9223372036854775807" 9223372036854775807 rfl rfl

/-- **An accepted request whose product overflows.**
SOURCE: expire_request_handler.h:52 -/
theorem expireMax_overflows :
    ¬ expireMax.ExactDeadline 0 ∧
      (Handler.expire (ascii "EXPIRE") 1000 true).isHandler expireMax.request = .ok true ∧
      dispatch empty 0 expireMax.request = .error .signedOverflow := by
  refine ⟨?_, rfl, rfl⟩
  rintro ⟨⟨⟨-, hproduct⟩, -⟩, -⟩
  exact absurd hproduct (by decide)

end MyRedis.Analysis

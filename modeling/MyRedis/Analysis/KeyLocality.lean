import MyRedis.Analysis.Handlers
import MyRedis.Analysis.ReplyFraming

/-!
# A key is served from its own entry

A request that names `k` is answered from the entry of `k` and changes no other entry
(`dispatch_naming`); a request that does not name `k` leaves that entry alone
(`dispatch_others`).  So a run, seen at `k`, is a run of its requests on `k` from a store that
holds nothing else (`dispatchAll_alone`).  After an accepted `SET k` or `DEL k` that store no
longer depends on what was there before, and two runs with the same requests on `k` give the
same replies (`replies_local`).
-/

set_option autoImplicit false

namespace MyRedis.Analysis

open MyRedis.Model MyRedis.Model.Store

/-- The requests of a run that name `k`, with their clock readings. -/
def requestsOn (k : Bytes) (run : List (Int64 × RespValue)) : List (Int64 × RespValue) :=
  run.filter fun r => names k r.2

/-- The replies of a run to the requests that name `k`. -/
def repliesOn (k : Bytes) (run : List (Int64 × RespValue)) (replies : List RespValue) :
    List RespValue :=
  ((run.zip replies).filter fun r => names k r.1.2).map Prod.snd

/-- The store that holds one entry, or none, under `k`. -/
def alone (k : Bytes) (found : Option Entry) : Store := put empty k found

/-! ## One request -/

section Requests

variable {k k' : Bytes} {request : RespValue}

/-- The store that holds nothing but the entry of `k` has that entry.
SOURCE: store.cc:19-94 -/
theorem lookUp_alone (found : Option Entry) : (alone k found).lookUp k = found := by
  rw [alone, lookUp_put, if_pos rfl]

/-- Writing the entry of `k` there leaves such a store.
SOURCE: store.cc:19-94 -/
theorem put_alone (found found' : Option Entry) :
    put (alone k found) k found' = alone k found' := by
  apply Store.ext
  intro key'
  rw [alone, alone, lookUp_put, lookUp_put, lookUp_put]
  split_ifs
  · rfl
  · rfl

/-- A request names one key at most.
SOURCE: command.h:28-49 -/
theorem names_unique (h : names k request = true) (h' : names k' request = true) : k = k' := by
  unfold names at h h'
  cases hcommand : parseCommand request with
  | none =>
    rw [hcommand] at h
    cases h
  | some command =>
    simp only [hcommand, Bool.and_eq_true, beq_iff_eq] at h h'
    exact Option.some.inj (Option.some.inj (h.2.symm.trans h'.2))

/-- What a request does to the entry of the key it names, as a function of the clock reading
and that entry. -/
def ServedBy (k : Bytes) (request : RespValue)
    (serve : Int64 → Option Entry → Defined (RespValue × Option Entry)) : Prop :=
  ∀ store now, dispatch store now request =
    (serve now (store.lookUp k)).map fun r => (r.1, put store k r.2)

/-- A request that is answered without the store is served from any entry.
SOURCE: request_dispatcher.cc:56-64 -/
theorem servedBy_answer {handler : Handler} (hanswers : Answers handler request)
    (hdispatch : ∀ store now, dispatch store now request = handler.handle store now request) :
    ∃ serve, ServedBy k request serve := by
  obtain ⟨reply, hreply⟩ := hanswers
  refine ⟨fun _ found => .ok (reply, found), ?_⟩
  intro store now
  rw [hdispatch, hreply]
  simp only [Except.map, put_lookUp rfl]

/-- A request whose handler makes one call on `k` is served from the entry of `k`.
SOURCE: request_dispatcher.cc:56-64 -/
theorem servedBy_call {handler : Handler} (hserves : Serves handler request k)
    (hdispatch : ∀ store now, dispatch store now request = handler.handle store now request) :
    ∃ serve, ServedBy k request serve := by
  obtain ⟨prepare, void, convert, hprepare, hhandle⟩ := hserves
  refine ⟨fun now found => prepare now >>= fun c =>
    (callAt found now c).map fun r => (replyOf void convert r.1, r.2), ?_⟩
  intro store now
  rw [hdispatch, hhandle]
  obtain hoverflow | ⟨c, hc, rfl⟩ := hprepare now
  · simp only [hoverflow]
    rfl
  · simp only [hc, bind, Except.bind, call_eq]
    cases callAt (store.lookUp (key c)) now c with
    | error u => rfl
    | ok r => rfl

/-- **A request that names `k` is served from the entry of `k`.**
SOURCE: request_dispatcher.cc:56-64 -/
theorem dispatch_naming (h : names k request = true) : ∃ serve, ServedBy k request serve := by
  obtain ⟨handler, hmem, hown, hdispatch⟩ | ⟨handler, hmem, u, hundefined, hdispatch⟩ :=
    dispatch_cases request
  · obtain hanswers | ⟨k', hnames, hserves⟩ := accepted_cases hmem hown
    · exact servedBy_answer hanswers hdispatch
    · cases names_unique h hnames
      exact servedBy_call hserves hdispatch
  · refine ⟨fun _ _ => .error u, ?_⟩
    intro store now
    rw [hdispatch]
    rfl

/-- **A request that does not name `k` leaves the entry of `k` alone.**
SOURCE: request_dispatcher.cc:56-64 -/
theorem dispatch_others (h : names k request = false) {store store' : Store} {now : Int64}
    {reply : RespValue} (hdispatch : dispatch store now request = .ok (reply, store')) :
    store'.lookUp k = store.lookUp k := by
  obtain ⟨handler, hmem, hown, heq⟩ | ⟨handler, hmem, u, hundefined, heq⟩ := dispatch_cases request
  · obtain ⟨reply', hreply⟩ | ⟨k', hnames, hserves⟩ := accepted_cases hmem hown
    · rw [heq, hreply] at hdispatch
      cases hdispatch
      rfl
    · have hne : k ≠ k' := by
        rintro rfl
        cases h.symm.trans hnames
      obtain ⟨serve, hserve⟩ := servedBy_call hserves heq
      rw [hserve] at hdispatch
      obtain ⟨r, -, hpair⟩ := map_eq_ok.mp hdispatch
      cases hpair
      rw [lookUp_put, if_neg hne]
  · rw [heq] at hdispatch
    cases hdispatch

/-- A request that names `k` is answered by the store that holds nothing but the entry of `k`
as by the whole store.
SOURCE: request_dispatcher.cc:56-64 -/
theorem dispatch_alone (h : names k request = true) {store store' : Store} {now : Int64}
    {reply : RespValue} (hdispatch : dispatch store now request = .ok (reply, store')) :
    dispatch (alone k (store.lookUp k)) now request = .ok (reply, alone k (store'.lookUp k)) := by
  obtain ⟨serve, hserve⟩ := dispatch_naming h
  rw [hserve] at hdispatch
  obtain ⟨r, hr, hpair⟩ := map_eq_ok.mp hdispatch
  cases hpair
  rw [hserve, lookUp_alone, hr, lookUp_put, if_pos rfl]
  simp only [Except.map, put_alone]

/-- The key of a command that names `k` is `k`.
SOURCE: command.h:28-49 -/
theorem key_eq {name : Bytes} {rest : List (Option Bytes)} (hnames : names k request = true)
    (hcommand : parseCommand request = some ⟨name, some k' :: rest⟩) : k' = k := by
  unfold names at hnames
  simp only [hcommand, List.head?_cons, Bool.and_eq_true, beq_iff_eq] at hnames
  exact Option.some.inj (Option.some.inj hnames.2)

/-- SET answers and leaves the same, whatever entry it finds.
SOURCE: set_request_handler.h:28-32 -/
theorem dispatch_set (hnames : names k request = true)
    (haccepted : Handler.set.isHandler request = .ok true) (now : Int64) :
    ∃ reply left, ∀ found, dispatch (alone k found) now request = .ok (reply, alone k left) := by
  obtain ⟨args, hcommand, htest⟩ := named_eq_true haccepted
  obtain ⟨k', value, rfl⟩ := keyAnd_two_eq_true htest
  cases key_eq hnames hcommand
  refine ⟨.simpleString (ascii "OK"), some { value := value }, ?_⟩
  intro found
  have hbefore : ascii "SET" ∉ keyCommands.take 1 := by decide
  rw [dispatch_at hcommand hbefore rfl haccepted]
  simp only [Handler.set, argsOf_eq hcommand]
  rw [← put_alone found (some { value := value })]
  rfl

/-- DEL answers and leaves the same, whatever entry it finds.
SOURCE: del_request_handler.h:28-32 -/
theorem dispatch_del (hnames : names k request = true)
    (haccepted : Handler.del.isHandler request = .ok true) (now : Int64) :
    ∃ reply left, ∀ found, dispatch (alone k found) now request = .ok (reply, alone k left) := by
  obtain ⟨args, hcommand, htest⟩ := named_eq_true haccepted
  obtain ⟨k', rfl⟩ := keyAnd_one_eq_true htest
  cases key_eq hnames hcommand
  refine ⟨.integer 1, none, ?_⟩
  intro found
  have hbefore : ascii "DEL" ∉ keyCommands.take 2 := by decide
  rw [dispatch_at hcommand hbefore rfl haccepted]
  simp only [Handler.del, argsOf_eq hcommand]
  rw [← put_alone found none]
  rfl

end Requests

/-! ## Runs -/

section Runs

variable {k : Bytes}

/-- A run goes on from where its first part has ended.
SOURCE: request_dispatcher.cc:56-64 -/
theorem dispatchAll_append {store last : Store} {before run : List (Int64 × RespValue)}
    {replies : List RespValue} (h : dispatchAll store (before ++ run) = .ok (replies, last)) :
    ∃ middle, dispatchAll middle run = .ok (replies.drop before.length, last) := by
  induction before generalizing store replies with
  | nil => exact ⟨store, h⟩
  | cons first before ih =>
    obtain ⟨⟨reply, store₁⟩, -, h⟩ := bind_eq_ok.mp h
    obtain ⟨⟨rest, store₂⟩, hrest, ⟨⟩⟩ := bind_eq_ok.mp h
    exact ih hrest

/-- **A run, seen at one key**: the requests that name it get the same replies from a store
that holds nothing else.
SOURCE: request_dispatcher.cc:56-64 -/
theorem dispatchAll_alone {store last : Store} {run : List (Int64 × RespValue)}
    {replies : List RespValue} (h : dispatchAll store run = .ok (replies, last)) :
    dispatchAll (alone k (store.lookUp k)) (requestsOn k run) =
      .ok (repliesOn k run replies, alone k (last.lookUp k)) := by
  induction run generalizing store replies with
  | nil =>
    cases h
    rfl
  | cons first run ih =>
    obtain ⟨⟨reply, store₁⟩, hreply, h⟩ := bind_eq_ok.mp h
    obtain ⟨⟨rest, store₂⟩, hrest, ⟨⟩⟩ := bind_eq_ok.mp h
    have hrun := ih hrest
    cases hnames : names k first.2 with
    | true =>
      have hrequests : requestsOn k (first :: run) = first :: requestsOn k run :=
        List.filter_cons_of_pos hnames
      have hreplies : repliesOn k (first :: run) (reply :: rest) =
          reply :: repliesOn k run rest := by
        simp [repliesOn, hnames]
      rw [hrequests, hreplies, dispatchAll, dispatch_alone hnames hreply]
      simp only [bind, Except.bind, hrun]
      rfl
    | false =>
      have hrequests : requestsOn k (first :: run) = requestsOn k run :=
        List.filter_cons_of_neg (by simp [hnames])
      have hreplies : repliesOn k (first :: run) (reply :: rest) = repliesOn k run rest := by
        simp [repliesOn, hnames]
      rw [hrequests, hreplies, ← dispatch_others hnames hreply]
      exact hrun

/-- An accepted `SET k` or `DEL k` forgets the entry it finds.
SOURCE: request_dispatcher.cc:56-64 -/
theorem dispatchAll_forgets {first : Int64 × RespValue} (hnames : names k first.2 = true)
    (haccepted : Handler.set.isHandler first.2 = .ok true ∨
      Handler.del.isHandler first.2 = .ok true)
    (found found' : Option Entry) (rest : List (Int64 × RespValue)) :
    dispatchAll (alone k found) (first :: rest) = dispatchAll (alone k found') (first :: rest) := by
  obtain ⟨reply, left, hreply⟩ : ∃ reply left, ∀ found,
      dispatch (alone k found) first.1 first.2 = .ok (reply, alone k left) := by
    obtain hset | hdel := haccepted
    · exact dispatch_set hnames hset first.1
    · exact dispatch_del hnames hdel first.1
  rw [dispatchAll, dispatchAll, hreply, hreply]

/-- **Key locality and history erasure.**  Two runs that process the same requests on `k`, with
the same clock readings, from an accepted `SET k` or `DEL k` on, give the same replies to them.
SOURCE: request_dispatcher.cc:24-64, store.cc:19-94 -/
theorem replies_local (k : Bytes) {store₁ store₂ last₁ last₂ : Store}
    {before₁ before₂ run₁ run₂ : List (Int64 × RespValue)} {replies₁ replies₂ : List RespValue}
    {first : Int64 × RespValue} {rest : List (Int64 × RespValue)}
    (hrun₁ : dispatchAll store₁ (before₁ ++ run₁) = .ok (replies₁, last₁))
    (hrun₂ : dispatchAll store₂ (before₂ ++ run₂) = .ok (replies₂, last₂))
    (hsame₁ : requestsOn k run₁ = first :: rest) (hsame₂ : requestsOn k run₂ = first :: rest)
    (haccepted : Handler.set.isHandler first.2 = .ok true ∨
      Handler.del.isHandler first.2 = .ok true) :
    repliesOn k run₁ (replies₁.drop before₁.length) =
      repliesOn k run₂ (replies₂.drop before₂.length) := by
  obtain ⟨middle₁, hmiddle₁⟩ := dispatchAll_append hrun₁
  obtain ⟨middle₂, hmiddle₂⟩ := dispatchAll_append hrun₂
  have halone₁ := dispatchAll_alone (k := k) hmiddle₁
  have halone₂ := dispatchAll_alone (k := k) hmiddle₂
  have hnames : names k first.2 = true := by
    have hmem : first ∈ requestsOn k run₁ := by
      rw [hsame₁]
      exact List.mem_cons_self
    exact (List.mem_filter.mp hmem).2
  rw [hsame₁, dispatchAll_forgets hnames haccepted _ (middle₂.lookUp k)] at halone₁
  rw [hsame₂] at halone₂
  exact (Prod.mk.inj (Except.ok.inj (halone₁.symm.trans halone₂))).1

end Runs

/-- A command whose name and arguments are ASCII words. -/
def asciiCommand (name : String) (args : List String) : RespValue :=
  .array (.bulkString (some (ascii name)) :: args.map fun arg => .bulkString (some (ascii arg)))

/-- A run with an old value and a deadline under the key, and a ping in between. -/
def agedRun : List (Int64 × RespValue) × List (Int64 × RespValue) :=
  ([(0, asciiCommand "SET" ["k", "old"]), (1, asciiCommand "PEXPIREAT" ["k", "5"])],
    [(2, asciiCommand "SET" ["k", "v"]), (3, asciiCommand "PING" []),
      (9, asciiCommand "TTL" ["k"])])

/-- A run on an empty store with a request on another key in between. -/
def freshRun : List (Int64 × RespValue) × List (Int64 × RespValue) :=
  ([], [(2, asciiCommand "SET" ["k", "v"]), (2, asciiCommand "SET" ["j", "w"]),
    (9, asciiCommand "TTL" ["k"])])

/-- The run in which the key had a deadline before.
SOURCE: request_dispatcher.cc:56-64 -/
theorem agedRun_replies : ∃ last, dispatchAll empty (agedRun.1 ++ agedRun.2) =
    .ok ([.simpleString (ascii "OK"), .integer 1, .simpleString (ascii "OK"),
      .simpleString (ascii "PONG"), .integer (-1)], last) := ⟨_, rfl⟩

/-- The run in which it had none.
SOURCE: request_dispatcher.cc:56-64 -/
theorem freshRun_replies : ∃ last, dispatchAll empty (freshRun.1 ++ freshRun.2) =
    .ok ([.simpleString (ascii "OK"), .simpleString (ascii "OK"), .integer (-1)], last) := ⟨_, rfl⟩

/-- Both runs end with SET and TTL of the key, and get the same replies.
SOURCE: request_dispatcher.cc:56-64 -/
theorem replies_local_setThenTtl :
    requestsOn (ascii "k") agedRun.2 = requestsOn (ascii "k") freshRun.2 ∧
      ∃ replies₁ last₁ replies₂ last₂,
        dispatchAll empty (agedRun.1 ++ agedRun.2) = .ok (replies₁, last₁) ∧
        dispatchAll empty (freshRun.1 ++ freshRun.2) = .ok (replies₂, last₂) ∧
        repliesOn (ascii "k") agedRun.2 (replies₁.drop agedRun.1.length) =
          repliesOn (ascii "k") freshRun.2 (replies₂.drop freshRun.1.length) := by
  obtain ⟨last₁, haged⟩ := agedRun_replies
  obtain ⟨last₂, hfresh⟩ := freshRun_replies
  refine ⟨rfl, _, last₁, _, last₂, haged, hfresh, ?_⟩
  exact replies_local (ascii "k") haged hfresh rfl rfl (Or.inl rfl)

end MyRedis.Analysis

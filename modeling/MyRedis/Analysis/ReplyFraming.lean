import MyRedis.Analysis.PacketBoundaries
import MyRedis.Analysis.RespRoundTrip
import MyRedis.Model.Dispatcher

/-!
# Pipelined replies keep their frames

`Server::ExecuteAndRespond` concatenates the replies to the requests of a batch.  A client
that feeds the result to a `RespValueQueue`, in whatever pieces, gets one value for each
request, the reply to it, and no byte is left (`batch_replies_framed`).

Bytes of a user reach a reply only as the payload of a bulk string, whose length goes
before it; the texts of the simple strings and errors the handlers use are their own
(`dispatch_lineSafe`).
-/

set_option autoImplicit false

namespace MyRedis.Analysis

open MyRedis.Model MyRedis.Model.RespValue MyRedis.Lib

/-! ## The replies of the handlers -/

/-- Whatever a handler answers is safe to send. -/
def SafeReplies (handler : Handler) : Prop :=
  ∀ store now request reply store',
    handler.handle store now request = .ok (reply, store') → LineSafe reply

/-- GET replies with a bulk string.
SOURCE: get_request_handler.h:29-34 -/
theorem get_safeReplies : SafeReplies .get := by
  intro store now request reply store' h
  obtain ⟨args, -, h⟩ := bind_eq_ok.mp h
  obtain ⟨key, -, ⟨⟩⟩ := bind_eq_ok.mp h
  exact .bulkString _

/-- SET replies with `OK`.
SOURCE: set_request_handler.h:28-32 -/
theorem set_safeReplies : SafeReplies .set := by
  intro store now request reply store' h
  obtain ⟨args, -, h⟩ := bind_eq_ok.mp h
  obtain ⟨key, -, h⟩ := bind_eq_ok.mp h
  obtain ⟨value, -, ⟨⟩⟩ := bind_eq_ok.mp h
  exact .simpleString (by decide)

/-- DEL replies with a number.
SOURCE: del_request_handler.h:28-32 -/
theorem del_safeReplies : SafeReplies .del := by
  intro store now request reply store' h
  obtain ⟨args, -, h⟩ := bind_eq_ok.mp h
  obtain ⟨key, -, ⟨⟩⟩ := bind_eq_ok.mp h
  exact .integer _

/-- The expire commands reply with a number.
SOURCE: expire_request_handler.h:45-56 -/
theorem expire_safeReplies (name : Bytes) (factor : ℤ) (relative : Bool) :
    SafeReplies (.expire name factor relative) := by
  intro store now request reply store' h
  obtain ⟨args, -, h⟩ := bind_eq_ok.mp h
  obtain ⟨arg, -, h⟩ := bind_eq_ok.mp h
  obtain ⟨value, -, h⟩ := bind_eq_ok.mp h
  obtain ⟨option, -, h⟩ := bind_eq_ok.mp h
  obtain ⟨product, -, h⟩ := bind_eq_ok.mp h
  obtain ⟨expiry, -, h⟩ := bind_eq_ok.mp h
  obtain ⟨key, -, ⟨⟩⟩ := bind_eq_ok.mp h
  exact .integer _

/-- TTL and PTTL reply with a number.
SOURCE: ttl_request_handler.h:33-39 -/
theorem ttl_safeReplies (name : Bytes) (factor : Int64) : SafeReplies (.ttl name factor) := by
  intro store now request reply store' h
  obtain ⟨args, -, h⟩ := bind_eq_ok.mp h
  obtain ⟨key, -, h⟩ := bind_eq_ok.mp h
  obtain ⟨result, -, ⟨⟩⟩ := bind_eq_ok.mp h
  exact .integer _

/-- PERSIST replies with a number.
SOURCE: persist_request_handler.h:30-34 -/
theorem persist_safeReplies : SafeReplies .persist := by
  intro store now request reply store' h
  obtain ⟨args, -, h⟩ := bind_eq_ok.mp h
  obtain ⟨key, -, ⟨⟩⟩ := bind_eq_ok.mp h
  exact .integer _

/-- ECHO replies with a bulk string.
SOURCE: echo_request_handler.h:17-20 -/
theorem echo_safeReplies : SafeReplies .echo := by
  intro store now request reply store' h
  obtain ⟨args, -, h⟩ := bind_eq_ok.mp h
  obtain ⟨arg, -, ⟨⟩⟩ := bind_eq_ok.mp h
  exact .bulkString _

/-- PING replies with `PONG` or a bulk string.
SOURCE: ping_request_handler.h:18-24 -/
theorem ping_safeReplies : SafeReplies .ping := by
  intro store now request reply store' h
  obtain ⟨args, -, h⟩ := bind_eq_ok.mp h
  split_ifs at h
  · cases h
    exact .simpleString (by decide)
  · obtain ⟨arg, -, ⟨⟩⟩ := bind_eq_ok.mp h
    exact .bulkString _

/-- The description of the server has no line break in it.
SOURCE: hello_request_handler.h:27-40 -/
theorem helloReply_lineSafe : LineSafe Handler.helloReply := by
  refine .array fun v hv => ?_
  simp only [List.mem_cons, List.not_mem_nil, or_false] at hv
  rcases hv with rfl | rfl | rfl | rfl | rfl | rfl | rfl | rfl | rfl | rfl | rfl | rfl
  all_goals first
    | exact .bulkString _
    | exact .integer _
    | exact .array (by simp)

/-- HELLO replies with that or with a fixed error.
SOURCE: hello_request_handler.h:21-41 -/
theorem hello_safeReplies : SafeReplies .hello := by
  intro store now request reply store' h
  obtain ⟨args, -, h⟩ := bind_eq_ok.mp h
  obtain ⟨other, -, h⟩ := bind_eq_ok.mp h
  split_ifs at h
  · cases h
    exact .simpleError (by decide)
  · cases h
    exact helloReply_lineSafe

/-- The error for an unknown command has no line break in it.
SOURCE: unknown_request_handler.h:18-20 -/
theorem unknown_lineSafe : LineSafe (.simpleError (ascii "Unknown subcommand or command")) :=
  .simpleError (by decide)

/-- The replies of all handlers are safe to send.
SOURCE: request_dispatcher.cc:24-54 -/
theorem handlers_safeReplies : ∀ handler ∈ handlers, SafeReplies handler := by
  intro handler h
  simp only [handlers, List.mem_cons, List.not_mem_nil, or_false] at h
  rcases h with rfl | rfl | rfl | rfl | rfl | rfl | rfl | rfl | rfl | rfl | rfl | rfl | rfl | rfl
  · exact get_safeReplies
  · exact set_safeReplies
  · exact del_safeReplies
  · exact expire_safeReplies _ _ _
  · exact expire_safeReplies _ _ _
  · exact expire_safeReplies _ _ _
  · exact expire_safeReplies _ _ _
  · exact ttl_safeReplies _ _
  · exact ttl_safeReplies _ _
  · exact persist_safeReplies
  · exact echo_safeReplies
  · exact ping_safeReplies
  · exact hello_safeReplies
  · rintro store now request reply store' ⟨⟩
    exact unknown_lineSafe

/-- **Every reply of the dispatcher is safe to send**: no text that ends at a `"\r\n"`
comes from a user.
SOURCE: request_dispatcher.cc:56-64 -/
theorem dispatch_lineSafe {store store' : Store} {now : Int64} {request reply : RespValue}
    (h : dispatch store now request = .ok (reply, store')) : LineSafe reply := by
  have hall := handlers_safeReplies
  unfold dispatch at h
  generalize handlers = hs at h hall
  induction hs with
  | nil =>
    cases h
    exact unknown_lineSafe
  | cons handler hs ih =>
    obtain ⟨own, -, h⟩ := bind_eq_ok.mp h
    split_ifs at h
    · exact hall handler List.mem_cons_self _ _ _ _ _ h
    · exact ih h fun other hother => hall other (List.mem_cons_of_mem _ hother)

/-! ## The response to a batch -/

/-- The replies of `Dispatch` to a list of requests, one after another, each at its clock
reading. -/
def dispatchAll (store : Store) : List (Int64 × RespValue) → Defined (List RespValue × Store)
  | [] => .ok ([], store)
  | (now, request) :: requests => do
    let (reply, store) ← dispatch store now request
    let (replies, store) ← dispatchAll store requests
    return (reply :: replies, store)

/-- The response to a batch is the concatenation of its serialized replies.
SOURCE: server.cc:234-237 -/
theorem executeBatch_eq (store : Store) (response : Bytes) (requests : List (Int64 × RespValue)) :
    executeBatch store response requests =
      (dispatchAll store requests).map fun r => (response ++ serializeAll r.1, r.2) := by
  induction requests generalizing store response with
  | nil => simp [executeBatch, dispatchAll, serializeAll, Except.map]
  | cons first requests ih =>
    obtain ⟨now, request⟩ := first
    unfold executeBatch dispatchAll execute
    cases dispatch store now request with
    | error u => rfl
    | ok r =>
      obtain ⟨reply, store'⟩ := r
      simp only [bind, Except.bind, pure, Except.pure, ih]
      cases dispatchAll store' requests with
      | error u => rfl
      | ok rest => simp [Except.map, serializeAll]

/-- One reply for each request, and all of them safe to send.
SOURCE: server.cc:234-246 -/
theorem dispatchAll_spec {store store' : Store} {requests : List (Int64 × RespValue)}
    {replies : List RespValue} (h : dispatchAll store requests = .ok (replies, store')) :
    replies.length = requests.length ∧ ∀ reply ∈ replies, LineSafe reply := by
  induction requests generalizing store replies with
  | nil =>
    cases h
    exact ⟨rfl, by simp⟩
  | cons first requests ih =>
    obtain ⟨⟨reply, store₁⟩, hreply, h⟩ := bind_eq_ok.mp h
    obtain ⟨⟨rest, store₂⟩, hrest, ⟨⟩⟩ := bind_eq_ok.mp h
    obtain ⟨hlength, hsafe⟩ := ih hrest
    refine ⟨by simp [hlength], fun v hv => ?_⟩
    rcases List.mem_cons.mp hv with rfl | hv
    · exact dispatch_lineSafe hreply
    · exact hsafe v hv

/-- A concatenation of encodings parses into the values encoded, with nothing left.
SOURCE: resp_value.cc:10-151 -/
theorem parse_serializeAll {vs : List RespValue} (hsafe : ∀ v ∈ vs, LineSafe v)
    (hfits : (serializeAll vs).length < 2 ^ 63) :
    parse (serializeAll vs) = vs ∧ unparsed (serializeAll vs) = [] := by
  induction vs with
  | nil => exact ⟨parse_nil, (unparsed_of_error fromString_nil).1⟩
  | cons v vs ih =>
    simp only [serializeAll, List.length_append] at hfits ⊢
    have hreadable : Readable v := (hsafe v List.mem_cons_self).readable (by omega)
    have hdecode := hreadable.decodesAnywhere [] (serializeAll vs)
    simp only [List.nil_append, List.length_nil, Nat.zero_add] at hdecode
    obtain ⟨hleft, hcons, -⟩ := unparsed_of_ok hdecode
    obtain ⟨hparse, hnone⟩ := ih (fun w hw => hsafe w (List.mem_cons_of_mem _ hw)) (by omega)
    rw [hleft, hcons, List.drop_left, hparse, hnone]
    exact ⟨rfl, rfl⟩

/-- As long as the stream is not malformed, no call throws.
SOURCE: resp_value_queue.cc:8-35 -/
theorem Reads.calls_ok {B : Bytes} {out : List RespValue} {q : RespValueQueue}
    (h : Reads B out q) (cs : List RespValueQueue.Call)
    (hwell : ¬ Malformed (B ++ RespValueQueue.pushed cs)) :
    ∀ r ∈ (q.calls cs).2, ∃ v, r = .ok v := by
  induction cs generalizing B out q with
  | nil =>
    intro r hr
    cases hr
  | cons c cs ih =>
    cases c with
    | pushString str =>
      rw [RespValueQueue.pushed, ← List.append_assoc] at hwell
      exact ih (h.pushString str) hwell
    | popValue =>
      intro r hr
      rcases List.mem_cons.mp hr with heq | hr
      · rw [heq]
        change ∃ v, q.popValue.1 = .ok v
        rw [h.popValue_result]
        cases hverdict : verdict B with
        | invalidArgument what =>
          exact absurd (parse_append_of_malformed ⟨what, hverdict⟩ _).2 hwell
        | outOfRange what => exact ⟨_, rfl⟩
      · exact ih h.popValue hwell r hr

/-- **Pipelined reply framing.**  Fed to a `RespValueQueue` in any pieces, and with
values popped at any time, the response to a batch makes no call throw and yields the
replies of `Dispatch` to the requests, one for each and in order; the buffer is empty
when they have all been popped.
SOURCE: server.cc:229-246, request_dispatcher.cc:56-64, resp_value_queue.cc:8-35 -/
theorem batch_replies_framed (store store' : Store) (requests : List (Int64 × RespValue))
    (response : Bytes) (hrun : executeBatch store [] requests = .ok (response, store'))
    (hfits : FitsString response) :
    ∃ replies, dispatchAll store requests = .ok (replies, store') ∧
      replies.length = requests.length ∧
      ∀ cs, RespValueQueue.pushed cs = response →
        (∀ r ∈ (RespValueQueue.empty.calls cs).2, ∃ v, r = .ok v) ∧
        ∃ rest, (RespValueQueue.empty.calls cs).1.popAll = (.ok rest, RespValueQueue.empty) ∧
          RespValueQueue.returned (RespValueQueue.empty.calls cs).2 ++ rest = replies := by
  rw [executeBatch_eq] at hrun
  obtain ⟨⟨replies, last⟩, hreplies, hpair⟩ := map_eq_ok.mp hrun
  cases hpair
  obtain ⟨hlength, hsafe⟩ := dispatchAll_spec hreplies
  have hsize : (serializeAll replies).length < 2 ^ 63 := by
    simp only [FitsString, stringMaxSize, List.nil_append] at hfits
    omega
  obtain ⟨hparse, hnone⟩ := parse_serializeAll hsafe hsize
  refine ⟨replies, hreplies, hlength, fun cs hcs => ?_⟩
  rw [List.nil_append] at hcs
  have hreads := Reads.empty.calls cs
  rw [List.nil_append, List.nil_append, hcs] at hreads
  -- nothing is left of the response, so the reader is only waiting for more
  have hverdict : verdict (serializeAll replies) =
      .outOfRange "Unexpected end of input while parsing RESP value" := by
    rw [verdict, hnone, fromString_nil]
  have hpop := popAll_of_incomplete (hreads.verdict_eq.trans hverdict)
  rw [← hreads.unparsed_eq, hnone] at hpop
  refine ⟨Reads.empty.calls_ok cs ?_, _, hpop, hreads.parse_eq.symm.trans hparse⟩
  rintro ⟨what, hwhat⟩
  rw [List.nil_append, hcs, hverdict] at hwhat
  cases hwhat

/-- A request to echo bytes that look like two replies, and one to get a missing key. -/
def echoAndGet : List (Int64 × RespValue) :=
  [(0, .array [.bulkString (ascii "ECHO"), .bulkString (ascii "a\r\n+b\r\n")]),
    (1, .array [.bulkString (ascii "GET"), .bulkString (ascii "k")])]

/-- The response to the two. -/
def echoAndGetResponse : Bytes := ascii "$7\r\na\r\n+b\r\n\r\n$-1\r\n"

/-- A batch of ECHO and GET, and its two replies.
SOURCE: server.cc:229-246, resp_value_queue.cc:8-35 -/
theorem batch_replies_framed_echoAndGet :
    ∃ replies, dispatchAll Store.empty echoAndGet = .ok (replies, Store.empty) ∧
      replies.length = 2 ∧
      ∀ cs, RespValueQueue.pushed cs = echoAndGetResponse →
        (∀ r ∈ (RespValueQueue.empty.calls cs).2, ∃ v, r = .ok v) ∧
        ∃ rest, (RespValueQueue.empty.calls cs).1.popAll = (.ok rest, RespValueQueue.empty) ∧
          RespValueQueue.returned (RespValueQueue.empty.calls cs).2 ++ rest = replies :=
  batch_replies_framed Store.empty Store.empty echoAndGet echoAndGetResponse (by rfl)
    (by unfold FitsString; decide +kernel)

end MyRedis.Analysis

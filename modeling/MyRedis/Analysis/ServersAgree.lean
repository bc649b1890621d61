import MyRedis.Analysis.ClientSessions
import MyRedis.Analysis.SingleWorker
import MyRedis.Analysis.VersionAgreement

/-!
# The servers of both versions, for a client on its own

`VersionAgreement.lean` compares the dispatchers, request for request.  Here are the servers around
them: v1 with its executor and one worker, v2 with its main thread and any number of IO threads.
Bytes come in chunks that the network makes, the threads take turns in any order, and v2 looks at
the clock.  None of that shows to a client that is the only one to send, and that uses GET, SET and
DEL: both servers send it the replies that `perform` gives, and so the same bytes (`servers_agree`).
-/

set_option autoImplicit false

namespace MyRedis.Analysis

open Model Lib

/-- The reply to a request, and the values it leaves. -/
def answer (m : Values) (request : RespValue) : Bytes × Values :=
  ((perform m (operation request)).1.serialize, (perform m (operation request)).2)

/-- The replies to the requests in a stream, if there are no values at first. -/
def answers (B : Bytes) : List Bytes := specifyAll answer (fun _ => none) (parse B)

/-- The specification looks at the requests, not at who has sent them. -/
theorem specifyAll_arrivals (m : Values) (arrivals : List Arrival) :
    specifyAll specifyReply m arrivals = specifyAll answer m (arrivals.map Arrival.request) := by
  rw [specifyAll_map]
  rfl

/-! ## v1 -/

namespace OneWorker

section Alone

variable {stringHash : Bytes → ℕ} {intHash : Fd → ℕ} {s : V1.SingleWorker}
  {client : RequestExecutor.Client}

/-- Every call is for the one client that has sent anything.
SOURCE: RequestExecutor.cpp:31-86, HandlerDispatcher.cpp:13-22 -/
theorem dispatched_alone (h : ServerRun stringHash intHash s)
    (hrunning : s.app.executor.status = .running) (hresting : Resting s)
    (hclient : client ∈ s.app.executor.clients) (hsubmitted : client.submitted ≠ [])
    (halone : ∀ other ∈ s.app.executor.clients, other.submitted ≠ [] → other.fd = client.fd) :
    s.app.dispatched =
      (parse client.submitted.flatten).map fun request => (client.fd, request) := by
  have hrun := appRun_of_run h
  have hothers : ∀ fd, fd ≠ client.fd → dispatchedTo s.app.dispatched fd = [] := by
    intro fd hne
    refine dispatched_nil hrun fun other hother hsent hfd => ?_
    exact hne (hfd.symm.trans (halone other hother hsent))
  rw [← dispatched_of_resting h hrunning hresting hclient hsubmitted]
  exact eq_map_ofTag hothers

/-- The handlers, called for the requests of one client.
SOURCE: HandlerDispatcher.cpp:13-22 -/
theorem serve_alone (fd : Fd) {requests : List RespValue}
    (hshared : ∀ request ∈ requests, SharedCommand request) :
    ∃ shared, serveAll (fun shared request => serve shared (fd, request))
        (.new stringHash intHash) requests =
      .ok ((specifyAll answer (fun _ => none) requests).map fun reply => [(fd, reply)],
        shared) := by
  -- the same requests as arrivals, at any time
  let arrivals : List Arrival := requests.map fun request => ⟨fd, 0, request⟩
  have hallowed : ∀ a ∈ arrivals, SharedCommand a.request := by
    intro a ha
    obtain ⟨request, hrequest, rfl⟩ := List.mem_map.mp ha
    exact hshared request hrequest
  have hnew : Chained (V1.Shared.new stringHash intHash).store.table (fun _ => none) :=
    chained_new stringHash
  obtain ⟨shared, hspecified⟩ := v1_implements.serveAll hnew hallowed
  have hanswers : specifyAll specifyReply (fun _ => none) arrivals =
      specifyAll answer (fun _ => none) requests := by
    rw [specifyAll_map]
    rfl
  have hpresented : List.zipWith (fun a reply => [(a.clientFd, reply)]) arrivals
      (specifyAll answer (fun _ => none) requests) =
        (specifyAll answer (fun _ => none) requests).map fun reply => [(fd, reply)] := by
    rw [List.zipWith_map_left]
    exact zipWith_answers (fun reply => [(fd, reply)]) (length_specifyAll answer _ requests)
  rw [hanswers, hpresented, serveAll_map] at hspecified
  exact ⟨shared, hspecified⟩

/-- **What v1 sends** are the replies, to that client.
SOURCE: RequestExecutor.cpp:31-86, HandlerDispatcher.cpp:13-22 -/
theorem sent_alone (h : ServerRun stringHash intHash s)
    (hrunning : s.app.executor.status = .running) (hresting : Resting s)
    (hclient : client ∈ s.app.executor.clients) (hsubmitted : client.submitted ≠ [])
    (halone : ∀ other ∈ s.app.executor.clients, other.submitted ≠ [] → other.fd = client.fd)
    (hshared : ∀ request ∈ parse client.submitted.flatten, SharedCommand request) :
    s.sent = (answers client.submitted.flatten).map fun reply => (client.fd, reply) := by
  obtain ⟨completed, hturn⟩ := inTurn_of_run h
  obtain ⟨sent, hserved, hsent⟩ := hturn.served
  obtain ⟨shared, hanswers⟩ := serve_alone client.fd hshared
  rw [hturn.completed_eq hresting,
    dispatched_alone h hrunning hresting hclient hsubmitted halone, serveAll_map, hanswers,
    Except.ok.injEq, Prod.mk.injEq] at hserved
  rw [hsent, ← hserved.1, ← List.flatMap_def, ← List.map_eq_flatMap, answers]

end Alone

end OneWorker

/-! ## v2 -/

section V2

/-- The requests that the dispatcher has answered, as arrivals.
SOURCE: request_dispatcher.cc:56-64 -/
theorem serveAll_of_dispatchAll {store store' : Store} {requests : List (Int64 × RespValue)}
    {replies : List RespValue} (clientFd : Fd)
    (h : dispatchAll store requests = .ok (replies, store')) :
    serveAll serveV2 store (requests.map fun request => ⟨clientFd, request.1, request.2⟩) =
      .ok (replies.map RespValue.serialize, store') := by
  induction requests generalizing store replies with
  | nil =>
    cases h
    rfl
  | cons first requests ih =>
    obtain ⟨⟨reply, store₁⟩, hreply, h⟩ := bind_eq_ok.mp h
    obtain ⟨⟨rest, store₂⟩, hrest, ⟨⟩⟩ := bind_eq_ok.mp h
    rw [List.map_cons, serveAll, serveV2, execute, hreply]
    change (serveAll serveV2 store₁ _ >>= _) = _
    rw [ih hrest]
    rfl

/-- The dispatcher, called for any arrivals.
SOURCE: request_dispatcher.cc:56-64 -/
theorem serveV2_answers {arrivals : List Arrival}
    (hshared : ∀ a ∈ arrivals, SharedCommand a.request) :
    ∃ store, serveAll serveV2 Store.empty arrivals =
      .ok (specifyAll answer (fun _ => none) (arrivals.map Arrival.request), store) := by
  have hnew : HoldsValues Store.empty fun _ => none := fun key => Store.lookUp_empty key
  obtain ⟨store, hspecified⟩ := v2_implements.serveAll hnew hshared
  have hpresented : List.zipWith (fun _ reply => reply) arrivals
      (specifyAll specifyReply (fun _ => none) arrivals) =
        specifyAll specifyReply (fun _ => none) arrivals := by
    refine (zipWith_answers id (length_specifyAll specifyReply _ arrivals)).trans ?_
    exact List.map_id _
  rw [hpresented, specifyAll_arrivals] at hspecified
  exact ⟨store, hspecified⟩

variable {n : ℕ} [NeZero n] {t : Traffic n} {client : Client}

/-- Every request executed is one of the one connection from which anything was read.
SOURCE: server.cc:215-246, io_thread.cc:108-180 -/
theorem log_alone (h : TrafficReachable NeverAccepted Store.empty t)
    (halone : ∀ conn, conn ≠ client.id → receivedFrom t conn = []) :
    t.server.log = executedFor t.server client.id := by
  obtain ⟨haddressed, hserial, -, -⟩ := serial_of_reachable (reachable_of_traffic h)
  have hothers : ∀ conn, conn ≠ client.id → ofTag conn (entries t.server.log) = [] := by
    intro conn hne
    have hreads := (hserial.log_prefix_emitted haddressed conn).trans
      ((served_of_reachable h).sound conn).reads
    have hnothing : (tally t conn).received = [] := halone conn hne
    rw [hnothing, parse_nil, List.prefix_nil, List.map_eq_nil_iff] at hreads
    exact hreads
  have hentries := congrArg (List.map Prod.snd) (eq_map_ofTag hothers)
  simpa [entries, executedFor, Function.comp_def] using hentries

/-- **What v2 sends** are the replies.
SOURCE: server.cc:215-246, io_thread.cc:108-180 -/
theorem traffic_alone (h : TrafficReachable NeverAccepted Store.empty t)
    (hwaiting : Waiting t.server) {i : Fin n} {fd : Fd}
    (hclient : (t.server.io i).connections fd = some client)
    (halone : ∀ conn, conn ≠ client.id → receivedFrom t conn = [])
    (hshared : ∀ request ∈ parse (receivedFrom t client.id), SharedCommand request) :
    sentTo t client.id ++ client.conn.outBuffer = (answers (receivedFrom t client.id)).flatten := by
  obtain ⟨-, hserial, -, -⟩ := serial_of_reachable (reachable_of_traffic h)
  obtain ⟨hexecuted, hsent, -⟩ := hwaiting.answered h hclient
  have hlog := log_alone h halone
  have hreplay := serveAll_of_dispatchAll fd hserial.replay
  rw [List.map_map] at hreplay
  let arrivals : List Arrival := t.server.log.map fun entry => ⟨fd, entry.now, entry.request⟩
  have hrequests : arrivals.map Arrival.request = parse (receivedFrom t client.id) := by
    rw [← hexecuted, ← hlog, List.map_map]
    rfl
  have hallowed : ∀ a ∈ arrivals, SharedCommand a.request := by
    intro a ha
    apply hshared
    rw [← hrequests]
    exact List.mem_map_of_mem ha
  obtain ⟨store, hanswers⟩ := serveV2_answers hallowed
  rw [hrequests] at hanswers
  have hreplies := Except.ok.inj (hreplay.symm.trans hanswers)
  rw [hsent, repliesTo, ← hlog, serializeAll_eq_flatMap, List.flatMap_def]
  exact congrArg List.flatten (Prod.mk.inj hreplies).1

end V2

section Servers

variable {stringHash : Bytes → ℕ} {intHash : Fd → ℕ} {s : V1.SingleWorker}
  {client : RequestExecutor.Client} {n : ℕ} [NeZero n] {t : Traffic n} {i : Fin n} {fd : Fd}
  {client' : Client} {B : Bytes}

/-- **Both servers send the same bytes to a client on its own** that uses GET, SET and DEL, however
its bytes come in, whatever the hash functions and the clock are, and in whatever order the threads
take their turns: when they have come to rest, what v1 with one worker has sent, and what v2 has
sent or still has in the out buffer, are the replies of `perform` to the requests in the stream.
SOURCE: ServerApp.cpp:138-179, RequestExecutor.cpp:23-86, server.cc:215-246, io_thread.cc:131-213 -/
theorem servers_agree (h : OneWorker.ServerRun stringHash intHash s)
    (hrunning : s.app.executor.status = .running) (hresting : OneWorker.Resting s)
    (hclient : client ∈ s.app.executor.clients) (hsubmitted : client.submitted ≠ [])
    (halone : ∀ other ∈ s.app.executor.clients, other.submitted ≠ [] → other.fd = client.fd)
    (h' : TrafficReachable NeverAccepted Store.empty t) (hwaiting : Waiting t.server)
    (hclient' : (t.server.io i).connections fd = some client')
    (halone' : ∀ conn, conn ≠ client'.id → receivedFrom t conn = [])
    (hsame : client.submitted.flatten = receivedFrom t client'.id)
    (hshared : ∀ request ∈ parse client.submitted.flatten, SharedCommand request) :
    (ofTag client.fd s.sent).flatten = sentTo t client'.id ++ client'.conn.outBuffer ∧
      (ofTag client.fd s.sent).flatten = (answers client.submitted.flatten).flatten ∧
      ∀ other, other ≠ client.fd → ofTag other s.sent = [] := by
  have hsent := OneWorker.sent_alone h hrunning hresting hclient hsubmitted halone hshared
  have hown : ofTag client.fd s.sent = answers client.submitted.flatten := by
    rw [hsent]
    exact ofTag_map_self client.fd _
  rw [hown]
  refine ⟨?_, rfl, fun other hne => ?_⟩
  · rw [traffic_alone h' hwaiting hclient' halone' (hsame ▸ hshared), hsame]
  · rw [hsent]
    exact ofTag_eq_nil fun p hp => by
      obtain ⟨reply, -, rfl⟩ := List.mem_map.mp hp
      exact hne.symm

end Servers

/-! ## A client that sets a key and gets it -/

/-- Both requests, one after the other. -/
def setAndGetBytes : Bytes := OneWorker.setRequest ++ OneWorker.getRequest

/-- v1 gets the two requests one by one. -/
def twoChunks (i : Fin 1) : List (RequestExecutor.Action 1) :=
  [.accept 5, .submit 5 OneWorker.setRequest, .submit 5 OneWorker.getRequest] ++
    List.replicate 14 (.work i)

/-- v2 gets them at once. -/
def oneChunk : Chunk := ⟨setAndGetBytes, by decide, by decide⟩

/-- The socket of the client takes only the first reply. -/
def oneRead (i : Fin 1) : List (Server.Action 1) :=
  acceptRun [] ++ inboxRun 0 [] ++ [.io i { events := [.client 5 false true false] }, .io i {},
    .io i { reads := ⟨[oneChunk], .wouldBlockOrInterrupted⟩ }, .io i {}, .io i {}] ++
    .main { events := [.command] } :: List.replicate 8 (.main {}) ++
    inboxRun 0 [.sent 5, .wouldBlockOrInterrupted]

/-- The requests in both streams. -/
def setThenGet : List RespValue :=
  [withKeyAndValue (ascii "SET") (ascii "a") (some (ascii "b")), withKey (ascii "GET") (ascii "a")]

/-- An array of bulk strings can be sent. -/
theorem lineSafe_parts (parts : List (Option Bytes)) :
    LineSafe (.array (parts.map RespValue.bulkString)) := by
  refine .array fun v hv => ?_
  obtain ⟨part, -, rfl⟩ := List.mem_map.mp hv
  exact .bulkString _

/-- The two requests in their bytes. -/
theorem parse_setThenGet : parse setAndGetBytes = setThenGet := by
  have hsafe : ∀ v ∈ setThenGet, LineSafe v := by
    simp only [setThenGet, List.forall_mem_cons]
    exact ⟨lineSafe_parts [some (ascii "SET"), some (ascii "a"), some (ascii "b")],
      lineSafe_parts [some (ascii "GET"), some (ascii "a")],
      fun v hv => absurd hv List.not_mem_nil⟩
  have hbytes : RespValue.serializeAll setThenGet = setAndGetBytes := by decide +kernel
  have hfits : (RespValue.serializeAll setThenGet).length < 2 ^ 63 := by
    rw [hbytes]
    decide
  rw [← hbytes, (parse_serializeAll hsafe hfits).1]

/-- Both versions know them. -/
theorem shared_setThenGet : ∀ request ∈ setThenGet, SharedCommand request := by
  simp only [setThenGet, List.forall_mem_cons]
  exact ⟨⟨ascii "SET", _, by simp, rfl⟩, ⟨ascii "GET", _, by simp, rfl⟩,
    fun request hmem => absurd hmem List.not_mem_nil⟩

/-- The run of v1, at its end.
SOURCE: RequestExecutor.cpp:31-86, HandlerDispatcher.cpp:13-22 -/
theorem twoChunks_ends :
    ∃ s, OneWorker.ServerRun List.length id s ∧ s.app.executor.status = .running ∧
      OneWorker.Resting s ∧
      s.app.executor.clients.map (fun client => (client.fd, client.submitted)) =
        [(5, [OneWorker.setRequest, OneWorker.getRequest])] := by
  have hfinal : (runAll V1.SingleWorker.step OneWorker.NewClient (.init List.length id)
      (twoChunks 0)).map (fun s => OneWorker.seen s 0) =
      some ⟨[(5, ascii "+OK\r\n"), (5, ascii "$1\r\nb\r\n")], .running, [], 0,
        [(5, [OneWorker.setRequest, OneWorker.getRequest])]⟩ := by
    decide +kernel
  obtain ⟨s, hs, hseen⟩ := Option.map_eq_some_iff.mp hfinal
  exact ⟨s, reaches_of_runAll hs, congrArg OneWorker.Seen.status hseen,
    OneWorker.resting_of_seen (i := 0) (by rw [hseen]) (by rw [hseen]),
    congrArg OneWorker.Seen.clients hseen⟩

/-- The run of v2, at its end.
SOURCE: server.cc:215-246, io_thread.cc:108-180 -/
theorem oneRead_ends :
    ∃ t : Traffic 1, TrafficReachable NeverAccepted Store.empty t ∧ Waiting t.server ∧
      t.received = [(0, setAndGetBytes)] ∧
      ∃ client, (t.server.io 0).connections 5 = some client ∧ client.id = 0 ∧
        sentTo t 0 = ascii "+OK\r\n" := by
  have hfinal : (runAll Traffic.step (fun t a => Accepts NeverAccepted t.server a)
      (Traffic.init Store.empty) (oneRead 0)).map (fun t =>
        (mainIdle t.server.busy && ioIdle (t.server.io 0).busy,
          [t.server.todo.length, t.server.commandEvent, (t.server.io 0).todo.length,
            (t.server.io 0).inboxEvent],
          ((t.server.io 0).connections 5).map Client.id,
          decide (t.received = [(0, setAndGetBytes)] ∧
            sentTo t 0 = ascii "+OK\r\n"))) =
      some (true, [0, 0, 0, 0], some 0, true) := by
    decide +kernel
  obtain ⟨t, ht, heq⟩ := Option.map_eq_some_iff.mp hfinal
  simp only [Prod.mk.injEq, Bool.and_eq_true, List.cons.injEq, and_true, decide_eq_true_eq] at heq
  obtain ⟨⟨hmain, hio⟩, ⟨htodo, hevent, htodo', hevent'⟩, hid, hreceived, hsent⟩ := heq
  obtain ⟨client, hclient, hid⟩ := Option.map_eq_some_iff.mp hid
  have hwaiting : Waiting t.server := by
    refine ⟨⟨?_, List.eq_nil_of_length_eq_zero htodo, hevent⟩, fun i => ?_⟩
    · cases hbusy : t.server.busy with
      | idle => rfl
      | _ => simp [hbusy, mainIdle] at hmain
    · rw [Subsingleton.elim i 0]
      refine ⟨?_, List.eq_nil_of_length_eq_zero htodo', hevent'⟩
      cases hbusy : (t.server.io 0).busy with
      | idle => rfl
      | _ => simp [hbusy, ioIdle] at hio
  exact ⟨t, reaches_of_runAll ht, hwaiting, hreceived, client, hclient, hid, hsent⟩

/-- SET and GET, in two chunks to v1 and in one read to v2.
SOURCE: RequestExecutor.cpp:31-86, HandlerDispatcher.cpp:13-22, server.cc:150-246,
io_thread.cc:58-242 -/
theorem servers_agree_setThenGet :
    ∃ s, OneWorker.ServerRun List.length id s ∧ ∃ t : Traffic 1,
      TrafficReachable NeverAccepted Store.empty t ∧ sentTo t 0 = ascii "+OK\r\n" ∧
      ∃ client, (t.server.io 0).connections 5 = some client ∧ client.id = 0 ∧
        (ofTag 5 s.sent).flatten = sentTo t client.id ++ client.conn.outBuffer := by
  obtain ⟨s, hrun, hrunning, hresting, hclients⟩ := twoChunks_ends
  obtain ⟨t, hreachable, hwaiting, hreceived, client', hclient', hid, hsent⟩ := oneRead_ends
  obtain ⟨client, hsingle, hpair⟩ := List.map_eq_singleton_iff.mp hclients
  obtain ⟨hfd, hsubmitted⟩ := Prod.mk.inj hpair
  have hmem : client ∈ s.app.executor.clients := by
    rw [hsingle]
    exact List.mem_singleton_self client
  have hstream : client.submitted.flatten = setAndGetBytes := by
    rw [hsubmitted]
    simp [setAndGetBytes]
  have hread : receivedFrom t client'.id = setAndGetBytes := by
    rw [receivedFrom, hreceived, hid, ofTag_cons_self, ofTag_nil, List.flatten_singleton]
  obtain ⟨hsame, -⟩ := servers_agree hrun hrunning hresting hmem (by rw [hsubmitted]; simp)
    (fun other hother _ => by
      rw [hsingle, List.mem_singleton] at hother
      rw [hother])
    hreachable hwaiting hclient'
    (fun conn hne => by
      rw [receivedFrom, hreceived, ofTag_cons_of_ne (hid ▸ hne.symm), ofTag_nil, List.flatten_nil])
    (hstream.trans hread.symm) (by rw [hstream, parse_setThenGet]; exact shared_setThenGet)
  rw [hfd] at hsame
  exact ⟨s, hrun, t, hreachable, hsent, client', hclient', hid, hsame⟩

end MyRedis.Analysis

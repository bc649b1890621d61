import MyRedis.Analysis.ReplyFraming
import MyRedis.Analysis.RoutingTable
import MyRedis.Lib.Tagged

/-!
# Serial equivalence and the order of a connection

The store is at all times what the executed requests, one after another, make of the store
the server was started with; and the executed requests are a merge of prefixes of what was
emitted for each connection.  This is `Serial`, and holds in every run: a batch that was
emitted is in the outbox of its thread, in execution or executed.

What is appended to an out buffer needs that descriptors are not accepted twice.  Then
(`Delivered`) the batches answered to a connection are a prefix of its executed batches,
and as long as it is owned the rest of them are on their way to its thread.  A response is
dropped only after the connection has been closed, and nothing is appended from then on.
-/

set_option autoImplicit false

namespace MyRedis.Analysis

open MyRedis.Model MyRedis.Lib

variable {n : ℕ}

/-! ## What was emitted is executed -/

/-- Executed requests, by connections. -/
def entries (log : List LogEntry) : List (ConnId × LogEntry) :=
  log.map fun entry => (entry.conn, entry)

/-- The batch in execution, and the part of it that has been executed. -/
def Net.underway (N : Net n) : List (ConnId × List RespValue) :=
  N.executing.toList.map fun e => (e.conn, e.answers.map LogEntry.request ++ e.values)

@[inherit_doc Net.underway]
def Net.answering (N : Net n) : List (ConnId × List LogEntry) :=
  N.executing.toList.map fun e => (e.conn, e.answers)

/-- What was emitted for a connection of thread `i` has been executed, is in execution or in the
outbox, in this order. -/
def InOrder (accepted : List (Fd × Fin n)) (executed : List (ConnId × List LogEntry))
    (underway emitted : List (ConnId × List RespValue)) (i : Fin n) (t : Thread) : Prop :=
  ∀ conn fd, accepted[conn]? = some (fd, i) →
    (ofTag conn executed).map (List.map LogEntry.request) ++ ofTag conn underway ++
      ofTag conn (t.outbox.flatMap Server.requests) = ofTag conn emitted

/-- **What was emitted is executed once and in order.** -/
structure Serial (store : Store) (N : Net n) : Prop where
  replay : dispatchAll store (N.log.map fun entry => (entry.now, entry.request)) =
    .ok (N.log.map LogEntry.reply, N.store)
  emitted : ∀ p ∈ N.emitted, ∃ fd i, N.accepted[p.1]? = some (fd, i)
  executed : ∀ p ∈ N.executed, ∃ fd i, N.accepted[p.1]? = some (fd, i)
  batches : ∀ i, InOrder N.accepted N.executed N.underway N.emitted i (N.io i)
  log : ∀ conn, (ofTag conn N.executed).flatten ++ (ofTag conn N.answering).flatten =
    ofTag conn (entries N.log)

/-- One more request is dispatched.
SOURCE: server.cc:235-237 -/
theorem dispatchAll_concat {store store' store'' : Store} {requests : List (Int64 × RespValue)}
    {replies : List RespValue} {now : Int64} {request reply : RespValue}
    (h : dispatchAll store requests = .ok (replies, store'))
    (hrun : dispatch store' now request = .ok (reply, store'')) :
    dispatchAll store (requests ++ [(now, request)]) = .ok (replies ++ [reply], store'') := by
  induction requests generalizing store replies with
  | nil =>
    cases h
    simp only [List.nil_append, dispatchAll, hrun]
    rfl
  | cons first requests ih =>
    obtain ⟨⟨first', store₁⟩, hfirst, h⟩ := bind_eq_ok.mp h
    obtain ⟨⟨rest, store₂⟩, hrest, ⟨⟩⟩ := bind_eq_ok.mp h
    rw [List.cons_append, dispatchAll, hfirst]
    simp only [bind, Except.bind, ih hrest]
    rfl

/-- No connection that has not been accepted has a tagged element. -/
theorem ofTag_length_eq_nil {β : Type} {accepted : List (Fd × Fin n)} {l : List (ConnId × β)}
    (h : ∀ p ∈ l, ∃ fd i, accepted[p.1]? = some (fd, i)) : ofTag accepted.length l = [] := by
  apply ofTag_eq_nil
  intro p hp heq
  obtain ⟨fd, i, hp⟩ := h p hp
  rw [heq, List.getElem?_length] at hp
  cases hp

/-- What is in the outbox of a thread is of its own connections.
SOURCE: io_thread.cc:179 -/
theorem Addressed.requests {N : Net n} (h : Addressed N) (i : Fin n) :
    ∀ p ∈ (N.io i).outbox.flatMap Server.requests, ∃ fd, N.accepted[p.1]? = some (fd, i) := by
  intro p hp
  obtain ⟨msg, hmsg, hp⟩ := List.mem_flatMap.mp hp
  cases msg with
  | commandBatch conn fd values =>
    cases List.mem_singleton.mp hp
    exact ⟨fd, (h.io i).outbox _ hmsg⟩
  | disconnect conn fd => cases hp

section Serial

variable {store : Store} {N : Net n}

/-- A new connection has emitted nothing, and the order of the others is as before.
SOURCE: server.cc:198-213 -/
theorem Serial.accept (h : Serial store N) (haddressed : Addressed N) (hidle : N.executing = none)
    (fd : Fd) (i j : Fin n) :
    InOrder (N.accepted ++ [(fd, i)]) N.executed N.underway N.emitted j (N.io j) := by
  intro conn fd' hconn
  by_cases hlength : conn < N.accepted.length
  · rw [List.getElem?_append_left hlength] at hconn
    exact h.batches j conn fd' hconn
  · have heq : conn = N.accepted.length := by
      have hbound := (List.getElem?_eq_some_iff.mp hconn).1
      rw [List.length_append, List.length_singleton] at hbound
      exact Nat.le_antisymm (Nat.le_of_lt_succ hbound) (Nat.le_of_not_lt hlength)
    have hqueued : ofTag N.accepted.length ((N.io j).outbox.flatMap Server.requests) = [] := by
      apply ofTag_length_eq_nil
      intro p hp
      obtain ⟨fd, hp⟩ := haddressed.requests j p hp
      exact ⟨fd, j, hp⟩
    rw [heq, ofTag_length_eq_nil h.executed, ofTag_length_eq_nil h.emitted, hqueued, Net.underway,
      hidle]
    rfl

/-- A batch that is pushed is the last one emitted.
SOURCE: io_thread.cc:230-234 -/
theorem Serial.push {i : Fin n} {msg : OutboxMsg} (h : Serial store N) (haddressed : Addressed N)
    (hpending : (N.io i).pending = some msg) (j : Fin n) :
    InOrder N.accepted N.executed N.underway (N.emitted ++ Server.requests msg) j
      ((N.setIo i { N.io i with
        pending := none
        outbox := (N.io i).outbox ++ [msg] }).io j) := by
  intro conn fd hconn
  by_cases hj : j = i
  · subst hj
    simp only [Net.setIo, Function.update_self, List.flatMap_append, List.flatMap_singleton,
      ofTag_append, ← h.batches j conn fd hconn, List.append_assoc]
  · -- the message is of a connection of thread `i`
    have hother : ofTag conn (Server.requests msg) = [] := by
      apply ofTag_eq_nil
      intro p hp heq
      have hmsg := (haddressed.io i).pending msg hpending
      cases msg with
      | commandBatch conn' fd' values =>
        cases List.mem_singleton.mp hp
        rw [← heq] at hconn
        cases hmsg.symm.trans hconn
        exact hj rfl
      | disconnect conn' fd' => cases hp
    simp only [Net.setIo, Function.update_of_ne hj, ofTag_append, hother, List.append_nil]
    exact h.batches j conn fd hconn

/-- A batch that is taken is the first one that has not been executed.
SOURCE: server.cc:218-221 -/
theorem Serial.takeBatch {i : Fin n} {conn : ConnId} {fd : Fd} {values : List RespValue}
    {outbox : List OutboxMsg} (h : Serial store N) (haddressed : Addressed N)
    (hidle : N.executing = none)
    (houtbox : (N.io i).outbox = .commandBatch conn fd values :: outbox) (j : Fin n) :
    InOrder N.accepted N.executed [(conn, values)] N.emitted j
      ((N.setIo i { N.io i with outbox := outbox }).io j) := by
  intro conn' fd' hconn
  have hbatches := h.batches j conn' fd' hconn
  have hunderway : N.underway = [] := by
    rw [Net.underway, hidle]
    rfl
  rw [hunderway, ofTag_nil, List.append_nil] at hbatches
  by_cases hj : j = i
  · subst hj
    have hrequests : Server.requests (.commandBatch conn fd values) = [(conn, values)] := rfl
    rw [houtbox, List.flatMap_cons, hrequests, ofTag_append, ← List.append_assoc] at hbatches
    simpa only [Net.setIo, Function.update_self] using hbatches
  · have hother : conn ≠ conn' := by
      intro heq
      have hmsg := (haddressed.io i).outbox (.commandBatch conn fd values)
        (houtbox ▸ List.mem_cons_self)
      rw [← heq] at hconn
      cases hmsg.symm.trans hconn
      exact hj rfl
    rw [ofTag_cons_of_ne hother, ofTag_nil, List.append_nil]
    simpa only [Net.setIo, Function.update_of_ne hj] using hbatches

/-- The last request of a batch has been executed.
SOURCE: server.cc:229-246 -/
theorem Serial.finish {conn : ConnId} {fd : Fd} {answers : List LogEntry} {response : Bytes}
    (h : Serial store N) (haddressed : Addressed N)
    (hexecuting : N.executing = some ⟨conn, fd, answers, [], response⟩) :
    (∀ p ∈ N.executed ++ [(conn, answers)], ∃ fd i, N.accepted[p.1]? = some (fd, i)) ∧
      (∀ i, InOrder N.accepted (N.executed ++ [(conn, answers)]) [] N.emitted i (N.io i)) ∧
      ∀ conn', (ofTag conn' (N.executed ++ [(conn, answers)])).flatten ++
        (ofTag conn' ([] : List (ConnId × List LogEntry))).flatten =
          ofTag conn' (entries N.log) := by
  have hunderway : N.underway =
      [(conn, answers)].map fun p => (p.1, p.2.map LogEntry.request) := by
    rw [Net.underway, hexecuting]
    simp only [Option.toList_some, List.map_singleton, List.append_nil]
  have hanswering : N.answering = [(conn, answers)] := by
    rw [Net.answering, hexecuting]
    rfl
  refine ⟨?_, ?_, ?_⟩
  · intro p hp
    obtain hp | hp := List.mem_append.mp hp
    · exact h.executed p hp
    · rw [List.mem_singleton.mp hp]
      obtain ⟨i, hi⟩ := haddressed.executing _ hexecuting
      exact ⟨fd, i, hi⟩
  · intro i conn' fd' hconn
    rw [← h.batches i conn' fd' hconn, hunderway, ofTag_map, ofTag_append, List.map_append,
      ofTag_nil, List.append_nil]
  · intro conn'
    rw [← h.log conn', hanswering, ofTag_append, List.flatten_append, ofTag_nil, List.flatten_nil,
      List.append_nil]

/-- The next request of a batch is executed, on the store that the last one has left.
SOURCE: server.cc:235-237, 244-246 -/
theorem Serial.execute {conn : ConnId} {fd : Fd} {answers : List LogEntry} {value : RespValue}
    {values : List RespValue} {response : Bytes} {now : Int64} {reply : RespValue} {store' : Store}
    (h : Serial store N)
    (hexecuting : N.executing = some ⟨conn, fd, answers, value :: values, response⟩)
    (hrun : dispatch N.store now value = .ok (reply, store')) :
    Serial store { N with
      executing := some ⟨conn, fd, answers ++ [⟨conn, now, value, reply⟩], values,
        response ++ reply.serialize⟩
      store := store'
      log := N.log ++ [⟨conn, now, value, reply⟩] } := by
  let entry : LogEntry := ⟨conn, now, value, reply⟩
  have hunderway : N.underway =
      [(conn, (answers ++ [entry]).map LogEntry.request ++ values)] := by
    rw [Net.underway, hexecuting]
    simp only [Option.toList_some, List.map_singleton, List.map_append, List.append_assoc,
      List.singleton_append, entry]
  have hanswering : N.answering = [(conn, answers)] := by
    rw [Net.answering, hexecuting]
    rfl
  refine ⟨?_, h.emitted, h.executed, ?_, ?_⟩
  · simp only [List.map_append, List.map_singleton]
    exact dispatchAll_concat h.replay hrun
  · intro i conn' fd' hconn
    rw [← h.batches i conn' fd' hconn, hunderway]
    rfl
  · intro conn'
    have hlog := h.log conn'
    rw [hanswering] at hlog
    have hentries : entries (N.log ++ [entry]) = entries N.log ++ [(conn, entry)] :=
      List.map_append
    show (ofTag conn' N.executed).flatten ++ (ofTag conn' [(conn, answers ++ [entry])]).flatten =
      ofTag conn' (entries (N.log ++ [entry]))
    rw [hentries, ofTag_append, ← hlog]
    by_cases heq : conn = conn'
    · subst heq
      simp only [ofTag_cons_self, ofTag_nil, List.flatten_cons, List.flatten_nil, List.append_nil,
        List.append_assoc]
    · simp only [ofTag_cons_of_ne heq, ofTag_nil, List.flatten_nil, List.append_nil]

/-- **Every step** keeps the requests of each connection in their order.
SOURCE: server.cc:198-246, io_thread.cc:58-75, 108-137, 172-180, 215-235 -/
theorem Serial.step {N' : Net n} {l : Option Fd} (h : Serial store N) (haddressed : Addressed N)
    (hstep : Net.Step N l N') : Serial store N' := by
  cases hstep with
  | accept fd i hidle hclosed =>
    refine ⟨h.replay, ?_, ?_, ?_, h.log⟩
    · intro p hp
      obtain ⟨fd', j, hconn⟩ := h.emitted p hp
      exact ⟨fd', j, getElem?_append_of_some hconn _⟩
    · intro p hp
      obtain ⟨fd', j, hconn⟩ := h.executed p hp
      exact ⟨fd', j, getElem?_append_of_some hconn _⟩
    · exact Net.forall_setIo (h.accept haddressed hidle fd i i) (h.accept haddressed hidle fd i)
  | @takeAssign i conn fd incoming hincoming =>
    exact ⟨h.replay, h.emitted, h.executed, Net.forall_setIo (h.batches i) h.batches, h.log⟩
  | @takeResponse i conn target answers fd bytes incoming hincoming htarget =>
    exact ⟨h.replay, h.emitted, h.executed, Net.forall_setIo (h.batches i) h.batches, h.log⟩
  | @dropResponse i conn answers fd bytes incoming hincoming hnone =>
    exact ⟨h.replay, h.emitted, h.executed, Net.forall_setIo (h.batches i) h.batches, h.log⟩
  | @batch i conn fd values hpending hconn =>
    exact ⟨h.replay, h.emitted, h.executed, Net.forall_setIo (h.batches i) h.batches, h.log⟩
  | @close i conn fd hpending hconn =>
    exact ⟨h.replay, h.emitted, h.executed, Net.forall_setIo (h.batches i) h.batches, h.log⟩
  | @push i msg hpending =>
    refine ⟨h.replay, ?_, h.executed, h.push haddressed hpending, h.log⟩
    intro p hp
    obtain hp | hp := List.mem_append.mp hp
    · exact h.emitted p hp
    · have hmsg := (haddressed.io i).pending msg hpending
      cases msg with
      | commandBatch conn fd values =>
        cases List.mem_singleton.mp hp
        exact ⟨fd, i, hmsg⟩
      | disconnect conn fd => cases hp
  | @takeBatch i conn fd values outbox hidle houtbox =>
    refine ⟨h.replay, h.emitted, h.executed, h.takeBatch haddressed hidle houtbox, ?_⟩
    intro conn'
    have hlog := h.log conn'
    rw [Net.answering, hidle] at hlog
    refine Eq.trans ?_ hlog
    show _ ++ (ofTag conn' [(conn, [])]).flatten = _ ++ []
    by_cases heq : conn = conn'
    · subst heq
      rw [ofTag_cons_self]
      rfl
    · rw [ofTag_cons_of_ne heq]
      rfl
  | @takeDisconnect i conn fd outbox hidle houtbox =>
    refine ⟨h.replay, h.emitted, h.executed, Net.forall_setIo ?_ h.batches, h.log⟩
    have hbatches := h.batches i
    unfold InOrder at hbatches
    rw [houtbox] at hbatches
    exact hbatches
  | execute hexecuting hrun => exact h.execute hexecuting hrun
  | @respond conn fd answers response i hexecuting hroute =>
    obtain ⟨hexecuted, hbatches, hlog⟩ := h.finish haddressed hexecuting
    exact ⟨h.replay, h.emitted, hexecuted, Net.forall_setIo (hbatches i) hbatches, hlog⟩
  | skip hexecuting hroute =>
    obtain ⟨hexecuted, hbatches, hlog⟩ := h.finish haddressed hexecuting
    exact ⟨h.replay, h.emitted, hexecuted, hbatches, hlog⟩

/-- At the start nothing has been executed.
SOURCE: server.cc:198-246, io_thread.cc:58-75, 108-137, 172-180, 215-235 -/
theorem serial_init (store : Store) : Serial store (Net.init store : Net n) := by
  refine ⟨rfl, ?_, ?_, ?_, ?_⟩
  · intro p hp
    cases hp
  · intro p hp
    cases hp
  · intro i conn fd hconn
    cases hconn
  · intro conn
    rfl

end Serial

/-! ## What is executed is delivered -/

/-- The answers in a message. -/
def responses : InboxMsg → List (ConnId × List LogEntry)
  | .assignConnection _ _ => []
  | .writeResponse conn answers _ _ => [(conn, answers)]

/-- The answers appended to out buffers, by connections. -/
def deliveries (appended : List Appended) : List (ConnId × List LogEntry) :=
  appended.map fun a => (a.target, a.answers)

/-- What was executed for a connection that the thread owns has been appended to its out buffer,
or is on its way to the thread. -/
structure DeliveredBy (executed : List (ConnId × List LogEntry)) (appended : List Appended)
    (emitted : List (ConnId × List RespValue)) (t : Thread) : Prop where
  owned : ∀ fd conn, t.owner fd = some conn →
    ofTag conn (deliveries appended) ++ ofTag conn (t.incoming.flatMap responses) =
      ofTag conn executed
  /-- nothing has been read from a connection that the thread has not taken over -/
  silent : ∀ conn fd, .assignConnection conn fd ∈ t.incoming → ofTag conn emitted = []

/-- **The batches answered to a connection are the first ones executed for it.** -/
structure Delivered (N : Net n) : Prop where
  distinct : (N.accepted.map Prod.fst).Nodup
  appended : ∀ conn, ofTag conn (deliveries N.appended) <+: ofTag conn N.executed
  io : ∀ i, DeliveredBy N.executed N.appended N.emitted (N.io i)

section Delivered

variable {store : Store} {N : Net n}

/-- A descriptor has had only one connection.
SOURCE: server.cc:198-246, io_thread.cc:58-75, 108-137, 172-180, 215-235 -/
theorem Delivered.unique (h : Delivered N) {conn conn' : ConnId} {fd : Fd} {i j : Fin n}
    (hconn : N.accepted[conn]? = some (fd, i)) (hconn' : N.accepted[conn']? = some (fd, j)) :
    conn = conn' := by
  have hlength : conn < (N.accepted.map Prod.fst).length := by
    rw [List.length_map]
    exact (List.getElem?_eq_some_iff.mp hconn).1
  apply (List.getElem?_inj hlength h.distinct).mp
  rw [List.getElem?_map, List.getElem?_map, hconn, hconn']
  rfl

/-- A connection is in the map of the thread that owns it, or assigned to it.
SOURCE: io_thread.cc:108-129 -/
theorem conns_or_mem_of_drained {conns : Fd → Option ConnId} {msgs : List InboxMsg} {fd : Fd}
    {conn : ConnId} (h : drained conns msgs fd = some conn) :
    conns fd = some conn ∨ .assignConnection conn fd ∈ msgs := by
  induction msgs generalizing conns with
  | nil => exact Or.inl h
  | cons msg msgs ih =>
    cases msg with
    | assignConnection conn' fd' =>
      obtain hconn | hmem := ih h
      · by_cases hfd : fd = fd'
        · subst hfd
          rw [Function.update_self] at hconn
          cases hold : conns fd with
          | none =>
            rw [hold] at hconn
            cases hconn
            exact Or.inr List.mem_cons_self
          | some old =>
            rw [hold] at hconn
            exact Or.inl hconn
        · rw [Function.update_of_ne hfd] at hconn
          exact Or.inl hconn
      · exact Or.inr (List.mem_cons_of_mem _ hmem)
    | writeResponse conn' answers fd' bytes =>
      obtain hconn | hmem := ih h
      · exact Or.inl hconn
      · exact Or.inr (List.mem_cons_of_mem _ hmem)

/-- Nothing has been executed for a connection that has not been taken over.
SOURCE: server.cc:198-246, io_thread.cc:58-75, 108-137, 172-180, 215-235 -/
theorem Serial.executed_eq_nil (h : Serial store N) {conn : ConnId} {fd : Fd} {i : Fin n}
    (hconn : N.accepted[conn]? = some (fd, i)) (hemitted : ofTag conn N.emitted = []) :
    ofTag conn N.executed = [] := by
  have hbatches := h.batches i conn fd hconn
  rw [hemitted, List.append_assoc] at hbatches
  exact List.map_eq_nil_iff.mp (List.append_eq_nil_iff.mp hbatches).1

/-- A response that is posted is one to a connection that was accepted.
SOURCE: server.cc:241 -/
theorem Addressed.responses_accepted (h : Addressed N) (i : Fin n) :
    ∀ p ∈ (N.io i).incoming.flatMap responses, ∃ fd j, N.accepted[p.1]? = some (fd, j) := by
  intro p hp
  obtain ⟨msg, hmsg, hp⟩ := List.mem_flatMap.mp hp
  cases msg with
  | assignConnection conn fd => cases hp
  | writeResponse conn answers fd bytes =>
    cases List.mem_singleton.mp hp
    exact ⟨fd, (h.io i).responses conn answers fd bytes hmsg⟩

/-- A new connection has had no response.
SOURCE: server.cc:198-213 -/
theorem Delivered.accept (h : Delivered N) (howned : Owned N) (haddressed : Addressed N)
    (hserial : Serial store N) (fd : Fd) (i : Fin n) (hclosed : N.files fd = none) :
    ∀ j, DeliveredBy N.executed N.appended N.emitted
      ((N.post i (.assignConnection N.accepted.length fd)).io j) := by
  have hexecuted := ofTag_length_eq_nil hserial.executed
  refine Net.forall_setIo ⟨?_, ?_⟩ h.io
  · intro fd' conn howner
    have hincoming : ((N.io i).incoming ++ [InboxMsg.assignConnection N.accepted.length fd]).flatMap
        responses = (N.io i).incoming.flatMap responses := by
      simp only [List.flatMap_append, List.flatMap_singleton, responses, List.append_nil]
    rw [Thread.owner_append_assign, howned.owner_of_closed hclosed, Option.getD_none] at howner
    rw [hincoming]
    by_cases hfd : fd' = fd
    · rw [hfd, Function.update_self] at howner
      cases howner
      have happended := h.appended N.accepted.length
      rw [hexecuted, List.prefix_nil] at happended
      rw [happended, hexecuted, ofTag_length_eq_nil (haddressed.responses_accepted i)]
      rfl
    · rw [Function.update_of_ne hfd] at howner
      exact (h.io i).owned fd' conn howner
  · intro conn fd' hmsg
    obtain hmsg | hmsg := List.mem_append.mp hmsg
    · exact (h.io i).silent conn fd' hmsg
    · cases List.mem_singleton.mp hmsg
      exact ofTag_length_eq_nil hserial.emitted

/-- A response that is taken is the next one of its connection.
SOURCE: io_thread.cc:131-137 -/
theorem Delivered.takeResponse {i : Fin n} {conn target : ConnId} {answers : List LogEntry}
    {fd : Fd} {bytes : Bytes} {incoming : List InboxMsg} (h : Delivered N) (howned : Owned N)
    (haddressed : Addressed N)
    (hincoming : (N.io i).incoming = .writeResponse conn answers fd bytes :: incoming)
    (htarget : (N.io i).conns fd = some target) :
    Delivered { N.setIo i { N.io i with incoming := incoming } with
      appended := N.appended ++ [⟨target, conn, answers, bytes⟩] } := by
  have hhome := ((howned i).of_conns htarget).2
  -- both connections were accepted on the same descriptor
  have hconn : conn = target := by
    obtain ⟨j, hj⟩ := (haddressed.io i).responses conn answers fd bytes
      (hincoming ▸ List.mem_cons_self)
    exact h.unique hj hhome
  have hdeliveries (conn' : ConnId) :
      ofTag conn' (deliveries (N.appended ++ [⟨target, conn, answers, bytes⟩])) =
        ofTag conn' (deliveries N.appended) ++ ofTag conn' [(target, answers)] := by
    simp only [deliveries, List.map_append, List.map_singleton, ofTag_append]
  have hflat : (N.io i).incoming.flatMap responses =
      [(target, answers)] ++ incoming.flatMap responses := by
    rw [hincoming, List.flatMap_cons, responses, hconn]
  have howner : drained (N.io i).conns incoming = (N.io i).owner := by
    rw [Thread.owner, hincoming]
    rfl
  refine ⟨h.distinct, ?_, ?_⟩
  · intro conn'
    show ofTag conn' (deliveries _) <+: ofTag conn' N.executed
    rw [hdeliveries]
    by_cases heq : target = conn'
    · subst heq
      have howned' := (h.io i).owned fd target (drained_of_some htarget)
      rw [hflat, ofTag_append, ← List.append_assoc] at howned'
      rw [← howned']
      exact List.prefix_append _ _
    · rw [ofTag_cons_of_ne heq, ofTag_nil, List.append_nil]
      exact h.appended conn'
  · intro j
    show DeliveredBy N.executed (N.appended ++ _) N.emitted _
    by_cases hj : j = i
    · subst hj
      simp only [Net.setIo, Function.update_self]
      refine ⟨?_, ?_⟩
      · intro fd' conn' howner'
        have howned' := (h.io j).owned fd' conn' (howner ▸ howner')
        rw [hflat, ofTag_append, ← List.append_assoc] at howned'
        rw [hdeliveries]
        exact howned'
      · intro conn' fd' hmsg
        exact (h.io j).silent conn' fd' (hincoming ▸ List.mem_cons_of_mem _ hmsg)
    · simp only [Net.setIo, Function.update_of_ne hj]
      refine ⟨?_, (h.io j).silent⟩
      intro fd' conn' howner'
      have hother : target ≠ conn' := by
        intro heq
        have hhome' := ((howned j).owner fd' conn' howner').2
        rw [← heq, hhome] at hhome'
        cases hhome'
        exact hj rfl
      rw [hdeliveries, ofTag_cons_of_ne hother, ofTag_nil, List.append_nil]
      exact (h.io j).owned fd' conn' howner'

/-- A response that is dropped is not to an owned connection: it would have to be assigned
still, and then nothing has been read from it.
SOURCE: io_thread.cc:133 -/
theorem Delivered.dropResponse {i : Fin n} {conn : ConnId} {answers : List LogEntry}
    {fd : Fd} {bytes : Bytes} {incoming : List InboxMsg} (h : Delivered N) (howned : Owned N)
    (haddressed : Addressed N) (hserial : Serial store N)
    (hincoming : (N.io i).incoming = .writeResponse conn answers fd bytes :: incoming)
    (hnone : (N.io i).conns fd = none) :
    DeliveredBy N.executed N.appended N.emitted { N.io i with incoming := incoming } := by
  have hflat : (N.io i).incoming.flatMap responses =
      (conn, answers) :: incoming.flatMap responses := by
    rw [hincoming, List.flatMap_cons]
    rfl
  have howner : drained (N.io i).conns incoming = (N.io i).owner := by
    rw [Thread.owner, hincoming]
    rfl
  refine ⟨?_, ?_⟩
  · intro fd' conn' howner'
    replace howner' : (N.io i).owner fd' = some conn' := howner ▸ howner'
    have howned' := (h.io i).owned fd' conn' howner'
    have hother : conn ≠ conn' := by
      intro heq
      subst heq
      have hhome := ((howned i).owner fd' conn howner').2
      obtain ⟨j, hj⟩ := (haddressed.io i).responses conn answers fd bytes
        (hincoming ▸ List.mem_cons_self)
      cases hj.symm.trans hhome
      obtain hconn | hmem := conns_or_mem_of_drained howner'
      · rw [hnone] at hconn
        cases hconn
      · have hexecuted := hserial.executed_eq_nil hhome ((h.io i).silent conn fd hmem)
        rw [hflat, ofTag_cons_self, hexecuted] at howned'
        cases (List.append_eq_nil_iff.mp howned').2
    rwa [hflat, ofTag_cons_of_ne hother] at howned'
  · intro conn' fd' hmsg
    exact (h.io i).silent conn' fd' (hincoming ▸ List.mem_cons_of_mem _ hmsg)

/-- The batch of an owned connection is routed to the thread that owns it.
SOURCE: server.cc:239-241 -/
theorem RoutingTable.executing (h : RoutingTable N) (howned : Owned N) (haddressed : Addressed N)
    {e : Execution} (he : N.executing = some e) {i : Fin n} {fd : Fd}
    (howner : (N.io i).owner fd = some e.conn) : N.fdToThread e.fd = some i := by
  obtain ⟨j, hj⟩ := haddressed.executing e he
  have hhome := ((howned i).owner fd e.conn howner).2
  cases hj.symm.trans hhome
  exact (h i).routed e.fd e.conn howner

/-- A thread that the response is not sent to does not own the connection.
SOURCE: server.cc:239-241 -/
theorem Delivered.finish (h : Delivered N) (howned : Owned N) (haddressed : Addressed N)
    (hrouting : RoutingTable N) {e : Execution} (hexecuting : N.executing = some e) {i : Fin n}
    (hroute : N.fdToThread e.fd ≠ some i) :
    DeliveredBy (N.executed ++ [(e.conn, e.answers)]) N.appended N.emitted (N.io i) := by
  refine ⟨?_, (h.io i).silent⟩
  intro fd conn howner
  have hother : e.conn ≠ conn := by
    intro heq
    subst heq
    exact hroute (hrouting.executing howned haddressed hexecuting howner)
  rw [ofTag_append, ofTag_cons_of_ne hother, ofTag_nil, List.append_nil]
  exact (h.io i).owned fd conn howner

/-- What was appended is the beginning of what was executed, with one batch more.
SOURCE: server.cc:239-241, io_thread.cc:135 -/
theorem Delivered.appended_finish (h : Delivered N) (conn : ConnId) (answers : List LogEntry)
    (conn' : ConnId) :
    ofTag conn' (deliveries N.appended) <+: ofTag conn' (N.executed ++ [(conn, answers)]) := by
  rw [ofTag_append]
  exact (h.appended conn').trans (List.prefix_append _ _)

/-- What a thread emits was read from a connection in its map.
SOURCE: io_thread.cc:179, 230-234 -/
theorem Delivered.push {i : Fin n} {msg : OutboxMsg} (h : Delivered N) (howned : Owned N)
    (hpending : (N.io i).pending = some msg) (j : Fin n) :
    DeliveredBy N.executed N.appended (N.emitted ++ Server.requests msg) (N.io j) := by
  refine ⟨(h.io j).owned, ?_⟩
  intro conn fd hmsg
  rw [ofTag_append, (h.io j).silent conn fd hmsg, List.nil_append]
  apply ofTag_eq_nil
  intro p hp heq
  cases msg with
  | commandBatch conn' fd' values =>
    cases List.mem_singleton.mp hp
    subst heq
    have hconn := (howned i).emitting _ fd' values hpending
    obtain ⟨hnone, howner⟩ := (howned j).fresh.of_mem hmsg
    have hhome := ((howned i).of_conns hconn).2
    cases hhome.symm.trans ((howned j).owner fd _ howner).2
    rw [hnone] at hconn
    cases hconn
  | disconnect conn' fd' => cases hp

/-- **Every step**: the responses of a connection come in the order of its batches, and none is lost
while it is owned.
SOURCE: server.cc:198-246, io_thread.cc:58-75, 108-137, 172-180, 215-235 -/
theorem Delivered.step {N' : Net n} {l : Option Fd} (h : Delivered N) (howned : Owned N)
    (haddressed : Addressed N) (hrouting : RoutingTable N) (hserial : Serial store N)
    (hl : ∀ fd ∈ l, ∀ p ∈ N.accepted, p.1 ≠ fd) (hstep : Net.Step N l N') : Delivered N' := by
  cases hstep with
  | accept fd i hidle hclosed =>
    refine ⟨?_, h.appended, h.accept howned haddressed hserial fd i hclosed⟩
    show ((N.accepted ++ [(fd, i)]).map Prod.fst).Nodup
    rw [List.map_append, List.map_singleton, List.nodup_append]
    refine ⟨h.distinct, List.nodup_singleton fd, ?_⟩
    intro fd' hfd' fd'' hfd''
    obtain ⟨p, hp, rfl⟩ := List.mem_map.mp hfd'
    rw [List.mem_singleton.mp hfd'']
    exact hl fd rfl p hp
  | @takeAssign i conn fd incoming hincoming =>
    have hio := h.io i
    refine ⟨h.distinct, h.appended, Net.forall_setIo ⟨?_, ?_⟩ h.io⟩
    · have howned' := hio.owned
      rw [Thread.owner, hincoming] at howned'
      exact howned'
    · intro conn' fd' hmsg
      exact hio.silent conn' fd' (hincoming ▸ List.mem_cons_of_mem _ hmsg)
  | takeResponse hincoming htarget => exact h.takeResponse howned haddressed hincoming htarget
  | dropResponse hincoming hnone =>
    exact ⟨h.distinct, h.appended,
      Net.forall_setIo (h.dropResponse howned haddressed hserial hincoming hnone) h.io⟩
  | @batch i conn fd values hpending hconn =>
    exact ⟨h.distinct, h.appended, Net.forall_setIo ⟨(h.io i).owned, (h.io i).silent⟩ h.io⟩
  | @close i conn fd hpending hconn =>
    refine ⟨h.distinct, h.appended, Net.forall_setIo ⟨?_, (h.io i).silent⟩ h.io⟩
    intro fd' conn' howner
    rw [Thread.owner, ((howned i).fresh.close hconn).2] at howner
    by_cases hfd : fd' = fd
    · rw [hfd, Function.update_self] at howner
      cases howner
    · rw [Function.update_of_ne hfd] at howner
      exact (h.io i).owned fd' conn' howner
  | @push i msg hpending =>
    have hio (j : Fin n) := h.push howned hpending j
    exact ⟨h.distinct, h.appended, Net.forall_setIo ⟨(hio i).owned, (hio i).silent⟩ hio⟩
  | @takeBatch i conn fd values outbox hidle houtbox =>
    exact ⟨h.distinct, h.appended, Net.forall_setIo ⟨(h.io i).owned, (h.io i).silent⟩ h.io⟩
  | @takeDisconnect i conn fd outbox hidle houtbox =>
    exact ⟨h.distinct, h.appended, Net.forall_setIo ⟨(h.io i).owned, (h.io i).silent⟩ h.io⟩
  | execute hexecuting hrun => exact ⟨h.distinct, h.appended, h.io⟩
  | @respond conn fd answers response i hexecuting hroute =>
    refine ⟨h.distinct, h.appended_finish conn answers, ?_⟩
    intro j
    by_cases hj : j = i
    · subst hj
      simp only [Net.post, Net.setIo, Function.update_self]
      refine ⟨?_, ?_⟩
      · intro fd' conn' howner
        rw [Thread.owner_append_response] at howner
        rw [List.flatMap_append, ofTag_append, ofTag_append, ← List.append_assoc,
          (h.io j).owned fd' conn' howner]
        rfl
      · intro conn' fd' hmsg
        obtain hmsg | hmsg := List.mem_append.mp hmsg
        · exact (h.io j).silent conn' fd' hmsg
        · cases List.mem_singleton.mp hmsg
    · have hio := h.finish howned haddressed hrouting hexecuting (i := j) (by
        rw [hroute]
        exact fun heq => hj (Option.some.inj heq).symm)
      simpa only [Net.post, Net.setIo, Function.update_of_ne hj] using hio
  | @skip conn fd answers response hexecuting hroute =>
    refine ⟨h.distinct, h.appended_finish conn answers, ?_⟩
    intro i
    apply h.finish howned haddressed hrouting hexecuting
    rw [hroute]
    exact (Option.some_ne_none i).symm

/-- At the start nothing has been delivered.
SOURCE: server.cc:198-246, io_thread.cc:58-75, 108-137, 172-180, 215-235 -/
theorem delivered_init (store : Store) : Delivered (Net.init store : Net n) := by
  refine ⟨List.nodup_nil, fun conn => List.prefix_refl _, fun i => ⟨?_, ?_⟩⟩
  · intro fd conn howner
    cases howner
  · intro conn fd hmsg
    cases hmsg

end Delivered

/-! ## The server -/

/-- The descriptor has not been accepted before. -/
def NeverAccepted (s : Server n) (fd : Fd) : Prop := ∀ p ∈ s.accepted, p.1 ≠ fd

instance (s : Server n) (fd : Fd) : Decidable (NeverAccepted s fd) :=
  inferInstanceAs (Decidable (∀ p ∈ s.accepted, p.1 ≠ fd))

/-- A descriptor that has not been accepted is in no message.
SOURCE: io_thread.cc:221 -/
theorem Addressed.noDisconnectFor {N : Net n} (h : Addressed N) {fd : Fd}
    (hfd : ∀ p ∈ N.accepted, p.1 ≠ fd) : N.NoDisconnectFor fd := by
  intro i
  refine ⟨?_, ?_⟩
  · intro msg hmsg heq
    cases msg with
    | commandBatch conn fd' values => cases heq
    | disconnect conn fd' =>
      cases heq
      exact hfd _ (List.mem_of_getElem? ((h.io i).pending _ hmsg)) rfl
  · intro msg hmsg heq
    cases msg with
    | commandBatch conn fd' values => cases heq
    | disconnect conn fd' =>
      cases heq
      exact hfd _ (List.mem_of_getElem? ((h.io i).outbox _ hmsg)) rfl

/-- What is being executed is the beginning of a batch.
SOURCE: server.cc:229-246 -/
theorem answering_prefix_underway (N : Net n) (conn : ConnId) :
    (ofTag conn N.answering).flatten.map LogEntry.request <+: (ofTag conn N.underway).flatten := by
  unfold Net.answering Net.underway
  cases N.executing with
  | none => exact List.prefix_refl _
  | some e =>
    simp only [Option.toList_some, List.map_singleton]
    by_cases heq : e.conn = conn
    · subst heq
      simp only [ofTag_cons_self, ofTag_nil, List.flatten_cons, List.flatten_nil, List.append_nil]
      exact List.prefix_append _ _
    · simp only [ofTag_cons_of_ne heq, ofTag_nil, List.flatten_nil, List.map_nil]
      exact List.prefix_refl _

/-- Executed batches, as requests, are those that were emitted first.
SOURCE: server.cc:215-242 -/
theorem Serial.executed_prefix_emitted {store : Store} {N : Net n} (h : Serial store N)
    (conn : ConnId) :
    (ofTag conn N.executed).map (List.map LogEntry.request) <+: ofTag conn N.emitted := by
  cases hconn : N.accepted[conn]? with
  | some home =>
    obtain ⟨fd, i⟩ := home
    rw [← h.batches i conn fd hconn, List.append_assoc]
    exact List.prefix_append _ _
  | none =>
    have hnil : ofTag conn N.executed = [] := by
      apply ofTag_eq_nil
      intro p hp heq
      obtain ⟨fd, i, hp⟩ := h.executed p hp
      rw [heq, hconn] at hp
      cases hp
    rw [hnil]
    exact List.nil_prefix

/-- Executed requests are those that were emitted first.
SOURCE: server.cc:215-246 -/
theorem Serial.log_prefix_emitted {store : Store} {N : Net n} (h : Serial store N)
    (haddressed : Addressed N) (conn : ConnId) :
    (ofTag conn (entries N.log)).map LogEntry.request <+: (ofTag conn N.emitted).flatten := by
  cases hconn : N.accepted[conn]? with
  | some home =>
    obtain ⟨fd, i⟩ := home
    rw [← h.log conn, ← h.batches i conn fd hconn, List.map_append, List.map_flatten,
      List.append_assoc, List.flatten_append, List.flatten_append]
    apply (List.prefix_append_right_inj _).mpr
    exact (answering_prefix_underway N conn).trans (List.prefix_append _ _)
  | none =>
    have hexecuted : ofTag conn N.executed = [] := by
      apply ofTag_eq_nil
      intro p hp heq
      obtain ⟨fd, i, hp⟩ := h.executed p hp
      rw [heq, hconn] at hp
      cases hp
    have hanswering : ofTag conn N.answering = [] := by
      apply ofTag_eq_nil
      intro p hp heq
      obtain ⟨e, he, rfl⟩ := List.mem_map.mp hp
      obtain ⟨i, hi⟩ := haddressed.executing e (Option.mem_toList.mp he)
      subst heq
      cases hi.symm.trans hconn
    rw [← h.log conn, hexecuted, hanswering]
    exact List.nil_prefix

/-- When nothing of a connection is queued or in execution, all of it has been executed.
SOURCE: server.cc:215-246 -/
theorem Serial.log_eq {store : Store} {N : Net n} (h : Serial store N) {conn : ConnId} {fd : Fd}
    {i : Fin n} (hconn : N.accepted[conn]? = some (fd, i)) (houtbox : (N.io i).outbox = [])
    (hexecuting : ∀ e ∈ N.executing, e.conn ≠ conn) :
    (ofTag conn (entries N.log)).map LogEntry.request = (ofTag conn N.emitted).flatten := by
  have hunderway : ofTag conn N.underway = [] := by
    apply ofTag_eq_nil
    intro p hp
    obtain ⟨e, he, rfl⟩ := List.mem_map.mp hp
    exact hexecuting e (Option.mem_toList.mp he)
  have hanswering : ofTag conn N.answering = [] := by
    apply ofTag_eq_nil
    intro p hp
    obtain ⟨e, he, rfl⟩ := List.mem_map.mp hp
    exact hexecuting e (Option.mem_toList.mp he)
  rw [← h.log conn, ← h.batches i conn fd hconn, hunderway, hanswering, houtbox, List.flatMap_nil,
    ofTag_nil, List.flatten_nil, List.append_nil, List.append_nil, List.append_nil,
    List.map_flatten]

/-- To concatenate and to collect can be done in either order. -/
theorem map_flatMap_flatten {α β : Type} (f : α → List β) (l : List (List α)) :
    (l.map fun a => a.flatMap f).flatten = l.flatten.flatMap f := by
  rw [← List.flatMap_def, ← List.flatMap_id, List.flatMap_assoc]
  rfl

/-- What has been appended for a connection are the replies to its first batches.
SOURCE: server.cc:234-241, io_thread.cc:135 -/
theorem Delivered.replies {store : Store} {N : Net n} (h : Delivered N) (hserial : Serial store N)
    (hanswered : Answered N) (conn : ConnId) :
    ∃ k, ((ofTag conn N.emitted).take k).flatten.length ≤ (ofTag conn (entries N.log)).length ∧
      (ofTag conn (N.appended.map fun a => (a.target, a.bytes))).flatten =
        ((ofTag conn (entries N.log)).take ((ofTag conn N.emitted).take k).flatten.length).flatMap
          fun entry => entry.reply.serialize := by
  have hbatches := ((h.appended conn).map (List.map LogEntry.request)).trans
    (hserial.executed_prefix_emitted conn)
  have hlog : (ofTag conn (deliveries N.appended)).flatten <+: ofTag conn (entries N.log) := by
    rw [← hserial.log conn]
    exact (h.appended conn).flatten.trans (List.prefix_append _ _)
  have hbytes : N.appended.map (fun a => (a.target, a.bytes)) = (deliveries N.appended).map
      fun p => (p.1, p.2.flatMap fun entry => entry.reply.serialize) := by
    rw [deliveries, List.map_map]
    apply List.map_congr_left
    intro a ha
    exact congrArg (a.target, ·) (hanswered.appended a ha).bytes_eq
  -- the batches answered are the first ones emitted, their replies the first ones executed
  have htake := List.prefix_iff_eq_take.mp hbatches
  rw [List.length_map] at htake
  have hcount :
      ((ofTag conn N.emitted).take (ofTag conn (deliveries N.appended)).length).flatten.length =
        (ofTag conn (deliveries N.appended)).flatten.length := by
    rw [← htake, ← List.map_flatten, List.length_map]
  refine ⟨(ofTag conn (deliveries N.appended)).length, ?_, ?_⟩
  · rw [hcount]
    exact hlog.length_le
  · rw [hcount, ← List.prefix_iff_eq_take.mp hlog, hbytes, ofTag_map, map_flatMap_flatten]

/-- Everything that holds in a run in which no descriptor is accepted twice.
SOURCE: server.cc:198-246, io_thread.cc:58-75, 108-137, 172-180, 215-235 -/
theorem serial_of_reachable [NeZero n] {store : Store} {s : Server n}
    (h : Reachable NeverAccepted store s) :
    Addressed (view s) ∧ Serial store (view s) ∧ Delivered (view s) ∧ Answered (view s) := by
  have hreaches := reaches_view (fun N fd => ∀ p ∈ N.accepted, p.1 ≠ fd) (fun _ _ hfd => hfd) h
  have hinv := Reaches.invariant (I := fun N => (Owned N ∧ RoutingTable N) ∧
      Addressed N ∧ Serial store N ∧ Delivered N ∧ Answered N) ?_ ?_ hreaches
  · exact hinv.2
  · exact ⟨⟨owned_init store, routingTable_init store⟩, addressed_init store, serial_init store,
      delivered_init store, answered_init store⟩
  · rintro N l N' ⟨⟨howned, hrouting⟩, haddressed, hserial, hdelivered, hanswered⟩ hl hstep
    refine ⟨⟨howned.step hstep, ?_⟩, Addressed.step howned haddressed hstep,
      hserial.step haddressed hstep,
      hdelivered.step howned haddressed hrouting hserial hl hstep, hanswered.step hstep⟩
    exact hrouting.step howned (fun fd hfd => haddressed.noDisconnectFor (hl fd hfd)) hstep

/-- The requests executed for a connection, with their replies. -/
def executedFor (s : Server n) (conn : ConnId) : List LogEntry := ofTag conn (entries s.log)

/-- The batches emitted for a connection. -/
def emittedFor (s : Server n) (conn : ConnId) : List (List RespValue) := ofTag conn s.emitted

/-- The bytes appended to the out buffer of a connection. -/
def appendedTo (s : Server n) (conn : ConnId) : Bytes :=
  (ofTag conn (s.appended.map fun a => (a.target, a.bytes))).flatten

/-- The main thread is executing a batch of the connection. -/
def Executing (s : Server n) (conn : ConnId) : Prop :=
  ∃ answers fd values response, s.busy = .execute conn answers fd values response

/-- A batch that is in execution in the protocol is so in the server.
SOURCE: server.cc:229-246 -/
theorem executing_of_view {s : Server n} {e : Execution} {conn : ConnId}
    (he : e ∈ (view s).executing) (hconn : e.conn = conn) : Executing s conn := by
  cases hbusy : s.busy with
  | execute conn' answers fd values response =>
    have heq : e = ⟨conn', fd, answers, values, response⟩ := by
      rw [view, hbusy] at he
      cases he
      rfl
    rw [heq] at hconn
    rw [← hconn]
    exact ⟨answers, fd, values, response, hbusy⟩
  | idle | postAssign | postResponse | notify =>
    rw [view, hbusy] at he
    cases he

/-- The server behaves like one that executes the requests of its clients one after another. -/
structure SerialEquivalence (store : Store) (s : Server n) : Prop where
  /-- the store is what the executed requests, one after another, make of the first store -/
  replay : dispatchAll store (s.log.map fun entry => (entry.now, entry.request)) =
    .ok (s.log.map LogEntry.reply, s.store)
  /-- the requests executed for a connection are the first ones emitted for it -/
  order : ∀ conn, (executedFor s conn).map LogEntry.request <+: (emittedFor s conn).flatten
  /-- they are all of them when the outbox of its thread has been emptied -/
  complete : ∀ p ∈ s.emitted, ∃ fd i, s.accepted[p.1]? = some (fd, i) ∧
    ((s.io i).outbox.items = [] → ¬ Executing s p.1 →
      (executedFor s p.1).map LogEntry.request = (emittedFor s p.1).flatten)
  /-- what has been appended to its out buffer are the replies to its first `k` batches -/
  replies : ∀ conn, ∃ k,
    ((emittedFor s conn).take k).flatten.length ≤ (executedFor s conn).length ∧
      appendedTo s conn = ((executedFor s conn).take
        ((emittedFor s conn).take k).flatten.length).flatMap fun entry => entry.reply.serialize

/-- **Serial equivalence and the order of a connection**, if no descriptor is accepted twice.
SOURCE: server.cc:198-246, io_thread.cc:58-75, 108-137, 172-180, 215-235 -/
theorem serialEquivalence_of_reachable [NeZero n] {store : Store} {s : Server n}
    (h : Reachable NeverAccepted store s) : SerialEquivalence store s := by
  obtain ⟨haddressed, hserial, hdelivered, hanswered⟩ := serial_of_reachable h
  refine ⟨hserial.replay, hserial.log_prefix_emitted haddressed, ?_,
    hdelivered.replies hserial hanswered⟩
  intro p hp
  obtain ⟨fd, i, hconn⟩ := hserial.emitted p hp
  refine ⟨fd, i, hconn, ?_⟩
  intro houtbox hexecuting
  exact hserial.log_eq hconn houtbox fun e he heq => hexecuting (executing_of_view he heq)

/-- One client has sent PING.
SOURCE: server.cc:198-246, io_thread.cc:58-75, 108-137, 172-180, 215-235 -/
theorem serialEquivalence_ping :
    ∃ s : Server 1, Reachable NeverAccepted Store.empty s ∧
      appendedTo s 0 = ascii "+PONG\r\n" ∧ SerialEquivalence Store.empty s := by
  have hrun : (runAll Server.step (Accepts NeverAccepted) (Server.init Store.empty)
      (acceptRun [] ++ inboxRun 0 [] ++ pingRun .wouldBlockOrInterrupted 0 ++
        .main { events := [.command] } :: List.replicate 7 (.main {}) ++ inboxRun 0 [.sent 7])).map
      (fun s => appendedTo s 0) = some (ascii "+PONG\r\n") := by
    decide +kernel
  obtain ⟨s, hs, happended⟩ := Option.map_eq_some_iff.mp hrun
  have hreachable : Reachable NeverAccepted Store.empty s := reaches_of_runAll hs
  exact ⟨s, hreachable, happended, serialEquivalence_of_reachable hreachable⟩

end MyRedis.Analysis

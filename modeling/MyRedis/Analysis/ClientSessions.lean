import MyRedis.Analysis.SerialEquivalence
import MyRedis.Analysis.Wakeups
import MyRedis.Model.Traffic

/-!
# What a client sends and what it gets back

`SerialEquivalence.lean` speaks about batches and out buffers.  Here the sockets come in: whatever
the threads do and however the bytes are split by `recv` and `send`, the requests executed for a
connection are the first ones in the bytes read from it, and the bytes sent to it are a prefix of
the replies to these, so that a client that parses them gets the first replies, in order
(`clients_served`).  When all threads wait and no event is ready, nothing is missing
(`idle_server_has_answered`).

A `Tally` is what has gone through one connection.  A connection in the map of a thread that is not
about to be closed accounts for all of it (`Tally.Open`): what was read has been emitted, is being
emitted or is in its parse queue, and what was appended has been sent or is in its out buffer.  Of a
connection that has been closed the prefixes remain (`Tally.Sound`).
-/

set_option autoImplicit false

namespace MyRedis.Analysis

open MyRedis.Model MyRedis.Model.RespValue MyRedis.Lib

/-! ## One connection -/

/-- What has gone through a connection: the bytes read from it, the requests emitted for it, the
bytes appended to its out buffer, and those that its socket has taken. -/
structure Tally where
  received : Bytes
  emitted : List RespValue
  appended : Bytes
  sent : Bytes

namespace Tally

/-- Nothing yet. -/
def zero : Tally := ⟨[], [], [], []⟩

/-- Only what was read is emitted, and only what was appended is sent. -/
structure Sound (T : Tally) : Prop where
  reads : T.emitted <+: parse T.received
  writes : T.sent <+: T.appended

/-- Everything is accounted for, with the requests that are being emitted. -/
structure Open (T : Tally) (pending : List RespValue) (conn : Connection) : Prop where
  between : Between T.received conn
  wellFormed : ¬ Malformed T.received
  emitted : T.emitted ++ pending = parse T.received
  sent : T.sent ++ conn.outBuffer = T.appended
  writable : conn.writable = !conn.outBuffer.isEmpty

/-- A connection in the map of a thread, which may be about to be closed. -/
structure Entry (T : Tally) (pending : List RespValue) (closing : Bool) (conn : Connection) :
    Prop where
  emitting : T.emitted ++ pending <+: parse T.received
  opened : closing = false → T.Open pending conn

variable {T : Tally} {pending : List RespValue} {conn conn' : Connection}

/-- An open connection has an entry, whether or not it is to be closed next.
SOURCE: server.cc:150-246, io_thread.cc:58-242 -/
theorem Open.entry (h : T.Open pending conn) (closing : Bool) : T.Entry pending closing conn :=
  ⟨h.emitted ▸ List.prefix_refl _, fun _ => h⟩

/-- An entry stays one when its connection is to be closed next.
SOURCE: server.cc:150-246, io_thread.cc:58-242 -/
theorem Entry.mono {closing closing' : Bool} (h : T.Entry pending closing conn)
    (hclosing : closing = true → closing' = true) : T.Entry pending closing' conn := by
  refine ⟨h.emitting, ?_⟩
  rintro rfl
  apply h.opened
  cases closing with
  | false => rfl
  | true => exact (hclosing rfl).symm

/-- The requests are emitted.
SOURCE: io_thread.cc:179, 230-234 -/
theorem Entry.push {closing : Bool} (h : T.Entry pending closing conn) :
    Entry { T with emitted := T.emitted ++ pending } [] closing conn := by
  refine ⟨?_, ?_⟩
  · rw [List.append_nil]
    exact h.emitting
  · intro hopen
    obtain ⟨hbetween, hwellFormed, hemitted, hsent, hwritable⟩ := h.opened hopen
    refine ⟨hbetween, hwellFormed, ?_, hsent, hwritable⟩
    rw [List.append_nil]
    exact hemitted

/-- A new connection has read nothing and has nothing to send.
SOURCE: connection.h:13-22 -/
theorem open_new (fd : Fd) : zero.Open [] (Connection.new fd) :=
  ⟨between_new fd, not_malformed_nil, parse_nil.symm, rfl, rfl⟩

/-- A connection that nothing has passed through is accounted for.
SOURCE: server.cc:150-246, io_thread.cc:58-242 -/
theorem zero_sound : zero.Sound := ⟨List.nil_prefix, List.prefix_refl _⟩

/-- Reading leaves what is to be sent as it is.
SOURCE: io_thread.cc:139-180 -/
theorem handleReadable_out (conn : Connection) (ev : ReadableEvent) :
    (handleReadable conn ev).conn.outBuffer = conn.outBuffer ∧
      (handleReadable conn ev).conn.writable = conn.writable := by
  unfold handleReadable
  split
  next conn' alive hread =>
    cases hread
    split <;> exact ⟨rfl, rfl⟩

/-- **A readable event.**  The requests it completes are emitted next; on a malformed stream, and
when the peer is gone, the connection is closed.
SOURCE: io_thread.cc:139-180 -/
theorem Open.read (h : T.Open [] conn) (ev : ReadableEvent) :
    Entry { T with received := T.received ++ ev.bytes } (handleReadable conn ev).batch
      (handleReadable conn ev).close (handleReadable conn ev).conn := by
  have hemitted := h.emitted
  rw [List.append_nil] at hemitted
  by_cases hmalformed : Malformed (T.received ++ ev.bytes)
  · obtain ⟨hbatch, hclose⟩ := handleReadable_of_malformed h.between hmalformed
    refine ⟨?_, ?_⟩
    · rw [hbatch, List.append_nil, hemitted]
      exact parse_prefix _ _
    · intro hopen
      rw [hclose] at hopen
      cases hopen
  · obtain ⟨hbatch, hbetween, -⟩ := handleReadable_of_wellFormed h.between hmalformed
    apply Open.entry
    obtain ⟨hout, hwritable⟩ := handleReadable_out conn ev
    refine ⟨hbetween, hmalformed, ?_, ?_, ?_⟩
    · rw [hemitted]
      exact hbatch
    · rw [hout]
      exact h.sent
    · rw [hout, hwritable]
      exact h.writable

/-- What `send` takes is the front of the out buffer; if nothing fails, the rest is what
remains.
SOURCE: io_thread.cc:193-208 -/
theorem sendLoop_taken {out : Bytes} {results : List SendResult} {left : Option Bytes}
    (h : sendLoop out results = some left) :
    ∃ rest, sendTaken out results ++ rest = out ∧ ∀ remaining ∈ left, rest = remaining := by
  induction out, results using sendLoop.induct with
  | case1 results =>
    rw [sendLoop] at h
    cases h
    refine ⟨[], ?_, ?_⟩
    · cases results <;> rfl
    · intro remaining hremaining
      exact Option.some.inj hremaining
  | case2 => cases h
  | case3 b bs results =>
    rw [sendLoop, if_pos rfl] at h
    cases h
    refine ⟨b :: bs, ?_, ?_⟩
    · rw [sendTaken, if_pos rfl, List.nil_append]
    · intro remaining hremaining
      cases hremaining
  | case4 b bs n results hn hle ih =>
    rw [sendLoop, if_neg hn, if_pos hle] at h
    obtain ⟨rest, htaken, hrest⟩ := ih h
    refine ⟨rest, ?_, hrest⟩
    rw [sendTaken, if_neg hn, List.append_assoc, htaken, List.take_append_drop]
  | case5 b bs n results hn hle =>
    rw [sendLoop, if_neg hn, if_neg hle] at h
    cases h
  | case6 b bs results =>
    cases h
    refine ⟨b :: bs, rfl, ?_⟩
    intro remaining hremaining
    exact Option.some.inj hremaining
  | case7 b bs results =>
    cases h
    refine ⟨b :: bs, rfl, ?_⟩
    intro remaining hremaining
    cases hremaining

/-- **A flush**, of what was appended before and of `bytes`.
SOURCE: io_thread.cc:188-213 -/
theorem Open.flush {bytes : Bytes} {sends : List SendResult} {failed : Bool}
    (h : T.Open pending conn)
    (hflush : flushOutBuffer { conn with outBuffer := conn.outBuffer ++ bytes } sends =
      some (conn', failed)) :
    let taken := sendTaken (conn.outBuffer ++ bytes) sends
    let T' : Tally := { T with appended := T.appended ++ bytes, sent := T.sent ++ taken }
    T'.sent <+: T'.appended ∧ T'.Entry pending failed conn' := by
  intro taken T'
  obtain ⟨left, hloop, heq⟩ := Option.map_eq_some_iff.mp hflush
  obtain ⟨rest, htaken, hrest⟩ := sendLoop_taken hloop
  have happended : T'.sent ++ rest = T'.appended := by
    show T.sent ++ taken ++ rest = T.appended ++ bytes
    rw [← h.sent, List.append_assoc, List.append_assoc, htaken]
  refine ⟨⟨rest, happended⟩, h.emitted ▸ List.prefix_refl _, ?_⟩
  intro hopen
  cases left with
  | none =>
    cases heq
    cases hopen
  | some remaining =>
    cases heq
    exact ⟨h.between, h.wellFormed, h.emitted, hrest remaining rfl ▸ happended, rfl⟩

end Tally

/-! ## The connections of a thread -/

variable {n : ℕ}

/-- The requests of a connection that a thread is emitting. -/
def pendingFor (conn : ConnId) (busy : IoBusy) : List RespValue :=
  (ofTag conn ((pendingOf busy).toList.flatMap Server.requests)).flatten

/-- The connection is closed next. -/
def closing (fd : Fd) : List IoTask → Bool
  | .closeConnection fd' :: _ => fd' = fd
  | _ => false

/-- The bytes read from a connection. -/
def receivedFrom (t : Traffic n) (conn : ConnId) : Bytes := (ofTag conn t.received).flatten

/-- The bytes sent to a connection. -/
def sentTo (t : Traffic n) (conn : ConnId) : Bytes := (ofTag conn t.sent).flatten

/-- What has gone through a connection. -/
def tally (t : Traffic n) (conn : ConnId) : Tally :=
  ⟨receivedFrom t conn, (emittedFor t.server conn).flatten, appendedTo t.server conn, sentTo t conn⟩

/-- The connections in the map of a thread are accounted for. -/
def AccountedBy (τ : ConnId → Tally) (th : IoThread) : Prop :=
  ∀ fd client, th.connections fd = some client →
    (τ client.id).Entry (pendingFor client.id th.busy) (closing fd th.todo) client.conn

/-- **Every connection is accounted for.** -/
structure Served (t : Traffic n) : Prop where
  sound : ∀ conn, (tally t conn).Sound
  io : ∀ i, AccountedBy (tally t) (t.server.io i)
  /-- nothing has gone through a connection that has still to be taken over -/
  assigned : ∀ i conn fd, .assignConnection conn fd ∈ ((view t.server).io i).incoming →
    tally t conn = .zero
  unaccepted : ∀ conn, t.server.accepted.length ≤ conn → tally t conn = .zero

/-- A thread whose connections have not changed, and which goes on to close what it was going to
close.
SOURCE: server.cc:150-246, io_thread.cc:58-242 -/
theorem AccountedBy.of_eq {τ : ConnId → Tally} {th th' : IoThread} (h : AccountedBy τ th)
    (hconns : th'.connections = th.connections)
    (hpending : ∀ conn, pendingFor conn th'.busy = pendingFor conn th.busy)
    (hclosing : ∀ fd client, th.connections fd = some client → closing fd th.todo = true →
      closing fd th'.todo = true) : AccountedBy τ th' := by
  intro fd client hclient
  rw [hconns] at hclient
  rw [hpending]
  exact (h fd client hclient).mono (hclosing fd client hclient)

/-- A thread whose connections another thread has nothing to do with.
SOURCE: server.cc:150-246, io_thread.cc:58-242 -/
theorem AccountedBy.of_tally {τ τ' : ConnId → Tally} {th : IoThread} (h : AccountedBy τ th)
    (hτ : ∀ fd client, th.connections fd = some client → τ' client.id = τ client.id) :
    AccountedBy τ' th := by
  intro fd client hclient
  rw [hτ fd client hclient]
  exact h fd client hclient

/-- An entry of the map changes, and with it the tally of its connection only.
SOURCE: server.cc:150-246, io_thread.cc:58-242 -/
theorem AccountedBy.update {τ τ' : ConnId → Tally} {th th' : IoThread} {fd : Fd}
    {entry : Option Client} (h : AccountedBy τ th)
    (hconns : th'.connections = Function.update th.connections fd entry)
    (hentry : ∀ client ∈ entry, (τ' client.id).Entry (pendingFor client.id th'.busy)
      (closing fd th'.todo) client.conn)
    (hclosing : ∀ fd', fd' ≠ fd → closing fd' th.todo = true → closing fd' th'.todo = true)
    (hothers : ∀ fd' client, fd' ≠ fd → th.connections fd' = some client →
      τ' client.id = τ client.id ∧ pendingFor client.id th'.busy = pendingFor client.id th.busy) :
    AccountedBy τ' th' := by
  intro fd' client hclient
  rw [hconns] at hclient
  by_cases hfd : fd' = fd
  · subst hfd
    rw [Function.update_self] at hclient
    exact hentry client hclient
  · rw [Function.update_of_ne hfd] at hclient
    obtain ⟨hτ, hpending⟩ := hothers fd' client hfd hclient
    rw [hτ, hpending]
    exact (h fd' client hclient).mono (hclosing fd' hfd)

/-! ## Steps of an IO thread -/

/-- What a step of thread `i` does: it touches the tally of a connection in its map only. -/
structure Accounts (i : Fin n) (t t' : Traffic n) : Prop where
  sound : ∀ conn, (tally t' conn).Sound
  touched : ∀ conn, tally t' conn = tally t conn ∨
    ∃ fd client, (t.server.io i).connections fd = some client ∧ client.id = conn
  io : AccountedBy (tally t') (t'.server.io i)

section Io

variable {t : Traffic n} {i : Fin n} {server : Server n}

/-- A connection in the map of a thread was assigned to it.
SOURCE: io_thread.cc:123 -/
theorem home_of_client {s : Server n} (howned : Owned (view s)) {fd : Fd} {client : Client}
    (h : (s.io i).connections fd = some client) : s.accepted[client.id]? = some (fd, i) := by
  refine ((howned i).of_conns ?_).2
  simp only [view, viewIo, h, Option.map_some]

/-- Two entries of a map are of different connections.
SOURCE: server.cc:150-246, io_thread.cc:58-242 -/
theorem id_ne_of_fd_ne {s : Server n} (howned : Owned (view s)) {fd fd' : Fd}
    {client client' : Client} (h : (s.io i).connections fd = some client)
    (h' : (s.io i).connections fd' = some client') (hne : fd' ≠ fd) : client'.id ≠ client.id := by
  intro heq
  have hhome := home_of_client howned h
  rw [← heq, home_of_client howned h'] at hhome
  cases hhome
  exact hne rfl

/-- The tally reads these four records only. -/
theorem tally_of_eq {t' : Traffic n} (hemitted : t'.server.emitted = t.server.emitted)
    (happended : t'.server.appended = t.server.appended) (hreceived : t'.received = t.received)
    (hsent : t'.sent = t.sent) : tally t' = tally t := by
  funext conn
  simp only [tally, emittedFor, appendedTo, receivedFrom, sentTo, hemitted, happended, hreceived,
    hsent]

/-- Nothing passes through a socket, and nothing is emitted or appended.
SOURCE: server.cc:150-246, io_thread.cc:58-242 -/
theorem accounts_of_eq (h : Served t) (hemitted : server.emitted = t.server.emitted)
    (happended : server.appended = t.server.appended)
    (hio : AccountedBy (tally t) (server.io i)) : Accounts i t ⟨server, t.received, t.sent⟩ := by
  have htally : tally ⟨server, t.received, t.sent⟩ = tally t :=
    tally_of_eq hemitted happended rfl rfl
  refine ⟨?_, ?_, ?_⟩
  · rw [htally]
    exact h.sound
  · intro conn
    exact Or.inl (congrFun htally conn)
  · rw [htally]
    exact hio

/-- The tally of one connection of the thread changes, with its entry in the map.
SOURCE: server.cc:150-246, io_thread.cc:58-242 -/
theorem accounts_update (h : Served t) (howned : Owned (view t.server)) {t' : Traffic n} {fd : Fd}
    {client : Client} (hclient : (t.server.io i).connections fd = some client) (client' : Client)
    (hid : client'.id = client.id)
    (hconns : (t'.server.io i).connections =
      Function.update (t.server.io i).connections fd (some client'))
    (hclosing : ∀ fd', fd' ≠ fd → closing fd' (t.server.io i).todo = true →
      closing fd' (t'.server.io i).todo = true)
    (hpending : ∀ conn, conn ≠ client.id → pendingFor conn (t'.server.io i).busy =
      pendingFor conn (t.server.io i).busy)
    (hothers : ∀ conn, conn ≠ client.id → tally t' conn = tally t conn)
    (hsound : (tally t' client.id).Sound)
    (hentry : (tally t' client.id).Entry (pendingFor client.id (t'.server.io i).busy)
      (closing fd (t'.server.io i).todo) client'.conn) : Accounts i t t' := by
  refine ⟨?_, ?_, ?_⟩
  · intro conn
    by_cases hconn : conn = client.id
    · rw [hconn]
      exact hsound
    · rw [hothers conn hconn]
      exact h.sound conn
  · intro conn
    by_cases hconn : conn = client.id
    · exact Or.inr ⟨fd, client, hclient, hconn.symm⟩
    · exact Or.inl (hothers conn hconn)
  · refine (h.io i).update hconns ?_ hclosing ?_
    · intro client'' hmem
      cases hmem
      rw [hid]
      exact hentry
    · intro fd' client'' hfd hclient''
      have hne := id_ne_of_fd_ne howned hclient hclient'' hfd
      exact ⟨hothers _ hne, hpending _ hne⟩

/-- A thread has pushed the message it was emitting.
SOURCE: io_thread.cc:230-234 -/
theorem accounts_pushOutbox (h : Served t) (howned : Owned (view t.server)) {msg : OutboxMsg}
    (hbusy : (t.server.io i).busy = .emit msg) :
    Accounts i t ⟨t.server.pushOutbox i msg, t.received, t.sent⟩ := by
  cases hpush : (t.server.io i).outbox.push msg with
  | none =>
    simp only [Server.pushOutbox, hpush]
    refine accounts_of_eq h rfl rfl ?_
    simp only [Server.setIo, Function.update_self]
    refine (h.io i).of_eq rfl ?_ (fun _ _ _ hclosing => hclosing)
    intro conn
    rw [hbusy]
    rfl
  | some outbox =>
    cases msg with
    | disconnect conn fd =>
      simp only [Server.pushOutbox, hpush]
      refine accounts_of_eq h (List.append_nil _) rfl ?_
      simp only [Server.setIo, Function.update_self]
      refine (h.io i).of_eq rfl ?_ (fun _ _ _ hclosing => hclosing)
      intro conn'
      rw [hbusy]
      rfl
    | commandBatch conn fd values =>
      -- the batch was read from a connection in the map
      have hconns : ((view t.server).io i).conns fd = some conn := by
        refine (howned i).emitting conn fd values ?_
        simp only [view, viewIo, hbusy, pendingOf]
      obtain ⟨client, hclient, rfl⟩ := Option.map_eq_some_iff.mp hconns
      have hpending : pendingFor client.id (t.server.io i).busy = values := by
        rw [hbusy]
        simp only [pendingFor, pendingOf, Option.toList_some, List.flatMap_singleton,
          Server.requests, ofTag_cons_self, ofTag_nil, List.flatten_singleton]
      have hnone : ∀ conn, conn ≠ client.id → pendingFor conn (t.server.io i).busy = [] := by
        intro conn hne
        rw [hbusy]
        simp only [pendingFor, pendingOf, Option.toList_some, List.flatMap_singleton,
          Server.requests, ofTag_cons_of_ne hne.symm, ofTag_nil, List.flatten_nil]
      have hentry := h.io i fd client hclient
      rw [hpending] at hentry
      have hself : tally ⟨t.server.pushOutbox i (.commandBatch client.id fd values), t.received,
          t.sent⟩ client.id =
            { tally t client.id with emitted := (tally t client.id).emitted ++ values } := by
        simp only [tally, receivedFrom, sentTo, emittedFor, appendedTo, Server.pushOutbox, hpush,
          Server.requests, ofTag_concat_self, List.flatten_append, List.flatten_singleton,
          Server.setIo]
      refine accounts_update h howned hclient _ rfl ?_ ?_ ?_ ?_ ?_ ?_
      · simp only [Server.pushOutbox, hpush, Server.setIo, Function.update_self]
        exact (Function.update_eq_self_iff.mpr hclient.symm).symm
      · intro fd' _ hclosing
        simpa only [Server.pushOutbox, hpush, Server.setIo, Function.update_self] using hclosing
      · intro conn hne
        rw [hnone conn hne]
        simp only [Server.pushOutbox, hpush, Server.setIo, Function.update_self]
        rfl
      · intro conn hne
        simp only [tally, receivedFrom, sentTo, emittedFor, appendedTo, Server.pushOutbox, hpush,
          Server.requests, ofTag_concat_of_ne hne.symm, Server.setIo]
      · rw [hself]
        exact ⟨hentry.emitting, (h.sound client.id).writes⟩
      · rw [hself]
        simp only [Server.pushOutbox, hpush, Server.setIo, Function.update_self]
        exact hentry.push

/-- A thread that goes on with something else than closing a connection.
SOURCE: server.cc:150-246, io_thread.cc:58-242 -/
theorem accountedBy_of_open {τ : ConnId → Tally} {th th' : IoThread} (h : AccountedBy τ th)
    (hconns : th'.connections = th.connections) (hbusy : th'.busy = th.busy)
    (hopen : ∀ fd, closing fd th.todo = false) : AccountedBy τ th' := by
  refine h.of_eq hconns (fun conn => by rw [hbusy]) ?_
  intro fd client _ hclosing
  rw [hopen] at hclosing
  cases hclosing

/-- A connection is taken over.
SOURCE: io_thread.cc:118-129 -/
theorem accountedBy_handleAssign {τ : ConnId → Tally} {th : IoThread} {conn : ConnId} {fd : Fd}
    (h : AccountedBy τ th) (hzero : τ conn = .zero) (hbusy : th.busy = .idle) :
    AccountedBy τ (Server.handleAssign th conn fd) := by
  cases hclient : th.connections fd with
  | some client =>
    simp only [Server.handleAssign, hclient]
    exact h
  | none =>
    simp only [Server.handleAssign, hclient]
    refine h.update rfl ?_ ?_ ?_
    · intro client hmem
      cases hmem
      rw [hzero, hbusy]
      exact (Tally.open_new fd).entry _
    · intro fd' _ hclosing
      exact hclosing
    · intro fd' client' _ _
      exact ⟨rfl, rfl⟩

/-- What remains to be done after a flush: the connection is closed next if it failed.
SOURCE: io_thread.cc:204-206 -/
theorem flushClient_closing {th th' : IoThread} {fd : Fd} {client : Client}
    {sends : List SendResult} (h : Server.flushClient th fd client sends = some th')
    (hfd : client.conn.fd = fd) :
    ∃ conn failed, flushOutBuffer client.conn sends = some (conn, failed) ∧
      th'.connections = Function.update th.connections fd (some { client with conn := conn }) ∧
      th'.busy = th.busy ∧ (failed = true → closing fd th'.todo = true) := by
  obtain ⟨⟨conn, failed⟩, hflush, rfl⟩ := Option.map_eq_some_iff.mp h
  refine ⟨conn, failed, hflush, rfl, rfl, ?_⟩
  rintro rfl
  have hconn : conn.fd = fd := by
    obtain ⟨left, -, heq⟩ := Option.map_eq_some_iff.mp hflush
    cases left <;> cases heq
    exact hfd
  simp only [if_true, closing, hconn, decide_true]

/-- A flush of what was appended and of `bytes`.
SOURCE: io_thread.cc:188-213 -/
theorem accounts_flush (h : Served t) (howned : Owned (view t.server)) {th' : IoThread} {fd : Fd}
    {client : Client} {bytes : Bytes} {sends : List SendResult} {failed : Bool} {conn : Connection}
    (hclient : (t.server.io i).connections fd = some client)
    (hopen : ∀ fd, closing fd (t.server.io i).todo = false)
    (hflush : flushOutBuffer
      { client.conn with outBuffer := client.conn.outBuffer ++ bytes } sends = some (conn, failed))
    (hconns : th'.connections =
      Function.update (t.server.io i).connections fd (some { client with conn := conn }))
    (hbusy : th'.busy = (t.server.io i).busy)
    (hclosing : failed = true → closing fd th'.todo = true) (hio : server.io i = th')
    (hemitted : server.emitted = t.server.emitted)
    (happended : ∀ conn, appendedTo server conn =
      appendedTo t.server conn ++ (ofTag conn [(client.id, bytes)]).flatten) :
    Accounts i t ⟨server, t.received,
      t.sent ++ [(client.id, sendTaken (client.conn.outBuffer ++ bytes) sends)]⟩ := by
  obtain ⟨hwrites, hentry⟩ := ((h.io i fd client hclient).opened (hopen fd)).flush hflush
  have hself : tally ⟨server, t.received,
      t.sent ++ [(client.id, sendTaken (client.conn.outBuffer ++ bytes) sends)]⟩ client.id =
        { tally t client.id with
          appended := (tally t client.id).appended ++ bytes
          sent := (tally t client.id).sent ++
            sendTaken (client.conn.outBuffer ++ bytes) sends } := by
    simp only [tally, receivedFrom, sentTo, emittedFor, happended, hemitted, ofTag_concat_self,
      ofTag_cons_self, ofTag_nil, List.flatten_append, List.flatten_singleton]
  refine accounts_update h howned hclient { client with conn := conn } rfl
    ?_ ?_ ?_ ?_ ?_ ?_
  · rw [hio]
    exact hconns
  · intro fd' _ hclosed
    rw [hopen] at hclosed
    cases hclosed
  · intro conn' _
    rw [hio, hbusy]
  · intro conn' hne
    simp only [tally, receivedFrom, sentTo, emittedFor, happended, hemitted,
      ofTag_concat_of_ne hne.symm, ofTag_cons_of_ne hne.symm, ofTag_nil, List.flatten_nil,
      List.append_nil]
  · rw [hself]
    exact ⟨(h.sound client.id).reads, hwrites⟩
  · rw [hself, hio, hbusy]
    exact hentry.mono hclosing

/-- One message of the inbox: a connection is taken over, or a response is appended and flushed.
SOURCE: io_thread.cc:108-137 -/
theorem accounts_drainInbox (h : Served t) (howned : Owned (view t.server))
    (hkeyed : Keyed t.server) {rest : List IoTask} {input : IoInput}
    (hbusy : (t.server.io i).busy = .idle)
    (htodo : (t.server.io i).todo = .drainInbox :: rest)
    (hstep : t.server.drainInbox i rest input.sends = some server) :
    Accounts i t ⟨server, t.received, t.sent ++ (t.server.writing (.io i input)).toList⟩ := by
  have hopen (fd : Fd) : closing fd (t.server.io i).todo = false := by
    rw [htodo]
    rfl
  cases hpop : (t.server.io i).inbox.pop with
  | none =>
    simp only [Server.writing, hbusy, htodo, hpop, Option.toList_none, List.append_nil]
    simp only [Server.drainInbox, hpop] at hstep
    cases hstep
    refine accounts_of_eq h rfl rfl ?_
    simp only [Server.setIo, Function.update_self]
    exact accountedBy_of_open (h.io i) rfl rfl hopen
  | some popped =>
    obtain ⟨msg, inbox⟩ := popped
    have hmsg : msg ∈ ((view t.server).io i).incoming := by
      apply List.mem_append_left
      rw [BoundedQueue.pop_eq_some hpop]
      exact List.mem_cons_self
    have hrest : AccountedBy (tally t) { t.server.io i with inbox := inbox } := h.io i
    cases msg with
    | assignConnection conn fd =>
      simp only [Server.writing, hbusy, htodo, hpop, Option.toList_none, List.append_nil]
      simp only [Server.drainInbox, hpop] at hstep
      cases hstep
      refine accounts_of_eq h rfl rfl ?_
      simp only [Server.setIo, Function.update_self]
      exact accountedBy_handleAssign hrest (h.assigned i conn fd hmsg) hbusy
    | writeResponse conn answers fd bytes =>
      cases hclient : (t.server.io i).connections fd with
      | none =>
        simp only [Server.writing, hbusy, htodo, hpop, hclient, Option.map_none,
          Option.toList_none, List.append_nil]
        simp only [Server.drainInbox, hpop, hclient] at hstep
        cases hstep
        refine accounts_of_eq h rfl rfl ?_
        simp only [Server.setIo, Function.update_self]
        exact hrest
      | some client =>
        simp only [Server.writing, hbusy, htodo, hpop, hclient, Option.map_some,
          Option.toList_some]
        simp only [Server.drainInbox, hpop, hclient] at hstep
        obtain ⟨th', hflush, rfl⟩ := Option.map_eq_some_iff.mp hstep
        obtain ⟨conn', failed, hconn', hconns, hsame, hclosing⟩ :=
          flushClient_closing hflush (hkeyed i fd client hclient)
        refine accounts_flush h howned hclient hopen hconn' hconns hsame hclosing
          (Function.update_self ..) rfl ?_
        intro c
        simp only [appendedTo, List.map_append, List.map_singleton, ofTag_append,
          List.flatten_append]

/-- A writable event flushes what was appended before.
SOURCE: io_thread.cc:182-186 -/
theorem accounts_handleWritable (h : Served t) (howned : Owned (view t.server))
    (hkeyed : Keyed t.server) {fd : Fd} {rest : List IoTask} {input : IoInput} {th' : IoThread}
    (hbusy : (t.server.io i).busy = .idle)
    (htodo : (t.server.io i).todo = .handleWritable fd :: rest)
    (hstep : Server.handleWritable (t.server.io i) fd rest input.sends = some th') :
    Accounts i t ⟨t.server.setIo i th', t.received,
      t.sent ++ (t.server.writing (.io i input)).toList⟩ := by
  have hopen (fd : Fd) : closing fd (t.server.io i).todo = false := by
    rw [htodo]
    rfl
  cases hclient : (t.server.io i).connections fd with
  | none =>
    simp only [Server.writing, hbusy, htodo, hclient, Option.map_none, Option.toList_none,
      List.append_nil]
    simp only [Server.handleWritable, hclient] at hstep
    cases hstep
    refine accounts_of_eq h rfl rfl ?_
    simp only [Server.setIo, Function.update_self]
    exact accountedBy_of_open (h.io i) rfl rfl hopen
  | some client =>
    simp only [Server.writing, hbusy, htodo, hclient, Option.map_some, Option.toList_some]
    simp only [Server.handleWritable, hclient] at hstep
    obtain ⟨conn', failed, hconn', hconns, hsame, hclosing⟩ :=
      flushClient_closing hstep (hkeyed i fd client hclient)
    have hflush : flushOutBuffer
        { client.conn with outBuffer := client.conn.outBuffer ++ [] } input.sends =
          some (conn', failed) := by
      rw [List.append_nil]
      exact hconn'
    have hio : (t.server.setIo i th').io i = th' := Function.update_self ..
    have haccounts := accounts_flush h howned hclient hopen hflush hconns hsame hclosing hio rfl (by
        intro c
        by_cases hc : client.id = c
        · rw [hc, ofTag_cons_self]
          exact (List.append_nil _).symm
        · rw [ofTag_cons_of_ne hc]
          exact (List.append_nil _).symm)
    rw [List.append_nil] at haccounts
    exact haccounts

/-- The requests of a batch that is being emitted, if there are any.
SOURCE: io_thread.cc:179 -/
theorem pendingFor_batch (conn : ConnId) (fd : Fd) (values : List RespValue) :
    pendingFor conn (if values = [] then .idle else .emit (.commandBatch conn fd values)) =
      values := by
  split_ifs with hvalues
  · rw [hvalues]
    rfl
  · simp only [pendingFor, pendingOf, Option.toList_some, List.flatMap_singleton,
      Server.requests, ofTag_cons_self, ofTag_nil, List.flatten_singleton]

/-- A batch is not of another connection.
SOURCE: io_thread.cc:179 -/
theorem pendingFor_batch_of_ne {conn conn' : ConnId} (hne : conn' ≠ conn) (fd : Fd)
    (values : List RespValue) :
    pendingFor conn' (if values = [] then .idle else .emit (.commandBatch conn fd values)) =
      [] := by
  split_ifs
  · rfl
  · simp only [pendingFor, pendingOf, Option.toList_some, List.flatMap_singleton,
      Server.requests, ofTag_cons_of_ne hne.symm, ofTag_nil, List.flatten_nil]

/-- A readable event: the bytes that were read are in the record, the requests are emitted next.
SOURCE: io_thread.cc:139-156 -/
theorem accounts_handleReadable (h : Served t) (howned : Owned (view t.server)) {fd : Fd}
    {rest : List IoTask} {input : IoInput} (hbusy : (t.server.io i).busy = .idle)
    (htodo : (t.server.io i).todo = .handleReadable fd :: rest) :
    Accounts i t ⟨t.server.setIo i
        (Server.handleReadableTask (t.server.io i) fd rest input.reads),
      t.received ++ (t.server.reading (.io i input)).toList, t.sent⟩ := by
  have hopen (fd : Fd) : closing fd (t.server.io i).todo = false := by
    rw [htodo]
    rfl
  cases hclient : (t.server.io i).connections fd with
  | none =>
    have hreading : t.server.reading (.io i input) = none := by
      simp only [Server.reading, hbusy, htodo, hclient, Option.map_none]
    rw [hreading, Option.toList_none, List.append_nil]
    refine accounts_of_eq h rfl rfl ?_
    simp only [Server.setIo, Function.update_self, Server.handleReadableTask, hclient]
    exact accountedBy_of_open (h.io i) rfl rfl hopen
  | some client =>
    have hreading : t.server.reading (.io i input) = some (client.id, input.reads.bytes) := by
      simp only [Server.reading, hbusy, htodo, hclient, Option.map_some]
    rw [hreading, Option.toList_some]
    have hentry : (tally t client.id).Open [] client.conn := by
      have hentry := (h.io i fd client hclient).opened (hopen fd)
      rw [hbusy] at hentry
      exact hentry
    have hread := hentry.read input.reads
    generalize hhandled : handleReadable client.conn input.reads = handled at hread
    have hio : (t.server.setIo i
        (Server.handleReadableTask (t.server.io i) fd rest input.reads)).io i =
          { t.server.io i with
            connections := Function.update (t.server.io i).connections fd
              (some { client with conn := handled.conn })
            busy := if handled.batch = [] then .idle
              else .emit (.commandBatch client.id client.conn.fd handled.batch)
            todo := if handled.close then .closeConnection fd :: rest else rest } := by
      simp only [Server.setIo, Function.update_self, Server.handleReadableTask, hclient, hhandled]
    have hself : tally ⟨t.server.setIo i
          (Server.handleReadableTask (t.server.io i) fd rest input.reads),
        t.received ++ [(client.id, input.reads.bytes)], t.sent⟩ client.id =
          { tally t client.id with
            received := (tally t client.id).received ++ input.reads.bytes } := by
      simp only [tally, receivedFrom, sentTo, emittedFor, appendedTo, ofTag_concat_self,
        List.flatten_append, List.flatten_singleton, Server.setIo]
    refine accounts_update h howned hclient { client with conn := handled.conn } rfl
      ?_ ?_ ?_ ?_ ?_ ?_
    · rw [hio]
    · intro fd' _ hclosed
      rw [hopen] at hclosed
      cases hclosed
    · intro conn hne
      have hidle : pendingFor conn (t.server.io i).busy = [] := by
        rw [hbusy]
        rfl
      rw [hidle, hio]
      exact pendingFor_batch_of_ne hne _ _
    · intro conn hne
      simp only [tally, receivedFrom, sentTo, emittedFor, appendedTo, ofTag_concat_of_ne hne.symm,
        Server.setIo]
    · rw [hself]
      exact ⟨(List.prefix_append _ _).trans hread.emitting, (h.sound client.id).writes⟩
    · rw [hself, hio, pendingFor_batch]
      refine hread.mono ?_
      intro hclose
      simp only [hclose, if_true, closing, decide_true]

/-- A connection that is closed has no entry any more.
SOURCE: io_thread.cc:215-222 -/
theorem accounts_closeConnection (h : Served t) {fd : Fd} {rest : List IoTask}
    (hbusy : (t.server.io i).busy = .idle)
    (htodo : (t.server.io i).todo = .closeConnection fd :: rest) :
    Accounts i t ⟨t.server.closeConnection i fd rest, t.received, t.sent⟩ := by
  have hopen : ∀ fd', fd' ≠ fd → closing fd' (t.server.io i).todo = false := by
    intro fd' hne
    rw [htodo]
    simp only [closing, decide_eq_false_iff_not]
    exact hne.symm
  cases hclient : (t.server.io i).connections fd with
  | none =>
    simp only [Server.closeConnection, hclient]
    refine accounts_of_eq h rfl rfl ?_
    simp only [Server.setIo, Function.update_self]
    refine (h.io i).of_eq rfl (fun _ => rfl) ?_
    intro fd' client' hclient' hclosing
    have hfd : fd' ≠ fd := by
      rintro rfl
      cases hclient.symm.trans hclient'
    rw [hopen fd' hfd] at hclosing
    cases hclosing
  | some client =>
    simp only [Server.closeConnection, hclient]
    refine accounts_of_eq h rfl rfl ?_
    simp only [Server.setIo, Function.update_self]
    refine (h.io i).update rfl ?_ ?_ ?_
    · intro client' hmem
      cases hmem
    · intro fd' hfd hclosing
      rw [hopen fd' hfd] at hclosing
      cases hclosing
    · intro fd' client' _ _
      refine ⟨rfl, ?_⟩
      rw [hbusy]
      rfl

/-- **A step of an IO thread.**
SOURCE: io_thread.cc:77-242 -/
theorem accounts_ioStep (h : Served t) (howned : Owned (view t.server)) (hkeyed : Keyed t.server)
    {input : IoInput} (hstep : t.server.ioStep i input = some server) :
    Accounts i t ⟨server, t.received ++ (t.server.reading (.io i input)).toList,
      t.sent ++ (t.server.writing (.io i input)).toList⟩ := by
  unfold Server.ioStep at hstep
  simp only at hstep
  -- no byte passes through a socket but in three of the cases
  split at hstep
  · next msg hbusy =>
    cases hstep
    simp only [Server.reading, Server.writing, hbusy, Option.toList_none, List.append_nil]
    exact accounts_pushOutbox h howned hbusy
  · next msg hbusy =>
    cases hstep
    simp only [Server.reading, Server.writing, hbusy, Option.toList_none, List.append_nil]
    refine accounts_of_eq h rfl rfl ?_
    simp only [Server.notifyMain, Server.setIo, Function.update_self]
    refine (h.io i).of_eq rfl ?_ (fun _ _ _ hclosing => hclosing)
    intro conn
    rw [hbusy]
    rfl
  · next hbusy =>
    cases hstep
    simp only [Server.reading, Server.writing, hbusy, Option.toList_none, List.append_nil]
    refine accounts_of_eq h rfl rfl ?_
    simp only [Server.notifyMain, Server.setIo, Function.update_self]
    refine (h.io i).of_eq rfl ?_ (fun _ _ _ hclosing => hclosing)
    intro conn
    rw [hbusy]
    rfl
  · next hbusy htodo =>
    split_ifs at hstep
    cases hstep
    simp only [Server.reading, Server.writing, hbusy, htodo, Option.toList_none, List.append_nil]
    refine accounts_of_eq h rfl rfl ?_
    simp only [Server.setIo, Function.update_self]
    refine accountedBy_of_open (h.io i) rfl hbusy.symm ?_
    intro fd
    rw [htodo]
    rfl
  · next ev rest hbusy htodo =>
    cases hstep
    simp only [Server.reading, Server.writing, hbusy, htodo, Option.toList_none, List.append_nil]
    refine accounts_of_eq h rfl rfl ?_
    simp only [Server.setIo, Function.update_self]
    have hclosing (fd : Fd) : closing fd (t.server.io i).todo = false := by
      rw [htodo]
      rfl
    unfold Server.handleEvent
    cases ev with
    | inbox => exact accountedBy_of_open (h.io i) rfl rfl hclosing
    | client fd error readable writable =>
      simp only
      split_ifs <;> exact accountedBy_of_open (h.io i) rfl rfl hclosing
  · next rest hbusy htodo =>
    simp only [Server.reading, hbusy, htodo, Option.toList_none, List.append_nil]
    exact accounts_drainInbox h howned hkeyed hbusy htodo hstep
  · next fd rest hbusy htodo =>
    cases hstep
    simp only [Server.writing, hbusy, htodo, Option.toList_none, List.append_nil]
    exact accounts_handleReadable h howned hbusy htodo
  · next fd rest hbusy htodo =>
    obtain ⟨th', hth', rfl⟩ := Option.map_eq_some_iff.mp hstep
    simp only [Server.reading, hbusy, htodo, Option.toList_none, List.append_nil]
    exact accounts_handleWritable h howned hkeyed hbusy htodo hth'
  · next fd rest hbusy htodo =>
    cases hstep
    simp only [Server.reading, Server.writing, hbusy, htodo, Option.toList_none, List.append_nil]
    exact accounts_closeConnection h hbusy htodo

end Io

/-! ## Every step -/

/-- What a step of the main thread leaves alone. -/
structure MainFrame (s s' : Server n) : Prop where
  connections : ∀ i, (s'.io i).connections = (s.io i).connections
  busy : ∀ i, (s'.io i).busy = (s.io i).busy
  todo : ∀ i, (s'.io i).todo = (s.io i).todo
  emitted : s'.emitted = s.emitted
  appended : s'.appended = s.appended

/-- The main thread has not touched what belongs to the IO threads.
SOURCE: server.cc:150-246, io_thread.cc:58-242 -/
theorem mainFrame_of_eq {s s' : Server n} (hio : s'.io = s.io) (hemitted : s'.emitted = s.emitted)
    (happended : s'.appended = s.appended) : MainFrame s s' := by
  refine ⟨?_, ?_, ?_, hemitted, happended⟩ <;> intro i <;> rw [hio]

/-- The main thread does something to the queues or the event of thread `i`.
SOURCE: server.cc:150-246, io_thread.cc:58-242 -/
theorem mainFrame_of_update {s s' : Server n} {i : Fin n} {th : IoThread}
    (hio : s'.io = Function.update s.io i th) (hconns : th.connections = (s.io i).connections)
    (hbusy : th.busy = (s.io i).busy) (htodo : th.todo = (s.io i).todo)
    (hemitted : s'.emitted = s.emitted) (happended : s'.appended = s.appended) :
    MainFrame s s' := by
  have hthread (j : Fin n) : (s'.io j).connections = (s.io j).connections ∧
      (s'.io j).busy = (s.io j).busy ∧ (s'.io j).todo = (s.io j).todo := by
    rw [hio]
    by_cases hj : j = i
    · subst hj
      rw [Function.update_self]
      exact ⟨hconns, hbusy, htodo⟩
    · rw [Function.update_of_ne hj]
      exact ⟨rfl, rfl, rfl⟩
  exact ⟨fun j => (hthread j).1, fun j => (hthread j).2.1, fun j => (hthread j).2.2, hemitted,
    happended⟩

/-- To post a message leaves the connections as they are.
SOURCE: io_thread.cc:61-64, 71-74 -/
theorem mainFrame_postInbox (s : Server n) (i : Fin n) (msg : InboxMsg) :
    MainFrame s (s.postInbox i msg) := by
  unfold Server.postInbox
  split
  · exact mainFrame_of_eq rfl rfl rfl
  · exact mainFrame_of_update rfl rfl rfl rfl rfl rfl

/-- **A step of the main thread** leaves the connections, and what was emitted and appended, as they
are.
SOURCE: server.cc:198-242 -/
theorem mainStep_frame {s s' : Server n} {input : MainInput} (h : s.mainStep input = some s') :
    MainFrame s s' := by
  unfold Server.mainStep at h
  split at h
  · cases h
    exact mainFrame_postInbox s _ _
  · cases h
    exact mainFrame_postInbox s _ _
  · cases h
    exact mainFrame_of_update rfl rfl rfl rfl rfl rfl
  · unfold Server.executeAndRespond at h
    split at h <;> split at h <;> cases h <;> exact mainFrame_of_eq rfl rfl rfl
  · split_ifs at h
    cases h
    exact mainFrame_of_eq rfl rfl rfl
  · cases h
    exact mainFrame_of_eq rfl rfl rfl
  · cases h
    exact mainFrame_of_eq rfl rfl rfl
  · split at h
    · cases h
      exact mainFrame_of_eq rfl rfl rfl
    · split_ifs at h
      cases h
      exact mainFrame_of_eq rfl rfl rfl
  · cases h
    unfold Server.processCommands
    split
    · exact mainFrame_of_eq rfl rfl rfl
    · exact mainFrame_of_update rfl rfl rfl rfl rfl rfl
    · exact mainFrame_of_update rfl rfl rfl rfl rfl rfl

/-- A connection that a thread has still to take over was assigned to it before, or is accepted
now.
SOURCE: io_thread.cc:110-111, server.cc:211-212 -/
theorem assigned_of_step {N N' : Net n} {l : Option Fd} (h : Net.Step N l N') {i : Fin n}
    {conn : ConnId} {fd : Fd} (hmem : .assignConnection conn fd ∈ (N'.io i).incoming) :
    .assignConnection conn fd ∈ (N.io i).incoming ∨ conn = N.accepted.length := by
  have hset {j : Fin n} {th : Thread} (hth : .assignConnection conn fd ∈ th.incoming →
      .assignConnection conn fd ∈ (N.io j).incoming ∨ conn = N.accepted.length) :
      .assignConnection conn fd ∈ ((N.setIo j th).io i).incoming →
        .assignConnection conn fd ∈ (N.io i).incoming ∨ conn = N.accepted.length :=
    Net.forall_setIo (P := fun i th => .assignConnection conn fd ∈ th.incoming →
      .assignConnection conn fd ∈ (N.io i).incoming ∨ conn = N.accepted.length) hth
      (fun _ => Or.inl) i
  cases h with
  | accept fd' j hidle hclosed =>
    refine hset ?_ hmem
    intro hmem
    obtain hold | hnew := List.mem_append.mp hmem
    · exact Or.inl hold
    · cases List.mem_singleton.mp hnew
      exact Or.inr rfl
  | takeAssign hincoming =>
    refine hset (fun hmem => Or.inl ?_) hmem
    rw [hincoming]
    exact List.mem_cons_of_mem _ hmem
  | takeResponse hincoming htarget =>
    refine hset (fun hmem => Or.inl ?_) hmem
    rw [hincoming]
    exact List.mem_cons_of_mem _ hmem
  | dropResponse hincoming hnone =>
    refine hset (fun hmem => Or.inl ?_) hmem
    rw [hincoming]
    exact List.mem_cons_of_mem _ hmem
  | batch | close | push | takeBatch | takeDisconnect =>
    refine hset ?_ hmem
    exact Or.inl
  | execute => exact Or.inl hmem
  | respond hexecuting hroute =>
    refine hset ?_ hmem
    intro hmem
    obtain hold | hnew := List.mem_append.mp hmem
    · exact Or.inl hold
    · cases List.mem_singleton.mp hnew
  | skip => exact Or.inl hmem

/-- No step forgets that a connection was accepted.
SOURCE: server.cc:200-203 -/
theorem accepted_of_step {N N' : Net n} {l : Option Fd} (h : Net.Step N l N') :
    N.accepted.length ≤ N'.accepted.length := by
  cases h with
  | accept fd i hidle hclosed =>
    show _ ≤ (N.accepted ++ [(fd, i)]).length
    rw [List.length_append]
    exact Nat.le_add_right _ _
  | _ => exact Nat.le_refl _

/-- The server takes over connections and accepts them as the protocol does.
SOURCE: server.cc:207-213, io_thread.cc:118-129 -/
theorem Follows.assigned {N N' : Net n} {accepting : Option Fd} (h : Follows N N' accepting) :
    N.accepted.length ≤ N'.accepted.length ∧ ∀ i conn fd,
      .assignConnection conn fd ∈ (N'.io i).incoming →
        .assignConnection conn fd ∈ (N.io i).incoming ∨ conn = N.accepted.length := by
  obtain rfl | hstep | hstep := h
  · exact ⟨Nat.le_refl _, fun _ _ _ => Or.inl⟩
  · exact ⟨accepted_of_step hstep, fun _ _ _ => assigned_of_step hstep⟩
  · exact ⟨accepted_of_step hstep, fun _ _ _ => assigned_of_step hstep⟩

/-- **Every step keeps the account.**
SOURCE: server.cc:150-246, io_thread.cc:58-242 -/
theorem Served.step {t t' : Traffic n} {a : Server.Action n} (h : Served t)
    (howned : Owned (view t.server)) (hkeyed : Keyed t.server) (hstep : t.step a = some t') :
    Served t' := by
  obtain ⟨server, hserver, rfl⟩ := Option.map_eq_some_iff.mp hstep
  obtain ⟨haccepted, hassigned⟩ := (step_follows hkeyed hserver).assigned
  cases a with
  | main input =>
    have hframe := mainStep_frame hserver
    simp only [Server.reading, Server.writing, Option.toList_none, List.append_nil]
    have htally : tally ⟨server, t.received, t.sent⟩ = tally t :=
      tally_of_eq hframe.emitted hframe.appended rfl rfl
    refine ⟨?_, ?_, ?_, ?_⟩
    · rw [htally]
      exact h.sound
    · intro i
      rw [htally]
      refine (h.io i).of_eq (hframe.connections i) ?_ ?_
      · intro conn
        rw [hframe.busy i]
      · intro fd client _ hclosing
        rw [hframe.todo i]
        exact hclosing
    · intro i conn fd hmem
      rw [htally]
      obtain hold | rfl := hassigned i conn fd hmem
      · exact h.assigned i conn fd hold
      · exact h.unaccepted _ (Nat.le_refl _)
    · intro conn hconn
      rw [htally]
      exact h.unaccepted conn (haccepted.trans hconn)
  | io i input =>
    have haccounts := accounts_ioStep h howned hkeyed hserver
    have hframe := ioStep_frame hserver
    refine ⟨haccounts.sound, ?_, ?_, ?_⟩
    · intro j
      by_cases hj : j = i
      · rw [hj]
        exact haccounts.io
      · show AccountedBy _ (server.io j)
        rw [hframe.io j hj]
        refine (h.io j).of_tally ?_
        intro fd client hclient
        obtain hsame | ⟨fd', client', hclient', hid⟩ := haccounts.touched client.id
        · exact hsame
        · -- no connection is in the maps of two threads
          have hhome := home_of_client howned hclient'
          rw [hid, home_of_client howned hclient] at hhome
          cases hhome
          exact absurd rfl hj
    · intro j conn fd hmem
      obtain hsame | ⟨fd', client', hclient', rfl⟩ := haccounts.touched conn
      · rw [hsame]
        obtain hold | rfl := hassigned j conn fd hmem
        · exact h.assigned j conn fd hold
        · exact h.unaccepted _ (Nat.le_refl _)
      · exfalso
        have hhome := home_of_client howned hclient'
        obtain hold | hnew := hassigned j _ fd hmem
        · -- a connection that has still to be taken over is in no map
          obtain ⟨hnone, howner⟩ := (howned j).fresh.of_mem hold
          cases hhome.symm.trans ((howned j).owner fd _ howner).2
          simp only [view, viewIo, hclient', Option.map_some] at hnone
          cases hnone
        · rw [hnew] at hhome
          have hlt := (List.getElem?_eq_some_iff.mp hhome).1
          exact Nat.lt_irrefl _ hlt
    · intro conn hconn
      have hold : t.server.accepted.length ≤ conn := haccepted.trans hconn
      obtain hsame | ⟨fd', client', hclient', rfl⟩ := haccounts.touched conn
      · rw [hsame]
        exact h.unaccepted conn hold
      · have hlt := (List.getElem?_eq_some_iff.mp (home_of_client howned hclient')).1
        exact absurd hlt (Nat.not_lt_of_le hold)

/-! ## Runs -/

/-- The server, started with `store`, reaches `t` in a run in which descriptors are accepted only
in states that allow it. -/
def TrafficReachable [NeZero n] (allowed : Server n → Fd → Prop) (store : Store) :
    Traffic n → Prop :=
  Reaches (fun t a t' => t.step a = some t') (fun t a => Accepts allowed t.server a) (.init store)

section Runs

variable [NeZero n] {allowed : Server n → Fd → Prop} {store : Store} {t : Traffic n}

/-- The record changes nothing. -/
theorem reachable_of_traffic (h : TrafficReachable allowed store t) :
    Reachable allowed store t.server := by
  apply Reaches.simulate (I := fun _ => True) (v := Traffic.server) _ _ h
  · intro t _
    trivial
  · intro t a t' _ haccepts hstep
    obtain ⟨server, hserver, rfl⟩ := Option.map_eq_some_iff.mp hstep
    exact Or.inr ⟨a, haccepts, hserver⟩

/-- At the start nothing has passed.
SOURCE: server.cc:150-246, io_thread.cc:58-242 -/
theorem served_init (store : Store) : Served (.init store : Traffic n) := by
  have hzero (conn : ConnId) : tally (.init store : Traffic n) conn = .zero := rfl
  refine ⟨?_, ?_, ?_, ?_⟩
  · intro conn
    exact Tally.zero_sound
  · intro i fd client hclient
    cases hclient
  · intro i conn fd hmem
    cases hmem
  · intro conn _
    exact hzero conn

/-- The account holds in every state.
SOURCE: server.cc:150-246, io_thread.cc:58-242 -/
theorem served_of_reachable (h : TrafficReachable allowed store t) : Served t := by
  have hinv := Reaches.invariant (I := fun t : Traffic n =>
    Reachable allowed store t.server ∧ Served t) ?_ ?_ h
  · exact hinv.2
  · exact ⟨.refl, served_init store⟩
  · rintro t a t' ⟨hreachable, hserved⟩ haccepts hstep
    obtain ⟨server, hserver, heq⟩ := Option.map_eq_some_iff.mp hstep
    have howned := (owned_of_reaches (reaches_view (fun _ _ => True) (fun _ _ _ => trivial)
      hreachable)).1
    refine ⟨?_, hserved.step howned (keyed_of_reachable hreachable) hstep⟩
    rw [← heq]
    exact hreachable.tail haccepts hserver

end Runs

/-! ## What a client sees -/

/-- The replies to the requests executed for a connection. -/
def repliesTo (s : Server n) (conn : ConnId) : List RespValue :=
  (executedFor s conn).map LogEntry.reply

/-- The replies of a batch are written one after another.
SOURCE: server.cc:234-237 -/
theorem serializeAll_eq_flatMap (vs : List RespValue) :
    serializeAll vs = vs.flatMap RespValue.serialize := by
  induction vs with
  | nil => rfl
  | cons v vs ih => rw [serializeAll, ih, List.flatMap_cons]

/-- The bytes of the answers are the bytes of their replies. -/
theorem flatMap_reply (answers : List LogEntry) :
    answers.flatMap (fun entry => entry.reply.serialize) =
      serializeAll (answers.map LogEntry.reply) := by
  rw [serializeAll_eq_flatMap, List.flatMap_map]

/-- The bytes appended for a connection are replies to the first requests executed for it.
SOURCE: server.cc:234-241, io_thread.cc:135 -/
theorem Delivered.appended_prefix {store : Store} {s : Server n} (h : Delivered (view s))
    (hserial : Serial store (view s)) (hanswered : Answered (view s)) (conn : ConnId) :
    appendedTo s conn <+: serializeAll (repliesTo s conn) := by
  obtain ⟨k, -, hreplies⟩ := h.replies hserial hanswered conn
  have happended : appendedTo s conn = _ := hreplies
  rw [happended, flatMap_reply, serializeAll_eq_flatMap, serializeAll_eq_flatMap, repliesTo,
    List.map_take]
  exact (List.take_prefix _ _).flatMap _

/-- The replies of the server are safe to send.
SOURCE: server.cc:244-246 -/
theorem Serial.lineSafe {store : Store} {s : Server n} (h : Serial store (view s))
    (conn : ConnId) : ∀ reply ∈ repliesTo s conn, LineSafe reply := by
  intro reply hreply
  obtain ⟨entry, hentry, rfl⟩ := List.mem_map.mp hreply
  obtain ⟨p, hp, heq⟩ := List.mem_filterMap.mp hentry
  obtain ⟨entry', hlog, rfl⟩ := List.mem_map.mp hp
  split_ifs at heq
  cases heq
  exact (dispatchAll_spec h.replay).2 _ (List.mem_map_of_mem hlog)

/-- **What clients see**, if no descriptor is accepted twice.  The executed requests have the
replies that they get one after another; those executed for a connection are the first ones in the
bytes read from it; and what its socket has taken are the first bytes of the replies to them, so
that a client finds the first replies in them, in order.
SOURCE: server.cc:150-246, io_thread.cc:58-242 -/
theorem clients_served [NeZero n] {store : Store} {t : Traffic n}
    (h : TrafficReachable NeverAccepted store t) :
    dispatchAll store (t.server.log.map fun entry => (entry.now, entry.request)) =
        .ok (t.server.log.map LogEntry.reply, t.server.store) ∧
      ∀ conn, (executedFor t.server conn).map LogEntry.request <+: parse (receivedFrom t conn) ∧
        sentTo t conn <+: serializeAll (repliesTo t.server conn) ∧
        ((serializeAll (repliesTo t.server conn)).length < 2 ^ 63 →
          parse (sentTo t conn) <+: repliesTo t.server conn) := by
  obtain ⟨haddressed, hserial, hdelivered, hanswered⟩ :=
    serial_of_reachable (reachable_of_traffic h)
  have hserved := served_of_reachable h
  refine ⟨hserial.replay, ?_⟩
  intro conn
  have hsent : sentTo t conn <+: serializeAll (repliesTo t.server conn) :=
    (hserved.sound conn).writes.trans (hdelivered.appended_prefix hserial hanswered conn)
  refine ⟨(hserial.log_prefix_emitted haddressed conn).trans (hserved.sound conn).reads, hsent, ?_⟩
  intro hfits
  obtain ⟨rest, hrest⟩ := hsent
  have hprefix := parse_prefix (sentTo t conn) rest
  rwa [hrest, (parse_serializeAll (hserial.lineSafe conn) hfits).1] at hprefix

/-- A client connects, sends a `PING` and gets the reply. -/
def pingSession : List (Server.Action 1) :=
  acceptRun [] ++ inboxRun 0 [] ++ pingRun .wouldBlockOrInterrupted 0 ++
    .main { events := [.command] } :: List.replicate 7 (.main {}) ++ inboxRun 0 [.sent 7]

/-- One client sends PING and has read its answer.
SOURCE: server.cc:150-246, io_thread.cc:58-242 -/
theorem clients_served_ping :
    ∃ t : Traffic 1, TrafficReachable NeverAccepted Store.empty t ∧
      sentTo t 0 = ascii "+PONG\r\n" ∧ sentTo t 0 <+: serializeAll (repliesTo t.server 0) := by
  have hrun : (runAll Traffic.step (fun t a => Accepts NeverAccepted t.server a)
      (Traffic.init Store.empty) pingSession).map (fun t => sentTo t 0) =
      some (ascii "+PONG\r\n") := by
    decide +kernel
  obtain ⟨t, ht, hsent⟩ := Option.map_eq_some_iff.mp hrun
  have hreachable : TrafficReachable NeverAccepted Store.empty t := reaches_of_runAll ht
  exact ⟨t, hreachable, hsent, ((clients_served hreachable).2 0).2.1⟩

/-! ## When nothing is left to do -/

/-- Every thread is in `epoll_wait`, and none has an event of its own to wake it: the counters are
zero, and no socket is watched for being writable. -/
structure Quiescent (s : Server n) : Prop where
  main : s.busy = .idle ∧ s.todo = [] ∧ s.commandEvent = 0
  io : ∀ i, (s.io i).busy = .idle ∧ (s.io i).todo = [] ∧ (s.io i).inboxEvent = 0
  unwatched : ∀ i fd client, (s.io i).connections fd = some client → client.conn.writable = false

/-- Every thread is in `epoll_wait`, and no eventfd is there to wake it. -/
structure Waiting (s : Server n) : Prop where
  main : s.busy = .idle ∧ s.todo = [] ∧ s.commandEvent = 0
  io : ∀ i, (s.io i).busy = .idle ∧ (s.io i).todo = [] ∧ (s.io i).inboxEvent = 0

/-- Nothing is left in a queue.
SOURCE: io_thread.cc:80, 109, server.cc:171, 219 -/
theorem Waiting.queues_empty [NeZero n] {allowed : Server n → Fd → Prop} {store : Store}
    {s : Server n} (h : Waiting s) (hreachable : Reachable allowed store s) (i : Fin n) :
    (s.io i).outbox.items = [] ∧ (s.io i).inbox.items = [] := by
  have hwatched : ∀ i, Watched s i := by
    apply Reaches.invariant (I := fun s => ∀ i, Watched s i) _ _ hreachable
    · intro i
      exact ⟨fun hne => absurd rfl hne, Or.inl fun hne => absurd rfl hne⟩
    · intro s a s' hs _ hstep
      exact watched_step hs hstep
  obtain ⟨hbusy, htodo, hevent⟩ := h.main
  obtain ⟨hbusy', htodo', hevent'⟩ := h.io i
  obtain ⟨houtbox, hinbox⟩ := hwatched i
  refine ⟨?_, ?_⟩
  · by_contra hne
    obtain hpositive | hnotify | htask := houtbox hne
    · omega
    · cases hbusy'.symm.trans hnotify
    · rw [htodo] at htask
      cases htask
  · by_contra hne
    obtain hattended | hnotify := hinbox
    · obtain hpositive | htask := hattended hne
      · omega
      · rw [htodo'] at htask
        cases htask
    · cases hbusy.symm.trans hnotify

/-- What has been appended for a connection are all replies, when none is on its way.
SOURCE: server.cc:234-241, io_thread.cc:135 -/
theorem Delivered.appended_eq {store : Store} {s : Server n} (h : Delivered (view s))
    (hserial : Serial store (view s)) (hanswered : Answered (view s)) {i : Fin n} {fd : Fd}
    {client : Client} (hclient : (s.io i).connections fd = some client)
    (hincoming : ((view s).io i).incoming = []) (hidle : (view s).executing = none) :
    appendedTo s client.id = serializeAll (repliesTo s client.id) := by
  have howner : ((view s).io i).owner fd = some client.id := by
    apply drained_of_some
    simp only [view, viewIo, hclient, Option.map_some]
  have hdeliveries := (h.io i).owned fd client.id howner
  rw [hincoming, List.flatMap_nil, ofTag_nil, List.append_nil] at hdeliveries
  have hlog := hserial.log client.id
  rw [Net.answering, hidle, Option.toList_none, List.map_nil, ofTag_nil, List.flatten_nil,
    List.append_nil, ← hdeliveries] at hlog
  have hbytes : s.appended.map (fun a => (a.target, a.bytes)) = (deliveries s.appended).map
      fun p => (p.1, p.2.flatMap fun entry => entry.reply.serialize) := by
    rw [deliveries, List.map_map]
    apply List.map_congr_left
    intro a ha
    exact congrArg (a.target, ·) (hanswered.appended a ha).bytes_eq
  rw [appendedTo, hbytes, ofTag_map, map_flatMap_flatten, repliesTo, executedFor, ← flatMap_reply]
  exact congrArg (List.flatMap _) hlog

/-- While all threads wait, every request that was read has been executed, and the replies are
sent or in the out buffer.
SOURCE: server.cc:150-246, io_thread.cc:58-242 -/
theorem Waiting.answered [NeZero n] {store : Store} {t : Traffic n} (hwaiting : Waiting t.server)
    (h : TrafficReachable NeverAccepted store t) {i : Fin n} {fd : Fd} {client : Client}
    (hclient : (t.server.io i).connections fd = some client) :
    (executedFor t.server client.id).map LogEntry.request = parse (receivedFrom t client.id) ∧
      sentTo t client.id ++ client.conn.outBuffer = serializeAll (repliesTo t.server client.id) ∧
      client.conn.writable = !client.conn.outBuffer.isEmpty := by
  have hreachable := reachable_of_traffic h
  obtain ⟨haddressed, hserial, hdelivered, hanswered⟩ := serial_of_reachable hreachable
  obtain ⟨houtbox, hinbox⟩ := hwaiting.queues_empty hreachable i
  obtain ⟨hbusy, htodo, -⟩ := hwaiting.io i
  have hexecuting : (view t.server).executing = none := by
    rw [view, hwaiting.main.1]
    rfl
  have hincoming : ((view t.server).io i).incoming = [] := by
    simp only [view, viewIo, hinbox, hwaiting.main.1, posting, List.append_nil]
  have howned := (owned_of_reaches (reaches_view (fun _ _ => True) (fun _ _ _ => trivial)
    hreachable)).1
  have hopen : (tally t client.id).Open [] client.conn := by
    have hentry := (served_of_reachable h).io i fd client hclient
    rw [hbusy] at hentry
    apply hentry.opened
    rw [htodo]
    rfl
  refine ⟨?_, ?_, hopen.writable⟩
  · have hlog := hserial.log_eq (home_of_client howned hclient) houtbox (by
      rw [hexecuting]
      intro e he
      cases he)
    have hemitted := hopen.emitted
    rw [List.append_nil] at hemitted
    exact hlog.trans hemitted
  · exact hopen.sent.trans (hdelivered.appended_eq hserial hanswered hclient hincoming hexecuting)

/-- **A server with nothing left to do has answered everything.**  Of a connection that is still
open, every request in the bytes read from it has been executed, and every reply has been sent.
SOURCE: server.cc:150-246, io_thread.cc:58-242 -/
theorem idle_server_has_answered [NeZero n] {store : Store} {t : Traffic n}
    (h : TrafficReachable NeverAccepted store t) (hidle : Quiescent t.server) {i : Fin n} {fd : Fd}
    {client : Client} (hclient : (t.server.io i).connections fd = some client) :
    (executedFor t.server client.id).map LogEntry.request = parse (receivedFrom t client.id) ∧
      sentTo t client.id = serializeAll (repliesTo t.server client.id) := by
  have hwaiting : Waiting t.server := ⟨hidle.main, hidle.io⟩
  obtain ⟨hexecuted, hsent, hwritable⟩ := hwaiting.answered h hclient
  have hflushed : client.conn.outBuffer = [] := by
    rw [hidle.unwatched i fd client hclient] at hwritable
    simpa using hwritable.symm
  rw [hflushed, List.append_nil] at hsent
  exact ⟨hexecuted, hsent⟩

def mainIdle {n : ℕ} : MainBusy n → Bool
  | .idle => true
  | .postAssign .. | .postResponse .. | .notify _ | .execute .. => false

def ioIdle : IoBusy → Bool
  | .idle => true
  | .emit _ | .nudge _ | .notify => false

/-- One client sends PING, and the server comes to rest.
SOURCE: server.cc:150-246, io_thread.cc:58-242 -/
theorem idle_server_has_answered_ping :
    ∃ t : Traffic 1, TrafficReachable NeverAccepted Store.empty t ∧ Quiescent t.server ∧
      ∃ client, (t.server.io 0).connections 5 = some client ∧
        sentTo t client.id = serializeAll (repliesTo t.server client.id) := by
  have hrun : (runAll Traffic.step (fun t a => Accepts NeverAccepted t.server a)
      (Traffic.init Store.empty) pingSession).map (fun t =>
        (mainIdle t.server.busy && ioIdle (t.server.io 0).busy,
          [t.server.todo.length, t.server.commandEvent, (t.server.io 0).todo.length,
            (t.server.io 0).inboxEvent],
          ((t.server.io 0).connections 5).map fun client => client.conn.writable,
          t.server.accepted)) =
      some (true, [0, 0, 0, 0], some false, [(5, 0)]) := by
    decide +kernel
  obtain ⟨t, ht, heq⟩ := Option.map_eq_some_iff.mp hrun
  simp only [Prod.mk.injEq, Bool.and_eq_true, List.cons.injEq, and_true] at heq
  obtain ⟨⟨hmain, hio⟩, ⟨htodo, hevent, htodo', hevent'⟩, hwritable, haccepted⟩ := heq
  have hreachable : TrafficReachable NeverAccepted Store.empty t := reaches_of_runAll ht
  have howned := (owned_of_reaches (reaches_view (fun _ _ => True) (fun _ _ _ => trivial)
    (reachable_of_traffic hreachable))).1
  obtain ⟨client, hclient, hclosed⟩ := Option.map_eq_some_iff.mp hwritable
  have hidle : Quiescent t.server := by
    refine ⟨⟨?_, List.eq_nil_of_length_eq_zero htodo, hevent⟩, ?_, ?_⟩
    · cases hbusy : t.server.busy with
      | idle => rfl
      | _ => simp [hbusy, mainIdle] at hmain
    · intro i
      rw [Subsingleton.elim i 0]
      refine ⟨?_, List.eq_nil_of_length_eq_zero htodo', hevent'⟩
      cases hbusy : (t.server.io 0).busy with
      | idle => rfl
      | _ => simp [hbusy, ioIdle] at hio
    · intro i fd client' hclient'
      rw [Subsingleton.elim i 0] at hclient'
      -- the only descriptor that was accepted is 5
      have hhome := List.mem_of_getElem? (home_of_client howned hclient')
      rw [haccepted] at hhome
      cases List.mem_singleton.mp hhome
      cases hclient.symm.trans hclient'
      exact hclosed
  exact ⟨t, hreachable, hidle, client, hclient,
    (idle_server_has_answered hreachable hidle hclient).2⟩

end MyRedis.Analysis

import MyRedis.Analysis.Protocol
import MyRedis.Lib.TransitionSystem

/-!
# The server follows the protocol

`view` forgets what the protocol does not see of the server.  `step_follows` says that a
step of the server is then a step of the protocol, or changes nothing.  It needs one fact
about the server, that connections are stored under their own descriptors (`Keyed`), since
a batch is sent with the descriptor of the connection and not with that of the event.

What is shown of the states the protocol reaches therefore holds of the server
(`reaches_view`).
-/

set_option autoImplicit false

namespace MyRedis.Analysis

open MyRedis.Model MyRedis.Lib

/-! ## The server seen as a protocol -/

variable {n : ℕ}

/-- The message an IO thread is emitting. -/
def pendingOf : IoBusy → Option OutboxMsg
  | .idle => none
  | .emit msg => some msg
  | .nudge msg => some msg
  | .notify => none

/-- The message for thread `i` that the main thread is posting. -/
def posting (i : Fin n) : MainBusy n → List InboxMsg
  | .postAssign j conn fd => if j = i then [.assignConnection conn fd] else []
  | .postResponse j conn answers fd bytes =>
    if j = i then [.writeResponse conn answers fd bytes] else []
  | _ => []

/-- The batch the main thread is executing. -/
def executingOf : MainBusy n → Option Execution
  | .execute conn answers fd values response => some ⟨conn, fd, answers, values, response⟩
  | _ => none

/-- What the protocol sees of an IO thread for which messages are being posted. -/
def viewIo (posted : List InboxMsg) (t : IoThread) : Thread where
  conns fd := (t.connections fd).map Client.id
  incoming := t.inbox.items ++ posted
  pending := pendingOf t.busy
  outbox := t.outbox.items

/-- What the protocol sees of the server. -/
def view (s : Server n) : Net n where
  io i := viewIo (posting i s.busy) (s.io i)
  executing := executingOf s.busy
  fdToThread := s.fdToThread
  store := s.store
  files := s.files
  accepted := s.accepted
  emitted := s.emitted
  log := s.log
  executed := s.executed
  appended := s.appended

/-- What the protocol sees of a thread that changes.
SOURCE: server.cc:170-246, io_thread.cc:58-242 -/
theorem view_setIo (s : Server n) (i : Fin n) (t : IoThread) :
    view (s.setIo i t) = (view s).setIo i (viewIo (posting i s.busy) t) := by
  unfold view Server.setIo Net.setIo
  congr 1
  funext j
  by_cases h : j = i
  · subst h
    simp only [Function.update_self]
  · simp only [Function.update_of_ne h]

/-- A step of an IO thread that the protocol does not see.
SOURCE: server.cc:170-246, io_thread.cc:58-242 -/
theorem view_setIo_of_eq {s : Server n} {i : Fin n} {t : IoThread}
    (h : viewIo (posting i s.busy) t = viewIo (posting i s.busy) (s.io i)) :
    view (s.setIo i t) = view s := by
  rw [view_setIo, h]
  unfold Net.setIo
  congr 1
  exact Function.update_eq_self i _

/-- A connection is stored under its own descriptor. -/
def KeyedIo (t : IoThread) : Prop :=
  ∀ fd client, t.connections fd = some client → client.conn.fd = fd

/-- Every thread stores connections under their own descriptors. -/
def Keyed (s : Server n) : Prop := ∀ i, KeyedIo (s.io i)

/-- A step of the server, for the protocol: nothing, or a step of the protocol, which accepts
a connection only if the server does. -/
def Follows (N N' : Net n) (accepting : Option Fd) : Prop :=
  N' = N ∨ Net.Step N none N' ∨ Net.Step N accepting N'

/-- The protocol stands still. -/
theorem Follows.of_eq {N N' : Net n} {accepting : Option Fd} (h : N' = N) :
    Follows N N' accepting := Or.inl h

/-- The protocol takes a step without accepting. -/
theorem Follows.of_step {N N' : Net n} {accepting : Option Fd} (h : Net.Step N none N') :
    Follows N N' accepting := Or.inr (Or.inl h)

/-! ### The main thread -/

section Main

variable {s s' : Server n} {accepting : Option Fd}

/-- A message is on its way before and after its `Push`.
SOURCE: io_thread.cc:61-64, 71-74 -/
theorem view_postInbox {i : Fin n} {msg : InboxMsg} (hexecuting : executingOf s.busy = none)
    (hposting : ∀ j, posting j s.busy = if i = j then [msg] else []) :
    view (s.postInbox i msg) = view s := by
  cases hpush : (s.io i).inbox.push msg with
  | none => simp only [Server.postInbox, hpush]
  | some inbox =>
    have hitems := (BoundedQueue.push_eq_some hpush).2
    have hposted (j : Fin n) : posting j (.notify i) = [] := rfl
    simp only [Server.postInbox, hpush]
    unfold view
    congr 1
    · funext j
      by_cases h : j = i
      · subst h
        simp only [Server.setIo, Function.update_self, hposted, viewIo, hitems, hposting, if_true,
          List.append_nil]
      · simp only [Server.setIo, Function.update_of_ne h, hposted, hposting, if_neg (Ne.symm h)]
    · exact hexecuting.symm

/-- A message is on its way as soon as the main thread begins to post it.
SOURCE: io_thread.cc:58-75 -/
theorem view_post (busy : MainBusy n) {i : Fin n} {msg : InboxMsg}
    (hposting : ∀ j, posting j s.busy = []) (hexecuting : executingOf busy = none)
    (hbusy : ∀ j, posting j busy = if i = j then [msg] else []) :
    view { s with busy := busy } = { (view s).post i msg with executing := none } := by
  have hio : (fun j => viewIo (posting j busy) (s.io j)) = ((view s).post i msg).io := by
    funext j
    by_cases h : j = i
    · subst h
      simp only [Net.post, Net.setIo, Function.update_self, view, viewIo, hposting, hbusy, if_true,
        List.append_nil]
    · simp only [Net.post, Net.setIo, Function.update_of_ne h, view, hposting, hbusy,
        if_neg (Ne.symm h)]
  show ({ view s with io := _, executing := executingOf busy } : Net n) = _
  rw [hio, hexecuting]
  rfl

/-- That the main thread notifies is not seen.
SOURCE: io_thread.cc:64, 74 -/
theorem view_idle {i : Fin n} (h : s.busy = .notify i) :
    view { s with busy := .idle } = view s := by
  unfold view
  rw [h]
  rfl

/-- An accepted connection is routed and on its way to its thread.
SOURCE: server.cc:207-213 -/
theorem view_assignToIoThread (fd : Fd) (h : s.busy = .idle) :
    view (s.assignToIoThread fd) =
      { (view s).post s.nextThread (.assignConnection s.accepted.length fd) with
        fdToThread := Function.update s.fdToThread fd (some s.nextThread)
        files := Function.update s.files fd (some s.accepted.length)
        accepted := s.accepted ++ [(fd, s.nextThread)] } := by
  have hposting (j : Fin n) : posting j s.busy = [] := by
    rw [h]
    rfl
  have hview := view_post (.postAssign s.nextThread s.accepted.length fd) hposting rfl
    (fun _ => rfl)
  have hidle : none = (view s).executing := by
    rw [view, h]
    rfl
  show ({ view { s with busy := .postAssign s.nextThread s.accepted.length fd } with
    fdToThread := _, files := _, accepted := _ } : Net n) = _
  rw [hview, hidle]
  rfl

/-- Taking a batch, or a notice, from an outbox.
SOURCE: server.cc:215-227 -/
theorem processCommands_follows (i : Fin n) (rest : List (MainTask n)) (h : s.busy = .idle) :
    Follows (view s) (view (s.processCommands i rest)) accepting := by
  have hidle : (view s).executing = none := by rw [view, h]; rfl
  cases hpop : (s.io i).outbox.pop with
  | none =>
    simp only [Server.processCommands, hpop]
    exact .of_eq rfl
  | some popped =>
    obtain ⟨msg, outbox⟩ := popped
    have hitems : ((view s).io i).outbox = msg :: outbox.items := BoundedQueue.pop_eq_some hpop
    cases msg with
    | commandBatch conn fd values =>
      have hview : view (s.processCommands i rest) =
          { view (s.setIo i { s.io i with outbox := outbox }) with
            executing := some ⟨conn, fd, [], values, []⟩ } := by
        simp only [Server.processCommands, hpop, view, h, posting, executingOf, Server.setIo]
      rw [hview, view_setIo]
      exact .of_step (.takeBatch hidle hitems)
    | disconnect conn fd =>
      simp only [Server.processCommands, hpop]
      show Follows (view s)
        { view (s.setIo i _) with fdToThread := Function.update s.fdToThread fd none } _
      rw [view_setIo]
      exact .of_step (.takeDisconnect hidle hitems)

/-- Executing a request, or posting the response.
SOURCE: server.cc:229-242 -/
theorem executeAndRespond_follows {now : Int64} {conn : ConnId} {answers : List LogEntry}
    {fd : Fd} {values : List RespValue} {response : Bytes}
    (hbusy : s.busy = .execute conn answers fd values response)
    (h : s.executeAndRespond now conn answers fd values response = some s') :
    Follows (view s) (view s') accepting := by
  have hexecuting : (view s).executing = some ⟨conn, fd, answers, values, response⟩ := by
    rw [view, hbusy]
    rfl
  have hposting (j : Fin n) : posting j s.busy = [] := by
    rw [hbusy]
    rfl
  cases values with
  | cons value values =>
    simp only [Server.executeAndRespond] at h
    split at h
    · cases h
    · next reply store hrun =>
      cases h
      have hstep := Net.Step.execute hexecuting hrun
      simp only [view, hposting] at hstep ⊢
      exact .of_step hstep
  | nil =>
    simp only [Server.executeAndRespond] at h
    split at h
    · next hroute =>
      cases h
      have hstep := Net.Step.skip hexecuting hroute
      simp only [view, hposting] at hstep ⊢
      exact .of_step hstep
    · next i hroute =>
      cases h
      have hview := view_post (.postResponse i conn answers fd response) hposting rfl (fun _ => rfl)
      show Follows (view s) { view { s with busy := .postResponse i conn answers fd response } with
        executed := _ } _
      rw [hview]
      exact .of_step (.respond hexecuting hroute)

/-- **A step of the main thread.**
SOURCE: server.cc:170-246 -/
theorem mainStep_follows {input : MainInput} (h : s.mainStep input = some s') :
    Follows (view s) (view s') (s.accepting (.main input)) := by
  unfold Server.mainStep at h
  split at h
  · next i conn fd hbusy =>
    cases h
    exact .of_eq (view_postInbox (by rw [hbusy]; rfl) (by rw [hbusy]; exact fun _ => rfl))
  · next i conn answers fd bytes hbusy =>
    cases h
    exact .of_eq (view_postInbox (by rw [hbusy]; rfl) (by rw [hbusy]; exact fun _ => rfl))
  · next i hbusy =>
    cases h
    let t := s.io i
    have hidle := view_idle (s := s.setIo i { t with inboxEvent := t.inboxEvent + 1 }) hbusy
    exact .of_eq (hidle.trans (view_setIo_of_eq rfl))
  · next conn answers fd values response hbusy => exact executeAndRespond_follows hbusy h
  · split_ifs at h
    cases h
    exact .of_eq rfl
  · cases h
    exact .of_eq rfl
  · cases h
    exact .of_eq rfl
  · next rest hbusy htodo =>
    cases haccepted : input.accepted with
    | none =>
      rw [haccepted] at h
      cases h
      exact .of_eq rfl
    | some fd =>
      rw [haccepted] at h
      simp only at h
      split_ifs at h with hfiles
      cases h
      have haccepting : s.accepting (.main input) = some fd := by
        simp only [Server.accepting, hbusy, htodo, haccepted]
      rw [haccepting, view_assignToIoThread fd hbusy]
      refine Or.inr (Or.inr (.accept fd s.nextThread ?_ hfiles))
      rw [view, hbusy]
      rfl
  · next i rest hbusy htodo =>
    cases h
    exact processCommands_follows i rest hbusy

end Main

/-! ### The IO threads -/

section Io

variable {s s' : Server n} {i : Fin n} {accepting : Option Fd}

/-- Pushing to the outbox.
SOURCE: io_thread.cc:230-234 -/
theorem pushOutbox_follows {msg : OutboxMsg} (h : (s.io i).busy = .emit msg) :
    Follows (view s) (view (s.pushOutbox i msg)) accepting := by
  have hpending : ((view s).io i).pending = some msg := by
    show pendingOf (s.io i).busy = _
    rw [h]
    rfl
  cases hpush : (s.io i).outbox.push msg with
  | none =>
    apply Follows.of_eq
    simp only [Server.pushOutbox, hpush]
    apply view_setIo_of_eq
    simp only [viewIo, h, pendingOf]
  | some outbox =>
    have hio : viewIo (posting i s.busy) { s.io i with outbox := outbox, busy := .notify } =
        { (view s).io i with
          pending := none
          outbox := ((view s).io i).outbox ++ [msg] } := by
      simp only [view, viewIo, pendingOf, (BoundedQueue.push_eq_some hpush).2]
    simp only [Server.pushOutbox, hpush]
    show Follows (view s)
      { view (s.setIo i _) with emitted := s.emitted ++ Server.requests msg } _
    rw [view_setIo, hio]
    exact .of_step (.push hpending)

/-- Notifying the main thread.
SOURCE: io_thread.cc:231, 234 -/
theorem notifyMain_follows {busy : IoBusy} (h : pendingOf busy = pendingOf (s.io i).busy) :
    Follows (view s) (view (s.notifyMain i busy)) accepting := by
  apply Follows.of_eq
  show view (s.setIo i { s.io i with busy := busy }) = view s
  apply view_setIo_of_eq
  simp only [viewIo, h]

/-- Another state of a connection is not seen.
SOURCE: server.cc:170-246, io_thread.cc:58-242 -/
theorem conns_update {t : IoThread} {fd : Fd} {client : Client} (client' : Client)
    (h : t.connections fd = some client) (hid : client'.id = client.id) :
    (fun fd' => (Function.update t.connections fd (some client') fd').map Client.id) =
      fun fd' => (t.connections fd').map Client.id := by
  funext fd'
  by_cases hfd : fd' = fd
  · subst hfd
    simp only [Function.update_self, h, Option.map_some, hid]
  · simp only [Function.update_of_ne hfd]

/-- The connections after an entry has been set, as the protocol sees them.
SOURCE: server.cc:170-246, io_thread.cc:58-242 -/
theorem conns_update_map (t : IoThread) (fd : Fd) (entry : Option Client) :
    (fun fd' => (Function.update t.connections fd entry fd').map Client.id) =
      Function.update (fun fd' => (t.connections fd').map Client.id) fd (entry.map Client.id) := by
  funext fd'
  by_cases hfd : fd' = fd
  · subst hfd
    simp only [Function.update_self]
  · simp only [Function.update_of_ne hfd]

/-- A flush is not seen.
SOURCE: io_thread.cc:188-213 -/
theorem viewIo_flushClient {posted : List InboxMsg} {t t' : IoThread} {fd : Fd}
    {client client' : Client} {sends : List SendResult} (hclient : t.connections fd = some client)
    (hid : client'.id = client.id) (h : Server.flushClient t fd client' sends = some t') :
    viewIo posted t' = viewIo posted t := by
  obtain ⟨⟨conn, failed⟩, -, rfl⟩ := Option.map_eq_some_iff.mp h
  unfold viewIo
  simp only [conns_update { client' with conn := conn } hclient hid]

/-- Taking a connection over.
SOURCE: io_thread.cc:118-129 -/
theorem viewIo_handleAssign (posted : List InboxMsg) (t : IoThread) (conn : ConnId) (fd : Fd) :
    viewIo posted (Server.handleAssign t conn fd) = { viewIo posted t with
      conns := Function.update (viewIo posted t).conns fd
        (some (((viewIo posted t).conns fd).getD conn)) } := by
  unfold Server.handleAssign
  cases hconn : t.connections fd with
  | some client =>
    have hsome : (viewIo posted t).conns fd = some client.id := by
      simp only [viewIo, hconn, Option.map_some]
    rw [hsome, Option.getD_some, ← hsome, Function.update_eq_self]
  | none =>
    have hnone : (viewIo posted t).conns fd = none := by
      simp only [viewIo, hconn, Option.map_none]
    rw [hnone, Option.getD_none]
    unfold viewIo
    simp only [conns_update_map, Option.map_some]

/-- Taking a message from the inbox.
SOURCE: io_thread.cc:108-137 -/
theorem drainInbox_follows {rest : List IoTask} {sends : List SendResult}
    (h : s.drainInbox i rest sends = some s') : Follows (view s) (view s') accepting := by
  cases hpop : (s.io i).inbox.pop with
  | none =>
    simp only [Server.drainInbox, hpop] at h
    cases h
    exact .of_eq (view_setIo_of_eq rfl)
  | some popped =>
    obtain ⟨msg, inbox⟩ := popped
    have hitems : ((view s).io i).incoming = msg :: (inbox.items ++ posting i s.busy) := by
      simp only [view, viewIo, BoundedQueue.pop_eq_some hpop, List.cons_append]
    cases msg with
    | assignConnection conn fd =>
      simp only [Server.drainInbox, hpop] at h
      cases h
      rw [view_setIo, viewIo_handleAssign]
      exact .of_step (.takeAssign hitems)
    | writeResponse conn answers fd bytes =>
      cases hconn : (s.io i).connections fd with
      | none =>
        simp only [Server.drainInbox, hpop, hconn] at h
        cases h
        rw [view_setIo]
        refine .of_step (.dropResponse hitems ?_)
        simp only [view, viewIo, hconn, Option.map_none]
      | some client =>
        simp only [Server.drainInbox, hpop, hconn] at h
        obtain ⟨t, hflush, rfl⟩ := Option.map_eq_some_iff.mp h
        show Follows (view s) { view (s.setIo i t) with appended := _ } _
        rw [view_setIo,
          viewIo_flushClient (t := { s.io i with inbox := inbox }) hconn (by rfl) hflush]
        refine .of_step (.takeResponse hitems ?_)
        simp only [view, viewIo, hconn, Option.map_some]

/-- A readable event: the batch is emitted next.
SOURCE: io_thread.cc:139-180 -/
theorem viewIo_handleReadableTask (posted : List InboxMsg) {t : IoThread} {fd : Fd}
    {client : Client} (rest : List IoTask) (reads : ReadableEvent)
    (hconn : t.connections fd = some client) (hfd : client.conn.fd = fd) :
    viewIo posted (Server.handleReadableTask t fd rest reads) = { viewIo posted t with
      pending := if (handleReadable client.conn reads).batch = [] then none
        else some (.commandBatch client.id fd (handleReadable client.conn reads).batch) } := by
  have hconns (conn : Connection) :=
    conns_update { client with conn := conn } hconn rfl
  simp only [Server.handleReadableTask, hconn, viewIo, hconns, hfd]
  congr 1
  split_ifs <;> rfl

/-- A readable event is a step of the protocol if it completes a request, and none otherwise.
SOURCE: io_thread.cc:139-180 -/
theorem handleReadableTask_follows (fd : Fd) (rest : List IoTask) (reads : ReadableEvent)
    (hkeyed : Keyed s) (hbusy : (s.io i).busy = .idle) :
    Follows (view s) (view (s.setIo i (Server.handleReadableTask (s.io i) fd rest reads)))
      accepting := by
  have hpending : ((view s).io i).pending = none := by
    simp only [view, viewIo, hbusy, pendingOf]
  cases hconn : (s.io i).connections fd with
  | none =>
    simp only [Server.handleReadableTask, hconn]
    exact .of_eq (view_setIo_of_eq rfl)
  | some client =>
    have hio := viewIo_handleReadableTask (posting i s.busy) rest reads hconn
      (hkeyed i fd client hconn)
    by_cases hbatch : (handleReadable client.conn reads).batch = []
    · rw [if_pos hbatch, ← hpending] at hio
      exact .of_eq (view_setIo_of_eq hio)
    · rw [if_neg hbatch] at hio
      rw [view_setIo, hio]
      refine .of_step (.batch hpending ?_)
      simp only [view, viewIo, hconn, Option.map_some]

/-- A writable event.
SOURCE: io_thread.cc:182-186 -/
theorem handleWritable_follows {fd : Fd} {rest : List IoTask} {sends : List SendResult}
    {t : IoThread} (h : Server.handleWritable (s.io i) fd rest sends = some t) :
    Follows (view s) (view (s.setIo i t)) accepting := by
  apply Follows.of_eq
  apply view_setIo_of_eq
  cases hconn : (s.io i).connections fd with
  | none =>
    simp only [Server.handleWritable, hconn] at h
    cases h
    rfl
  | some client =>
    simp only [Server.handleWritable, hconn] at h
    exact viewIo_flushClient (t := { s.io i with todo := rest }) hconn (by rfl) h

/-- Closing a connection.
SOURCE: io_thread.cc:215-222 -/
theorem closeConnection_follows (fd : Fd) (rest : List IoTask) (hbusy : (s.io i).busy = .idle) :
    Follows (view s) (view (s.closeConnection i fd rest)) accepting := by
  cases hconn : (s.io i).connections fd with
  | none =>
    simp only [Server.closeConnection, hconn]
    exact .of_eq (view_setIo_of_eq rfl)
  | some client =>
    have hio : viewIo (posting i s.busy) { s.io i with
        todo := rest
        connections := Function.update (s.io i).connections fd none
        busy := .emit (.disconnect client.id fd) } = { (view s).io i with
          conns := Function.update ((view s).io i).conns fd none
          pending := some (.disconnect client.id fd) } := by
      simp only [view, viewIo, conns_update_map, pendingOf, Option.map_none]
    simp only [Server.closeConnection, hconn]
    show Follows (view s) { view (s.setIo i _) with files := Function.update s.files fd none } _
    rw [view_setIo, hio]
    refine .of_step (.close ?_ ?_)
    · simp only [view, viewIo, hbusy, pendingOf]
    · simp only [view, viewIo, hconn, Option.map_some]

/-- What is to be done for an event is not seen.
SOURCE: io_thread.cc:91-103 -/
theorem viewIo_handleEvent (posted : List InboxMsg) (t : IoThread) (ev : IoEvent)
    (rest : List IoTask) : viewIo posted (Server.handleEvent t ev rest) = viewIo posted t := by
  unfold Server.handleEvent
  cases ev with
  | inbox => rfl
  | client fd error readable writable =>
    simp only
    split_ifs <;> rfl

/-- **A step of an IO thread.**
SOURCE: io_thread.cc:77-242 -/
theorem ioStep_follows {input : IoInput} (hkeyed : Keyed s) (h : s.ioStep i input = some s') :
    Follows (view s) (view s') accepting := by
  unfold Server.ioStep at h
  simp only at h
  split at h
  · next msg hbusy =>
    cases h
    exact pushOutbox_follows hbusy
  · next msg hbusy =>
    cases h
    exact notifyMain_follows (by rw [hbusy]; rfl)
  · next hbusy =>
    cases h
    exact notifyMain_follows (by rw [hbusy]; rfl)
  · split_ifs at h
    cases h
    exact .of_eq (view_setIo_of_eq rfl)
  · cases h
    exact .of_eq (view_setIo_of_eq (viewIo_handleEvent _ _ _ _))
  · exact drainInbox_follows h
  · next hbusy _ =>
    cases h
    exact handleReadableTask_follows _ _ _ hkeyed hbusy
  · obtain ⟨t, ht, rfl⟩ := Option.map_eq_some_iff.mp h
    exact handleWritable_follows ht
  · next hbusy _ =>
    cases h
    exact closeConnection_follows _ _ hbusy

end Io

/-- **A step of the server is a step of the protocol, or none.**
SOURCE: server.cc:170-246, io_thread.cc:58-242 -/
theorem step_follows {s s' : Server n} {a : Server.Action n} (hkeyed : Keyed s)
    (h : s.step a = some s') : Follows (view s) (view s') (s.accepting a) := by
  cases a with
  | main input => exact mainStep_follows h
  | io i input => exact ioStep_follows hkeyed h

/-! ## Connections are stored under their descriptors -/

section Keyed

variable {s s' : Server n} {t t' : IoThread} {fd : Fd}

/-- An entry is set that is under its own descriptor.
SOURCE: io_thread.cc:123 -/
theorem KeyedIo.update (h : KeyedIo t) {entry : Option Client}
    (hentry : ∀ client ∈ entry, client.conn.fd = fd)
    (hconns : t'.connections = Function.update t.connections fd entry) : KeyedIo t' := by
  intro fd' client hclient
  rw [hconns] at hclient
  by_cases hfd : fd' = fd
  · subst hfd
    rw [Function.update_self] at hclient
    exact hentry client hclient
  · rw [Function.update_of_ne hfd] at hclient
    exact h fd' client hclient

/-- One thread changes.
SOURCE: server.cc:170-246, io_thread.cc:58-242 -/
theorem Keyed.setIo (h : Keyed s) {i : Fin n} (ht : KeyedIo t) : Keyed (s.setIo i t) := by
  intro j
  by_cases hj : j = i
  · subst hj
    simpa only [Server.setIo, Function.update_self] using ht
  · simpa only [Server.setIo, Function.update_of_ne hj] using h j

/-- Reading does not change the descriptor.
SOURCE: io_thread.cc:139-180 -/
theorem handleReadable_fd (conn : Connection) (ev : ReadableEvent) :
    (handleReadable conn ev).conn.fd = conn.fd := by
  unfold handleReadable
  split
  next conn' alive hread =>
    cases hread
    split <;> rfl

/-- A flush keeps every connection under its descriptor.
SOURCE: io_thread.cc:188-213 -/
theorem KeyedIo.flushClient {client : Client} {sends : List SendResult} (h : KeyedIo t)
    (hfd : client.conn.fd = fd) (hflush : Server.flushClient t fd client sends = some t') :
    KeyedIo t' := by
  obtain ⟨⟨conn, failed⟩, hconn, rfl⟩ := Option.map_eq_some_iff.mp hflush
  obtain ⟨remaining, -, heq⟩ := Option.map_eq_some_iff.mp hconn
  refine h.update ?_ rfl
  intro client' hclient'
  cases hclient'
  cases remaining with
  | none =>
    cases heq
    exact hfd
  | some remaining =>
    cases heq
    exact hfd

/-- Taking a message keeps every connection under its descriptor.
SOURCE: io_thread.cc:108-137 -/
theorem drainInbox_keyed (h : Keyed s) {i : Fin n} {rest : List IoTask}
    {sends : List SendResult} (hs : s.drainInbox i rest sends = some s') : Keyed s' := by
  unfold Server.drainInbox at hs
  simp only at hs
  split at hs
  · cases hs
    exact h.setIo (h i)
  · cases hs
    apply h.setIo
    unfold Server.handleAssign
    split
    · exact h i
    · refine KeyedIo.update (h i) ?_ rfl
      intro client hclient
      cases hclient
      rfl
  · next conn answers fd bytes inbox hpop =>
    split at hs
    · cases hs
      exact h.setIo (h i)
    · next client hclient =>
      obtain ⟨t, hflush, rfl⟩ := Option.map_eq_some_iff.mp hs
      have hfd : client.conn.fd = fd := h i fd client hclient
      have hi : KeyedIo { s.io i with inbox := inbox } := h i
      exact h.setIo (hi.flushClient (by exact hfd) hflush)

/-- A readable event keeps every connection under its descriptor.
SOURCE: io_thread.cc:139-180 -/
theorem KeyedIo.handleReadableTask (h : KeyedIo t) (rest : List IoTask) (reads : ReadableEvent) :
    KeyedIo (Server.handleReadableTask t fd rest reads) := by
  unfold Server.handleReadableTask
  split
  · exact h
  · next client hclient =>
    refine h.update ?_ rfl
    intro client' hclient'
    cases hclient'
    rw [handleReadable_fd]
    exact h fd client hclient

/-- A writable event keeps every connection under its descriptor.
SOURCE: io_thread.cc:182-186 -/
theorem KeyedIo.handleWritable {rest : List IoTask} {sends : List SendResult} (h : KeyedIo t)
    (ht : Server.handleWritable t fd rest sends = some t') : KeyedIo t' := by
  unfold Server.handleWritable at ht
  simp only at ht
  split at ht
  · cases ht
    exact h
  · next client hclient =>
    have ht' : KeyedIo { t with todo := rest } := h
    exact ht'.flushClient (h fd client hclient) ht

/-- Closing a connection leaves the others under their descriptors.
SOURCE: io_thread.cc:215-222 -/
theorem closeConnection_keyed (h : Keyed s) (i : Fin n) (rest : List IoTask) :
    Keyed (s.closeConnection i fd rest) := by
  unfold Server.closeConnection
  simp only
  split
  · exact h.setIo (h i)
  · have hnone : ∀ client ∈ (none : Option Client), client.conn.fd = fd := by
      intro client hclient
      cases hclient
    exact h.setIo (KeyedIo.update (h i) hnone rfl)

/-- Every step of an IO thread keeps every connection under its descriptor.
SOURCE: io_thread.cc:77-242 -/
theorem ioStep_keyed {i : Fin n} {input : IoInput} (h : Keyed s)
    (hs : s.ioStep i input = some s') : Keyed s' := by
  unfold Server.ioStep at hs
  simp only at hs
  split at hs
  · cases hs
    unfold Server.pushOutbox
    simp only
    split <;> exact h.setIo (h i)
  · cases hs
    exact h.setIo (h i)
  · cases hs
    exact h.setIo (h i)
  · split_ifs at hs
    cases hs
    exact h.setIo (h i)
  · next ev rest hbusy htodo =>
    cases hs
    apply h.setIo
    unfold Server.handleEvent
    cases ev with
    | inbox => exact h i
    | client fd error readable writable =>
      simp only
      split_ifs <;> exact h i
  · exact drainInbox_keyed h hs
  · cases hs
    exact h.setIo (KeyedIo.handleReadableTask (h i) _ _)
  · obtain ⟨t, ht, rfl⟩ := Option.map_eq_some_iff.mp hs
    exact h.setIo (KeyedIo.handleWritable (h i) ht)
  · cases hs
    exact closeConnection_keyed h i _

/-- Posting touches no connection.
SOURCE: io_thread.cc:61-64, 71-74 -/
theorem postInbox_keyed (h : Keyed s) (i : Fin n) (msg : InboxMsg) : Keyed (s.postInbox i msg) := by
  unfold Server.postInbox
  split
  · exact h
  · exact h.setIo (h i)

/-- No step of the main thread touches a connection.
SOURCE: server.cc:170-246 -/
theorem mainStep_keyed {input : MainInput} (h : Keyed s) (hs : s.mainStep input = some s') :
    Keyed s' := by
  unfold Server.mainStep at hs
  split at hs
  · cases hs
    exact postInbox_keyed h _ _
  · cases hs
    exact postInbox_keyed h _ _
  · next i hbusy =>
    cases hs
    exact h.setIo (h i)
  · unfold Server.executeAndRespond at hs
    split at hs <;> split at hs <;> cases hs <;> exact h
  · split_ifs at hs
    cases hs
    exact h
  · cases hs
    exact h
  · cases hs
    exact h
  · split at hs
    · cases hs
      exact h
    · split_ifs at hs
      cases hs
      exact h
  · next i rest hbusy htodo =>
    cases hs
    unfold Server.processCommands
    split
    · exact h
    · exact h.setIo (h i)
    · exact h.setIo (h i)

/-- **Every step** keeps every connection under its descriptor.
SOURCE: server.cc:170-246, io_thread.cc:58-242 -/
theorem step_keyed {a : Server.Action n} (h : Keyed s) (hs : s.step a = some s') : Keyed s' := by
  cases a with
  | main input => exact mainStep_keyed h hs
  | io i input => exact ioStep_keyed h hs

end Keyed

/-! ## The frame of an IO thread -/

/-- What a step of thread `i` leaves alone: the main thread, but for its event counter, which
only grows, and the other threads. -/
structure IoFrame (i : Fin n) (s s' : Server n) : Prop where
  busy : s'.busy = s.busy
  todo : s'.todo = s.todo
  fdToThread : s'.fdToThread = s.fdToThread
  commandEvent : s.commandEvent ≤ s'.commandEvent
  io : ∀ j, j ≠ i → s'.io j = s.io j

/-- Only one thread changes.
SOURCE: server.cc:170-246, io_thread.cc:58-242 -/
theorem ioFrame_setIo (s : Server n) (i : Fin n) (t : IoThread) : IoFrame i s (s.setIo i t) :=
  ⟨rfl, rfl, rfl, Nat.le_refl _, fun _ hj => Function.update_of_ne hj _ _⟩

/-- Notifying the main thread changes one thread only.
SOURCE: io_thread.cc:231, 234 -/
theorem ioFrame_notifyMain (s : Server n) (i : Fin n) (busy : IoBusy) :
    IoFrame i s (s.notifyMain i busy) :=
  ⟨rfl, rfl, rfl, Nat.le_succ _, fun _ hj => Function.update_of_ne hj _ _⟩

/-- **A step of an IO thread leaves the other threads alone.**
SOURCE: io_thread.cc:77-242 -/
theorem ioStep_frame {s s' : Server n} {i : Fin n} {input : IoInput}
    (h : s.ioStep i input = some s') : IoFrame i s s' := by
  have hset (t : IoThread) := ioFrame_setIo s i t
  unfold Server.ioStep at h
  simp only at h
  split at h
  · cases h
    unfold Server.pushOutbox
    simp only
    split
    · exact hset _
    · exact ⟨rfl, rfl, rfl, Nat.le_refl _, (hset _).io⟩
  · cases h
    exact ioFrame_notifyMain s i _
  · cases h
    exact ioFrame_notifyMain s i _
  · split_ifs at h
    cases h
    exact hset _
  · cases h
    exact hset _
  · unfold Server.drainInbox at h
    simp only at h
    split at h
    · cases h
      exact hset _
    · cases h
      exact hset _
    · split at h
      · cases h
        exact hset _
      · obtain ⟨t, -, rfl⟩ := Option.map_eq_some_iff.mp h
        exact ⟨rfl, rfl, rfl, Nat.le_refl _, (hset _).io⟩
  · cases h
    exact hset _
  · obtain ⟨t, -, rfl⟩ := Option.map_eq_some_iff.mp h
    exact hset _
  · cases h
    unfold Server.closeConnection
    simp only
    split
    · exact hset _
    · exact ⟨rfl, rfl, rfl, Nat.le_refl _, (hset _).io⟩

/-! ## Runs -/

/-- The steps of a run in which a descriptor is accepted only in a state that allows it. -/
def Accepts (allowed : Server n → Fd → Prop) (s : Server n) (a : Server.Action n) : Prop :=
  ∀ fd ∈ s.accepting a, allowed s fd

instance (allowed : Server n → Fd → Prop) [∀ s fd, Decidable (allowed s fd)] (s : Server n)
    (a : Server.Action n) : Decidable (Accepts allowed s a) :=
  inferInstanceAs (Decidable (∀ fd ∈ s.accepting a, allowed s fd))

/-- The server, started with `store`, reaches `s` in a run in which descriptors are accepted
only in states that allow it. -/
def Reachable [NeZero n] (allowed : Server n → Fd → Prop) (store : Store) : Server n → Prop :=
  Reaches (fun s a s' => s.step a = some s') (Accepts allowed) (Server.init store)

/-- `accept` may return any descriptor that is not open. -/
def AnyFd (_ : Server n) (_ : Fd) : Prop := True

instance (s : Server n) (fd : Fd) : Decidable (AnyFd s fd) := inferInstanceAs (Decidable True)

variable [NeZero n] {allowed : Server n → Fd → Prop} {store : Store} {s : Server n}

/-- Every connection is under its descriptor, in every run.
SOURCE: server.cc:170-246, io_thread.cc:58-242 -/
theorem keyed_of_reachable (h : Reachable allowed store s) : Keyed s := by
  apply Reaches.invariant (I := Keyed) _ _ h
  · intro i fd client hclient
    cases hclient
  · intro s a s' hkeyed _ hs
    exact step_keyed hkeyed hs

/-- **What the server reaches is what the protocol reaches.**
SOURCE: server.cc:170-246, io_thread.cc:58-242 -/
theorem reaches_view (allowed' : Net n → Fd → Prop)
    (hallowed : ∀ s fd, allowed s fd → allowed' (view s) fd) (h : Reachable allowed store s) :
    Reaches Net.Step (fun N l => ∀ fd ∈ l, allowed' N fd) (Net.init store) (view s) := by
  apply Reaches.simulate (I := Keyed) (v := view) _ _ h
  · intro s hs
    exact keyed_of_reachable hs
  · intro s a s' hkeyed haccepts hs
    obtain heq | hstep | hstep := step_follows hkeyed hs
    · exact Or.inl heq
    · exact Or.inr ⟨none, fun fd hfd => absurd hfd (Option.not_mem_none fd), hstep⟩
    · refine Or.inr ⟨s.accepting a, ?_, hstep⟩
      intro fd hfd
      exact hallowed s fd (haccepts fd hfd)

end MyRedis.Analysis

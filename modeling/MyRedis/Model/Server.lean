import Mathlib.Data.Fin.Basic
import Mathlib.Logic.Function.Basic
import MyRedis.Lib.BoundedQueue
import MyRedis.Model.Connection
import MyRedis.Model.Dispatcher

/-!
# The server: the main thread and its IO threads

`messages.h`, `server.cc` and the part of `io_thread.cc` that is not about a single
connection.  The threads interleave: a step of a thread is one queue operation, one
`Notify` or `Drain`, one `accept`, one `close`, or the work on one client or one request,
which no other thread sees.  What the kernel decides comes in with the step: the events of
an `epoll_wait`, the descriptor of an `accept`, the results of `recv` and `send`, and the
clock.

A thread is where its `busy` and `todo` say: `busy` is the operation it is in the middle
of, and `todo` what its loops have left to do.  A thread with neither is in `epoll_wait`.

The queues are first-in first-out queues of `kQueueCapacity` messages.  Snapshots, the end
of a thread and failures of `epoll_wait` are left out.

Some data is not in the source and only records what happened.  Connections are numbered
in the order of acceptance; messages carry the number of the connection they are about,
and responses the executed requests they answer.  No step looks at these records.
-/

set_option autoImplicit false

namespace MyRedis.Model

open MyRedis.Lib

/-- `IoThread::kQueueCapacity`
SOURCE: io_thread.h:31 -/
def kQueueCapacity : ℕ := 1024

/-- `kMaxEvents`
SOURCE: io_thread.cc:18 -/
def kMaxEvents : ℕ := 64

/-- Record: the number of a connection, in the order of acceptance. -/
abbrev ConnId := ℕ

/-- Record: a request that has been executed, the connection it was parsed from, the clock
reading and the reply. -/
structure LogEntry where
  conn : ConnId
  now : Int64
  request : RespValue
  reply : RespValue

/-- `InboxMsg`: messages from the main thread to an IO thread.
SOURCE: messages.h:16-27 -/
inductive InboxMsg where
  | assignConnection (conn : ConnId) (fd : Fd)
  | writeResponse (conn : ConnId) (answers : List LogEntry) (fd : Fd) (bytes : Bytes)

/-- `OutboxMsg`: messages from an IO thread to the main thread.
SOURCE: messages.h:32-48 -/
inductive OutboxMsg where
  | commandBatch (conn : ConnId) (fd : Fd) (values : List RespValue)
  | disconnect (conn : ConnId) (fd : Fd)

/-! ## IO threads -/

/-- An event of the epoll set of an IO thread. -/
inductive IoEvent where
  | inbox
  | client (fd : Fd) (error readable writable : Bool)

/-- The descriptor of an event; `none` is the inbox event. -/
def IoEvent.fd : IoEvent → Option Fd
  | .inbox => none
  | .client fd _ _ _ => some fd

/-- What the loops of an IO thread have left to do. -/
inductive IoTask where
  | event (ev : IoEvent)
  | drainInbox
  | handleReadable (fd : Fd)
  | handleWritable (fd : Fd)
  | closeConnection (fd : Fd)

/-- The operation an IO thread is in the middle of: `Emit` before a `Push`, after a failed
one, and after a successful one.
SOURCE: io_thread.cc:230-234 -/
inductive IoBusy where
  | idle
  | emit (msg : OutboxMsg)
  | nudge (msg : OutboxMsg)
  | notify

/-- An entry of `connections_`, with the number of the connection. -/
structure Client where
  id : ConnId
  conn : Connection

/-- `IoThread`
SOURCE: io_thread.h:85-92 -/
structure IoThread where
  inbox : BoundedQueue InboxMsg kQueueCapacity
  outbox : BoundedQueue OutboxMsg kQueueCapacity
  inboxEvent : ℕ
  connections : Fd → Option Client
  busy : IoBusy
  todo : List IoTask

/-- An IO thread before it is started. -/
def IoThread.new : IoThread := ⟨.empty, .empty, 0, fun _ => none, .idle, []⟩

/-- What the kernel gives an IO thread in one step: the events of an `epoll_wait`, the
results of the `recv` calls of a readable event and of the `send` calls of a flush. -/
structure IoInput where
  events : List IoEvent := []
  reads : ReadableEvent := ⟨[], .wouldBlockOrInterrupted⟩
  sends : List SendResult := []

/-- Can the event be reported?  The descriptor is registered; the inbox event is ready when
its counter is positive, and `EPOLLOUT` is reported only where it is registered. -/
def IoThread.ready (t : IoThread) : IoEvent → Bool
  | .inbox => 0 < t.inboxEvent
  | .client fd _ _ writable =>
    match t.connections fd with
    | none => false
    | some client => !writable || client.conn.writable

/-- The events `epoll_wait` may report: at least one and at most `kMaxEvents` ready
descriptors, all different.  The inbox event is left out only when the array is full. -/
def IoThread.MayReport (t : IoThread) (events : List IoEvent) : Prop :=
  events ≠ [] ∧ events.length ≤ kMaxEvents ∧ (events.map IoEvent.fd).Nodup ∧
    (∀ ev ∈ events, t.ready ev = true) ∧
    (0 < t.inboxEvent → none ∈ events.map IoEvent.fd ∨ events.length = kMaxEvents)

instance (t : IoThread) (events : List IoEvent) : Decidable (t.MayReport events) :=
  inferInstanceAs (Decidable (_ ∧ _ ∧ _ ∧ _ ∧ _))

/-! ## The main thread -/

/-- An event of the epoll set of the main thread. -/
inductive MainEvent where
  | listen
  | command
  deriving DecidableEq

/-- What the loops of the main thread have left to do. -/
inductive MainTask (n : ℕ) where
  | event (ev : MainEvent)
  | acceptConnections
  | processCommands (i : Fin n)

/-- The operation the main thread is in the middle of: `PostAssign` or `PostResponse`
before a successful `Push` and after it, or `ExecuteAndRespond` with the requests left and
the response so far.
SOURCE: io_thread.cc:58-75, server.cc:229-242 -/
inductive MainBusy (n : ℕ) where
  | idle
  | postAssign (i : Fin n) (conn : ConnId) (fd : Fd)
  | postResponse (i : Fin n) (conn : ConnId) (answers : List LogEntry) (fd : Fd) (bytes : Bytes)
  | notify (i : Fin n)
  | execute (conn : ConnId) (answers : List LogEntry) (fd : Fd) (values : List RespValue)
      (response : Bytes)

/-- What the kernel gives the main thread in one step: the events of an `epoll_wait`, the
descriptor of an `accept` (`none`: nothing to accept) and the clock. -/
structure MainInput where
  events : List MainEvent := []
  accepted : Option Fd := none
  now : Int64 := 0

/-- Record: bytes appended to the `out_buffer` of a connection, the connection the message
was about, and the requests the bytes answer. -/
structure Appended where
  target : ConnId
  source : ConnId
  answers : List LogEntry
  bytes : Bytes

/-- `Server` with `n` IO threads.  `files` is the table of client sockets the kernel keeps
for the process.
SOURCE: server.h:77-82 -/
structure Server (n : ℕ) where
  io : Fin n → IoThread
  busy : MainBusy n
  todo : List (MainTask n)
  fdToThread : Fd → Option (Fin n)
  nextThread : Fin n
  store : Store
  commandEvent : ℕ
  files : Fd → Option ConnId
  /-- record: the connections accepted, with the IO thread each was assigned to -/
  accepted : List (Fd × Fin n)
  /-- record: the batches pushed to an outbox -/
  emitted : List (ConnId × List RespValue)
  /-- record: the requests executed -/
  log : List LogEntry
  /-- record: the batches executed -/
  executed : List (ConnId × List LogEntry)
  /-- record: what was appended to out buffers -/
  appended : List Appended

namespace Server

variable {n : ℕ}

/-- The server when its threads start.
SOURCE: server.cc:156-171 -/
def init [NeZero n] (store : Store) : Server n where
  io _ := .new
  busy := .idle
  todo := []
  fdToThread _ := none
  nextThread := 0
  store := store
  commandEvent := 0
  files _ := none
  accepted := []
  emitted := []
  log := []
  executed := []
  appended := []

/-- The server with another state of thread `i`. -/
def setIo (s : Server n) (i : Fin n) (t : IoThread) : Server n :=
  { s with io := Function.update s.io i t }

/-! ## Steps of the main thread -/

/-- The events `epoll_wait` may report to the main thread; its array is never full. -/
def MayReport (s : Server n) (events : List MainEvent) : Prop :=
  events ≠ [] ∧ events.Nodup ∧ (.command ∈ events ↔ 0 < s.commandEvent)

instance (s : Server n) (events : List MainEvent) : Decidable (s.MayReport events) :=
  inferInstanceAs (Decidable (_ ∧ _ ∧ _))

/-- `Server::AssignToIoThread`, up to the loop of `PostAssign`.
SOURCE: server.cc:207-213 -/
def assignToIoThread (s : Server n) (clientFd : Fd) : Server n :=
  { s with
    nextThread := ⟨(s.nextThread + 1) % n, Nat.mod_lt _ s.nextThread.pos⟩
    fdToThread := Function.update s.fdToThread clientFd (some s.nextThread)
    busy := .postAssign s.nextThread s.accepted.length clientFd
    files := Function.update s.files clientFd (some s.accepted.length)
    accepted := s.accepted ++ [(clientFd, s.nextThread)] }

/-- `inbox_.Push` in `PostAssign` and `PostResponse`: a full queue is tried again.
SOURCE: io_thread.cc:61-64, 71-74 -/
def postInbox (s : Server n) (i : Fin n) (msg : InboxMsg) : Server n :=
  match (s.io i).inbox.push msg with
  | none => s
  | some inbox => { s.setIo i { s.io i with inbox := inbox } with busy := .notify i }

/-- One pop of the loop of `Server::ProcessCommands` for thread `i`; `rest` comes after it.
SOURCE: server.cc:219-225 -/
def processCommands (s : Server n) (i : Fin n) (rest : List (MainTask n)) : Server n :=
  match (s.io i).outbox.pop with
  | none => { s with todo := rest }
  | some (.commandBatch conn fd values, outbox) =>
    { s.setIo i { s.io i with outbox := outbox } with busy := .execute conn [] fd values [] }
  | some (.disconnect _ fd, outbox) =>
    { s.setIo i { s.io i with outbox := outbox } with
      fdToThread := Function.update s.fdToThread fd none }

/-- One step of `Server::ExecuteAndRespond`: the next request, or the way to the response.
There is no step where `Dispatch` is undefined.
SOURCE: server.cc:229-242 -/
def executeAndRespond (s : Server n) (now : Int64) (conn : ConnId) (answers : List LogEntry)
    (fd : Fd) (values : List RespValue) (response : Bytes) : Option (Server n) :=
  match values with
  | value :: values =>
    match dispatch s.store now value with
    | .error _ => none
    | .ok (reply, store) =>
      let entry : LogEntry := ⟨conn, now, value, reply⟩
      some { s with
        busy := .execute conn (answers ++ [entry]) fd values (response ++ reply.serialize)
        store := store
        log := s.log ++ [entry] }
  | [] =>
    let executed := s.executed ++ [(conn, answers)]
    match s.fdToThread fd with
    | none => some { s with busy := .idle, executed := executed }
    | some i =>
      some { s with busy := .postResponse i conn answers fd response, executed := executed }

/-- One step of the main thread.
SOURCE: server.cc:150-246 -/
def mainStep (s : Server n) (input : MainInput) : Option (Server n) :=
  match s.busy, s.todo with
  | .postAssign i conn fd, _ => some (s.postInbox i (.assignConnection conn fd))
  | .postResponse i conn answers fd bytes, _ =>
    some (s.postInbox i (.writeResponse conn answers fd bytes))
  | .notify i, _ =>
    let t := s.io i
    some { s.setIo i { t with inboxEvent := t.inboxEvent + 1 } with busy := .idle }
  | .execute conn answers fd values response, _ =>
    s.executeAndRespond input.now conn answers fd values response
  | .idle, [] =>
    if s.MayReport input.events then some { s with todo := input.events.map .event } else none
  | .idle, .event .listen :: rest => some { s with todo := .acceptConnections :: rest }
  | .idle, .event .command :: rest =>
    some { s with
      commandEvent := 0
      todo := (List.finRange n).map .processCommands ++ rest }
  | .idle, .acceptConnections :: rest =>
    match input.accepted with
    | none => some { s with todo := rest }
    | some fd => if s.files fd = none then some (s.assignToIoThread fd) else none
  | .idle, .processCommands i :: rest => some (s.processCommands i rest)

/-! ## Steps of an IO thread -/

/-- Record: the requests of a message. -/
def requests : OutboxMsg → List (ConnId × List RespValue)
  | .commandBatch conn _ values => [(conn, values)]
  | .disconnect _ _ => []

/-- `outbox_.Push` in `IoThread::Emit`.
SOURCE: io_thread.cc:230 -/
def pushOutbox (s : Server n) (i : Fin n) (msg : OutboxMsg) : Server n :=
  let t := s.io i
  match t.outbox.push msg with
  | none => s.setIo i { t with busy := .nudge msg }
  | some outbox =>
    { s.setIo i { t with outbox := outbox, busy := .notify } with
      emitted := s.emitted ++ requests msg }

/-- `command_event_.Notify()` in `IoThread::Emit`, after which thread `i` does `busy`.
SOURCE: io_thread.cc:231, 234 -/
def notifyMain (s : Server n) (i : Fin n) (busy : IoBusy) : Server n :=
  { s.setIo i { s.io i with busy := busy } with commandEvent := s.commandEvent + 1 }

/-- `IoThread::HandleAssign`
SOURCE: io_thread.cc:118-129 -/
def handleAssign (t : IoThread) (conn : ConnId) (clientFd : Fd) : IoThread :=
  match t.connections clientFd with
  | some _ => t
  | none =>
    { t with
      connections := Function.update t.connections clientFd (some ⟨conn, .new clientFd⟩) }

/-- `IoThread::FlushOutBuffer` on an entry of the map; a fatal error closes it next.
SOURCE: io_thread.cc:188-213 -/
def flushClient (t : IoThread) (fd : Fd) (client : Client) (sends : List SendResult) :
    Option IoThread :=
  (flushOutBuffer client.conn sends).map fun (conn, failed) =>
    { t with
      connections := Function.update t.connections fd (some { client with conn := conn })
      todo := if failed then .closeConnection conn.fd :: t.todo else t.todo }

/-- One pop of `IoThread::DrainInbox`, with `HandleAssign` or `HandleWriteResponse`; `rest`
comes after the loop.
SOURCE: io_thread.cc:108-137 -/
def drainInbox (s : Server n) (i : Fin n) (rest : List IoTask) (sends : List SendResult) :
    Option (Server n) :=
  let t := s.io i
  match t.inbox.pop with
  | none => some (s.setIo i { t with todo := rest })
  | some (.assignConnection conn fd, inbox) =>
    some (s.setIo i (handleAssign { t with inbox := inbox } conn fd))
  | some (.writeResponse conn answers fd bytes, inbox) =>
    let t := { t with inbox := inbox }
    match t.connections fd with
    | none => some (s.setIo i t)
    | some client =>
      let client :=
        { client with conn := { client.conn with outBuffer := client.conn.outBuffer ++ bytes } }
      (flushClient t fd client sends).map fun t =>
        { s.setIo i t with appended := s.appended ++ [⟨client.id, conn, answers, bytes⟩] }

/-- `IoThread::HandleReadable` up to `Emit`.
SOURCE: io_thread.cc:139-180 -/
def handleReadableTask (t : IoThread) (fd : Fd) (rest : List IoTask) (reads : ReadableEvent) :
    IoThread :=
  match t.connections fd with
  | none => { t with todo := rest }
  | some client =>
    let handled := handleReadable client.conn reads
    { t with
      connections := Function.update t.connections fd (some { client with conn := handled.conn })
      busy := if handled.batch = [] then .idle
        else .emit (.commandBatch client.id client.conn.fd handled.batch)
      todo := if handled.close then .closeConnection fd :: rest else rest }

/-- `IoThread::HandleWritable`
SOURCE: io_thread.cc:182-186 -/
def handleWritable (t : IoThread) (fd : Fd) (rest : List IoTask) (sends : List SendResult) :
    Option IoThread :=
  let t := { t with todo := rest }
  match t.connections fd with
  | none => some t
  | some client => flushClient t fd client sends

/-- `IoThread::CloseConnection` up to `Emit`.
SOURCE: io_thread.cc:215-222 -/
def closeConnection (s : Server n) (i : Fin n) (clientFd : Fd) (rest : List IoTask) : Server n :=
  let t := { s.io i with todo := rest }
  match t.connections clientFd with
  | none => s.setIo i t
  | some client =>
    { s.setIo i { t with
        connections := Function.update t.connections clientFd none
        busy := .emit (.disconnect client.id clientFd) } with
      files := Function.update s.files clientFd none }

/-- The body of the loop of `IoThread::Run` over the events: what an event leaves to do.
SOURCE: io_thread.cc:91-103 -/
def handleEvent (t : IoThread) (ev : IoEvent) (rest : List IoTask) : IoThread :=
  match ev with
  | .inbox => { t with inboxEvent := 0, todo := .drainInbox :: rest }
  | .client fd error readable writable =>
    if error then { t with todo := .closeConnection fd :: rest }
    else
      { t with todo := (if readable then [.handleReadable fd] else []) ++
          (if writable then [.handleWritable fd] else []) ++ rest }

/-- One step of IO thread `i`.
SOURCE: io_thread.cc:77-242 -/
def ioStep (s : Server n) (i : Fin n) (input : IoInput) : Option (Server n) :=
  let t := s.io i
  match t.busy, t.todo with
  | .emit msg, _ => some (s.pushOutbox i msg)
  | .nudge msg, _ => some (s.notifyMain i (.emit msg))
  | .notify, _ => some (s.notifyMain i .idle)
  | .idle, [] =>
    if t.MayReport input.events then
      some (s.setIo i { t with todo := input.events.map .event })
    else none
  | .idle, .event ev :: rest => some (s.setIo i (handleEvent t ev rest))
  | .idle, .drainInbox :: rest => s.drainInbox i rest input.sends
  | .idle, .handleReadable fd :: rest =>
    some (s.setIo i (handleReadableTask t fd rest input.reads))
  | .idle, .handleWritable fd :: rest =>
    (handleWritable t fd rest input.sends).map fun t => s.setIo i t
  | .idle, .closeConnection fd :: rest => some (s.closeConnection i fd rest)

/-- A step of one of the threads, with what the kernel gives it. -/
inductive Action (n : ℕ) where
  | main (input : MainInput)
  | io (i : Fin n) (input : IoInput)

/-- One step of the server. -/
def step (s : Server n) : Action n → Option (Server n)
  | .main input => s.mainStep input
  | .io i input => s.ioStep i input

/-- The descriptor that `accept` returns in a step. -/
def accepting (s : Server n) : Action n → Option Fd
  | .main input =>
    match s.busy, s.todo with
    | .idle, .acceptConnections :: _ => input.accepted
    | _, _ => none
  | .io _ _ => none

end Server

end MyRedis.Model

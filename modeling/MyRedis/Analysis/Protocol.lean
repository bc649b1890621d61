import MyRedis.Model.Server

/-!
# The message protocol between the threads

`Net` is the server without its loops, counters and sockets.  Of each IO thread it has the
connections, the messages on their way to it (in its inbox, or in the hands of the main
thread that is posting one), the message it is emitting and its outbox; of the main thread
the batch it is executing and the routing table; and the open descriptors and the records.

`Net.Step` lists what can happen to these: twelve kinds of steps.  Queues have no bounds
here, a `Push` that fails is no step.  A step is labelled with the descriptor it accepts,
if any, since everything that can go wrong begins with an accepted descriptor.
-/

set_option autoImplicit false

namespace MyRedis.Analysis

open MyRedis.Model

/-- What the protocol sees of an IO thread. -/
structure Thread where
  conns : Fd → Option ConnId
  incoming : List InboxMsg
  pending : Option OutboxMsg
  outbox : List OutboxMsg

/-- A batch that the main thread executes: the requests left, their answers and the response
so far. -/
structure Execution where
  conn : ConnId
  fd : Fd
  answers : List LogEntry
  values : List RespValue
  response : Bytes

/-- The state of the protocol. -/
structure Net (n : ℕ) where
  io : Fin n → Thread
  executing : Option Execution
  fdToThread : Fd → Option (Fin n)
  store : Store
  files : Fd → Option ConnId
  accepted : List (Fd × Fin n)
  emitted : List (ConnId × List RespValue)
  log : List LogEntry
  executed : List (ConnId × List LogEntry)
  appended : List Appended

namespace Net

variable {n : ℕ}

/-- The protocol when the threads start. -/
def init (store : Store) : Net n where
  io _ := ⟨fun _ => none, [], none, []⟩
  executing := none
  fdToThread _ := none
  store := store
  files _ := none
  accepted := []
  emitted := []
  log := []
  executed := []
  appended := []

/-- The state with another state of thread `i`. -/
def setIo (N : Net n) (i : Fin n) (t : Thread) : Net n :=
  { N with io := Function.update N.io i t }

/-- The state with a message more on its way to thread `i`. -/
def post (N : Net n) (i : Fin n) (msg : InboxMsg) : Net n :=
  N.setIo i { N.io i with incoming := (N.io i).incoming ++ [msg] }

/-- The steps of the protocol, with the descriptor a step accepts. -/
inductive Step : Net n → Option Fd → Net n → Prop where
  /-- the main thread accepts a connection on a descriptor that is not open, for thread `i` -/
  | accept {N : Net n} (fd : Fd) (i : Fin n) (hidle : N.executing = none)
      (hclosed : N.files fd = none) :
      Step N (some fd) { N.post i (.assignConnection N.accepted.length fd) with
        fdToThread := Function.update N.fdToThread fd (some i)
        files := Function.update N.files fd (some N.accepted.length)
        accepted := N.accepted ++ [(fd, i)] }
  /-- an IO thread takes a connection over, unless it has one on that descriptor -/
  | takeAssign {N : Net n} {i : Fin n} {conn : ConnId} {fd : Fd} {incoming : List InboxMsg}
      (hincoming : (N.io i).incoming = .assignConnection conn fd :: incoming) :
      Step N none (N.setIo i { N.io i with
        incoming := incoming
        conns := Function.update (N.io i).conns fd (some (((N.io i).conns fd).getD conn)) })
  /-- an IO thread appends a response to the out buffer of the connection on its descriptor -/
  | takeResponse {N : Net n} {i : Fin n} {conn target : ConnId} {answers : List LogEntry}
      {fd : Fd} {bytes : Bytes} {incoming : List InboxMsg}
      (hincoming : (N.io i).incoming = .writeResponse conn answers fd bytes :: incoming)
      (htarget : (N.io i).conns fd = some target) :
      Step N none { N.setIo i { N.io i with incoming := incoming } with
        appended := N.appended ++ [⟨target, conn, answers, bytes⟩] }
  /-- an IO thread drops a response to a descriptor without a connection -/
  | dropResponse {N : Net n} {i : Fin n} {conn : ConnId} {answers : List LogEntry} {fd : Fd}
      {bytes : Bytes} {incoming : List InboxMsg}
      (hincoming : (N.io i).incoming = .writeResponse conn answers fd bytes :: incoming)
      (hnone : (N.io i).conns fd = none) :
      Step N none (N.setIo i { N.io i with incoming := incoming })
  /-- an IO thread has read requests -/
  | batch {N : Net n} {i : Fin n} {conn : ConnId} {fd : Fd} {values : List RespValue}
      (hpending : (N.io i).pending = none) (hconn : (N.io i).conns fd = some conn) :
      Step N none (N.setIo i { N.io i with pending := some (.commandBatch conn fd values) })
  /-- an IO thread closes a connection -/
  | close {N : Net n} {i : Fin n} {conn : ConnId} {fd : Fd}
      (hpending : (N.io i).pending = none) (hconn : (N.io i).conns fd = some conn) :
      Step N none { N.setIo i { N.io i with
        conns := Function.update (N.io i).conns fd none
        pending := some (.disconnect conn fd) } with
        files := Function.update N.files fd none }
  /-- an IO thread pushes the message it is emitting -/
  | push {N : Net n} {i : Fin n} {msg : OutboxMsg} (hpending : (N.io i).pending = some msg) :
      Step N none { N.setIo i { N.io i with
        pending := none
        outbox := (N.io i).outbox ++ [msg] } with
        emitted := N.emitted ++ Server.requests msg }
  /-- the main thread takes a batch -/
  | takeBatch {N : Net n} {i : Fin n} {conn : ConnId} {fd : Fd} {values : List RespValue}
      {outbox : List OutboxMsg} (hidle : N.executing = none)
      (houtbox : (N.io i).outbox = .commandBatch conn fd values :: outbox) :
      Step N none { N.setIo i { N.io i with outbox := outbox } with
        executing := some ⟨conn, fd, [], values, []⟩ }
  /-- the main thread takes a disconnection -/
  | takeDisconnect {N : Net n} {i : Fin n} {conn : ConnId} {fd : Fd} {outbox : List OutboxMsg}
      (hidle : N.executing = none) (houtbox : (N.io i).outbox = .disconnect conn fd :: outbox) :
      Step N none { N.setIo i { N.io i with outbox := outbox } with
        fdToThread := Function.update N.fdToThread fd none }
  /-- the main thread executes a request -/
  | execute {N : Net n} {conn : ConnId} {fd : Fd} {answers : List LogEntry} {value : RespValue}
      {values : List RespValue} {response : Bytes} {now : Int64} {reply : RespValue} {store : Store}
      (hexecuting : N.executing = some ⟨conn, fd, answers, value :: values, response⟩)
      (hrun : dispatch N.store now value = .ok (reply, store)) :
      Step N none { N with
        executing := some ⟨conn, fd, answers ++ [⟨conn, now, value, reply⟩], values,
          response ++ reply.serialize⟩
        store := store
        log := N.log ++ [⟨conn, now, value, reply⟩] }
  /-- the main thread sends the response to the thread the descriptor is routed to -/
  | respond {N : Net n} {conn : ConnId} {fd : Fd} {answers : List LogEntry} {response : Bytes}
      {i : Fin n} (hexecuting : N.executing = some ⟨conn, fd, answers, [], response⟩)
      (hroute : N.fdToThread fd = some i) :
      Step N none { N.post i (.writeResponse conn answers fd response) with
        executing := none
        executed := N.executed ++ [(conn, answers)] }
  /-- the main thread drops the response, the descriptor is not routed -/
  | skip {N : Net n} {conn : ConnId} {fd : Fd} {answers : List LogEntry} {response : Bytes}
      (hexecuting : N.executing = some ⟨conn, fd, answers, [], response⟩)
      (hroute : N.fdToThread fd = none) :
      Step N none { N with
        executing := none
        executed := N.executed ++ [(conn, answers)] }

/-- What holds of the new state of one thread and of the old states of all holds of all. -/
theorem forall_setIo {N : Net n} {i : Fin n} {t : Thread} {P : Fin n → Thread → Prop}
    (hi : P i t) (h : ∀ j, P j (N.io j)) (j : Fin n) : P j ((N.setIo i t).io j) := by
  by_cases hj : j = i
  · subst hj
    simpa only [setIo, Function.update_self] using hi
  · simpa only [setIo, Function.update_of_ne hj] using h j

end Net

end MyRedis.Analysis

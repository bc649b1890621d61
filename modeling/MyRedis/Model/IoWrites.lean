import Mathlib.Logic.Function.Basic
import MyRedis.Model.Connection

/-!
# The writes of an IO thread, by reference

The functions of `io_thread.cc` that write to clients, once more, with the references they hold:
`HandleWriteResponse`, `HandleWritable` and `FlushOutBuffer` work on an element of `connections_`
through a reference to it, and `CloseConnection` erases elements.  Every use of a reference looks
the element up and stops the thread if it has been erased.  `MyRedis.Model.Server` has the same
functions without references, as steps that interleave with those of the other threads.

The epoll set is one of its own here, changed by `epoll_ctl` only.  What is read from clients is
left out, up to the connections that are closed for it.

Some data only records what happened: the elements are numbered in the order in which they were
put into the map, and there is a record of the bytes received for each of them, of those its
socket accepted, and of the `Disconnect` messages.
-/

set_option autoImplicit false

namespace MyRedis.Model

/-- An element of `connections_`, with its number.
SOURCE: connection.h:13-22 -/
structure Element where
  id : ℕ
  fd : Fd
  outBuffer : Bytes

/-- A reference to an element. -/
structure Ref where
  key : Fd
  id : ℕ

/-- The map and the epoll set of an IO thread.
SOURCE: io_thread.h:85-92 -/
structure IoWrites where
  connections : Fd → Option Element
  /-- whether `EPOLLOUT` is registered for a descriptor of the epoll set, next to `EPOLLIN` -/
  interest : Fd → Option Bool
  /-- record: how many elements there have been -/
  created : ℕ
  /-- record: the bytes of the responses for an element -/
  received : ℕ → Bytes
  /-- record: the bytes the socket of an element has accepted -/
  accepted : ℕ → Bytes
  /-- record: the `Disconnect` messages, with the element each of them is about -/
  disconnects : List (ℕ × Fd)

/-- Why the thread stops. -/
inductive Stop where
  /-- a reference to an element that was erased -/
  | dangling
  /-- the results are not those of the `send` calls of a kernel -/
  | noResult
  deriving DecidableEq, Repr

namespace IoWrites

/-- An IO thread before it is started. -/
def init : IoWrites := ⟨fun _ => none, fun _ => none, 0, fun _ => [], fun _ => [], []⟩

/-! ## References -/

/-- The element a reference refers to. -/
def deref (s : IoWrites) (ref : Ref) : Except Stop Element :=
  match s.connections ref.key with
  | none => .error .dangling
  | some conn => if conn.id = ref.id then .ok conn else .error .dangling

/-- An assignment through a reference. -/
def assign (s : IoWrites) (ref : Ref) (f : Element → Element) : Except Stop IoWrites := do
  let conn ← s.deref ref
  .ok { s with connections := Function.update s.connections ref.key (some (f conn)) }

/-! ## System calls -/

/-- `epoll_ctl` with `EPOLL_CTL_ADD` and `EPOLLIN`, which fails if the descriptor is there. -/
def epollAdd (s : IoWrites) (fd : Fd) : IoWrites :=
  match s.interest fd with
  | some _ => s
  | none => { s with interest := Function.update s.interest fd (some false) }

/-- `IoThread::UpdateEpoll`: `EPOLL_CTL_MOD`, which fails if the descriptor is not there.
SOURCE: io_thread.cc:237-242 -/
def updateEpoll (s : IoWrites) (clientFd : Fd) (writable : Bool) : IoWrites :=
  match s.interest clientFd with
  | none => s
  | some _ => { s with interest := Function.update s.interest clientFd (some writable) }

/-- Record: the socket accepts bytes. -/
def accept (s : IoWrites) (id : ℕ) (bytes : Bytes) : IoWrites :=
  { s with accepted := Function.update s.accepted id (s.accepted id ++ bytes) }

/-- Record: a response comes in. -/
def receive (s : IoWrites) (id : ℕ) (bytes : Bytes) : IoWrites :=
  { s with received := Function.update s.received id (s.received id ++ bytes) }

/-! ## `io_thread.cc` -/

/-- `IoThread::CloseConnection`, with `notify_main`.
SOURCE: io_thread.cc:215-222 -/
def closeConnection (s : IoWrites) (clientFd : Fd) : IoWrites :=
  match s.connections clientFd with
  | none => s
  | some conn =>
    { s with
      interest := Function.update s.interest clientFd none
      connections := Function.update s.connections clientFd none
      disconnects := s.disconnects ++ [(conn.id, clientFd)] }

/-- `IoThread::HandleAssign`
SOURCE: io_thread.cc:118-129 -/
def handleAssign (s : IoWrites) (clientFd : Fd) : IoWrites :=
  let s := match s.connections clientFd with
    | some _ => s
    | none =>
      { s with
        connections := Function.update s.connections clientFd (some ⟨s.created, clientFd, []⟩)
        created := s.created + 1 }
  s.epollAdd clientFd

/-- What `FlushOutBuffer` does when a `send` fails.
SOURCE: io_thread.cc:204-206 -/
def failWrite (s : IoWrites) (ref : Ref) : Except Stop IoWrites := do
  let s ← s.assign ref fun conn => { conn with outBuffer := [] }
  let conn ← s.deref ref
  .ok (s.closeConnection conn.fd)

/-- The loop of `FlushOutBuffer`, with the results of the `send` calls to come: how many bytes
were sent, or `none` if it has returned.
SOURCE: io_thread.cc:193-208 -/
def flushLoop (ref : Ref) :
    List SendResult → IoWrites → (sent : ℕ) → Except Stop (IoWrites × Option ℕ)
  | [], s, sent => do
    let conn ← s.deref ref
    if sent < conn.outBuffer.length then .error .noResult else .ok (s, some sent)
  | result :: results, s, sent => do
    let conn ← s.deref ref
    if sent < conn.outBuffer.length then
      match result with
      | .sent n =>
        if n = 0 then
          let s ← s.failWrite ref
          .ok (s, none)
        else if n ≤ conn.outBuffer.length - sent then
          flushLoop ref results (s.accept ref.id ((conn.outBuffer.drop sent).take n)) (sent + n)
        else .error .noResult
      | .wouldBlockOrInterrupted => .ok (s, some sent)
      | .fatal =>
        let s ← s.failWrite ref
        .ok (s, none)
    else .ok (s, some sent)

/-- `IoThread::FlushOutBuffer`
SOURCE: io_thread.cc:188-213 -/
def flushOutBuffer (s : IoWrites) (ref : Ref) (results : List SendResult) :
    Except Stop IoWrites := do
  match ← flushLoop ref results s 0 with
  | (s, none) => .ok s
  | (s, some sent) =>
    let s ← s.assign ref fun conn => { conn with outBuffer := conn.outBuffer.drop sent }
    let conn ← s.deref ref
    .ok (s.updateEpoll conn.fd (!conn.outBuffer.isEmpty))

/-- `IoThread::HandleWriteResponse`
SOURCE: io_thread.cc:131-137 -/
def handleWriteResponse (s : IoWrites) (fd : Fd) (bytes : Bytes) (results : List SendResult) :
    Except Stop IoWrites :=
  match s.connections fd with
  | none => .ok s
  | some conn => do
    let ref : Ref := ⟨fd, conn.id⟩
    let s ← (s.receive conn.id bytes).assign ref fun conn =>
      { conn with outBuffer := conn.outBuffer ++ bytes }
    s.flushOutBuffer ref results

/-- `IoThread::HandleWritable`
SOURCE: io_thread.cc:182-186 -/
def handleWritable (s : IoWrites) (clientFd : Fd) (results : List SendResult) :
    Except Stop IoWrites :=
  match s.connections clientFd with
  | none => .ok s
  | some conn => s.flushOutBuffer ⟨clientFd, conn.id⟩ results

/-- What an IO thread does next: with the messages of its inbox, and with its events.  It closes a
connection for an error event or after a read. -/
inductive Event where
  | assignConnection (fd : Fd)
  | writeResponse (fd : Fd) (bytes : Bytes) (results : List SendResult)
  | writable (fd : Fd) (results : List SendResult)
  | close (fd : Fd)

/-- One event of an IO thread.
SOURCE: io_thread.cc:77-116 -/
def step (s : IoWrites) : Event → Except Stop IoWrites
  | .assignConnection fd => .ok (s.handleAssign fd)
  | .writeResponse fd bytes results => s.handleWriteResponse fd bytes results
  | .writable fd results => s.handleWritable fd results
  | .close fd => .ok (s.closeConnection fd)

end IoWrites

end MyRedis.Model

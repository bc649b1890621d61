import MyRedis.Model.RespValueQueue

/-!
# One client connection of an IO thread

`connection.h` and the part of `io_thread.cc` that works on a single `Connection`:
reading, parsing and flushing.  What the kernel decides comes in as data: the results of
the `recv` calls of one readable event and of the `send` calls of one flush.  The
functions return what the IO thread then has to do (a batch to emit, a connection to
close); the threads and their queues are in `Server.lean`.
-/

set_option autoImplicit false

namespace MyRedis.Model

/-- A file descriptor. -/
abbrev Fd := ℕ

/-- `kReadBufSize`
SOURCE: io_thread.cc:19 -/
def kReadBufSize : ℕ := 4096

/-- `Connection`, with the interest the IO thread has registered for it: `EPOLLIN` always,
`EPOLLOUT` if `writable`.
SOURCE: connection.h:13-22, io_thread.cc:237-242 -/
structure Connection where
  fd : Fd
  parseQueue : RespValueQueue
  outBuffer : Bytes
  writable : Bool

/-- The connection `HandleAssign` puts into its map.
SOURCE: io_thread.cc:123-128 -/
def Connection.new (fd : Fd) : Connection := ⟨fd, .empty, [], false⟩

/-! ## Reading -/

/-- The bytes of one `recv` that returned a positive count. -/
structure Chunk where
  bytes : Bytes
  positive : 0 < bytes.length
  bounded : bytes.length ≤ kReadBufSize

/-- The last `recv` of a readable event: the peer has shut down, nothing more for now
(`EAGAIN`, `EWOULDBLOCK`, `EINTR`), or a failure. -/
inductive RecvEnd where
  | shutdown
  | wouldBlockOrInterrupted
  | fatal
  deriving DecidableEq

/-- The results of the `recv` calls of one readable event. -/
structure ReadableEvent where
  chunks : List Chunk
  last : RecvEnd

/-- The bytes received with a readable event. -/
def ReadableEvent.bytes (ev : ReadableEvent) : Bytes := ev.chunks.flatMap (·.bytes)

/-- `IoThread::ReadIntoParseQueue`: the connection, and whether it is still alive.
SOURCE: io_thread.cc:158-170 -/
def readIntoParseQueue (conn : Connection) (ev : ReadableEvent) : Connection × Bool :=
  let q := ev.chunks.foldl (fun q chunk => q.pushString chunk.bytes) conn.parseQueue
  ({ conn with parseQueue := q }, ev.last == .wouldBlockOrInterrupted)

namespace RespValueQueue

/-- Parsing does not add more values than it takes bytes. -/
theorem parseBuffer_size (q : RespValueQueue) :
    q.parseBuffer.1.values.length + q.parseBuffer.1.buffer.length ≤
      q.values.length + q.buffer.length := by
  induction q using parseBuffer.induct with
  | case1 q e h => rw [parseBuffer_of_error h]
  | case2 q val pos h ih =>
    have hpos := fromString_pos h
    have hstep : (q.takeParsed val pos).values.length + (q.takeParsed val pos).buffer.length ≤
        q.values.length + q.buffer.length := by
      simp only [takeParsed, List.length_append, List.length_singleton]
      split_ifs
      · simp only [List.length_drop]
        omega
      · simp only [List.length_nil]
        omega
    rw [parseBuffer_of_ok h]
    exact ih.trans hstep

/-- A value that `PopValue` returns is gone from the queue. -/
theorem popValue_size {q q' : RespValueQueue} {value : RespValue}
    (h : q.popValue = (.ok (some value), q')) :
    q'.values.length + q'.buffer.length < q.values.length + q.buffer.length := by
  have hsize := parseBuffer_size q
  rw [popValue] at h
  split at h
  · cases h
  · next parsed what heq =>
    rw [heq] at hsize
    cases hvalues : parsed.values with
    | nil =>
      rw [hvalues] at h
      cases h
    | cons v vs =>
      rw [hvalues] at h hsize
      cases h
      simp only [List.length_cons] at hsize ⊢
      omega

/-- The loop of `EmitParsedCommands`: it pops values into a batch until there is none
left.  An exception leaves the loop, and the batch with it.
SOURCE: io_thread.cc:175-178 -/
def popAll (q : RespValueQueue) : Except StdException (List RespValue) × RespValueQueue :=
  match _h : q.popValue with
  | (.error e, q) => (.error e, q)
  | (.ok none, q) => (.ok [], q)
  | (.ok (some request), q) =>
    let (batch, q) := q.popAll
    (batch.map (request :: ·), q)
termination_by q.values.length + q.buffer.length
decreasing_by exact popValue_size _h

end RespValueQueue

/-- What `HandleReadable` leaves to be done: a batch to emit (none if it is empty), and
whether to close the connection after that. -/
structure Handled where
  conn : Connection
  batch : List RespValue
  close : Bool

/-- `IoThread::HandleReadable` on a connection that is there: read, parse, emit one batch,
and close when the peer is gone or the bytes are malformed.
SOURCE: io_thread.cc:139-180 -/
def handleReadable (conn : Connection) (ev : ReadableEvent) : Handled :=
  let (conn, alive) := readIntoParseQueue conn ev
  match conn.parseQueue.popAll with
  | (.ok batch, q) => ⟨{ conn with parseQueue := q }, batch, !alive⟩
  | (.error _, q) => ⟨{ conn with parseQueue := q }, [], true⟩

/-- The batches emitted for a connection over a sequence of readable events.  A closed
connection is not looked up again.
SOURCE: io_thread.cc:139-156, 172-180 -/
def batches (conn : Connection) : List ReadableEvent → List (List RespValue)
  | [] => []
  | ev :: evs =>
    let handled := handleReadable conn ev
    (if handled.batch = [] then [] else [handled.batch]) ++
      (if handled.close then [] else batches handled.conn evs)

/-! ## Writing -/

/-- The result of one `send`: a count, nothing for now, or a failure. -/
inductive SendResult where
  | sent (n : ℕ)
  | wouldBlockOrInterrupted
  | fatal
  deriving DecidableEq

/-- The loop of `FlushOutBuffer` over the results of its `send` calls: the bytes that
remain, or a failure (`some none`); a count of zero is taken for a failure.  `none` when
the results are not those of a kernel: too few, or a count of more than was offered.
SOURCE: io_thread.cc:193-208 -/
def sendLoop : Bytes → List SendResult → Option (Option Bytes)
  | [], _ => some (some [])
  | _ :: _, [] => none
  | b :: bs, .sent n :: results =>
    if n = 0 then some none
    else if n ≤ (b :: bs).length then sendLoop ((b :: bs).drop n) results
    else none
  | b :: bs, .wouldBlockOrInterrupted :: _ => some (some (b :: bs))
  | _ :: _, .fatal :: _ => some none

/-- `IoThread::FlushOutBuffer`: the connection, and whether it has to be closed.  After a
flush `EPOLLOUT` is registered exactly when bytes remain.
SOURCE: io_thread.cc:188-213 -/
def flushOutBuffer (conn : Connection) (results : List SendResult) :
    Option (Connection × Bool) :=
  (sendLoop conn.outBuffer results).map fun
    | some remaining =>
      ({ conn with outBuffer := remaining, writable := !remaining.isEmpty }, false)
    | none => ({ conn with outBuffer := [] }, true)

end MyRedis.Model

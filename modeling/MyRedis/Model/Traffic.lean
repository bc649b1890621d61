import MyRedis.Model.Server

/-!
# The bytes on the sockets of the server

`Server.lean` with a record of the bytes that pass through the sockets of its clients: those that
`recv` returns to `ReadIntoParseQueue`, and those that `send` takes from `FlushOutBuffer`.  Both are
read off a step of the server and what the kernel gives it.
-/

set_option autoImplicit false

namespace MyRedis.Model

/-- The bytes that `send` takes in the loop of `FlushOutBuffer`, also if the loop ends in a failure.
SOURCE: io_thread.cc:193-208 -/
def sendTaken : Bytes → List SendResult → Bytes
  | b :: bs, .sent n :: results =>
    if n = 0 then [] else (b :: bs).take n ++ sendTaken ((b :: bs).drop n) results
  | _, _ => []

namespace Server

variable {n : ℕ}

/-- What a step reads from the socket of a connection.
SOURCE: io_thread.cc:158-170 -/
def reading (s : Server n) : Action n → Option (ConnId × Bytes)
  | .main _ => none
  | .io i input =>
    match (s.io i).busy, (s.io i).todo with
    | .idle, .handleReadable fd :: _ =>
      ((s.io i).connections fd).map fun client => (client.id, input.reads.bytes)
    | _, _ => none

/-- What the socket of a connection takes in a step, from `HandleWriteResponse` or
`HandleWritable`.
SOURCE: io_thread.cc:131-137, 182-208 -/
def writing (s : Server n) : Action n → Option (ConnId × Bytes)
  | .main _ => none
  | .io i input =>
    match (s.io i).busy, (s.io i).todo with
    | .idle, .drainInbox :: _ =>
      match (s.io i).inbox.pop with
      | some (.writeResponse _ _ fd bytes, _) =>
        ((s.io i).connections fd).map fun client =>
          (client.id, sendTaken (client.conn.outBuffer ++ bytes) input.sends)
      | _ => none
    | .idle, .handleWritable fd :: _ =>
      ((s.io i).connections fd).map fun client =>
        (client.id, sendTaken client.conn.outBuffer input.sends)
    | _, _ => none

end Server

/-- The server, what was read from its clients and what was sent to them. -/
structure Traffic (n : ℕ) where
  server : Server n
  received : List (ConnId × Bytes)
  sent : List (ConnId × Bytes)

namespace Traffic

variable {n : ℕ}

/-- The server when its threads start. -/
def init [NeZero n] (store : Store) : Traffic n := ⟨.init store, [], []⟩

/-- One step of the server. -/
def step (t : Traffic n) (a : Server.Action n) : Option (Traffic n) :=
  (t.server.step a).map fun server =>
    ⟨server, t.received ++ (t.server.reading a).toList, t.sent ++ (t.server.writing a).toList⟩

end Traffic

end MyRedis.Model

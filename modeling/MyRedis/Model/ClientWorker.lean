import MyRedis.Model.Connection
import MyRedis.Model.StringHelpers

/-!
# The two threads of the client

`client/worker.cc` and `network/send_all.cc`, which both versions have, and `RespValue::Show`.
What the kernel and the user decide comes in as data: the lines that are typed, the results of
the `send` calls for each of them, and the results of the `recv` calls.

`ReceiverWorker` makes its string out of `buffer.data()`, the position 0 and a count.  That is the
constructor from something that converts to a `std::string_view`, so the string ends before the
first zero of the buffer, and a buffer without a zero is read past its end.
-/

set_option autoImplicit false

namespace MyRedis.Model

namespace RespValue

mutual

/-- `RespValue::Show`
SOURCE: resp_value.cc:155-183 -/
def showValue : RespValue → Bytes
  | simpleString s => ascii "\"" ++ s ++ ascii "\""
  | simpleError message => ascii "error: " ++ message
  | integer n => toStringInt n
  | bulkString none => ascii "(NIL)"
  | bulkString (some s) => ascii "\"" ++ s ++ ascii "\""
  | array vs => showElements 0 vs

/-- The loop of `RespValue::Show` over the elements of an array, from the `i`-th on. -/
def showElements (i : ℕ) : List RespValue → Bytes
  | [] => []
  | v :: vs =>
    (if i ≠ 0 then ascii "\n" else []) ++ toStringSize (i + 1) ++ ascii ") " ++ showValue v ++
      showElements (i + 1) vs

end

end RespValue

namespace Client

/-! ## Sending -/

/-- The result of one `send` of `SendAll`. -/
inductive SendOutcome where
  | sent (n : ℕ)
  | interrupted
  | wouldBlock
  | fatal

/-- The loop of `SendAll` on the bytes that remain: those the socket takes, and what is returned.
`none` when the results are not those of a kernel: too few, or a count of more than was offered.
SOURCE: network/send_all.cc:14-31 -/
def sendAllLoop (len : ℕ) : Bytes → List SendOutcome → Option (Bytes × ℤ)
  | [], _ => some ([], len)
  | _ :: _, [] => none
  | b :: bs, .sent n :: outcomes =>
    if n = 0 then some ([], len - (b :: bs).length)
    else if n ≤ (b :: bs).length then
      (sendAllLoop len ((b :: bs).drop n) outcomes).map fun (taken, result) =>
        ((b :: bs).take n ++ taken, result)
    else none
  | b :: bs, .interrupted :: outcomes => sendAllLoop len (b :: bs) outcomes
  | _ :: _, .wouldBlock :: _ => some ([], -2)
  | _ :: _, .fatal :: _ => some ([], -1)

/-- `SendAll`
SOURCE: network/send_all.cc:10-32 -/
def sendAll (buf : Bytes) (outcomes : List SendOutcome) : Option (Bytes × ℤ) :=
  sendAllLoop buf.length buf outcomes

/-- The `message` of `SenderWorker` for a line of input.
SOURCE: client/worker.cc:26-34 -/
def message (input : Bytes) : RespValue :=
  .array ((splitInput input).map fun value => .bulkString (some value))

/-- `SenderWorker`, over the lines that are typed and the results of `send` for each: the bytes
that the socket takes.  No `std::string` is so long that its size is a negative result of
`SendAll`.
SOURCE: client/worker.cc:19-43 -/
def senderWorker : List (Bytes × List SendOutcome) → Option Bytes
  | [] => some []
  | (input, outcomes) :: lines =>
    if input = ascii "exit" then some []
    else do
      let serialisedMessage := (message input).serialize
      let (taken, result) ← sendAll serialisedMessage outcomes
      if result ≠ serialisedMessage.length then some taken
      else (senderWorker lines).map (taken ++ ·)

/-! ## Receiving -/

/-- `kBufferSize`
SOURCE: client/worker.cc:17 -/
def kBufferSize : ℕ := 1024

/-- The bytes of one `recv` that returned a positive count. -/
structure Packet where
  bytes : Bytes
  positive : 0 < bytes.length
  bounded : bytes.length ≤ kBufferSize

/-- The result of one `recv` of `ReceiverWorker`. -/
inductive RecvOutcome where
  | data (packet : Packet)
  | closed
  | interrupted
  | failed

/-- The variables of `ReceiverWorker`.
SOURCE: client/worker.cc:46-47 -/
structure Receiver where
  queue : RespValueQueue
  buffer : Bytes
  sized : buffer.length = kBufferSize

/-- The variables as they are initialised. -/
def Receiver.init : Receiver := ⟨.empty, List.replicate kBufferSize 0, List.length_replicate⟩

/-- The front of the buffer is overwritten, and the rest stays. -/
theorem length_overwrite {buffer : Bytes} (packet : Packet) (h : buffer.length = kBufferSize) :
    (packet.bytes ++ buffer.drop packet.bytes.length).length = kBufferSize := by
  have hbounded := packet.bounded
  rw [List.length_append, List.length_drop]
  omega

/-- `recv` into the buffer. -/
def Receiver.recv (r : Receiver) (packet : Packet) : Receiver :=
  { r with
    buffer := packet.bytes ++ r.buffer.drop packet.bytes.length
    sized := length_overwrite packet r.sized }

/-- The string at the start of a buffer; `none` if it is not ended inside it. -/
def cString (buffer : Bytes) : Option Bytes :=
  if 0 ∈ buffer then some (buffer.takeWhile (· ≠ 0)) else none

/-- How a run of `ReceiverWorker` ends: it is in `recv`, it has returned, it has read past the end
of its buffer, or an exception has left it. -/
inductive ReceiverEnd where
  | waiting
  | returned
  | overread
  | threw (e : StdException)

/-- What `ReceiverWorker` does with the result of a `recv`.
SOURCE: client/worker.cc:49-57 -/
def Receiver.receive (r : Receiver) : RecvOutcome → Except ReceiverEnd Receiver
  | .data packet =>
    let r := r.recv packet
    match cString r.buffer with
    | none => .error .overread
    | some str => .ok { r with queue := r.queue.pushString (substr str 0 packet.bytes.length) }
  | .closed => .error .returned
  | .interrupted => .ok r
  | .failed => .error .returned

/-- What is printed for a value.
SOURCE: client/worker.cc:62 -/
def line (value : RespValue) : Bytes := value.showValue ++ ascii "\n"

/-- The loop that prints the values of the queue.
SOURCE: client/worker.cc:59-65 -/
def printValues (q : RespValueQueue) : List Bytes × Except StdException RespValueQueue :=
  match _h : q.popValue with
  | (.error e, _) => ([], .error e)
  | (.ok none, q) => ([], .ok q)
  | (.ok (some value), q) =>
    let (lines, result) := printValues q
    (line value :: lines, result)
termination_by q.values.length + q.buffer.length
decreasing_by exact RespValueQueue.popValue_size _h

/-- `ReceiverWorker`, over the results of its `recv` calls: what it prints, and how it ends.
SOURCE: client/worker.cc:45-67 -/
def receiverWorker (r : Receiver) : List RecvOutcome → List Bytes × ReceiverEnd
  | [] => ([], .waiting)
  | outcome :: outcomes =>
    match r.receive outcome with
    | .error e => ([], e)
    | .ok r =>
      match printValues r.queue with
      | (lines, .error e) => (lines, .threw e)
      | (lines, .ok q) =>
        let (more, e) := receiverWorker { r with queue := q } outcomes
        (lines ++ more, e)

end Client

end MyRedis.Model

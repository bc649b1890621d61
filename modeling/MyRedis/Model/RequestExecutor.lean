import MyRedis.Model.ChainedHashmap
import MyRedis.Model.Connection
import MyRedis.Model.RespValueQueue

/-!
# The request executor of v1

`RequestExecutor.cpp` with the part of `ServerApp.cpp` that feeds it.  The main thread submits what
it reads from the clients to the queue `jobs_`; each worker thread pops a job, looks the client's
connection up, inserts one if there is none, and runs `HandleConnection`.  The steps are the calls
of `Pop`, `LookUp` and `Insert` and the two sections of `HandleConnection` under the mutex of the
connection.

`LookUp` returns a reference to the `unique_ptr` in the map, and `HandleConnection` goes through it
each time it uses the connection: it finds the object that the map then holds.  `Resize` destroys
the entries of the map, so a reference from before a `Resize` dangles, and to go through it is
undefined.  A job, a client and a connection carry what the code does not have: who sent the job
and as which of its chunks, what the client has sent, and the chunks pushed into the connection.

`RespValueQueue` of v1 is the one of v2.  What `DispatchRequest` does is in
`HandlerDispatcher.lean`.
-/

set_option autoImplicit false

namespace MyRedis.Model

namespace RequestExecutor

/-- A client's descriptor and what was read from it: the `index`-th chunk of the client.
SOURCE: RequestExecutor.cpp:23-25 -/
structure Job where
  clientFd : Fd
  request : Bytes
  client : ℕ
  index : ℕ
  deriving DecidableEq

/-- `ClientConnection`
SOURCE: RequestExecutor.h:29-35 -/
structure ClientConnection where
  beingProcessed : Bool
  respValueQueue : RespValueQueue
  pushed : List Bytes

/-- `std::make_unique<ClientConnection>()` -/
def ClientConnection.new : ClientConnection := ⟨false, .empty, []⟩

/-- A client that has connected. -/
structure Client where
  fd : Fd
  submitted : List Bytes

/-- Where a worker is.  `missing`, `found` and so on say what it did last; `generation` says which
`Resize` its reference is from.
SOURCE: RequestExecutor.cpp:31-86 -/
inductive Worker where
  | idle
  | popped (job : Job)
  | missing (job : Job)
  | inserted (job : Job)
  | found (job : Job) (generation : ℕ)
  | processing (clientFd : Fd) (generation : ℕ)
  | dispatching (clientFd : Fd) (generation : ℕ) (respRequest : RespValue)

/-- The process runs, has been terminated by an exception or an assertion, or has used a reference
that dangles. -/
inductive Status where
  | running
  | terminated
  | undefined
  deriving DecidableEq

/-- The executor with `n` workers, and the clients of the main thread.  `connections` has all that
were ever made; the map has the numbers of those it holds. -/
structure State (n : ℕ) where
  status : Status
  clients : List Client
  openFds : Fd → Option ℕ
  jobs : List Job
  connections : List ClientConnection
  clientFdToConnection : StripedHashmap Fd ℕ
  generation : ℕ
  workers : Fin n → Worker

/-- `BUF_SIZE`
SOURCE: ServerApp.cpp:154 -/
def bufSize : ℕ := 4096

inductive Action (n : ℕ) where
  | accept (clientFd : Fd)
  | submit (clientFd : Fd) (request : Bytes)
  | close (clientFd : Fd)
  | work (i : Fin n)

namespace State

variable {n : ℕ}

/-- The executor as the constructor leaves it, for a hash function. -/
def init (hash : Fd → ℕ) : State n where
  status := .running
  clients := []
  openFds := fun _ => none
  jobs := []
  connections := []
  clientFdToConnection := .new hash
  generation := 0
  workers := fun _ => .idle

def setWorker (s : State n) (i : Fin n) (w : Worker) : State n :=
  { s with workers := Function.update s.workers i w }

def setConnection (s : State n) (object : ℕ) (connection : ClientConnection) : State n :=
  { s with connections := s.connections.set object connection }

/-- `client_fd_to_connection->Insert(client_fd, std::make_unique<ClientConnection>())`
SOURCE: RequestExecutor.cpp:41-43 -/
def insertConnection (s : State n) (clientFd : Fd) : State n :=
  { s with
    clientFdToConnection := s.clientFdToConnection.insert clientFd s.connections.length
    connections := s.connections ++ [.new]
    generation := if s.clientFdToConnection.resizes then s.generation + 1 else s.generation }

/-- What a worker finds through a reference: nothing if it dangles. -/
def deref (s : State n) (clientFd : Fd) (generation : ℕ) : Option (ℕ × ClientConnection) :=
  if generation = s.generation then do
    let object ← s.clientFdToConnection.lookUp clientFd
    let connection ← s.connections[object]?
    return (object, connection)
  else none

/-- The first section of `HandleConnection`.
SOURCE: RequestExecutor.cpp:58-65 -/
def pushSection (s : State n) (i : Fin n) (job : Job) (generation : ℕ) : State n :=
  match s.deref job.clientFd generation with
  | none => { s with status := .undefined }
  | some (object, connection) =>
    let connection := { connection with
      respValueQueue := connection.respValueQueue.pushString job.request
      pushed := connection.pushed ++ [job.request] }
    if connection.beingProcessed then
      (s.setConnection object connection).setWorker i .idle
    else
      (s.setConnection object { connection with beingProcessed := true }).setWorker i
        (.processing job.clientFd generation)

/-- The loop of `HandleConnection` up to the end of the section.
SOURCE: RequestExecutor.cpp:68-82 -/
def popSection (s : State n) (i : Fin n) (clientFd : Fd) (generation : ℕ) : State n :=
  match s.deref clientFd generation with
  | none => { s with status := .undefined }
  | some (object, connection) =>
    if connection.beingProcessed then
      match connection.respValueQueue.popValue with
      | (.ok none, queue) =>
        (s.setConnection object
          { connection with respValueQueue := queue, beingProcessed := false }).setWorker i .idle
      | (.ok (some respRequest), queue) =>
        (s.setConnection object { connection with respValueQueue := queue }).setWorker i
          (.dispatching clientFd generation respRequest)
      | (.error _, queue) =>
        -- the exception leaves the thread
        { s.setConnection object { connection with respValueQueue := queue } with
          status := .terminated }
    else { s with status := .terminated }

/-- `Worker`, with the return of `DispatchRequest` as its last case.
SOURCE: RequestExecutor.cpp:31-49, 84 -/
def work (s : State n) (i : Fin n) : Option (State n) :=
  match s.workers i with
  | .idle =>
    match s.jobs with
    | [] => none
    | job :: jobs => some ({ s with jobs }.setWorker i (.popped job))
  | .popped job =>
    match s.clientFdToConnection.lookUp job.clientFd with
    | none => some (s.setWorker i (.missing job))
    | some _ => some (s.setWorker i (.found job s.generation))
  | .missing job => some ((s.insertConnection job.clientFd).setWorker i (.inserted job))
  | .inserted job =>
    match s.clientFdToConnection.lookUp job.clientFd with
    | none => some { s with status := .terminated }
    | some _ => some (s.setWorker i (.found job s.generation))
  | .found job generation => some (s.pushSection i job generation)
  | .processing clientFd generation => some (s.popSection i clientFd generation)
  | .dispatching clientFd generation _ => some (s.setWorker i (.processing clientFd generation))

/-- `Submit`, for what the main thread has read.
SOURCE: RequestExecutor.cpp:23-25, ServerApp.cpp:157-169 -/
def submit (s : State n) (clientFd : Fd) (request : Bytes) : Option (State n) :=
  if request ≠ [] ∧ request.length ≤ bufSize then do
    let c ← s.openFds clientFd
    let client ← s.clients[c]?
    return { s with
      clients := s.clients.set c { client with submitted := client.submitted ++ [request] }
      jobs := s.jobs ++ [⟨clientFd, request, c, client.submitted.length⟩] }
  else none

/-- A step of the main thread or of a worker.  `Remove` does nothing.
SOURCE: ServerApp.cpp:138-179, RequestExecutor.cpp:27-29 -/
def step (s : State n) (a : Action n) : Option (State n) :=
  if s.status = .running then
    match a with
    | .accept clientFd =>
      match s.openFds clientFd with
      | none => some { s with
          clients := s.clients ++ [⟨clientFd, []⟩]
          openFds := Function.update s.openFds clientFd (some s.clients.length) }
      | some _ => none
    | .submit clientFd request => s.submit clientFd request
    | .close clientFd =>
      match s.openFds clientFd with
      | none => none
      | some _ => some { s with openFds := Function.update s.openFds clientFd none }
    | .work i => s.work i
  else none

end State

end RequestExecutor

end MyRedis.Model

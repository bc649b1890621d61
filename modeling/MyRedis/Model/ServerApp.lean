import MyRedis.Model.HandlerDispatcher
import MyRedis.Model.RequestExecutor

/-!
# The server of v1

`ServerApp.cpp` with its executor and handlers.  `ServerApp` is the executor with the calls of
`DispatchRequest` that its workers have made, in the order in which they were made; handlers that
run in different workers interleave, so what they do with the store and the channels is not part of
it.  An exception that a handler throws leaves the thread and ends the process.

`SingleWorker` is the server whose executor has one worker, as its second constructor can be told
and as the first one makes it on a machine with one processor.  Only the worker touches what the
handlers share, so a call of `DispatchRequest` is one step.
-/

set_option autoImplicit false

namespace MyRedis.Model

namespace V1

/-- The executor, the calls of `DispatchRequest` so far, and what one of them has thrown. -/
structure ServerApp (n : ℕ) where
  executor : RequestExecutor.State n
  dispatched : List (Fd × RespValue)
  thrown : Option StdException

/-- The call that a worker has just made.
SOURCE: RequestExecutor.cpp:84 -/
def begun : RequestExecutor.Worker → List (Fd × RespValue)
  | .dispatching clientFd _ respRequest => [(clientFd, respRequest)]
  | .idle | .popped _ | .missing _ | .inserted _ | .found _ _ | .processing _ _ => []

namespace ServerApp

variable {n : ℕ}

def init (hash : Fd → ℕ) : ServerApp n := ⟨.init hash, [], none⟩

/-- What leaves a worker's thread when it goes on: a call of `DispatchRequest` is not in a `try`.
SOURCE: RequestExecutor.cpp:84 -/
def escaping (s : ServerApp n) : RequestExecutor.Action n → Option StdException
  | .work i => (begun (s.executor.workers i)).findSome? fun call => uncaught call.2
  | .accept _ | .submit _ _ | .close _ => none

/-- The executor has gone on. -/
def proceed (s : ServerApp n) (a : RequestExecutor.Action n) (executor : RequestExecutor.State n) :
    ServerApp n :=
  match a with
  | .work i => { s with executor, dispatched := s.dispatched ++ begun (executor.workers i) }
  | .accept _ | .submit _ _ | .close _ => { s with executor }

/-- A step of the main thread or of a worker.
SOURCE: ServerApp.cpp:114-179, RequestExecutor.cpp:31-86 -/
def step (s : ServerApp n) (a : RequestExecutor.Action n) : Option (ServerApp n) :=
  if s.thrown = none then
    (s.executor.step a).map fun executor =>
      match s.escaping a with
      | some exception => { s with thrown := some exception }
      | none => s.proceed a executor
  else none

end ServerApp

/-- The server with one worker: what its handlers share and have sent, and what a handler that did
not return has thrown. -/
structure SingleWorker where
  app : ServerApp 1
  shared : Shared
  sent : List (Fd × Bytes)
  failure : Option Failure

namespace SingleWorker

/-- The server as the constructor leaves it, for a hash function on each type of key.
SOURCE: ServerApp.cpp:28-57 -/
def init (stringHash : Bytes → ℕ) (intHash : Fd → ℕ) : SingleWorker :=
  ⟨.init intHash, .new stringHash intHash, [], none⟩

/-- `DispatchRequest`, called by the worker.
SOURCE: RequestExecutor.cpp:84, HandlerDispatcher.cpp:13-22 -/
def dispatch (s : SingleWorker) (a : RequestExecutor.Action 1) (clientFd : Fd)
    (respRequest : RespValue) : Option SingleWorker :=
  match dispatchRequest s.shared clientFd respRequest with
  | .ok (sent, shared) =>
    (s.app.step a).map fun app => { s with app, shared, sent := s.sent ++ sent }
  | .error failure => some { s with failure := some failure }

/-- A step of the main thread or of the worker. -/
def step (s : SingleWorker) (a : RequestExecutor.Action 1) : Option SingleWorker :=
  if s.failure = none then
    match a with
    | .work i =>
      match s.app.executor.workers i with
      | .dispatching clientFd _ respRequest => s.dispatch a clientFd respRequest
      | _ => (s.app.step a).map fun app => { s with app }
    | _ => (s.app.step a).map fun app => { s with app }
  else none

end SingleWorker

end V1

end MyRedis.Model

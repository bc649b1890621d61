import MyRedis.Model.MainLoop
import MyRedis.Model.Server
import MyRedis.Model.Snapshotter

/-!
# A run of the server

`Server::Run` as a whole: it restores the latest snapshot, and either returns or starts the IO
threads and goes into its loop, which is `Server.lean`.
-/

set_option autoImplicit false

namespace MyRedis.Model

/-- `kSnapshotPrefix`
SOURCE: server.cc:40 -/
def kSnapshotPrefix : Bytes := ascii "dump-"

/-- Where `Server::Run` is: at its start, with the store of the constructor; at an end with
`EXIT_FAILURE` and a message; or in its loop, with `n` IO threads. -/
inductive ServerRun (n : ℕ) where
  | starting (loop : MainLoop) (store : Store)
  | ended (message : String)
  | serving (server : Server n)

namespace ServerRun

variable {n : ℕ}

/-- What may happen next: `Server::Run` up to its loop, or a step of one of the threads. -/
inductive Action (n : ℕ) where
  | start
  | thread (a : Server.Action n)

/-- `Server::Run`, in a directory whose entries are visited in the order `entries`.
SOURCE: server.cc:150-196 -/
def step [NeZero n] (files : Bytes → Option Node) (entries : List (Bytes × Node)) :
    ServerRun n → Action n → Option (ServerRun n)
  | .starting loop store, .start =>
    match loop.run (Snapshotter.restore kSnapshotPrefix files entries) store with
    | .exitFailure message => some (.ended message)
    | .looping _ store => some (.serving (.init store))
  | .serving server, .thread a => (server.step a).map .serving
  | _, _ => none

/-- The requests that were executed. -/
def log : ServerRun n → List LogEntry
  | .serving server => server.log
  | _ => []

end ServerRun

end MyRedis.Model

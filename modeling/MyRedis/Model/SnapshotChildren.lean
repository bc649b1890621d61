import MyRedis.Model.Dispatcher
import MyRedis.Model.Snapshotter
import Mathlib.Logic.Function.Basic

/-!
# Snapshot children

`CreateSnapshot` forks a child that has the store as it is at that moment, and goes on serving
requests.  The child runs `Snapshotter::Snapshot`: it serialises its store, reads the clock and
writes the file.  Nothing waits for a child, so any number of them run at the same time, each at
a speed of its own.  A child whose `DurableWrite` throws before it renames the file, or that is
killed before, has `failed`.

`Snapshot` reads the clock that also gives the requests the time.
-/

set_option autoImplicit false

namespace MyRedis.Model

namespace SnapshotChildren

/-- Where a child is in `Snapshot`.  The names say what it did last.
SOURCE: snapshotter.cc:114-125 -/
inductive Phase where
  | forked
  | serialised (storeJson : Bytes)
  | stamped (storeJson : Bytes) (timestamp : Int64)
  | completed (timestamp : Int64)
  | failed
  deriving DecidableEq

/-- A child, with the store it was forked with. -/
structure Child where
  store : Store
  phase : Phase

/-- The server's store, its children in the order of the forks, the clock and the directory. -/
structure State where
  now : Int64
  store : Store
  children : List Child
  files : Bytes → Option Node

/-- What may happen next. -/
inductive Action where
  | execute (request : RespValue)
  | tick (now : Int64)
  | fork
  | serialise (i : ℕ) (entries : List (Sigma fun _ : Bytes => Store.Entry))
  | readClock (i : ℕ)
  | write (i : ℕ)
  | fail (i : ℕ)

namespace State

/-- The child moves on to a phase. -/
def moveTo (s : State) (i : ℕ) (child : Child) (phase : Phase) : State :=
  { s with children := s.children.set i { child with phase } }

/-- `DurableWrite` when it succeeds: the file appears under its name when it is renamed.
SOURCE: snapshotter.cc:53-111 -/
def durableWrite (s : State) (outputPath output : Bytes) : State :=
  { s with files := Function.update s.files outputPath (some (.file output)) }

/-- A step of the server, of the clock or of the `i`-th child.
SOURCE: server.cc:248-253, snapshotter.cc:114-125 -/
def step (filePrefix : Bytes) (s : State) : Action → Option State
  | .execute request =>
    match dispatch s.store s.now request with
    | .ok (_, store) => some { s with store }
    | .error _ => none
  | .tick now => if s.now ≤ now then some { s with now } else none
  | .fork => some { s with children := s.children ++ [⟨s.store, .forked⟩] }
  | .serialise i entries => do
    let child ← s.children[i]?
    if child.phase = .forked ∧ child.store.Enumerates entries then
      return s.moveTo i child (.serialised (Store.serialiseToJson entries))
    else none
  | .readClock i => do
    let child ← s.children[i]?
    match child.phase with
    | .serialised storeJson => return s.moveTo i child (.stamped storeJson s.now)
    | _ => none
  | .write i => do
    let child ← s.children[i]?
    match child.phase with
    | .stamped storeJson timestamp =>
      return (s.moveTo i child (.completed timestamp)).durableWrite
        (Snapshotter.fileName filePrefix timestamp) storeJson
    | _ => none
  | .fail i => do
    let child ← s.children[i]?
    match child.phase with
    | .completed _ => none
    | _ => return s.moveTo i child .failed

end State

end SnapshotChildren

end MyRedis.Model

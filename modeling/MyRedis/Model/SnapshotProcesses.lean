import MyRedis.Lib.MapHistory
import MyRedis.Model.Dispatcher
import MyRedis.Model.DurableWrite

/-!
# Snapshot children on one disk

The server and its snapshot children, with `DurableWrite` taken apart into its system calls: any
number of children write into the one directory at the same time, each at a speed of its own, and
each may be killed between two calls.  The server may end and be started again while children of
it are still writing (`restart`), and the machine may crash and come up again (`reboot`); each
time `Run` begins with what `Restore` finds, and does not begin at all if it finds none that it
can load.

`had`, `stamped` and `completed` are a record of the run: the stores the server has had, the
stores that children have taken with the timestamps they gave them, and the timestamps with which
`DurableWrite` has returned.
-/

set_option autoImplicit false

namespace MyRedis.Model

open Lib

namespace SnapshotProcesses

/-- Where a child is in `Snapshot`.
SOURCE: snapshotter.cc:114-125 -/
inductive Phase where
  | forked
  | serialised (storeJson : Bytes)
  | writing (storeJson : Bytes) (timestamp : Int64) (stage : DurableWrite.Stage)
  | killed
  deriving DecidableEq

/-- A child, with the store it was forked with. -/
structure Child where
  store : Store
  phase : Phase

/-- The temporary file of a child that may still make a call on it. -/
def Child.temp (child : Child) : Option DurableWrite.Temp :=
  match child.phase with
  | .writing _ _ (.opened temp _) => some temp
  | _ => none

structure State where
  now : Int64
  store : Store
  children : List Child
  disk : Disk Bytes UInt8
  had : List Store
  stamped : List (Int64 × Store)
  completed : List Int64

/-- What may happen next. -/
inductive Action where
  | execute (request : RespValue)
  | tick (now : Int64)
  | fork
  | serialise (i : ℕ) (entries : List (Sigma fun _ : Bytes => Store.Entry))
  | readClock (i : ℕ)
  | call (i : ℕ) (outcome : DurableWrite.Outcome)
  | kill (i : ℕ)
  | restart (listing : List (Bytes × Node))
  | reboot (disk : Disk Bytes UInt8) (listing : List (Bytes × Node))

namespace State

/-- The child moves on to a phase. -/
def moveTo (s : State) (i : ℕ) (child : Child) (phase : Phase) : State :=
  { s with children := s.children.set i { child with phase } }

/-- The start of `Run`.
SOURCE: server.cc:150-166 -/
def run (filePrefix : Bytes) (s : State) (listing : List (Bytes × Node)) : Option State :=
  match Snapshotter.restore filePrefix s.disk.view listing Store.empty with
  | (true, store) => some { s with store, had := s.had ++ [store] }
  | (false, _) => none

/-- A step of the server, of the clock, of the `i`-th child or of the machine.
SOURCE: server.cc:150-166, 248-253, snapshotter.cc:53-125 -/
def step (filePrefix : Bytes) (s : State) : Action → Option State
  | .execute request =>
    match dispatch s.store s.now request with
    | .ok (_, store) => some { s with store, had := s.had ++ [store] }
    | .error _ => none
  | .tick now => some { s with now }
  | .fork => some { s with children := s.children ++ [⟨s.store, .forked⟩] }
  | .serialise i entries => do
    let child ← s.children[i]?
    if child.phase = .forked ∧ child.store.Enumerates entries then
      return s.moveTo i child (.serialised (Store.serialiseToJson entries))
    else none
  | .readClock i => do
    let child ← s.children[i]?
    match child.phase with
    | .serialised storeJson =>
      return { s.moveTo i child (.writing storeJson s.now .mkstemp) with
        stamped := s.stamped ++ [(s.now, child.store)] }
    | _ => none
  | .call i outcome => do
    let child ← s.children[i]?
    match child.phase with
    | .writing storeJson timestamp stage =>
      let after ← DurableWrite.step (Snapshotter.fileName filePrefix timestamp) storeJson
        ⟨s.disk, stage⟩ outcome
      return { s.moveTo i child (.writing storeJson timestamp after.stage) with
        disk := after.disk
        completed := if after.stage = .returned then s.completed ++ [timestamp] else s.completed }
    | _ => none
  | .kill i => do
    let child ← s.children[i]?
    return s.moveTo i child .killed
  | .restart listing => s.run filePrefix listing
  | .reboot disk listing => { s with children := [], disk }.run filePrefix listing

/-- What the system may do: `mkstemp` also chooses no name that another child may still unlink or
rename, and the entries that `Restore` visits are those of the directory.
SOURCE: snapshotter.cc:62-64 -/
def Possible (s : State) : Action → Prop
  | .call i outcome =>
    ∀ child storeJson timestamp stage, s.children[i]? = some child →
      child.phase = .writing storeJson timestamp stage →
      DurableWrite.Possible ⟨s.disk, stage⟩ outcome ∧
        ∀ file inode, outcome = .created file inode →
          ∀ other ∈ s.children, ∀ temp, other.temp = some temp → temp.file ≠ file
  | .restart listing => Lists s.disk.view listing
  | .reboot disk listing => s.disk.Reboot disk ∧ Lists disk.view listing
  | _ => True

end State

end SnapshotProcesses

end MyRedis.Model

import MyRedis.Lib.Disk
import MyRedis.Model.Serialise

/-!
# Finding and reading snapshots

`LatestSnapshot` and `Restore` of `snapshotter.cc`.  A directory is a function from the names in
it; a `directory_iterator` visits its entries in an order of its own, so `LatestSnapshot` takes
the list of entries it visits.
-/

set_option autoImplicit false

namespace MyRedis.Model

/-- What a name in a directory stands for: a regular file with its content, or something else. -/
abbrev Node : Type := Lib.FileNode UInt8

namespace Snapshotter

/-- `kSnapshotSuffix`
SOURCE: snapshotter.cc:20 -/
def kSnapshotSuffix : Bytes := ascii ".snapshot.json"

/-- The name `Snapshot` gives to a file.
SOURCE: snapshotter.cc:121-123 -/
def fileName (filePrefix : Bytes) (timestamp : Int64) : Bytes :=
  filePrefix ++ toStringInt timestamp ++ kSnapshotSuffix

/-- The timestamp in the name of a snapshot: all that stands between the prefix and the suffix.
Where the two overlap nothing is parsed, no character of the suffix being a digit or a sign.
SOURCE: snapshotter.cc:37-43 -/
def timestampOf (filePrefix name : Bytes) : Option Int64 :=
  if filePrefix.isPrefixOf name && kSnapshotSuffix.isSuffixOf name then
    let text := (name.take (name.length - kSnapshotSuffix.length)).drop filePrefix.length
    match fromChars text with
    | .error _ => none
    | .ok (timestamp, taken) => if taken = text.length then some timestamp else none
  else none

/-- The body of the loop of `LatestSnapshot`, on `best` and `best_timestamp`.
SOURCE: snapshotter.cc:34-49 -/
def visit (filePrefix : Bytes) (best : Option Bytes × Int64) (entry : Bytes × Node) :
    Option Bytes × Int64 :=
  match entry.2 with
  | .other => best
  | .file _ =>
    match timestampOf filePrefix entry.1 with
    | none => best
    | some timestamp => if best.2 < timestamp then (some entry.1, timestamp) else best

/-- `LatestSnapshot`
SOURCE: snapshotter.cc:28-51 -/
def latestSnapshot (filePrefix : Bytes) (entries : List (Bytes × Node)) : Option Bytes :=
  (entries.foldl (visit filePrefix) (none, -1)).1

/-- `Snapshotter::Restore`
SOURCE: snapshotter.cc:127-150 -/
def restore (filePrefix : Bytes) (files : Bytes → Option Node) (entries : List (Bytes × Node))
    (store : Store) : Bool × Store :=
  match latestSnapshot filePrefix entries with
  | none => (true, store)
  | some path =>
    match files path with
    | some (.file content) =>
      match store.deserialiseFromJson content with
      | (.ok (), store) => (true, store)
      | (.error _, store) => (false, store)
    | _ => (false, store)

end Snapshotter

end MyRedis.Model

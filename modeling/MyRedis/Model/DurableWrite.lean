import MyRedis.Lib.Disk
import MyRedis.Model.Snapshotter

/-!
# Writing a snapshot

`DurableWrite` of `snapshotter.cc`, one system call a step.  Each call ends in an outcome that the
system chooses: it fails or not, `write` is interrupted or takes any number of the bytes, and
`mkstemp` chooses a name.  A call that fails throws, and the handler closes the temporary file if
it is open and unlinks it.  Names are those of the directory of `output_path`, which is where
the temporary file is.
-/

set_option autoImplicit false

namespace MyRedis.Model

open Lib

namespace DurableWrite

/-- The temporary file. -/
structure Temp where
  file : Bytes
  inode : ℕ
  deriving DecidableEq

/-- The call that is made next, once there is a temporary file.
SOURCE: snapshotter.cc:68-110 -/
inductive Call where
  | write (left : Bytes)
  | fsync
  | close
  | rename
  | openDir
  | fsyncDir
  | closeDir
  /-- `close(dir_fd)` before `fsync(dir) failed` is thrown -/
  | closeDirFailed
  /-- the handler, which closes the temporary file only if it is open -/
  | closeTemp
  | unlink
  deriving DecidableEq

/-- Where `DurableWrite` is. -/
inductive Stage where
  | mkstemp
  | opened (temp : Temp) (call : Call)
  | returned
  | threw
  deriving DecidableEq

/-- How a system call ends. -/
inductive Outcome where
  | created (file : Bytes) (inode : ℕ)
  | wrote (count : ℕ)
  | interrupted
  | succeeded
  | failed
  deriving DecidableEq

structure State where
  disk : Disk Bytes UInt8
  stage : Stage

/-- The test of the loop: what is called when this much is left to write.
SOURCE: snapshotter.cc:73 -/
def loop (left : Bytes) : Call := if left = [] then .fsync else .write left

/-- What comes after a call on the disk `d`.
SOURCE: snapshotter.cc:68-110 -/
def afterCall (outputPath : Bytes) (d : Disk Bytes UInt8) (temp : Temp) :
    Call → Outcome → Option State
  | .write left, .wrote count =>
    if count ≤ left.length then
      some ⟨d.append temp.inode (left.take count), .opened temp (loop (left.drop count))⟩
    else none
  | .write left, .interrupted => some ⟨d, .opened temp (.write left)⟩
  | .write _, .failed => some ⟨d, .opened temp .closeTemp⟩
  | .fsync, .succeeded => some ⟨d.fsync temp.inode, .opened temp .close⟩
  | .fsync, .failed => some ⟨d, .opened temp .closeTemp⟩
  | .close, .succeeded => some ⟨d, .opened temp .rename⟩
  | .close, .failed => some ⟨d, .opened temp .unlink⟩
  | .rename, .succeeded => some ⟨d.rename temp.file outputPath, .opened temp .openDir⟩
  | .rename, .failed => some ⟨d, .opened temp .unlink⟩
  | .openDir, .succeeded => some ⟨d, .opened temp .fsyncDir⟩
  | .openDir, .failed => some ⟨d, .opened temp .unlink⟩
  | .fsyncDir, .succeeded => some ⟨d.fsyncDir, .opened temp .closeDir⟩
  | .fsyncDir, .failed => some ⟨d, .opened temp .closeDirFailed⟩
  | .closeDir, .succeeded => some ⟨d, .returned⟩
  | .closeDir, .failed => some ⟨d, .opened temp .unlink⟩
  -- the results of these calls are not looked at
  | .closeDirFailed, .succeeded => some ⟨d, .opened temp .unlink⟩
  | .closeDirFailed, .failed => some ⟨d, .opened temp .unlink⟩
  | .closeTemp, .succeeded => some ⟨d, .opened temp .unlink⟩
  | .closeTemp, .failed => some ⟨d, .opened temp .unlink⟩
  | .unlink, .succeeded => some ⟨d.unlink temp.file, .threw⟩
  | .unlink, .failed => some ⟨d, .threw⟩
  | _, _ => none

/-- `DurableWrite`
SOURCE: snapshotter.cc:53-111 -/
def step (outputPath output : Bytes) (s : State) (outcome : Outcome) : Option State :=
  match s.stage, outcome with
  | .mkstemp, .created file inode =>
    some ⟨s.disk.create file inode, .opened ⟨file, inode⟩ (loop output)⟩
  | .mkstemp, .failed => some { s with stage := .threw }
  | .opened temp call, outcome => afterCall outputPath s.disk temp call outcome
  | _, _ => none

/-- `mkstemp` replaces the six `X` of the template so that the name is new.
SOURCE: snapshotter.cc:62-64 -/
def Possible (s : State) : Outcome → Prop
  | .created file inode =>
    (∃ unique : Bytes, unique.length = 6 ∧ file = ascii ".tmp-" ++ unique) ∧
      s.disk.dir file = none ∧ s.disk.Unused inode
  | _ => True

end DurableWrite

end MyRedis.Model

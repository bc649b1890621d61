import Mathlib.Logic.Function.Basic
import MyRedis.Lib.TransitionSystem
import MyRedis.Model.Connection

/-!
# Snapshot children and the main loop

`CreateSnapshot` and `ReapSnapshot` of `server.cc` with the loop that calls them, and the part of
the kernel they rely on: the processes that were forked, the descriptors that were opened for them,
and the epoll set.  A child exits whenever it likes.  It stays a zombie until `waitpid` has
returned it, and only then may its process number be given to another one; the number of a
descriptor may be given again after `close`.

What the kernel decides comes in with the step.  Children are numbered in the order of the forks,
and `waits` records which child each `waitpid` has returned, `none` where it failed.
-/

set_option autoImplicit false

namespace MyRedis.Model

namespace SnapshotReaping

/-- A process number. -/
abbrev Pid := ℕ

inductive Status where
  | running
  | exited
  | reaped
  deriving DecidableEq

/-- A process that `CreateSnapshot` has forked. -/
structure Child where
  pid : Pid
  status : Status
  deriving DecidableEq

/-- What `epoll_wait` may report to the main loop; the last two are about snapshots. -/
inductive Event where
  | listen
  | command
  | timer
  | pidfd (fd : Fd)
  deriving DecidableEq

/-- Where the main thread is: after `fork`, before the `waitpid` that follows a `pidfd_open` that
failed, before the `waitpid` of `ReapSnapshot`, or elsewhere. -/
inductive Busy where
  | idle
  | forked (pid : Pid)
  | unwatched (pid : Pid)
  | reaping (fd : Fd) (pid : Pid)
  deriving DecidableEq

/-- `openFds` are the descriptors of children, with the number of the child; `interest` are those
in the epoll set. -/
structure State where
  children : List Child
  openFds : Fd → Option ℕ
  interest : Fd → Bool
  snapshotChildren : Fd → Option Pid
  todo : List Event
  busy : Busy
  waits : List (Option ℕ)

/-- What the system calls of a step return: the process of `fork`, the descriptor of `pidfd_open`,
and whether `epoll_ctl` has added it. -/
structure Results where
  pid : Option Pid := none
  pidfd : Option Fd := none
  added : Bool := true

inductive Action where
  | exit (c : ℕ)
  | wait (events : List Event)
  | advance (results : Results)

namespace State

/-- No child has been forked. -/
def init : State := ⟨[], fun _ => none, fun _ => false, fun _ => none, [], .idle, []⟩

/-- The child that a process number stands for. -/
def findChild (s : State) (pid : Pid) : Option ℕ :=
  s.children.findIdx? fun child => child.pid = pid && child.status != .reaped

/-- `waitpid(pid, nullptr, 0)`; there is no step while the child is running. -/
def waitpid (s : State) (pid : Pid) : Option State :=
  match s.findChild pid with
  | none => some { s with waits := s.waits ++ [none] }
  | some c =>
    match s.children[c]? with
    | some ⟨pid, .exited⟩ =>
      some { s with children := s.children.set c ⟨pid, .reaped⟩, waits := s.waits ++ [some c] }
    | _ => none

/-- `Server::CreateSnapshot`, up to `fork`; a process number that is in use is not given again.
SOURCE: server.cc:248-257 -/
def createSnapshot (s : State) (results : Results) : Option State :=
  match results.pid with
  | none => some s
  | some pid =>
    if s.findChild pid = none then
      some { s with children := s.children ++ [⟨pid, .running⟩], busy := .forked pid }
    else none

/-- `Server::CreateSnapshot`, from `pidfd_open` on.
SOURCE: server.cc:259-275 -/
def watchChild (s : State) (pid : Pid) (results : Results) : Option State :=
  match results.pidfd with
  | none => some { s with busy := .unwatched pid }
  | some fd =>
    if s.openFds fd = none then
      some { s with
        openFds := Function.update s.openFds fd (s.findChild pid)
        interest := Function.update s.interest fd results.added
        snapshotChildren := Function.update s.snapshotChildren fd (some pid)
        busy := .idle }
    else none

/-- `Server::ReapSnapshot`, after its `waitpid`.
SOURCE: server.cc:282-284 -/
def forget (s : State) (fd : Fd) : State :=
  { s with
    openFds := Function.update s.openFds fd none
    interest := Function.update s.interest fd false
    snapshotChildren := Function.update s.snapshotChildren fd none
    busy := .idle }

/-- The descriptor of a child can be read when the child has exited. -/
def readable (s : State) (fd : Fd) : Bool :=
  (s.openFds fd).any fun c => s.children[c]?.any fun child => child.status ≠ .running

/-- Whether `epoll_wait` may report an event. -/
def mayReport (s : State) : Event → Bool
  | .pidfd fd => s.interest fd && s.readable fd
  | _ => true

/-- The next step of the main thread.
SOURCE: server.cc:178-194, 248-285 -/
def advance (s : State) (results : Results) : Option State :=
  match s.busy, s.todo with
  | .forked pid, _ => s.watchChild pid results
  | .unwatched pid, _ => (s.waitpid pid).map fun s => { s with busy := .idle }
  | .reaping fd pid, _ => (s.waitpid pid).map fun s => s.forget fd
  | .idle, [] => none
  | .idle, .listen :: rest => some { s with todo := rest }
  | .idle, .command :: rest => some { s with todo := rest }
  | .idle, .timer :: rest => { s with todo := rest }.createSnapshot results
  | .idle, .pidfd fd :: rest =>
    match s.snapshotChildren fd with
    | none => some { s with todo := rest }
    | some pid => some { s with todo := rest, busy := .reaping fd pid }

/-- A child exits, `epoll_wait` returns, or the main thread goes on.  One `epoll_wait` reports a
descriptor at most once.
SOURCE: server.cc:169-195 -/
def step (s : State) : Action → Option State
  | .exit c =>
    match s.children[c]? with
    | some ⟨pid, .running⟩ => some { s with children := s.children.set c ⟨pid, .exited⟩ }
    | _ => none
  | .wait events =>
    if s.busy = .idle ∧ s.todo = [] ∧ events.Nodup ∧ events.all s.mayReport then
      some { s with todo := events }
    else none
  | .advance results => s.advance results

end State

end SnapshotReaping

end MyRedis.Model

import Mathlib.Logic.Function.Basic
import MyRedis.Model.Store

/-!
# The descriptors of the main loop

The construction of `Server`, the start of `Server::Run` and its event loop, as far as they are
about descriptors: which ones are watched, which one an event is taken for, and which ones are
read.  The work on clients and commands is in `Server.lean`.

An interval, a descriptor and `-1` for "none" are all of type `int`, here `ℤ`.  What the
system calls return while the server is constructed is in `Kernel`; what they return in the loop
comes in with the step.
-/

set_option autoImplicit false

namespace MyRedis.Model

/-- `ServerConfig`
SOURCE: server.h:18-22 -/
structure ServerConfig where
  port : ℤ
  snapshotIntervalMs : ℤ

/-- The configuration `main` makes of the command line, with its defaults.
SOURCE: main.cc:11-20 -/
def ServerConfig.ofOptions (port snapshot : Option ℤ) : ServerConfig :=
  ⟨port.getD 6379, snapshot.getD 0⟩

/-- The times of an `itimerspec`. -/
structure ITimerSpec where
  valueSec : ℤ
  valueNsec : ℤ
  intervalSec : ℤ
  intervalNsec : ℤ

/-- The results of the system calls that set the server up.  `bind` and `listen` say whether they
succeed, and `epollAdd` whether `epoll_ctl` accepts a descriptor: it does not accept a negative
one, nor one that is closed or a regular file.  The descriptor of the epoll set is made first, so no
other one is `0`, which is either open before or taken by the epoll set. -/
structure Kernel where
  epollCreate : ℤ
  socket : ℤ
  bind : (listenFd sinPort : ℤ) → Bool
  listen : (listenFd : ℤ) → Bool
  eventfd : ℤ
  timerfdCreate : ℤ
  timerfdSettime : ITimerSpec → Bool
  epollAdd : ℤ → Bool
  epollAdd_nonneg : ∀ fd, epollAdd fd = true → 0 ≤ fd
  socket_ne_zero : socket ≠ 0
  eventfd_ne_zero : eventfd ≠ 0

/-- `CreateListenSocket`; the port is cast to `uint16_t`.
SOURCE: server.cc:44-74 -/
def createListenSocket (k : Kernel) (port : ℤ) : ℤ :=
  if k.socket < 0 then -1
  else if !k.bind k.socket (port % 2 ^ 16) then -1
  else if !k.listen k.socket then -1
  else k.socket

/-- `ConvertMills`; the operators of C++ round towards zero.
SOURCE: server.cc:76-80 -/
def convertMills (mills : ℤ) : ℤ × ℤ := (mills.tdiv 1000, mills.tmod 1000 * 1000000)

/-- `CreateTimerIntervalFd`; `none` is `exit(1)`.
SOURCE: server.cc:82-108 -/
def createTimerIntervalFd (k : Kernel) (snapshotInterval : ℤ) : Option ℤ :=
  if snapshotInterval ≤ 0 then some snapshotInterval
  else if k.timerfdCreate = -1 then none
  else
    let (seconds, nanoseconds) := convertMills snapshotInterval
    if k.timerfdSettime ⟨seconds, nanoseconds, seconds, nanoseconds⟩ then some k.timerfdCreate
    else none

/-- The descriptors of `Server`, and the events of the last `epoll_wait` that are left.
SOURCE: server.h:70-86 -/
structure MainLoop where
  epollFd : ℤ
  listenFd : ℤ
  snapshotFd : ℤ
  commandFd : ℤ
  snapshotChildren : ℤ → Option ℤ
  watched : List ℤ
  events : List ℤ
  /-- record: the descriptors passed to `read` -/
  read : List ℤ
  /-- record: the calls of `CreateSnapshot` -/
  snapshots : ℕ

namespace MainLoop

/-- `Server::Server`; `none` if the process has exited.
SOURCE: server.cc:117-142 -/
def new (k : Kernel) (config : ServerConfig) : Option MainLoop :=
  (createTimerIntervalFd k config.snapshotIntervalMs).map fun snapshotFd =>
    let listenFd := createListenSocket k config.port
    { epollFd := k.epollCreate
      listenFd := listenFd
      snapshotFd := snapshotFd
      commandFd := k.eventfd
      snapshotChildren := fun _ => none
      watched :=
        if k.epollCreate < 0 ∨ listenFd < 0 then []
        else [listenFd, k.eventfd, snapshotFd].filter fun watchedFd =>
          watchedFd ≠ -1 && k.epollAdd watchedFd
      events := []
      read := []
      snapshots := 0 }

/-- What comes of `Server::Run` before its loop: it returns `EXIT_FAILURE` with a message, or
goes on with the store that was restored. -/
inductive Started where
  | exitFailure (message : String)
  | looping (loop : MainLoop) (store : Store)

/-- `Server::Run`, up to its loop.
SOURCE: server.cc:150-168 -/
def run (s : MainLoop) (restore : Store → Bool × Store) (store : Store) : Started :=
  if s.epollFd < 0 ∨ s.listenFd < 0 then .exitFailure "Server failed to initialise"
  else
    match restore store with
    | (false, _) => .exitFailure "Server failed to restore snapshot"
    | (true, store) => .looping s store

/-- What the system calls of an event return: the size of a `read`, the process of a `fork`, and
the descriptor of that process and whether it could be watched. -/
structure Results where
  readSize : ℤ := 8
  pid : ℤ := -1
  pidfd : ℤ := -1
  added : Bool := true

/-- `Server::CreateSnapshot`, in the parent.
SOURCE: server.cc:248-275 -/
def createSnapshot (s : MainLoop) (results : Results) : MainLoop :=
  let s := { s with snapshots := s.snapshots + 1 }
  if results.pid = -1 then s
  else if results.pidfd = -1 then s
  else
    { s with
      snapshotChildren := Function.update s.snapshotChildren results.pidfd (some results.pid)
      watched := if results.added then s.watched ++ [results.pidfd] else s.watched }

/-- `Server::ReapSnapshot`
SOURCE: server.cc:277-285 -/
def reapSnapshot (s : MainLoop) (pidfd : ℤ) : MainLoop :=
  match s.snapshotChildren pidfd with
  | none => s
  | some _ =>
    { s with
      watched := s.watched.filter (· ≠ pidfd)
      snapshotChildren := Function.update s.snapshotChildren pidfd none }

/-- The body of the loop of `Server::Run` over the events.  `Drain` reads the command eventfd;
an assertion that fails ends the process.
SOURCE: server.cc:178-194 -/
def handle (s : MainLoop) (fd : ℤ) (results : Results) : Option MainLoop :=
  if fd = s.listenFd then some s
  else if fd = s.commandFd then some { s with read := s.read ++ [fd] }
  else if fd = s.snapshotFd then
    if results.readSize = 8 then some ({ s with read := s.read ++ [fd] }.createSnapshot results)
    else none
  else some (s.reapSnapshot fd)

/-- `kMaxEvents`
SOURCE: server.cc:31 -/
def kMaxEvents : ℕ := 64

/-- A step of the loop: `epoll_wait`, which reports descriptors that are watched, or the next of
its events. -/
inductive Action where
  | wait (events : List ℤ)
  | event (results : Results)

/-- `Server::Run`
SOURCE: server.cc:169-195 -/
def step (s : MainLoop) : Action → Option MainLoop
  | .wait events =>
    if s.events = [] ∧ events.length ≤ kMaxEvents ∧ events.Nodup ∧ ∀ fd ∈ events, fd ∈ s.watched
    then some { s with events := events }
    else none
  | .event results =>
    match s.events with
    | [] => none
    | fd :: events => { s with events := events }.handle fd results

end MainLoop

end MyRedis.Model

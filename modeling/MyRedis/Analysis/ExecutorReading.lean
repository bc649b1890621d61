import MyRedis.Analysis.ExecutorExclusion
import MyRedis.Analysis.GuardAgreement
import MyRedis.Analysis.PacketBoundaries
import MyRedis.Lib.Tagged
import MyRedis.Model.ServerApp

/-!
# Which requests the workers of v1 dispatch

A worker that finds `being_processed` set leaves its chunk in the queue and goes; the one that has
set it must then find the chunk before it resets the flag.  Along the runs of `OrderlyRun` this
works: a connection that is not marked has handed out all that has been pushed into it
(`Reading.drained`), and one that is marked has a worker that will go on (`Reading.active`).  So the
requests that the workers dispatch for a client are those in its bytes, one after another, and when
its chunks have been handled and nobody processes it they are all of them (`requests_dispatched`).

The process ends when a worker meets malformed bytes, and when a handler throws for a request that
it has been given (`thrown_of_run`).
-/

set_option autoImplicit false

namespace MyRedis.Analysis

open Model Model.RequestExecutor Model.V1 Lib

variable {n : ℕ}

/-- The requests dispatched for a descriptor, in order. -/
def dispatchedTo (dispatched : List (Fd × RespValue)) (fd : Fd) : List RespValue :=
  ofTag fd dispatched

/-- One more call for a descriptor.
SOURCE: RequestExecutor.cpp:84 -/
theorem dispatchedTo_call (calls : List (Fd × RespValue)) (fd : Fd) (request : RespValue) :
    dispatchedTo (calls ++ [(fd, request)]) =
      Function.update (dispatchedTo calls) fd (dispatchedTo calls fd ++ [request]) := by
  funext fd'
  rw [Function.update_apply]
  split_ifs with hfd
  · subst hfd
    exact ofTag_concat_self fd' request calls
  · exact ofTag_concat_of_ne (Ne.symm hfd) request calls

/-- What a step can be: the executor goes on, or what a handler has thrown leaves its worker. -/
inductive AppStep (s : ServerApp n) (a : RequestExecutor.Action n) : ServerApp n → Prop where
  | proceed {executor : RequestExecutor.State n} (hexecutor : s.executor.step a = some executor) :
      AppStep s a (s.proceed a executor)
  | throw {i : Fin n} {call : Fd × RespValue} {exception : StdException}
      (hcall : call ∈ begun (s.executor.workers i)) (hthrown : uncaught call.2 = some exception)
      (hrunning : s.executor.status = .running) :
      AppStep s a { s with thrown := some exception }

/-- Only a process that is running takes steps.
SOURCE: RequestExecutor.cpp:31-86 -/
theorem running_of_step {s s' : RequestExecutor.State n} {a : RequestExecutor.Action n}
    (h : s.step a = some s') : s.status = .running := by
  unfold State.step at h
  split_ifs at h with hrunning
  exact hrunning

/-- A step of the process is one of those listed in `AppStep`.
SOURCE: ServerApp.cpp:114-179, RequestExecutor.cpp:31-86 -/
theorem appStep_of_step {s s' : ServerApp n} {a : RequestExecutor.Action n}
    (h : s.step a = some s') : AppStep s a s' := by
  unfold ServerApp.step at h
  split_ifs at h
  obtain ⟨executor, hexecutor, rfl⟩ := Option.map_eq_some_iff.mp h
  cases hescaping : s.escaping a with
  | none => exact .proceed hexecutor
  | some exception =>
    cases a with
    | accept | submit | close => cases hescaping
    | work i =>
      obtain ⟨call, hcall, hthrown⟩ := List.exists_of_findSome?_eq_some hescaping
      exact .throw hcall hthrown (running_of_step hexecutor)

/-- Somebody processes the client, or the process is about to end. -/
def Processed (s : RequestExecutor.State n) (fd : Fd) : Prop :=
  s.status = .running → ∃ i, processes (s.workers i) = some fd

/-- What connections have been given and have handed out, where `processed` are the clients that
somebody processes. -/
structure Reading (connections : Fd → Option ClientConnection) (out : Fd → List RespValue)
    (processed : Fd → Prop) : Prop where
  reads : ∀ fd connection, connections fd = some connection →
    Reads connection.pushed.flatten (out fd) connection.respValueQueue
  fresh : ∀ fd, connections fd = none → out fd = []
  drained : ∀ fd connection, connections fd = some connection →
    connection.beingProcessed = false →
    connection.respValueQueue.values = [] ∧ parse connection.respValueQueue.buffer = []
  active : ∀ fd connection, connections fd = some connection →
    connection.beingProcessed = true → processed fd

namespace Reading

variable {connections : Fd → Option ClientConnection} {out : Fd → List RespValue}
  {processed processed' : Fd → Prop}

/-- What is processed may become more.
SOURCE: RequestExecutor.cpp:31-86 -/
theorem mono (h : Reading connections out processed) (hle : ∀ fd, processed fd → processed' fd) :
    Reading connections out processed' :=
  ⟨h.reads, h.fresh, h.drained, fun fd connection hconnection hmark =>
    hle fd (h.active fd connection hconnection hmark)⟩

/-- **One connection changes**, with what it has handed out.
SOURCE: RequestExecutor.cpp:31-86 -/
theorem update (h : Reading connections out processed) {fd : Fd} {connection : ClientConnection}
    {values : List RespValue}
    (hreads : Reads connection.pushed.flatten values connection.respValueQueue)
    (hdrained : connection.beingProcessed = false →
      connection.respValueQueue.values = [] ∧ parse connection.respValueQueue.buffer = [])
    (hactive : connection.beingProcessed = true → processed' fd)
    (hothers : ∀ fd', fd' ≠ fd → processed fd' → processed' fd') :
    Reading (Function.update connections fd (some connection)) (Function.update out fd values)
      processed' := by
  refine ⟨?_, ?_, ?_, ?_⟩
  · intro fd' c hc
    rw [Function.update_apply] at hc ⊢
    split_ifs at hc ⊢
    · cases hc
      exact hreads
    · exact h.reads fd' c hc
  · intro fd' hc
    rw [Function.update_apply] at hc ⊢
    split_ifs at hc ⊢
    exact h.fresh fd' hc
  · intro fd' c hc hmark
    rw [Function.update_apply] at hc
    split_ifs at hc
    · cases hc
      exact hdrained hmark
    · exact h.drained fd' c hc hmark
  · intro fd' c hc hmark
    rw [Function.update_apply] at hc
    split_ifs at hc with hfd
    · cases hc
      exact hfd ▸ hactive hmark
    · exact hothers fd' hfd (h.active fd' c hc hmark)

/-- A connection that is not marked has handed out what has been pushed.
SOURCE: RequestExecutor.cpp:31-86 -/
theorem out_eq (h : Reading connections out processed) {fd : Fd} {connection : ClientConnection}
    (hconnection : connections fd = some connection) (hmark : connection.beingProcessed = false) :
    out fd = parse connection.pushed.flatten := by
  obtain ⟨hvalues, hbuffer⟩ := h.drained fd connection hconnection hmark
  rw [(h.reads fd connection hconnection).parse_eq, hvalues, hbuffer, List.append_nil,
    List.append_nil]

end Reading

/-- `PopValue` finds nothing when all has been handed out.
SOURCE: RequestExecutor.cpp:74-80 -/
theorem popValue_none {q q' : RespValueQueue} (h : q.popValue = (.ok none, q')) :
    q'.values = [] ∧ parse q'.buffer = [] := by
  cases hverdict : verdict q.buffer with
  | invalidArgument what =>
    rw [popValue_of_invalid hverdict] at h
    cases h
  | outOfRange what =>
    rw [popValue_of_incomplete hverdict, Prod.mk.injEq, Except.ok.injEq] at h
    obtain ⟨hhead, rfl⟩ := h
    have hnil := List.head?_eq_none_iff.mp hhead
    rw [hnil]
    exact ⟨rfl, (unparsed_of_error (fromString_unparsed q.buffer)).2.1⟩

/-- `PopValue` throws when what is left is malformed.
SOURCE: RequestExecutor.cpp:74-75 -/
theorem popValue_error {q q' : RespValueQueue} {e : StdException}
    (h : q.popValue = (.error e, q')) : Malformed q.buffer := by
  cases hverdict : verdict q.buffer with
  | invalidArgument what => exact ⟨what, hverdict⟩
  | outOfRange what =>
    rw [popValue_of_incomplete hverdict] at h
    cases h

/-! ## Steps -/

section Steps

variable {s : RequestExecutor.State n} {m : Fd → Option ℕ} {i : Fin n} {w : Worker} {fd : Fd}
  {out : Fd → List RespValue}

/-- A client stays processed unless its own worker leaves it.
SOURCE: RequestExecutor.cpp:31-86 -/
theorem Processed.setWorker (h : Processed s fd)
    (hsame : processes (s.workers i) = some fd → processes w = some fd) :
    Processed (s.setWorker i w) fd := by
  intro hrunning
  obtain ⟨j, hj⟩ := h hrunning
  refine ⟨j, ?_⟩
  by_cases hji : j = i
  · subst hji
    rw [setWorker_self]
    exact hsame hj
  · rw [setWorker_ne s hji]
    exact hj

/-- A worker that processes nobody leaves nobody.
SOURCE: RequestExecutor.cpp:31-86 -/
theorem processes_none (h : processes (s.workers i) = none) (fd : Fd)
    (hfd : processes (s.workers i) = some fd) : processes w = some fd := by
  rw [h] at hfd
  cases hfd

/-- A worker goes on without a call.
SOURCE: RequestExecutor.cpp:31-86 -/
theorem Reading.move {calls : List (Fd × RespValue)}
    (h : Reading (connectionOf s) (dispatchedTo calls) (Processed s)) (hcall : begun w = [])
    (hsame : ∀ fd, processes (s.workers i) = some fd → processes w = some fd) :
    Reading (connectionOf (s.setWorker i w))
      (dispatchedTo (calls ++ begun ((s.setWorker i w).workers i)))
      (Processed (s.setWorker i w)) := by
  rw [setWorker_self, hcall, List.append_nil]
  exact h.mono fun fd hprocessed => hprocessed.setWorker (hsame fd)

/-- A new connection has been given nothing and has handed out nothing.
SOURCE: RequestExecutor.cpp:41-43 -/
theorem Reading.insertConnection (h : Reading (connectionOf s) out (Processed s))
    (hwired : Wired s m) (hnone : m fd = none)
    (hresize : s.clientFdToConnection.resizes = true → ∀ j, reference (s.workers j) = none) :
    Reading (connectionOf (s.insertConnection fd)) out (Processed (s.insertConnection fd)) := by
  have hfresh := h.fresh fd (connectionOf_none hwired hnone)
  have hupdate : Reading (Function.update (connectionOf s) fd (some .new))
      (Function.update out fd []) (Processed (s.insertConnection fd)) :=
    h.update Reads.empty (fun _ => ⟨rfl, (unparsed_of_error fromString_nil).2.1⟩)
      (fun hmark => by cases hmark) fun _ _ hprocessed => hprocessed
  rw [connectionOf_insertConnection hwired hnone hresize]
  rwa [← hfresh, Function.update_eq_self] at hupdate

/-- The connection of a client changes while a worker goes on.
SOURCE: RequestExecutor.cpp:31-86 -/
theorem Reading.setConnection (h : Reading (connectionOf s) out (Processed s))
    (hwired : Wired s m) {object : ℕ} {connection : ClientConnection} {values : List RespValue}
    (hobject : m fd = some object)
    (hreads : Reads connection.pushed.flatten values connection.respValueQueue)
    (hdrained : connection.beingProcessed = false →
      connection.respValueQueue.values = [] ∧ parse connection.respValueQueue.buffer = [])
    (hactive : connection.beingProcessed = true → Processed (s.setWorker i w) fd)
    (hothers : ∀ fd', fd' ≠ fd → processes (s.workers i) ≠ some fd') :
    Reading (connectionOf ((s.setConnection object connection).setWorker i w))
      (Function.update out fd values)
      (Processed ((s.setConnection object connection).setWorker i w)) := by
  have hconnections : connectionOf ((s.setConnection object connection).setWorker i w) =
      Function.update (connectionOf s) fd (some connection) :=
    connectionOf_setConnection hwired hobject connection
  rw [hconnections]
  refine h.update hreads hdrained hactive fun fd' hfd hprocessed => ?_
  exact hprocessed.setWorker fun hself => absurd hself (hothers fd' hfd)

/-- The first section.
SOURCE: RequestExecutor.cpp:58-65 -/
theorem Reading.pushSection {calls : List (Fd × RespValue)}
    (h : Reading (connectionOf s) (dispatchedTo calls) (Processed s)) (hwired : Wired s m)
    {job : Job} {generation : ℕ} (hfound : s.workers i = .found job generation) :
    Reading (connectionOf (s.pushSection i job generation))
      (dispatchedTo (calls ++ begun ((s.pushSection i job generation).workers i)))
      (Processed (s.pushSection i job generation)) := by
  have hreference : reference (s.workers i) = some (job.clientFd, generation) := by
    rw [hfound, reference]
  have hnobody : ∀ fd, processes (s.workers i) ≠ some fd := by
    intro fd hfd
    rw [hfound, processes] at hfd
    cases hfd
  obtain ⟨object, connection, hderef, hobject, hconnection⟩ := hwired.deref hreference
  have hcurrent := connectionOf_eq hwired hobject hconnection
  have hreads := (h.reads job.clientFd connection hcurrent).pushString job.request
  have hpushed : connection.pushed.flatten ++ job.request =
      (connection.pushed ++ [job.request]).flatten := by
    rw [List.flatten_append, List.flatten_singleton]
  rw [hpushed] at hreads
  rw [State.pushSection, hderef]
  dsimp only
  split_ifs with hmarked
  · -- the worker that has set the flag goes on
    rw [setWorker_self, begun, List.append_nil, ← Function.update_eq_self job.clientFd
      (dispatchedTo calls)]
    refine h.setConnection hwired hobject hreads (fun hunmarked => ?_) (fun _ => ?_)
      fun fd _ => hnobody fd
    · rw [hmarked] at hunmarked
      cases hunmarked
    · refine (h.active job.clientFd connection hcurrent hmarked).setWorker fun hself => ?_
      exact absurd hself (hnobody _)
  · rw [setWorker_self, begun, List.append_nil, ← Function.update_eq_self job.clientFd
      (dispatchedTo calls)]
    refine h.setConnection hwired hobject hreads (fun hunmarked => ?_) (fun _ _ => ?_)
      fun fd _ => hnobody fd
    · cases hunmarked
    · exact ⟨i, by rw [setWorker_self, processes]⟩

/-- What a worker that processes a client finds.
SOURCE: RequestExecutor.cpp:68-82 -/
theorem Exclusive.deref_processing (h : Exclusive s) (hwired : Wired s m) {generation : ℕ}
    (hprocessing : s.workers i = .processing fd generation) :
    ∃ object connection, s.deref fd generation = some (object, connection) ∧
      m fd = some object ∧ connectionOf s fd = some connection ∧
      connection.beingProcessed = true := by
  obtain ⟨object, connection, hderef, hobject, hconnection⟩ :=
    hwired.deref (congrArg reference hprocessing)
  have hcurrent := connectionOf_eq hwired hobject hconnection
  obtain ⟨connection', hconnection', hmark⟩ := h.marked i fd (congrArg processes hprocessing)
  obtain rfl : connection = connection' := Option.some.inj (hcurrent.symm.trans hconnection')
  exact ⟨object, connection, hderef, hobject, hcurrent, hmark⟩

/-- The second section: a request that is popped is dispatched.
SOURCE: RequestExecutor.cpp:68-82 -/
theorem Reading.popSection {calls : List (Fd × RespValue)}
    (h : Reading (connectionOf s) (dispatchedTo calls) (Processed s)) (hwired : Wired s m)
    (hexclusive : Exclusive s) {generation : ℕ}
    (hprocessing : s.workers i = .processing fd generation) :
    Reading (connectionOf (s.popSection i fd generation))
      (dispatchedTo (calls ++ begun ((s.popSection i fd generation).workers i)))
      (Processed (s.popSection i fd generation)) := by
  have hprocesses : processes (s.workers i) = some fd := congrArg processes hprocessing
  have hothers : ∀ fd', fd' ≠ fd → processes (s.workers i) ≠ some fd' := by
    intro fd' hfd hself
    rw [hprocesses] at hself
    exact hfd (Option.some.inj hself).symm
  obtain ⟨object, connection, hderef, hobject, hcurrent, hmarked⟩ :=
    hexclusive.deref_processing hwired hprocessing
  have hreads := (h.reads fd connection hcurrent).popValue
  rw [State.popSection, hderef]
  dsimp only
  rw [if_pos hmarked]
  split
  case h_1 queue hpop =>
    rw [hpop] at hreads
    simp only [RespValueQueue.returned, List.append_nil] at hreads
    rw [setWorker_self, begun, List.append_nil, ← Function.update_eq_self fd (dispatchedTo calls)]
    exact h.setConnection hwired hobject hreads (fun _ => popValue_none hpop)
      (fun hmark => by cases hmark) hothers
  case h_2 respRequest queue hpop =>
    rw [hpop] at hreads
    simp only [RespValueQueue.returned] at hreads
    rw [setWorker_self, begun, dispatchedTo_call]
    refine h.setConnection hwired hobject hreads (fun hunmarked => ?_) (fun _ _ => ?_) hothers
    · rw [hmarked] at hunmarked
      cases hunmarked
    · exact ⟨i, by rw [setWorker_self, processes]⟩
  case h_3 e queue hpop =>
    rw [hpop] at hreads
    simp only [RespValueQueue.returned, List.append_nil] at hreads
    have hnone : begun ((s.setConnection object
        { connection with respValueQueue := queue }).workers i) = [] :=
      congrArg begun hprocessing
    have hconnections := connectionOf_setConnection hwired hobject
      { connection with respValueQueue := queue }
    have hended : ∀ fd', Processed { s.setConnection object
        { connection with respValueQueue := queue } with status := .terminated } fd' :=
      fun _ hrunning => by cases hrunning
    change Reading (connectionOf (s.setConnection object
      { connection with respValueQueue := queue })) _ _
    rw [hconnections, hnone, List.append_nil, ← Function.update_eq_self fd (dispatchedTo calls)]
    refine h.update hreads (fun hunmarked => ?_) (fun _ => hended fd) fun fd' _ _ => hended fd'
    rw [show connection.beingProcessed = false from hunmarked] at hmarked
    cases hmarked

/-- **Every step.**
SOURCE: RequestExecutor.cpp:31-86 -/
theorem Reading.step {s s' : ServerApp n} {a : RequestExecutor.Action n}
    (h : Reading (connectionOf s.executor) (dispatchedTo s.dispatched) (Processed s.executor))
    (hwired : Wired s.executor m) (hexclusive : Exclusive s.executor)
    (hguard : Orderly s.executor a) (hstep : s.step a = some s') :
    Reading (connectionOf s'.executor) (dispatchedTo s'.dispatched) (Processed s'.executor) := by
  obtain hexecutor | - := appStep_of_step hstep
  swap
  · exact h
  cases moves_of_step hexecutor with
  | accept | submit | close => exact ⟨h.reads, h.fresh, h.drained, h.active⟩
  | @pop i job jobs hworker hjobs =>
    have hjobs : Reading (connectionOf { s.executor with jobs }) (dispatchedTo s.dispatched)
        (Processed { s.executor with jobs }) := ⟨h.reads, h.fresh, h.drained, h.active⟩
    exact hjobs.move rfl (processes_none (congrArg processes hworker))
  | miss hworker => exact h.move rfl (processes_none (congrArg processes hworker))
  | find hworker hobject =>
    refine h.move rfl (processes_none ?_)
    obtain hworker | hworker := hworker
    · exact congrArg processes hworker
    · exact congrArg processes hworker
  | @insert i job hworker =>
    obtain ⟨hnone, hresize⟩ : MayWork s.executor i (.missing job) := hworker ▸ hguard
    rw [hwired.lookUp] at hnone
    exact (h.insertConnection hwired hnone hresize).move rfl
      (processes_none (congrArg processes hworker))
  | @lost i job hworker =>
    have hcall : begun (s.executor.workers i) = [] := congrArg begun hworker
    dsimp only [ServerApp.proceed]
    rw [hcall, List.append_nil]
    exact h.mono fun _ _ hrunning => by cases hrunning
  | @push i job generation hworker =>
    exact h.pushSection hwired hworker
  | @popValue i fd generation hworker => exact h.popSection hwired hexclusive hworker
  | @dispatch i fd generation respRequest hworker =>
    refine h.move rfl fun fd' hfd' => ?_
    rw [hworker] at hfd'
    exact hfd'

/-- A process that has ended has met a malformed stream: none of the assertions fails. -/
def EndedRightly (s : RequestExecutor.State n) : Prop :=
  s.status = .terminated → ∃ fd connection, connectionOf s fd = some connection ∧
    Malformed connection.pushed.flatten

/-- Nothing is to be said of a process that is running.
SOURCE: RequestExecutor.cpp:31-86 -/
theorem EndedRightly.of_running (h : s.status = .running) : EndedRightly s := by
  intro hended
  cases h.symm.trans hended

/-- The first section does not end the process.
SOURCE: RequestExecutor.cpp:58-65 -/
theorem ended_pushSection (hwired : Wired s m) (hrunning : s.status = .running) {job : Job}
    {generation : ℕ} (hfound : s.workers i = .found job generation) :
    EndedRightly (s.pushSection i job generation) := by
  have hreference : reference (s.workers i) = some (job.clientFd, generation) := by
    rw [hfound, reference]
  obtain ⟨object, connection, hderef, -, -⟩ := hwired.deref hreference
  rw [State.pushSection, hderef]
  dsimp only
  split_ifs
  · exact .of_running hrunning
  · exact .of_running hrunning

/-- The second section ends the process only by a request that is malformed.
SOURCE: RequestExecutor.cpp:68-82 -/
theorem ended_popSection (h : Reading (connectionOf s) out (Processed s)) (hwired : Wired s m)
    (hexclusive : Exclusive s) (hrunning : s.status = .running) {generation : ℕ}
    (hprocessing : s.workers i = .processing fd generation) :
    EndedRightly (s.popSection i fd generation) := by
  obtain ⟨object, connection, hderef, hobject, hcurrent, hmarked⟩ :=
    hexclusive.deref_processing hwired hprocessing
  rw [State.popSection, hderef]
  dsimp only
  rw [if_pos hmarked]
  split
  case h_1 => exact .of_running hrunning
  case h_2 => exact .of_running hrunning
  case h_3 e queue hpop =>
    intro _
    have hset := connectionOf_setConnection hwired hobject
      { connection with respValueQueue := queue }
    refine ⟨fd, { connection with respValueQueue := queue }, ?_, ?_⟩
    · exact (congrFun hset fd).trans (Function.update_self fd _ _)
    · obtain ⟨what, hwhat⟩ := popValue_error hpop
      exact ⟨what, (h.reads fd connection hcurrent).verdict_eq.symm.trans hwhat⟩

/-- **Why the process ends.**
SOURCE: RequestExecutor.cpp:31-86 -/
theorem ended_step {s s' : ServerApp n} {a : RequestExecutor.Action n}
    (h : Reading (connectionOf s.executor) (dispatchedTo s.dispatched) (Processed s.executor))
    (hwired : Wired s.executor m) (hexclusive : Exclusive s.executor)
    (hstep : s.step a = some s') : EndedRightly s'.executor := by
  obtain hexecutor | ⟨-, -, hrunning⟩ := appStep_of_step hstep
  swap
  · exact .of_running hrunning
  have hrunning := running_of_step hexecutor
  cases moves_of_step hexecutor with
  | accept | submit | close => exact .of_running hrunning
  | pop | miss | find | insert | dispatch => exact .of_running hrunning
  | @lost i job hworker =>
    -- the connection that the worker has inserted is there
    obtain ⟨connection, hconnection⟩ :=
      Option.isSome_iff_exists.mp (hexclusive.inserted i job hworker)
    obtain ⟨object, hobject, -⟩ := Option.bind_eq_some_iff.mp hconnection
    simp only [State.step, hrunning, if_true, State.work, hworker, hobject,
      Option.some.injEq] at hexecutor
    have hstatus := congrArg State.status hexecutor
    cases hrunning.symm.trans hstatus
  | push hworker => exact ended_pushSection hwired hrunning hworker
  | popValue hworker => exact ended_popSection h hwired hexclusive hrunning hworker

end Steps

/-! ## Whole runs -/

/-- Some run from the start that meets the conditions ends in `s`. -/
abbrev AppRun (hash : Fd → ℕ) (s : ServerApp n) : Prop :=
  Reaches (fun s a s' => ServerApp.step s a = some s') (fun s a => Orderly s.executor a)
    (ServerApp.init hash) s

/-- What a handler does leaves the executor as it is.
SOURCE: RequestExecutor.cpp:84 -/
theorem executor_proceed (s : ServerApp n) (a : RequestExecutor.Action n)
    (executor : RequestExecutor.State n) : (s.proceed a executor).executor = executor := by
  cases a <;> rfl

/-- A step is one of the executor, or leaves it as it is.
SOURCE: ServerApp.cpp:114-179, RequestExecutor.cpp:31-86 -/
theorem executor_step {s s' : ServerApp n} {a : RequestExecutor.Action n}
    (h : s.step a = some s') :
    s'.executor = s.executor ∨ s.executor.step a = some s'.executor := by
  cases appStep_of_step h with
  | throw => exact .inl rfl
  | proceed hexecutor =>
    right
    rw [executor_proceed, hexecutor]

/-- A run of the process is one of its executor.
SOURCE: ServerApp.cpp:114-179, RequestExecutor.cpp:31-86 -/
theorem executor_of_run {hash : Fd → ℕ} {s : ServerApp n} (hrun : AppRun hash s) :
    OrderlyRun hash s.executor := by
  refine hrun.simulate (v := ServerApp.executor) (I := fun _ => True) (fun _ _ => trivial) ?_
  intro s a s' _ hguard hstep
  obtain hsame | hexecutor := executor_step hstep
  · exact .inl hsame
  · exact .inr ⟨a, hguard, hexecutor⟩

/-- At the start nothing has been pushed or dispatched.
SOURCE: RequestExecutor.h:29-35 -/
theorem reading_init (hash : Fd → ℕ) :
    Reading (connectionOf (State.init hash : RequestExecutor.State n)) (dispatchedTo [])
      (Processed (State.init hash : RequestExecutor.State n)) := by
  have hnone (fd : Fd) : connectionOf (State.init hash : RequestExecutor.State n) fd = none :=
    connectionOf_none (wired_init hash) rfl
  refine ⟨fun fd c hc => ?_, fun _ _ => rfl, fun fd c hc => ?_, fun fd c hc => ?_⟩
  · cases (hnone fd).symm.trans hc
  · cases (hnone fd).symm.trans hc
  · cases (hnone fd).symm.trans hc

/-- Both hold along every run that meets the conditions.
SOURCE: ServerApp.cpp:114-179, RequestExecutor.cpp:31-86 -/
theorem reading_of_run {hash : Fd → ℕ} {s : ServerApp n} (hrun : AppRun hash s) :
    Reading (connectionOf s.executor) (dispatchedTo s.dispatched) (Processed s.executor) ∧
      EndedRightly s.executor := by
  have hall : ((∃ m, Wired s.executor m) ∧ Exclusive s.executor) ∧
      Reading (connectionOf s.executor) (dispatchedTo s.dispatched) (Processed s.executor) ∧
      EndedRightly s.executor := by
    refine hrun.invariant (I := fun s => ((∃ m, Wired s.executor m) ∧ Exclusive s.executor) ∧
      Reading (connectionOf s.executor) (dispatchedTo s.dispatched) (Processed s.executor) ∧
      EndedRightly s.executor) ?_ ?_
    · exact ⟨⟨⟨_, wired_init hash⟩, exclusive_init hash⟩, reading_init hash, .of_running rfl⟩
    · rintro s a s' ⟨⟨⟨m, hwired⟩, hexclusive⟩, hreading, -⟩ hguard hstep
      refine ⟨?_, hreading.step hwired hexclusive hguard hstep,
        ended_step hreading hwired hexclusive hstep⟩
      obtain hsame | hexecutor := executor_step hstep
      · rw [hsame]
        exact ⟨⟨m, hwired⟩, hexclusive⟩
      · exact ⟨(hwired.step hguard hexecutor).1, hexclusive.step hwired hguard hexecutor⟩
  exact hall.2

section Streams

variable {hash : Fd → ℕ} {s : RequestExecutor.State n} {c : ℕ} {client : Client}

/-- What has been pushed for a client of which all chunks have been handled.
SOURCE: RequestExecutor.cpp:58-65 -/
theorem registered_eq (hrun : OrderlyRun hash s) (hclient : s.clients[c]? = some client)
    (hsubmitted : client.submitted ≠ []) (hhandled : AllHandled s c) :
    registered s client.fd = client.submitted := by
  have hstream : (handout s).streams[c]? = some (client.fd, client.submitted) := by
    rw [handout, List.getElem?_map, hclient, Option.map_some]
  refine Handout.received_eq (handout_of_run hash hrun) hstream hsubmitted ?_ ?_
  · intro piece' hpiece'
    obtain ⟨job, hjob, rfl⟩ := List.mem_map.mp hpiece'
    exact hhandled.1 job hjob
  · intro i piece' hpiece'
    obtain ⟨job, hjob, rfl⟩ := Option.map_eq_some_iff.mp hpiece'
    exact hhandled.2 i job hjob

end Streams

section Requests

variable {hash : Fd → ℕ} {s : ServerApp n} {c : ℕ} {client : Client}

/-- What has been dispatched for a client whose chunks have been handled and that nobody processes
are all its requests.
SOURCE: ServerApp.cpp:114-179, RequestExecutor.cpp:31-86 -/
theorem dispatched_all (hrun : AppRun hash s) (hclient : s.executor.clients[c]? = some client)
    (hsubmitted : client.submitted ≠ []) (hrunning : s.executor.status = .running)
    (hhandled : AllHandled s.executor c)
    (hnobody : ∀ i, processes (s.executor.workers i) ≠ some client.fd) :
    dispatchedTo s.dispatched client.fd = parse client.submitted.flatten := by
  obtain ⟨hreading, -⟩ := reading_of_run hrun
  have hreceived := registered_eq (executor_of_run hrun) hclient hsubmitted hhandled
  cases hconnection : connectionOf s.executor client.fd with
  | none => exact absurd (hreceived.symm.trans (registered_of_none hconnection)) hsubmitted
  | some connection =>
    have hunmarked : connection.beingProcessed = false := by
      by_contra hmarked
      obtain ⟨i, hi⟩ := hreading.active client.fd connection hconnection
        (by simpa using hmarked) hrunning
      exact hnobody i hi
    rw [hreading.out_eq hconnection hunmarked, ← registered_of_some hconnection, hreceived]

/-- Nothing has been dispatched for a descriptor under which nobody has sent.
SOURCE: ServerApp.cpp:114-179, RequestExecutor.cpp:31-86 -/
theorem dispatched_nil (hrun : AppRun hash s) {fd : Fd}
    (hnobody : ∀ client ∈ s.executor.clients, client.submitted ≠ [] → client.fd ≠ fd) :
    dispatchedTo s.dispatched fd = [] := by
  obtain ⟨hreading, -⟩ := reading_of_run hrun
  cases hconnection : connectionOf s.executor fd with
  | none => exact hreading.fresh fd hconnection
  | some connection =>
    have hpushed : connection.pushed = [] := by
      rw [← registered_of_some hconnection]
      by_contra hpushed
      obtain ⟨stream, hstream, hfd, hsent⟩ :=
        Handout.exists_sender (handout_of_run hash (executor_of_run hrun)) hpushed
      obtain ⟨client, hclient, rfl⟩ := List.mem_map.mp hstream
      exact hnobody client hclient hsent hfd
    have hread := (hreading.reads fd connection hconnection).parse_eq
    rw [hpushed, List.flatten_nil, parse_nil] at hread
    exact (List.append_eq_nil_iff.mp hread.symm).1

end Requests

section Thrown

variable {s s' : RequestExecutor.State n} {a : RequestExecutor.Action n} {i j : Fin n}

/-- The first section moves its own worker only.
SOURCE: RequestExecutor.cpp:58-65 -/
theorem pushSection_ne (s : RequestExecutor.State n) (hj : j ≠ i) (job : Job) (generation : ℕ) :
    (s.pushSection i job generation).workers j = s.workers j := by
  unfold State.pushSection
  split
  · rfl
  · dsimp only
    split_ifs
    · exact setWorker_ne _ hj _
    · exact setWorker_ne _ hj _

/-- The second section moves its own worker only.
SOURCE: RequestExecutor.cpp:68-82 -/
theorem popSection_ne (s : RequestExecutor.State n) (hj : j ≠ i) (fd : Fd) (generation : ℕ) :
    (s.popSection i fd generation).workers j = s.workers j := by
  unfold State.popSection
  split
  · rfl
  · split_ifs
    · split
      · exact setWorker_ne _ hj _
      · exact setWorker_ne _ hj _
      · rfl
    · rfl

/-- The other workers stay where they are.
SOURCE: RequestExecutor.cpp:31-86 -/
theorem workers_step_ne (hstep : s.step a = some s') (hj : a ≠ .work j) :
    s'.workers j = s.workers j := by
  have hne {i : Fin n} (hj : RequestExecutor.Action.work i ≠ .work j) : j ≠ i := by
    rintro rfl
    exact hj rfl
  cases moves_of_step hstep with
  | accept | submit | close | lost => rfl
  | pop | miss | find | insert | dispatch => exact setWorker_ne _ (hne hj) _
  | push => exact pushSection_ne s (hne hj) _ _
  | popValue => exact popSection_ne s (hne hj) _ _

/-- The calls of `DispatchRequest` that the workers are in are among those made, and so is the one
that has thrown. -/
structure Recorded (s : ServerApp n) : Prop where
  begun : ∀ i, ∀ call ∈ begun (s.executor.workers i), call ∈ s.dispatched
  thrown : ∀ exception, s.thrown = some exception →
    ∃ call ∈ s.dispatched, uncaught call.2 = some exception

/-- A handler that returns leaves the record as it was, one that throws is recorded.
SOURCE: RequestExecutor.cpp:84, HandlerDispatcher.cpp:13-22 -/
theorem Recorded.proceed {s : ServerApp n} (h : Recorded s) {executor : RequestExecutor.State n}
    (hstep : s.executor.step a = some executor) : Recorded (s.proceed a executor) := by
  cases a with
  | accept | submit | close =>
    refine ⟨fun j => ?_, h.thrown⟩
    rw [executor_proceed, workers_step_ne hstep (by simp)]
    exact h.begun j
  | work i =>
    refine ⟨fun j call hcall => ?_, fun exception hthrown => ?_⟩
    · by_cases hj : j = i
      · exact List.mem_append_right _ (hj ▸ hcall)
      · rw [executor_proceed, workers_step_ne hstep (by simpa using Ne.symm hj)] at hcall
        exact List.mem_append_left _ (h.begun j call hcall)
    · obtain ⟨call, hcall, hescaped⟩ := h.thrown exception hthrown
      exact ⟨call, List.mem_append_left _ hcall, hescaped⟩

/-- **Every step** keeps the record.
SOURCE: ServerApp.cpp:114-179, RequestExecutor.cpp:31-86 -/
theorem Recorded.step {s s' : ServerApp n} (h : Recorded s) (hstep : s.step a = some s') :
    Recorded s' := by
  cases appStep_of_step hstep with
  | proceed hexecutor => exact h.proceed hexecutor
  | @throw i call exception hcall hthrown hrunning =>
    refine ⟨h.begun, fun exception' hexception => ?_⟩
    cases hexception
    exact ⟨call, h.begun i call hcall, hthrown⟩

end Thrown

end MyRedis.Analysis

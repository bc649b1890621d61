import MyRedis.Analysis.ExecutorReading
import MyRedis.Lib.Progress
import MyRedis.Lib.Service

/-!
# The server of v1 with one worker

With one worker nothing comes between its steps but the main thread, which only adds jobs.  So it
meets the conditions of `OrderlyRun` by itself, provided that no descriptor is given to a client
under which another one has sent: the connection it inserts is still missing, and its reference is
from after the last `Resize` (`orderly_of_newClient`).  The server is then a sequential one: what it
has sent is what the handlers send when they are called for one request after another, and the
requests of each client are those in its bytes (`single_worker_serves`).
-/

set_option autoImplicit false

namespace MyRedis.Analysis

open Model Model.RequestExecutor Model.V1 Lib

namespace OneWorker

/-- The handlers called for a request: what they have sent and what they leave. -/
def serve (shared : Shared) (call : Fd × RespValue) :
    Except Failure (List (Fd × Bytes) × Shared) :=
  dispatchRequest shared call.1 call.2

/-- No descriptor is given to a client under which another one has sent. -/
def NewClient (s : SingleWorker) : RequestExecutor.Action 1 → Prop
  | .accept clientFd =>
    ∀ client ∈ s.app.executor.clients, client.fd = clientFd → client.submitted = []
  | _ => True

instance (s : SingleWorker) (a : RequestExecutor.Action 1) : Decidable (NewClient s a) := by
  cases a with
  | accept clientFd =>
    exact inferInstanceAs (Decidable (∀ client ∈ s.app.executor.clients,
      client.fd = clientFd → client.submitted = []))
  | submit | close | work => exact isTrue trivial

/-- Some run of the server, without descriptors that are given again, ends in `s`. -/
abbrev ServerRun (stringHash : Bytes → ℕ) (intHash : Fd → ℕ) (s : SingleWorker) : Prop :=
  Reaches (fun s a s' => SingleWorker.step s a = some s') NewClient
    (SingleWorker.init stringHash intHash) s

/-- What the worker has not found is still not there. -/
def StillMissing (s : RequestExecutor.State 1) : Prop :=
  ∀ i job, s.workers i = .missing job → s.clientFdToConnection.lookUp job.clientFd = none

/-- One worker cannot be overtaken, so that new descriptors are all that is asked for.
SOURCE: RequestExecutor.cpp:31-86 -/
theorem orderly_of_newClient {s : SingleWorker} {a : RequestExecutor.Action 1}
    (hmissing : StillMissing s.app.executor) (hnew : NewClient s a) :
    Orderly s.app.executor a := by
  cases a with
  | accept fd => exact hnew
  | submit | close => trivial
  | work i =>
    show MayWork s.app.executor i (s.app.executor.workers i)
    cases hworker : s.app.executor.workers i with
    | missing job =>
      refine ⟨hmissing i job hworker, fun _ j => ?_⟩
      rw [Subsingleton.elim j i, hworker, reference]
    | found job generation => exact fun j hne => absurd (Subsingleton.elim j i) hne
    | idle | popped | inserted | processing | dispatching => trivial

/-! ## The map under the worker -/

section Missing

variable {s s' : RequestExecutor.State 1} {i : Fin 1}

/-- Nothing is to be said of a worker that is not about to insert.
SOURCE: RequestExecutor.cpp:39-43 -/
theorem stillMissing_of_worker (h : ∀ job, s.workers i ≠ .missing job) : StillMissing s := by
  intro j job hj
  rw [Subsingleton.elim j i] at hj
  exact absurd hj (h job)

/-- Nothing is to be said of a worker that moves elsewhere than to its `Insert`.
SOURCE: RequestExecutor.cpp:39-43 -/
theorem stillMissing_setWorker {w : Worker} (h : ∀ job, w ≠ .missing job) :
    StillMissing (s.setWorker i w) := by
  refine stillMissing_of_worker (i := i) fun job => ?_
  rw [setWorker_self]
  exact h job

/-- After the first section the worker is not about to insert.
SOURCE: RequestExecutor.cpp:58-65 -/
theorem pushSection_ne_missing {job : Job} {generation : ℕ}
    (hworker : s.workers i = .found job generation) (job' : Job) :
    (s.pushSection i job generation).workers i ≠ .missing job' := by
  unfold State.pushSection
  split
  · simp [hworker]
  · dsimp only
    split_ifs
    · simp [setWorker_self]
    · simp [setWorker_self]

/-- After the second section the worker is not about to insert.
SOURCE: RequestExecutor.cpp:68-82 -/
theorem popSection_ne_missing {fd : Fd} {generation : ℕ}
    (hworker : s.workers i = .processing fd generation) (job' : Job) :
    (s.popSection i fd generation).workers i ≠ .missing job' := by
  unfold State.popSection
  split
  · simp [hworker]
  · split_ifs
    · split
      · simp [setWorker_self]
      · simp [setWorker_self]
      · simp [State.setConnection, hworker]
    · simp [hworker]

/-- What the worker has not found stays missing until it inserts.
SOURCE: RequestExecutor.cpp:31-86 -/
theorem StillMissing.step {a : RequestExecutor.Action 1} (h : StillMissing s)
    (hstep : s.step a = some s') : StillMissing s' := by
  cases moves_of_step hstep with
  | accept | submit | close => exact h
  | pop | find | insert | dispatch => exact stillMissing_setWorker fun _ => Worker.noConfusion
  | @miss i job hworker =>
    have hrunning := running_of_step hstep
    intro j job' hj
    rw [Subsingleton.elim j i, setWorker_self, Worker.missing.injEq] at hj
    cases hj
    cases hobject : s.clientFdToConnection.lookUp job.clientFd with
    | none => exact hobject
    | some object =>
      simp only [State.step, hrunning, if_true, State.work, hworker, hobject,
        Option.some.injEq] at hstep
      have hsame := congrArg (fun s => State.workers s i) hstep
      rw [setWorker_self, setWorker_self] at hsame
      cases hsame
  | lost hworker => exact h
  | push hworker => exact stillMissing_of_worker (pushSection_ne_missing hworker)
  | popValue hworker => exact stillMissing_of_worker (popSection_ne_missing hworker)

end Missing

/-! ## Runs of the server -/

section Runs

variable {stringHash : Bytes → ℕ} {intHash : Fd → ℕ} {s s' : SingleWorker}
  {a : RequestExecutor.Action 1}

/-- The executor goes on, and no exception leaves the worker. -/
structure Proceeds (app : ServerApp 1) (a : RequestExecutor.Action 1) (app' : ServerApp 1) :
    Prop where
  step : app.step a = some app'
  executor : app.executor.step a = some app'.executor
  eq : app' = app.proceed a app'.executor

/-- A step in which nothing is thrown is one of the executor.
SOURCE: ServerApp.cpp:114-179, RequestExecutor.cpp:31-86 -/
theorem proceeds_of_step {app app' : ServerApp 1} (hquiet : app.escaping a = none)
    (h : app.step a = some app') : Proceeds app a app' := by
  have happ := h
  unfold ServerApp.step at happ
  split_ifs at happ
  obtain ⟨executor, hexecutor, rfl⟩ := Option.map_eq_some_iff.mp happ
  simp only [hquiet] at h ⊢
  refine ⟨h, ?_, ?_⟩
  · rw [executor_proceed, hexecutor]
  · rw [executor_proceed]

/-- A handler that has returned has thrown nothing.
SOURCE: HandlerDispatcher.cpp:13-22 -/
theorem uncaught_of_ok {shared : Shared} {clientFd : Fd} {request : RespValue}
    {answer : List (Fd × Bytes) × Shared}
    (h : dispatchRequest shared clientFd request = .ok answer) : uncaught request = none := by
  cases huncaught : uncaught request with
  | none => rfl
  | some exception =>
    cases h.symm.trans ((dispatchRequest_thrown_iff shared clientFd request).mpr huncaught)

/-- What a step of the server can be: a step of the executor, with a call of the handlers if the
worker is at one, or a handler that does not return. -/
inductive ServerStep (s : SingleWorker) (a : RequestExecutor.Action 1) : SingleWorker → Prop where
  | main {app : ServerApp 1} (hmain : ∀ i, a ≠ .work i) (happ : Proceeds s.app a app) :
      ServerStep s a { s with app }
  | work {i : Fin 1} {app : ServerApp 1} (ha : a = .work i)
      (hbegun : begun (s.app.executor.workers i) = []) (happ : Proceeds s.app a app) :
      ServerStep s a { s with app }
  | handle {i : Fin 1} {app : ServerApp 1} {clientFd : Fd} {generation : ℕ} {request : RespValue}
      {sent : List (Fd × Bytes)} {shared : Shared} (ha : a = .work i)
      (hworker : s.app.executor.workers i = .dispatching clientFd generation request)
      (hhandled : dispatchRequest s.shared clientFd request = .ok (sent, shared))
      (happ : Proceeds s.app a app) :
      ServerStep s a { s with app, shared, sent := s.sent ++ sent }
  | fail {i : Fin 1} {clientFd : Fd} {generation : ℕ} {request : RespValue} {failure : Failure}
      (hworker : s.app.executor.workers i = .dispatching clientFd generation request)
      (hfailed : dispatchRequest s.shared clientFd request = .error failure) :
      ServerStep s a { s with failure := some failure }

/-- The steps of the server are those listed in `ServerStep`.
SOURCE: RequestExecutor.cpp:7-86, ServerApp.cpp:28-179, HandlerDispatcher.cpp:13-22 -/
theorem serverStep_of_step (h : s.step a = some s') : ServerStep s a s' := by
  unfold SingleWorker.step at h
  split_ifs at h
  cases a with
  | accept | submit | close =>
    obtain ⟨app, happ, rfl⟩ := Option.map_eq_some_iff.mp h
    exact .main (fun _ ha => by cases ha) (proceeds_of_step rfl happ)
  | work i =>
    cases hworker : s.app.executor.workers i with
    | dispatching clientFd generation request =>
      simp only [hworker, SingleWorker.dispatch] at h
      split at h
      case h_1 sent shared hhandled =>
        obtain ⟨app, happ, rfl⟩ := Option.map_eq_some_iff.mp h
        have hquiet : s.app.escaping (.work i) = none := by
          simp only [ServerApp.escaping, hworker, begun, List.findSome?_cons,
            uncaught_of_ok hhandled, List.findSome?_nil]
        exact .handle rfl hworker hhandled (proceeds_of_step hquiet happ)
      case h_2 failure hfailed =>
        cases h
        exact .fail hworker hfailed
    | idle | popped | missing | inserted | found | processing =>
      simp only [hworker] at h
      obtain ⟨app, happ, rfl⟩ := Option.map_eq_some_iff.mp h
      have hbegun : begun (s.app.executor.workers i) = [] := congrArg begun hworker
      have hquiet : s.app.escaping (.work i) = none := by
        simp only [ServerApp.escaping, hbegun, List.findSome?_nil]
      exact .work rfl hbegun (proceeds_of_step hquiet happ)

/-- The executor stands still, or proceeds.
SOURCE: RequestExecutor.cpp:7-86, ServerApp.cpp:28-179, HandlerDispatcher.cpp:13-22 -/
theorem ServerStep.app (h : ServerStep s a s') : s'.app = s.app ∨ Proceeds s.app a s'.app := by
  cases h with
  | main _ happ => exact .inr happ
  | work _ _ happ => exact .inr happ
  | handle _ _ _ happ => exact .inr happ
  | fail _ _ => exact .inl rfl

/-- Along every run, what the worker has not found is missing until it inserts.
SOURCE: RequestExecutor.cpp:39-43 -/
theorem stillMissing_of_run (h : ServerRun stringHash intHash s) : StillMissing s.app.executor := by
  refine h.invariant (I := fun s => StillMissing s.app.executor) ?_ ?_
  · intro i job hworker
    cases hworker
  · intro s a s' hmissing _ hstep
    obtain hsame | happ := (serverStep_of_step hstep).app
    · rwa [hsame]
    · exact hmissing.step happ.executor

/-- **The run is one of the executor** that meets the conditions.
SOURCE: RequestExecutor.cpp:7-86, ServerApp.cpp:28-179, HandlerDispatcher.cpp:13-22 -/
theorem appRun_of_run (h : ServerRun stringHash intHash s) : AppRun intHash s.app := by
  refine h.simulate (v := SingleWorker.app) (fun _ => stillMissing_of_run) ?_
  intro s a s' hmissing hnew hstep
  obtain hsame | happ := (serverStep_of_step hstep).app
  · exact .inl hsame
  · exact .inr ⟨a, orderly_of_newClient hmissing hnew, happ.step⟩

/-- The main thread dispatches nothing and moves no worker.
SOURCE: ServerApp.cpp:138-179 -/
theorem app_main {app app' : ServerApp 1} (hmain : ∀ i, a ≠ .work i) (h : Proceeds app a app') :
    app'.dispatched = app.dispatched ∧ app'.executor.workers = app.executor.workers := by
  have hworkers : app'.executor.workers = app.executor.workers :=
    funext fun i => workers_step_ne h.executor (hmain i)
  refine ⟨?_, hworkers⟩
  rw [h.eq]
  cases a with
  | accept | submit | close => rfl
  | work i => exact absurd rfl (hmain i)

/-- A worker dispatches the request that it has popped.
SOURCE: RequestExecutor.cpp:84 -/
theorem app_work {app app' : ServerApp 1} {i : Fin 1} (h : Proceeds app (.work i) app') :
    app'.dispatched = app.dispatched ++ begun (app'.executor.workers i) :=
  congrArg ServerApp.dispatched h.eq

/-- A call that has returned.
SOURCE: RequestExecutor.cpp:84 -/
theorem app_returned {app app' : ServerApp 1} {i : Fin 1} {clientFd : Fd} {generation : ℕ}
    {request : RespValue}
    (hworker : app.executor.workers i = .dispatching clientFd generation request)
    (h : Proceeds app (.work i) app') :
    app'.executor.workers i = .processing clientFd generation := by
  have hexecutor := h.executor
  have hrunning := running_of_step hexecutor
  simp only [State.step, hrunning, if_true, State.work, hworker, Option.some.injEq] at hexecutor
  rw [← hexecutor, setWorker_self]

/-- What the handlers have done: the calls that have returned, in order; if the worker is in a call
it is the last one, and if that has failed it fails. -/
structure InTurn (shared : Shared) (s : SingleWorker) (completed : List (Fd × RespValue)) :
    Prop where
  calls : ∀ i, s.app.dispatched = completed ++ begun (s.app.executor.workers i)
  served : ∃ answers, serveAll serve shared completed = .ok (answers, s.shared) ∧
    s.sent = answers.flatten
  failed : ∀ failure, s.failure = some failure →
    ∃ clientFd request, s.app.dispatched = completed ++ [(clientFd, request)] ∧
      dispatchRequest s.shared clientFd request = .error failure

/-- **Every step**: the calls come one after another, each on what the last one has left.
SOURCE: RequestExecutor.cpp:7-86, ServerApp.cpp:28-179, HandlerDispatcher.cpp:13-22 -/
theorem InTurn.step {shared : Shared} {completed : List (Fd × RespValue)}
    (h : InTurn shared s completed) (hrunning : s.failure = none) (hstep : ServerStep s a s') :
    ∃ completed', InTurn shared s' completed' := by
  cases hstep with
  | @main app hmain happ =>
    obtain ⟨hdispatched, hworkers⟩ := app_main hmain happ
    refine ⟨completed, fun i => ?_, h.served, fun failure hfailure => ?_⟩
    · rw [hdispatched, hworkers]
      exact h.calls i
    · cases hrunning.symm.trans hfailure
  | @work i app ha hbegun happ =>
    subst ha
    have hcalls := h.calls i
    rw [hbegun, List.append_nil] at hcalls
    refine ⟨completed, fun j => ?_, h.served, fun failure hfailure => ?_⟩
    · rw [Subsingleton.elim j i, app_work happ, hcalls]
    · cases hrunning.symm.trans hfailure
  | @handle i app clientFd generation request sent shared' ha hworker hhandled happ =>
    subst ha
    have hcalls := h.calls i
    rw [hworker, begun] at hcalls
    obtain ⟨answers, hserved, hsent⟩ := h.served
    refine ⟨completed ++ [(clientFd, request)], fun j => ?_,
      ⟨answers ++ [sent], serveAll_concat hserved hhandled, ?_⟩, fun failure hfailure => ?_⟩
    · rw [Subsingleton.elim j i, app_work happ, app_returned hworker happ, hcalls]
    · rw [List.flatten_append, List.flatten_singleton, hsent]
    · cases hrunning.symm.trans hfailure
  | @fail i clientFd generation request failure hworker hfailed =>
    refine ⟨completed, h.calls, h.served, fun failure' hfailure => ?_⟩
    cases hfailure
    have hcalls := h.calls i
    rw [hworker] at hcalls
    exact ⟨clientFd, request, hcalls, hfailed⟩

/-- Along every run the calls come one after another.
SOURCE: RequestExecutor.cpp:7-86, ServerApp.cpp:28-179, HandlerDispatcher.cpp:13-22 -/
theorem inTurn_of_run (h : ServerRun stringHash intHash s) :
    ∃ completed, InTurn (.new stringHash intHash) s completed := by
  refine h.invariant (I := fun s => ∃ completed, InTurn (.new stringHash intHash) s completed)
    ⟨[], fun _ => rfl, ⟨[], rfl, rfl⟩, fun _ hfailure => by cases hfailure⟩ ?_
  rintro s a s' ⟨completed, hturn⟩ _ hstep
  have hrunning : s.failure = none := by
    unfold SingleWorker.step at hstep
    split_ifs at hstep with hrunning
    exact hrunning
  exact hturn.step hrunning (serverStep_of_step hstep)

/-! ## Coming to rest -/

/-- Nothing is left to do. -/
def Resting (s : SingleWorker) : Prop :=
  s.app.executor.jobs = [] ∧ ∀ i, s.app.executor.workers i = .idle

/-- Every call has returned.
SOURCE: RequestExecutor.cpp:31-86 -/
theorem InTurn.completed_eq {shared : Shared} {completed : List (Fd × RespValue)}
    (h : InTurn shared s completed) (hresting : Resting s) : completed = s.app.dispatched := by
  have hcalls := h.calls ⟨0, Nat.one_pos⟩
  rw [hresting.2, begun, List.append_nil] at hcalls
  exact hcalls.symm

/-- Every request has been dispatched.
SOURCE: RequestExecutor.cpp:7-86, ServerApp.cpp:28-179, HandlerDispatcher.cpp:13-22 -/
theorem dispatched_of_resting (h : ServerRun stringHash intHash s)
    (hrunning : s.app.executor.status = .running) (hresting : Resting s)
    {client : RequestExecutor.Client} (hclient : client ∈ s.app.executor.clients)
    (hsubmitted : client.submitted ≠ []) :
    dispatchedTo s.app.dispatched client.fd = parse client.submitted.flatten := by
  obtain ⟨c, hc⟩ := List.mem_iff_getElem?.mp hclient
  refine dispatched_all (appRun_of_run h) hc hsubmitted hrunning
    ⟨fun job hjob => ?_, fun i job hjob => ?_⟩ fun i hi => ?_
  · rw [hresting.1] at hjob
    exact absurd hjob List.not_mem_nil
  · rw [hresting.2] at hjob
    cases hjob
  · rw [hresting.2] at hi
    cases hi

/-- The worker can go on if there is a chunk or it has one.
SOURCE: RequestExecutor.cpp:31-86 -/
theorem exists_work {s : RequestExecutor.State 1} {i : Fin 1}
    (h : s.jobs = [] → s.workers i ≠ .idle) : ∃ s', s.work i = some s' := by
  refine Option.isSome_iff_exists.mp ?_
  cases hworker : s.workers i with
  | idle =>
    obtain ⟨job, jobs, hjobs⟩ := List.exists_cons_of_ne_nil fun hnil => h hnil hworker
    simp [State.work, hworker, hjobs]
  | popped job | inserted job =>
    cases hobject : s.clientFdToConnection.lookUp job.clientFd <;>
      simp [State.work, hworker, hobject]
  | missing | found | processing | dispatching => simp [State.work, hworker]

/-- The worker can go on if there is anything to do.
SOURCE: RequestExecutor.cpp:7-86, ServerApp.cpp:28-179, HandlerDispatcher.cpp:13-22 -/
theorem exists_step (i : Fin 1) (hthrown : s.app.thrown = none)
    (hstatus : s.app.executor.status = .running) (hfailure : s.failure = none)
    (hresting : ¬ Resting s) :
    ∃ s', s.step (.work i) = some s' := by
  have hbusy : s.app.executor.jobs = [] → s.app.executor.workers i ≠ .idle := by
    intro hjobs hidle
    refine hresting ⟨hjobs, fun j => ?_⟩
    rwa [Subsingleton.elim j i]
  obtain ⟨executor, hwork⟩ := exists_work hbusy
  have hexecutor : s.app.executor.step (.work i) = some executor := by
    rw [State.step, if_pos hstatus, hwork]
  refine Option.isSome_iff_exists.mp ?_
  cases hworker : s.app.executor.workers i with
  | dispatching clientFd generation request =>
    cases hhandled : dispatchRequest s.shared clientFd request <;>
      simp [SingleWorker.step, hfailure, hworker, SingleWorker.dispatch, hhandled, ServerApp.step,
        hthrown, hexecutor]
  | idle | popped | missing | inserted | found | processing =>
    simp [SingleWorker.step, hfailure, hworker, ServerApp.step, hthrown, hexecutor]

/-- What is left in a queue: a value at least takes a byte. -/
def queued (q : RespValueQueue) : ℕ := q.values.length + q.buffer.length

/-- A value that is popped is one less to be queued.
SOURCE: resp_value_queue.cc:10-35 -/
theorem queued_popValue (q : RespValueQueue) :
    queued q.popValue.2 + (RespValueQueue.returned [q.popValue.1]).length ≤ queued q := by
  have hle : (parse q.buffer).length + (unparsed q.buffer).length ≤ q.buffer.length :=
    Streaming.length_drain_le q.buffer
  cases hverdict : verdict q.buffer with
  | invalidArgument what =>
    rw [popValue_of_invalid hverdict]
    simp only [queued, RespValueQueue.returned, List.length_append, List.length_nil]
    omega
  | outOfRange what =>
    rw [popValue_of_incomplete hverdict]
    have hlength : (q.values ++ parse q.buffer).length =
        q.values.length + (parse q.buffer).length := List.length_append
    cases hvalues : q.values ++ parse q.buffer with
    | nil =>
      simp only [queued, RespValueQueue.returned, List.tail_nil, List.head?_nil, List.length_nil]
      omega
    | cons v vs =>
      rw [hvalues, List.length_cons] at hlength
      simp only [queued, RespValueQueue.returned, List.tail_cons, List.head?_cons,
        List.length_cons, List.length_nil]
      omega

/-- The steps a job is worth, and those its bytes are. -/
def jobWeight (job : Job) : ℕ := 6 + 2 * job.request.length

/-- The steps a worker is from the next job. -/
def workerWeight : Worker → ℕ
  | .idle => 0
  | .popped job => 5 + 2 * job.request.length
  | .missing job => 4 + 2 * job.request.length
  | .inserted job => 3 + 2 * job.request.length
  | .found job _ => 2 + 2 * job.request.length
  | .processing _ _ => 1
  | .dispatching _ _ _ => 2

/-- The step that ends the process. -/
def statusWeight : Status → ℕ
  | .running => 1
  | .terminated => 0
  | .undefined => 0

/-- No more than this many steps of the worker are left. -/
def executorRank (s : RequestExecutor.State 1) : ℕ :=
  (s.jobs.map jobWeight).sum + total workerWeight s.workers +
    2 * (s.connections.map fun connection => queued connection.respValueQueue).sum +
    statusWeight s.status

section Rank

variable {s : RequestExecutor.State 1} {m : Fd → Option ℕ} {i : Fin 1} {w : Worker}

/-- The worker moves.
SOURCE: RequestExecutor.cpp:31-86 -/
theorem executorRank_setWorker (s : RequestExecutor.State 1) (i : Fin 1) (w : Worker) :
    executorRank (s.setWorker i w) + workerWeight (s.workers i) =
      executorRank s + workerWeight w := by
  have htotal := total_update workerWeight s.workers i w
  simp only [executorRank, State.setWorker]
  omega

/-- A connection changes.
SOURCE: RequestExecutor.cpp:31-86 -/
theorem executorRank_setConnection {object : ℕ} {connection : ClientConnection}
    (h : s.connections[object]? = some connection) (connection' : ClientConnection) :
    executorRank (s.setConnection object connection') + 2 * queued connection.respValueQueue =
      executorRank s + 2 * queued connection'.respValueQueue := by
  have hsum := sum_map_set (fun connection => queued connection.respValueQueue) h connection'
  simp only [executorRank, State.setConnection]
  omega

/-- The worker moves, and a connection changes.
SOURCE: RequestExecutor.cpp:31-86 -/
theorem executorRank_move {object : ℕ} {connection : ClientConnection}
    (h : s.connections[object]? = some connection) (connection' : ClientConnection) :
    executorRank ((s.setConnection object connection').setWorker i w) +
        workerWeight (s.workers i) + 2 * queued connection.respValueQueue =
      executorRank s + workerWeight w + 2 * queued connection'.respValueQueue := by
  have hworker := executorRank_setWorker (s.setConnection object connection') i w
  have hconnection := executorRank_setConnection h connection'
  have hsame : (s.setConnection object connection').workers i = s.workers i := rfl
  rw [hsame] at hworker
  omega

/-- The process ends.
SOURCE: RequestExecutor.cpp:31-86 -/
theorem executorRank_end (h : s.status = .running) (status : Status) (hstatus : status ≠ .running) :
    executorRank { s with status } + 1 = executorRank s := by
  cases status with
  | running => exact absurd rfl hstatus
  | terminated | undefined => simp only [executorRank, h, statusWeight]

/-- A new connection has nothing queued.
SOURCE: RequestExecutor.cpp:41-43 -/
theorem executorRank_insertConnection (s : RequestExecutor.State 1) (fd : Fd) :
    executorRank (s.insertConnection fd) = executorRank s := by
  simp [executorRank, State.insertConnection, ClientConnection.new, RespValueQueue.empty, queued]

/-- The first section lowers the rank.
SOURCE: RequestExecutor.cpp:58-65 -/
theorem executorRank_pushSection (hwired : Wired s m) {job : Job} {generation : ℕ}
    (hfound : s.workers i = .found job generation) :
    executorRank (s.pushSection i job generation) < executorRank s := by
  obtain ⟨object, connection, hderef, hobject, hconnection⟩ :=
    hwired.deref (congrArg reference hfound)
  -- the bytes of the job move into the queue
  have hqueued : queued (connection.respValueQueue.pushString job.request) =
      queued connection.respValueQueue + job.request.length := by
    simp only [queued, RespValueQueue.pushString, List.length_append]
    omega
  rw [State.pushSection, hderef]
  dsimp only
  split_ifs
  · have hrank := executorRank_move (i := i) (w := .idle) hconnection { connection with
      respValueQueue := connection.respValueQueue.pushString job.request
      pushed := connection.pushed ++ [job.request] }
    rw [hfound, hqueued] at hrank
    simp only [workerWeight] at hrank
    omega
  · have hrank := executorRank_move (i := i) (w := .processing job.clientFd generation)
      hconnection { connection with
        beingProcessed := true
        respValueQueue := connection.respValueQueue.pushString job.request
        pushed := connection.pushed ++ [job.request] }
    rw [hfound, hqueued] at hrank
    simp only [workerWeight] at hrank
    omega

/-- The second section lowers the rank.
SOURCE: RequestExecutor.cpp:68-82 -/
theorem executorRank_popSection (hwired : Wired s m) (hexclusive : Exclusive s)
    (hrunning : s.status = .running) {fd : Fd} {generation : ℕ}
    (hprocessing : s.workers i = .processing fd generation) :
    executorRank (s.popSection i fd generation) < executorRank s := by
  obtain ⟨object, connection, hderef, hobject, hconnection⟩ :=
    hwired.deref (congrArg reference hprocessing)
  obtain ⟨object', connection', hderef', -, -, hmarked⟩ :=
    hexclusive.deref_processing hwired hprocessing
  cases hderef.symm.trans hderef'
  have hqueued := queued_popValue connection.respValueQueue
  rw [State.popSection, hderef]
  dsimp only
  rw [if_pos hmarked]
  split
  case h_1 queue hpop =>
    have hrank := executorRank_move (i := i) (w := .idle) hconnection
      { connection with respValueQueue := queue, beingProcessed := false }
    rw [hpop] at hqueued
    rw [hprocessing] at hrank
    simp only [workerWeight, RespValueQueue.returned, List.length_nil] at hrank hqueued
    omega
  case h_2 respRequest queue hpop =>
    have hrank := executorRank_move (i := i) (w := .dispatching fd generation respRequest)
      hconnection { connection with respValueQueue := queue }
    rw [hpop] at hqueued
    rw [hprocessing] at hrank
    simp only [workerWeight, RespValueQueue.returned, List.length_cons, List.length_nil]
      at hrank hqueued
    omega
  case h_3 e queue hpop =>
    have hrank := executorRank_setConnection hconnection
      { connection with respValueQueue := queue }
    rw [hpop] at hqueued
    simp only [RespValueQueue.returned, List.length_nil] at hqueued hrank
    have hended := executorRank_end (s := s.setConnection object
      { connection with respValueQueue := queue }) hrunning .terminated Status.noConfusion
    omega

/-- **Every step of the worker lowers the rank.**
SOURCE: RequestExecutor.cpp:31-86 -/
theorem executorRank_step {s' : RequestExecutor.State 1} (hwired : Wired s m)
    (hexclusive : Exclusive s) (hstep : s.step (.work i) = some s') :
    executorRank s' < executorRank s := by
  have hrunning := running_of_step hstep
  cases moves_of_step hstep with
  | @pop i job jobs hworker hjobs =>
    have hrank := executorRank_setWorker { s with jobs } i (.popped job)
    have hjob : executorRank { s with jobs } + jobWeight job = executorRank s := by
      simp only [executorRank, hjobs, List.map_cons, List.sum_cons]
      omega
    simp only [hworker, workerWeight] at hrank
    simp only [jobWeight] at hjob
    omega
  | @miss i job hworker =>
    have hrank := executorRank_setWorker s i (.missing job)
    simp only [hworker, workerWeight] at hrank
    omega
  | @find i job object hworker hobject =>
    have hrank := executorRank_setWorker s i (.found job s.generation)
    obtain hworker | hworker := hworker
    · simp only [hworker, workerWeight] at hrank
      omega
    · simp only [hworker, workerWeight] at hrank
      omega
  | @insert i job hworker =>
    have hrank := executorRank_setWorker (s.insertConnection job.clientFd) i (.inserted job)
    have hsame : (s.insertConnection job.clientFd).workers i = .missing job := hworker
    rw [executorRank_insertConnection, hsame] at hrank
    simp only [workerWeight] at hrank
    omega
  | lost hworker =>
    have hended := executorRank_end hrunning .terminated Status.noConfusion
    omega
  | push hworker => exact executorRank_pushSection hwired hworker
  | popValue hworker => exact executorRank_popSection hwired hexclusive hrunning hworker
  | @dispatch i fd generation respRequest hworker =>
    have hrank := executorRank_setWorker s i (.processing fd generation)
    simp only [hworker, workerWeight] at hrank
    omega

end Rank

/-- The same with the handlers, one of which may not return. -/
def rank (s : SingleWorker) : ℕ :=
  executorRank s.app.executor + match s.failure with
    | none => 1
    | some _ => 0

/-- **Every step of the worker lowers the rank** of the server.
SOURCE: RequestExecutor.cpp:7-86, ServerApp.cpp:28-179, HandlerDispatcher.cpp:13-22 -/
theorem rank_step (h : ServerRun stringHash intHash s) {i : Fin 1}
    (hstep : s.step (.work i) = some s') : rank s' < rank s := by
  have horderly := executor_of_run (appRun_of_run h)
  obtain ⟨m, hwired⟩ := wired_of_run intHash horderly
  have hexclusive := exclusive_of_run intHash horderly
  have happ {app : ServerApp 1} (happ : Proceeds s.app (.work i) app) :
      executorRank app.executor < executorRank s.app.executor :=
    executorRank_step hwired hexclusive happ.executor
  have hrunning : s.failure = none := by
    unfold SingleWorker.step at hstep
    split_ifs at hstep with hrunning
    exact hrunning
  cases serverStep_of_step hstep with
  | main hmain _ => exact absurd rfl (hmain i)
  | work _ _ happ' => exact Nat.add_lt_add_right (happ happ') _
  | handle _ _ _ happ' => exact Nat.add_lt_add_right (happ happ') _
  | fail _ _ =>
    simp only [rank, hrunning]
    omega

end Runs

def setRequest : Bytes := ascii "*3\r\n$3\r\nSET\r\n$1\r\na\r\n$1\r\nb\r\n"

def getRequest : Bytes := ascii "*2\r\n$3\r\nGET\r\n$1\r\na\r\n"

/-- What there is to see: what has been sent, the jobs and the worker, and the clients. -/
structure Seen where
  sent : List (Fd × Bytes)
  status : Status
  jobs : List Job
  worker : ℕ
  clients : List (Fd × List Bytes)
  deriving DecidableEq

def seen (s : SingleWorker) (i : Fin 1) : Seen where
  sent := s.sent
  status := s.app.executor.status
  jobs := s.app.executor.jobs
  worker := workerWeight (s.app.executor.workers i)
  clients := s.app.executor.clients.map fun client => (client.fd, client.submitted)

/-- A server with an empty queue and an idle worker rests.
SOURCE: RequestExecutor.cpp:31-86 -/
theorem resting_of_seen {s : SingleWorker} {i : Fin 1} (hjobs : (seen s i).jobs = [])
    (hworker : (seen s i).worker = 0) : Resting s := by
  refine ⟨hjobs, fun j => ?_⟩
  rw [Subsingleton.elim j i]
  have hweight : workerWeight (s.app.executor.workers i) = 0 := hworker
  cases hcase : s.app.executor.workers i with
  | idle => rfl
  | popped | missing | inserted | found | processing | dispatching =>
    rw [hcase] at hweight
    simp [workerWeight] at hweight

end OneWorker

end MyRedis.Analysis

import MyRedis.Analysis.ExecutorOrder

/-!
# One worker at a time for a client

`being_processed` is set by the worker that begins to pop a client's requests and reset when it
finds no more.  Along the runs of `OrderlyRun` this gives mutual exclusion: no two workers pop or
dispatch requests of one client, and neither of the assertions of `RequestExecutor.cpp` fails
(`one_at_a_time`), so that it does not matter whether they are compiled.
-/

set_option autoImplicit false

namespace MyRedis.Analysis

open MyRedis.Model MyRedis.Model.RequestExecutor MyRedis.Lib

variable {n : ℕ}

/-- The client whose requests a worker pops and dispatches. -/
def processes : Worker → Option Fd
  | .processing clientFd _ | .dispatching clientFd _ _ => some clientFd
  | .idle | .popped _ | .missing _ | .inserted _ | .found _ _ => none

/-- The descriptor has a connection that is marked as being processed. -/
def Marked (s : RequestExecutor.State n) (fd : Fd) : Prop :=
  ∃ connection, connectionOf s fd = some connection ∧ connection.beingProcessed = true

structure Exclusive (s : RequestExecutor.State n) : Prop where
  inserted : ∀ i job, s.workers i = .inserted job → (connectionOf s job.clientFd).isSome
  marked : ∀ i fd, processes (s.workers i) = some fd → Marked s fd
  alone : ∀ i j fd, processes (s.workers i) = some fd → processes (s.workers j) = some fd → i = j

section Steps

variable {s : RequestExecutor.State n} {m : Fd → Option ℕ} {i : Fin n} {w : Worker} {fd : Fd}
  {object : ℕ} {connection connection' : ClientConnection}

/-- A worker moves, if what it now processes is marked and nobody else processes it.
SOURCE: RequestExecutor.cpp:31-86 -/
theorem Exclusive.setWorker (h : Exclusive s)
    (hinserted : ∀ job, w = .inserted job → (connectionOf s job.clientFd).isSome)
    (hmarked : ∀ fd, processes w = some fd → Marked s fd)
    (halone : ∀ fd j, processes w = some fd → processes (s.workers j) = some fd → j = i) :
    Exclusive (s.setWorker i w) := by
  have hcases {j : Fin n} {fd : Fd} (hj : processes ((s.setWorker i w).workers j) = some fd) :
      j = i ∧ processes w = some fd ∨ j ≠ i ∧ processes (s.workers j) = some fd := by
    by_cases hji : j = i
    · subst hji
      rw [setWorker_self] at hj
      exact Or.inl ⟨rfl, hj⟩
    · rw [setWorker_ne s hji] at hj
      exact Or.inr ⟨hji, hj⟩
  refine ⟨?_, ?_, ?_⟩
  · intro j job hj
    by_cases hji : j = i
    · subst hji
      rw [setWorker_self] at hj
      exact hinserted job hj
    · rw [setWorker_ne s hji] at hj
      exact h.inserted j job hj
  · intro j fd hj
    obtain ⟨-, hw⟩ | ⟨-, hold⟩ := hcases hj
    · exact hmarked fd hw
    · exact h.marked j fd hold
  · intro j j' fd hj hj'
    obtain ⟨rfl, hw⟩ | ⟨hne, hold⟩ := hcases hj
    · obtain ⟨rfl, -⟩ | ⟨-, hold'⟩ := hcases hj'
      · rfl
      · exact (halone fd j' hw hold').symm
    · obtain ⟨rfl, hw'⟩ | ⟨-, hold'⟩ := hcases hj'
      · exact absurd (halone fd j hw' hold) hne
      · exact h.alone j j' fd hold hold'

/-- A worker moves on without beginning or ending to process a client.
SOURCE: RequestExecutor.cpp:31-86 -/
theorem Exclusive.setWorker_same (h : Exclusive s)
    (hinserted : ∀ job, w = .inserted job → (connectionOf s job.clientFd).isSome)
    (hsame : ∀ fd, processes w = some fd → processes (s.workers i) = some fd) :
    Exclusive (s.setWorker i w) :=
  h.setWorker hinserted (fun fd hw => h.marked i fd (hsame fd hw))
    fun fd j hw hj => h.alone j i fd hj (hsame fd hw)

/-- A worker that is not processing a client and does not begin to, and has not just inserted.
SOURCE: RequestExecutor.cpp:31-86 -/
theorem Exclusive.move (h : Exclusive s) (hprocesses : processes w = none)
    (hinserted : ∀ job, w ≠ .inserted job) : Exclusive (s.setWorker i w) := by
  refine h.setWorker_same (fun job hw => absurd hw (hinserted job)) fun fd hw => ?_
  rw [hprocesses] at hw
  cases hw

/-- A connection that is processed stays marked.
SOURCE: RequestExecutor.cpp:61-64, 74-78 -/
theorem Exclusive.setConnection (h : Exclusive s) (hwired : Wired s m)
    (hobject : m fd = some object)
    (hmark : ∀ j, processes (s.workers j) = some fd → connection'.beingProcessed = true) :
    Exclusive (s.setConnection object connection') := by
  have hconnections := connectionOf_setConnection hwired hobject connection'
  have hself : connectionOf (s.setConnection object connection') fd = some connection' := by
    rw [hconnections, Function.update_self]
  have hother {fd' : Fd} (hfd : fd' ≠ fd) :
      connectionOf (s.setConnection object connection') fd' = connectionOf s fd' := by
    rw [hconnections, Function.update_of_ne hfd]
  refine ⟨?_, ?_, h.alone⟩
  · intro j job hj
    by_cases hfd : job.clientFd = fd
    · rw [hfd, hself]
      rfl
    · rw [hother hfd]
      exact h.inserted j job hj
  · intro j fd' hj
    by_cases hfd : fd' = fd
    · subst hfd
      exact ⟨connection', hself, hmark j hj⟩
    · obtain ⟨connection, hconnection, hmarked⟩ := h.marked j fd' hj
      exact ⟨connection, (hother hfd).trans hconnection, hmarked⟩

/-- A new connection is not marked, and the others stay as they are.
SOURCE: RequestExecutor.cpp:41-43 -/
theorem Exclusive.insertConnection (h : Exclusive s) (hwired : Wired s m) (hnone : m fd = none)
    (hresize : s.clientFdToConnection.resizes = true → ∀ j, reference (s.workers j) = none) :
    Exclusive (s.insertConnection fd) := by
  have hconnections := connectionOf_insertConnection hwired hnone hresize
  refine ⟨?_, ?_, h.alone⟩
  · intro j job hj
    rw [hconnections]
    by_cases hfd : job.clientFd = fd
    · rw [hfd, Function.update_self]
      rfl
    · rw [Function.update_of_ne hfd]
      exact h.inserted j job hj
  · intro j fd' hj
    obtain ⟨connection, hconnection, hmarked⟩ := h.marked j fd' hj
    have hfd : fd' ≠ fd := by
      rintro rfl
      rw [connectionOf_none hwired hnone] at hconnection
      cases hconnection
    refine ⟨connection, ?_, hmarked⟩
    rw [hconnections, Function.update_of_ne hfd]
    exact hconnection

/-- How the process ends changes no worker and no connection.
SOURCE: RequestExecutor.cpp:31-86 -/
theorem Exclusive.setStatus (h : Exclusive s) (status : Status) : Exclusive { s with status } :=
  ⟨h.inserted, h.marked, h.alone⟩

/-! ### The sections -/

/-- The first section: a worker marks the connection unless it is marked.
SOURCE: RequestExecutor.cpp:58-65 -/
theorem Exclusive.pushSection (h : Exclusive s) (hwired : Wired s m) {job : Job} {generation : ℕ}
    (hfound : s.workers i = .found job generation) :
    Exclusive (s.pushSection i job generation) := by
  have hreference : reference (s.workers i) = some (job.clientFd, generation) := by
    rw [hfound, reference]
  obtain ⟨object, connection, hderef, hobject, hconnection⟩ := hwired.deref hreference
  have hcurrent := connectionOf_eq hwired hobject hconnection
  have hmarked {j : Fin n} (hj : processes (s.workers j) = some job.clientFd) :
      connection.beingProcessed = true := by
    obtain ⟨connection', hconnection', hmark⟩ := h.marked j job.clientFd hj
    obtain rfl : connection = connection' := Option.some.inj (hcurrent.symm.trans hconnection')
    exact hmark
  rw [State.pushSection, hderef]
  dsimp only
  split_ifs with hprocessed
  · refine Exclusive.move (h.setConnection hwired hobject ?_) rfl fun _ hw => by cases hw
    exact fun _ _ => hprocessed
  · -- nobody processes the client, since it is not marked
    have hnobody (j : Fin n) : processes (s.workers j) ≠ some job.clientFd := fun hj =>
      hprocessed (hmarked hj)
    refine Exclusive.setWorker (h.setConnection hwired hobject ?_) ?_ ?_ ?_
    · exact fun _ _ => rfl
    · intro job' hw
      cases hw
    · intro fd hw
      cases hw
      have hset := connectionOf_setConnection hwired hobject { connection with
        beingProcessed := true
        respValueQueue := connection.respValueQueue.pushString job.request
        pushed := connection.pushed ++ [job.request] }
      exact ⟨_, hset ▸ Function.update_self _ _ _, rfl⟩
    · intro fd j hw hj
      cases hw
      exact absurd hj (hnobody j)

/-- The second section: the worker that processes the client clears the mark, and no other.
SOURCE: RequestExecutor.cpp:68-82 -/
theorem Exclusive.popSection (h : Exclusive s) (hwired : Wired s m) {generation : ℕ}
    (hprocessing : s.workers i = .processing fd generation) :
    Exclusive (s.popSection i fd generation) := by
  have hreference : reference (s.workers i) = some (fd, generation) := by
    rw [hprocessing, reference]
  have hprocesses : processes (s.workers i) = some fd := by rw [hprocessing, processes]
  obtain ⟨object, connection, hderef, hobject, hconnection⟩ := hwired.deref hreference
  have hmarked : connection.beingProcessed = true := by
    obtain ⟨connection', hconnection', hmark⟩ := h.marked i fd hprocesses
    rw [connectionOf_eq hwired hobject hconnection] at hconnection'
    cases hconnection'
    exact hmark
  rw [State.popSection, hderef]
  dsimp only
  rw [if_pos hmarked]
  split
  · -- the worker stops, and no other one processes the client
    have hidle : Exclusive (s.setWorker i .idle) := h.move rfl fun _ hw => by cases hw
    have hwiredIdle : Wired (s.setWorker i .idle) m := hwired.setWorker fun _ _ hw => by cases hw
    refine hidle.setConnection hwiredIdle hobject fun j hj => ?_
    by_cases hji : j = i
    · subst hji
      rw [setWorker_self] at hj
      cases hj
    · rw [setWorker_ne s hji] at hj
      exact absurd (h.alone j i fd hj hprocesses) hji
  · refine Exclusive.setWorker_same (h.setConnection hwired hobject ?_) ?_ ?_
    · exact fun _ _ => hmarked
    · intro job hw
      cases hw
    · intro fd' hw
      cases hw
      exact hprocesses
  · refine Exclusive.setStatus (h.setConnection hwired hobject ?_) .terminated
    exact fun _ _ => hmarked

/-- **Every step.**
SOURCE: RequestExecutor.cpp:31-86 -/
theorem Exclusive.step {s' : RequestExecutor.State n} {a : RequestExecutor.Action n}
    (h : Exclusive s) (hwired : Wired s m) (hguard : Orderly s a) (hstep : s.step a = some s') :
    Exclusive s' := by
  cases moves_of_step hstep with
  | accept | submit | close => exact ⟨h.inserted, h.marked, h.alone⟩
  | pop hworker hjobs =>
    exact Exclusive.move ⟨h.inserted, h.marked, h.alone⟩ rfl fun _ hw => by cases hw
  | miss hworker => exact h.move rfl fun _ hw => by cases hw
  | find hworker hobject => exact h.move rfl fun _ hw => by cases hw
  | @insert i job hworker =>
    obtain ⟨hnone, hresize⟩ : MayWork s i (.missing job) := hworker ▸ hguard
    rw [hwired.lookUp] at hnone
    refine (h.insertConnection hwired hnone hresize).setWorker_same ?_ fun _ hw => by cases hw
    intro job' hw
    cases hw
    rw [connectionOf_insertConnection hwired hnone hresize, Function.update_self]
    rfl
  | lost hworker => exact h.setStatus .terminated
  | push hworker => exact h.pushSection hwired hworker
  | popValue hworker => exact h.popSection hwired hworker
  | @dispatch i fd generation respRequest hworker =>
    refine h.setWorker_same (fun _ hw => by cases hw) fun fd' hw => ?_
    rw [hworker]
    exact hw

end Steps

/-- At the start no worker processes a client.
SOURCE: RequestExecutor.cpp:13-21 -/
theorem exclusive_init (hash : Fd → ℕ) :
    Exclusive (State.init hash : RequestExecutor.State n) where
  inserted _ _ hworker := by cases hworker
  marked _ _ hprocesses := by cases hprocesses
  alone _ _ _ hprocesses := by cases hprocesses

/-- Along every run that meets the conditions no two workers process one client.
SOURCE: RequestExecutor.cpp:31-86 -/
theorem exclusive_of_run (hash : Fd → ℕ) {s : RequestExecutor.State n} (hrun : OrderlyRun hash s) :
    Exclusive s := by
  have hboth : (∃ m, Wired s m) ∧ Exclusive s := by
    refine hrun.invariant (I := fun s => (∃ m, Wired s m) ∧ Exclusive s)
      ⟨⟨_, wired_init hash⟩, exclusive_init hash⟩ ?_
    rintro s a s' ⟨⟨m, hwired⟩, h⟩ hguard hstep
    exact ⟨(hwired.step hguard hstep).1, h.step hwired hguard hstep⟩
  exact hboth.2

/-- **One worker at a time**, along every run that meets the conditions: no two workers process one
client, and when a worker comes to an assertion this holds.
SOURCE: RequestExecutor.cpp:31-86 -/
theorem one_at_a_time (hash : Fd → ℕ) {s : RequestExecutor.State n} (hrun : OrderlyRun hash s) :
    (∀ i j fd, processes (s.workers i) = some fd → processes (s.workers j) = some fd → i = j) ∧
    (∀ i job, s.workers i = .inserted job →
      ∃ object, s.clientFdToConnection.lookUp job.clientFd = some object) ∧
    ∀ i fd generation, s.workers i = .processing fd generation →
      ∃ object connection, s.deref fd generation = some (object, connection) ∧
        connection.beingProcessed = true := by
  obtain ⟨m, hwired⟩ := wired_of_run hash hrun
  have h := exclusive_of_run hash hrun
  refine ⟨h.alone, ?_, ?_⟩
  · intro i job hworker
    obtain ⟨connection, hconnection⟩ := Option.isSome_iff_exists.mp (h.inserted i job hworker)
    obtain ⟨object, hobject, -⟩ := Option.bind_eq_some_iff.mp hconnection
    exact ⟨object, hobject⟩
  · intro i fd generation hworker
    have hreference : reference (s.workers i) = some (fd, generation) := by
      rw [hworker, reference]
    obtain ⟨object, connection, hderef, hobject, hconnection⟩ := hwired.deref hreference
    obtain ⟨connection', hconnection', hmarked⟩ := h.marked i fd (by rw [hworker, processes])
    rw [connectionOf_eq hwired hobject hconnection] at hconnection'
    cases hconnection'
    exact ⟨object, connection, hderef, hmarked⟩

end MyRedis.Analysis

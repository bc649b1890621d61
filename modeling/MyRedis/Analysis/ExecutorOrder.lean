import MyRedis.Analysis.ChainedRefinement
import MyRedis.Lib.Handout
import MyRedis.Lib.TransitionSystem
import MyRedis.Model.RequestExecutor

/-!
# What the workers of v1 do to a client's bytes

Seen from the clients, the executor hands their chunks out to the workers, and a worker delivers a
chunk when it pushes it into the connection that the map holds for the client's descriptor
(`handout`).  A run in which no worker overtakes another one with a chunk of the same client, no
connection is replaced, no reference dangles and no descriptor is used by two clients that send
is a run of `Handout` with the guard that keeps the order (`Wired.step`), so every
client's bytes arrive as they were sent (`bytes_preserved`).  Nothing in the code ensures any of
the four conditions (`bytes_swapped`).
-/

set_option autoImplicit false

namespace MyRedis.Analysis

open MyRedis.Model MyRedis.Model.RequestExecutor MyRedis.Lib

/-! ## The clients' side -/

/-- The chunk a worker has popped and not yet pushed. -/
def unpushed : Worker → Option Job
  | .popped job | .missing job | .inserted job | .found job _ => some job
  | .idle | .processing _ _ | .dispatching _ _ _ => none

/-- The reference a worker holds: the descriptor and the generation of the map. -/
def reference : Worker → Option (Fd × ℕ)
  | .found job generation => some (job.clientFd, generation)
  | .processing clientFd generation | .dispatching clientFd generation _ =>
    some (clientFd, generation)
  | .idle | .popped _ | .missing _ | .inserted _ => none

def piece (job : Job) : Piece Fd Bytes := ⟨job.clientFd, job.request, job.client, job.index⟩

variable {n : ℕ}

/-- The connection that the map holds for a descriptor. -/
def connectionOf (s : RequestExecutor.State n) (clientFd : Fd) : Option ClientConnection :=
  (s.clientFdToConnection.lookUp clientFd).bind fun object => s.connections[object]?

/-- The chunks pushed into the connection that the map holds for a descriptor. -/
def registered (s : RequestExecutor.State n) (clientFd : Fd) : List Bytes :=
  match connectionOf s clientFd with
  | none => []
  | some connection => connection.pushed

/-- The executor as one that hands chunks out. -/
def handout (s : RequestExecutor.State n) : Handout (Fin n) Fd Bytes where
  streams := s.clients.map fun client => (client.fd, client.submitted)
  waiting := s.jobs.map piece
  held i := (unpushed (s.workers i)).map piece
  received := registered s

/-! ## The conditions -/

/-- The other worker's chunk is of another client or later. -/
def Behind (job : Job) : Option Job → Prop
  | none => True
  | some other => other.client = job.client → job.index < other.index

instance (job : Job) (other : Option Job) : Decidable (Behind job other) := by
  cases other with
  | none => exact isTrue trivial
  | some other => exact inferInstanceAs (Decidable (other.client = job.client → _))

/-- When a worker may go on: it inserts a connection only if there is none, and only when no
worker holds a reference if the map is resized; it pushes a chunk only when no other worker has
an earlier one of the client. -/
def MayWork (s : RequestExecutor.State n) (i : Fin n) : Worker → Prop
  | .missing job => s.clientFdToConnection.lookUp job.clientFd = none ∧
      (s.clientFdToConnection.resizes = true → ∀ j, reference (s.workers j) = none)
  | .found job _ => ∀ j, j ≠ i → Behind job (unpushed (s.workers j))
  | _ => True

/-- The conditions: also, no descriptor is given to a client under which another one has sent. -/
def Orderly (s : RequestExecutor.State n) : RequestExecutor.Action n → Prop
  | .accept clientFd => ∀ client ∈ s.clients, client.fd = clientFd → client.submitted = []
  | .work i => MayWork s i (s.workers i)
  | _ => True

instance (s : RequestExecutor.State n) (i : Fin n) (w : Worker) : Decidable (MayWork s i w) := by
  cases w with
  | missing job => exact inferInstanceAs (Decidable (_ ∧ (_ → ∀ j, reference (s.workers j) = none)))
  | found job generation =>
    exact inferInstanceAs (Decidable (∀ j, j ≠ i → Behind job (unpushed (s.workers j))))
  | idle | popped | inserted | processing | dispatching => exact isTrue trivial

instance (s : RequestExecutor.State n) (a : RequestExecutor.Action n) :
    Decidable (Orderly s a) := by
  cases a with
  | accept clientFd =>
    exact inferInstanceAs (Decidable (∀ client ∈ s.clients,
      client.fd = clientFd → client.submitted = []))
  | work i => exact inferInstanceAs (Decidable (MayWork s i (s.workers i)))
  | submit | close => exact isTrue trivial

/-! ## What a step can be -/

/-- The steps of the executor, one constructor for each. -/
inductive Moves (s : RequestExecutor.State n) :
    RequestExecutor.Action n → RequestExecutor.State n → Prop where
  | accept {fd : Fd} : Moves s (.accept fd) { s with
      clients := s.clients ++ [⟨fd, []⟩]
      openFds := Function.update s.openFds fd (some s.clients.length) }
  | submit {fd : Fd} {request : Bytes} {c : ℕ} {client : Client} (hopen : s.openFds fd = some c)
      (hclient : s.clients[c]? = some client) : Moves s (.submit fd request) { s with
      clients := s.clients.set c { client with submitted := client.submitted ++ [request] }
      jobs := s.jobs ++ [⟨fd, request, c, client.submitted.length⟩] }
  | close {fd : Fd} :
      Moves s (.close fd) { s with openFds := Function.update s.openFds fd none }
  | pop {i : Fin n} {job : Job} {jobs : List Job} (hworker : s.workers i = .idle)
      (hjobs : s.jobs = job :: jobs) :
      Moves s (.work i) ({ s with jobs }.setWorker i (.popped job))
  | miss {i : Fin n} {job : Job} (hworker : s.workers i = .popped job) :
      Moves s (.work i) (s.setWorker i (.missing job))
  | find {i : Fin n} {job : Job} {object : ℕ}
      (hworker : s.workers i = .popped job ∨ s.workers i = .inserted job)
      (hobject : s.clientFdToConnection.lookUp job.clientFd = some object) :
      Moves s (.work i) (s.setWorker i (.found job s.generation))
  | insert {i : Fin n} {job : Job} (hworker : s.workers i = .missing job) :
      Moves s (.work i) ((s.insertConnection job.clientFd).setWorker i (.inserted job))
  | lost {i : Fin n} {job : Job} (hworker : s.workers i = .inserted job) :
      Moves s (.work i) { s with status := .terminated }
  | push {i : Fin n} {job : Job} {generation : ℕ} (hworker : s.workers i = .found job generation) :
      Moves s (.work i) (s.pushSection i job generation)
  | popValue {i : Fin n} {fd : Fd} {generation : ℕ}
      (hworker : s.workers i = .processing fd generation) :
      Moves s (.work i) (s.popSection i fd generation)
  | dispatch {i : Fin n} {fd : Fd} {generation : ℕ} {respRequest : RespValue}
      (hworker : s.workers i = .dispatching fd generation respRequest) :
      Moves s (.work i) (s.setWorker i (.processing fd generation))

/-- The steps of a worker are those listed in `Moves`.
SOURCE: RequestExecutor.cpp:31-86 -/
theorem moves_of_work {s s' : RequestExecutor.State n} {i : Fin n} (hstep : s.work i = some s') :
    Moves s (.work i) s' := by
  rw [State.work] at hstep
  split at hstep
  · rename_i hworker
    split at hstep
    · cases hstep
    · rename_i job jobs hjobs
      cases hstep
      exact .pop hworker hjobs
  · rename_i job hworker
    split at hstep
    · cases hstep
      exact .miss hworker
    · rename_i object hobject
      cases hstep
      exact .find (Or.inl hworker) hobject
  · rename_i job hworker
    cases hstep
    exact .insert hworker
  · rename_i job hworker
    split at hstep
    · cases hstep
      exact .lost hworker
    · rename_i object hobject
      cases hstep
      exact .find (Or.inr hworker) hobject
  · rename_i job generation hworker
    cases hstep
    exact .push hworker
  · rename_i fd generation hworker
    cases hstep
    exact .popValue hworker
  · rename_i fd generation respRequest hworker
    cases hstep
    exact .dispatch hworker

/-- The steps of the executor are those listed in `Moves`.
SOURCE: RequestExecutor.cpp:23-86, ServerApp.cpp:138-179 -/
theorem moves_of_step {s s' : RequestExecutor.State n} {a : RequestExecutor.Action n}
    (hstep : s.step a = some s') : Moves s a s' := by
  unfold State.step at hstep
  split_ifs at hstep
  cases a with
  | accept fd =>
    dsimp only at hstep
    split at hstep
    · cases hstep
      exact .accept
    · cases hstep
  | submit fd request =>
    dsimp only at hstep
    unfold State.submit at hstep
    split_ifs at hstep
    obtain ⟨c, hopen, hrest⟩ := Option.bind_eq_some_iff.mp hstep
    obtain ⟨client, hclient, hs'⟩ := Option.bind_eq_some_iff.mp hrest
    cases hs'
    exact .submit hopen hclient
  | close fd =>
    dsimp only at hstep
    split at hstep
    · cases hstep
    · cases hstep
      exact .close
  | work i => exact moves_of_work hstep

/-! ## The invariant -/

/-- What the executor relies on, where `m` is what its map holds. -/
structure Wired (s : RequestExecutor.State n) (m : Fd → Option ℕ) : Prop where
  chained : Chained s.clientFdToConnection.table m
  bound : ∀ fd object, m fd = some object → object < s.connections.length
  injective : ∀ fd fd' object, m fd = some object → m fd' = some object → fd = fd'
  kept : ∀ object connection, s.connections[object]? = some connection →
    connection.pushed ≠ [] → ∃ fd, m fd = some object
  references : ∀ i fd generation, reference (s.workers i) = some (fd, generation) →
    generation = s.generation ∧ (m fd).isSome
  owners : ∀ fd c, s.openFds fd = some c → ∃ client, s.clients[c]? = some client ∧
    client.fd = fd ∧ ∀ (c' : ℕ) client', c' ≠ c → s.clients[c']? = some client' →
      client'.fd = fd → client'.submitted = []
  defined : s.status ≠ .undefined

section Steps

variable {s : RequestExecutor.State n} {m : Fd → Option ℕ} {i : Fin n} {w : Worker}

/-- `LookUp` finds the connection that was inserted last.
SOURCE: RequestExecutor.cpp:39, 43 -/
theorem Wired.lookUp (h : Wired s m) (fd : Fd) : s.clientFdToConnection.lookUp fd = m fd :=
  h.chained.lookUp fd

/-! ### Workers move on -/

/-- The worker that moves is where it has moved to. -/
theorem setWorker_self (s : RequestExecutor.State n) (i : Fin n) (w : Worker) :
    (s.setWorker i w).workers i = w := Function.update_self _ _ _

/-- The others stay where they are. -/
theorem setWorker_ne (s : RequestExecutor.State n) {i j : Fin n} (hj : j ≠ i) (w : Worker) :
    (s.setWorker i w).workers j = s.workers j := Function.update_of_ne hj _ _

/-- What the hand-out sees of a worker is the chunk it has.
SOURCE: RequestExecutor.cpp:31-86 -/
theorem handout_setWorker (s : RequestExecutor.State n) (i : Fin n) (w : Worker) :
    handout (s.setWorker i w) = { handout s with
      held := Function.update (handout s).held i ((unpushed w).map piece) } := by
  ext1
  · rfl
  · rfl
  · funext j
    by_cases hj : j = i
    · subst hj
      simp only [handout, setWorker_self, Function.update_self]
    · simp only [handout, setWorker_ne s hj, Function.update_of_ne hj]
  · rfl

/-- A worker that still has its chunk, or still has none.
SOURCE: RequestExecutor.cpp:31-86 -/
theorem handout_setWorker_same (hsame : unpushed w = unpushed (s.workers i)) :
    handout (s.setWorker i w) = handout s := by
  have hheld : (unpushed w).map piece = (handout s).held i := by
    rw [hsame]
    rfl
  rw [handout_setWorker, hheld, Function.update_eq_self]

/-- A worker may take a reference to a connection that is in the map as it is now.
SOURCE: RequestExecutor.cpp:31-86 -/
theorem Wired.setWorker (h : Wired s m)
    (hreference : ∀ fd generation, reference w = some (fd, generation) →
      generation = s.generation ∧ (m fd).isSome) : Wired (s.setWorker i w) m := by
  refine ⟨h.chained, h.bound, h.injective, h.kept, ?_, h.owners, h.defined⟩
  intro j fd generation hj
  by_cases hji : j = i
  · subst hji
    rw [setWorker_self] at hj
    exact hreference fd generation hj
  · rw [setWorker_ne s hji] at hj
    exact h.references j fd generation hj

/-! ### Connections -/

/-- The connection of a descriptor is the one its object number leads to.
SOURCE: RequestExecutor.cpp:31-86 -/
theorem connectionOf_eq (h : Wired s m) {fd : Fd} {object : ℕ} {connection : ClientConnection}
    (hobject : m fd = some object) (hconnection : s.connections[object]? = some connection) :
    connectionOf s fd = some connection := by
  rw [connectionOf, h.lookUp, hobject, Option.bind_some, hconnection]

/-- A descriptor that is not in the map has none.
SOURCE: RequestExecutor.cpp:31-86 -/
theorem connectionOf_none (h : Wired s m) {fd : Fd} (hnone : m fd = none) :
    connectionOf s fd = none := by
  rw [connectionOf, h.lookUp, hnone, Option.bind_none]

/-- What has been pushed for a descriptor is what its connection was given.
SOURCE: RequestExecutor.cpp:31-86 -/
theorem registered_of_some {fd : Fd} {connection : ClientConnection}
    (h : connectionOf s fd = some connection) : registered s fd = connection.pushed := by
  rw [registered, h]

/-- Nothing has been pushed for a descriptor without a connection.
SOURCE: RequestExecutor.cpp:31-86 -/
theorem registered_of_none {fd : Fd} (h : connectionOf s fd = none) : registered s fd = [] := by
  rw [registered, h]

/-- What has been pushed for a descriptor changes with its connection only.
SOURCE: RequestExecutor.cpp:31-86 -/
theorem registered_congr {s' : RequestExecutor.State n} {fd : Fd}
    (h : connectionOf s' fd = connectionOf s fd) : registered s' fd = registered s fd := by
  rw [registered, registered, h]

/-- A connection that changes is the one of a descriptor.
SOURCE: RequestExecutor.cpp:61-64, 74-78 -/
theorem Wired.setConnection (h : Wired s m) {fd : Fd} {object : ℕ} (hobject : m fd = some object)
    (connection : ClientConnection) : Wired (s.setConnection object connection) m where
  chained := h.chained
  bound fd object' hobject' := by
    rw [State.setConnection, List.length_set]
    exact h.bound fd object' hobject'
  injective := h.injective
  kept object' connection' hconnection' hpushed := by
    by_cases heq : object' = object
    · exact ⟨fd, heq ▸ hobject⟩
    · rw [State.setConnection, List.getElem?_set_ne (Ne.symm heq)] at hconnection'
      exact h.kept object' connection' hconnection' hpushed
  references := h.references
  owners := h.owners
  defined := h.defined

/-- A connection that changes is that of one descriptor only.
SOURCE: RequestExecutor.cpp:31-86 -/
theorem connectionOf_setConnection (h : Wired s m) {fd : Fd} {object : ℕ}
    (hobject : m fd = some object) (connection : ClientConnection) :
    connectionOf (s.setConnection object connection) =
      Function.update (connectionOf s) fd (some connection) := by
  have hafter := h.setConnection hobject connection
  funext fd'
  by_cases hfd : fd' = fd
  · subst hfd
    rw [Function.update_self]
    exact connectionOf_eq hafter hobject (List.getElem?_set_self (h.bound fd' object hobject))
  · rw [Function.update_of_ne hfd]
    cases hobject' : m fd' with
    | none => rw [connectionOf_none h hobject', connectionOf_none hafter hobject']
    | some object' =>
      -- the connection of another descriptor is another one
      have hne : object' ≠ object := by
        rintro rfl
        exact hfd (h.injective fd' fd object' hobject' hobject)
      have hget := List.getElem?_eq_getElem (h.bound fd' object' hobject')
      rw [connectionOf_eq h hobject' hget, connectionOf_eq hafter hobject'
        ((List.getElem?_set_ne (Ne.symm hne)).trans hget)]

/-- What a worker finds through its reference.
SOURCE: RequestExecutor.cpp:47 -/
theorem Wired.deref (h : Wired s m) {fd : Fd} {generation : ℕ}
    (hreference : reference (s.workers i) = some (fd, generation)) :
    ∃ object connection, s.deref fd generation = some (object, connection) ∧
      m fd = some object ∧ s.connections[object]? = some connection := by
  obtain ⟨hgeneration, hsome⟩ := h.references i fd generation hreference
  obtain ⟨object, hobject⟩ := Option.isSome_iff_exists.mp hsome
  have hlt := h.bound fd object hobject
  refine ⟨object, s.connections[object], ?_, hobject, List.getElem?_eq_getElem hlt⟩
  simp only [State.deref, hgeneration, if_true, h.lookUp, hobject, Option.bind_eq_bind,
    Option.bind_some, List.getElem?_eq_getElem hlt]
  rfl

/-! ### The main thread -/

/-- A client connects under a descriptor that no client has sent under.
SOURCE: ServerApp.cpp:138-151 -/
theorem Wired.accept (h : Wired s m) {fd : Fd}
    (hunused : ∀ client ∈ s.clients, client.fd = fd → client.submitted = []) :
    Wired { s with
      clients := s.clients ++ [⟨fd, []⟩]
      openFds := Function.update s.openFds fd (some s.clients.length) } m := by
  refine ⟨h.chained, h.bound, h.injective, h.kept, h.references, ?_, h.defined⟩
  have hcases {c : ℕ} {client : Client} (hclient : (s.clients ++ [⟨fd, []⟩])[c]? = some client) :
      s.clients[c]? = some client ∨ client = ⟨fd, []⟩ := by
    rw [List.getElem?_append] at hclient
    split_ifs at hclient
    · exact Or.inl hclient
    · exact Or.inr (List.mem_singleton.mp (List.mem_of_getElem? hclient))
  intro fd' c hopen
  by_cases hfd : fd' = fd
  · subst hfd
    dsimp only at hopen
    rw [Function.update_self] at hopen
    cases hopen
    refine ⟨⟨fd', []⟩, List.getElem?_concat_length, rfl, ?_⟩
    intro c' client' _ hclient' hfd'
    obtain hold | rfl := hcases hclient'
    · exact hunused client' (List.mem_of_getElem? hold) hfd'
    · rfl
  · dsimp only at hopen
    rw [Function.update_of_ne hfd] at hopen
    obtain ⟨client, hclient, hclientFd, hothers⟩ := h.owners fd' c hopen
    refine ⟨client, ?_, hclientFd, ?_⟩
    · rw [List.getElem?_append_left (List.getElem?_eq_some_iff.mp hclient).1]
      exact hclient
    · intro c' client' hne hclient' hfd'
      obtain hold | rfl := hcases hclient'
      · exact hothers c' client' hne hold hfd'
      · rfl

/-- In the hand-out a client starts.
SOURCE: ServerApp.cpp:138-151 -/
theorem handout_accept (s : RequestExecutor.State n) (fd : Fd) (openFds : Fd → Option ℕ) :
    (handout s).step (.start fd) =
      some (handout { s with clients := s.clients ++ [⟨fd, []⟩], openFds }) := by
  rw [Handout.step, Option.some.injEq]
  ext1
  · simp only [handout, List.map_append, List.map_cons, List.map_nil]
  · rfl
  · rfl
  · rfl

/-- A chunk that has been read is put into the queue.
SOURCE: RequestExecutor.cpp:23-25, ServerApp.cpp:166-167 -/
theorem Wired.submit (h : Wired s m) {fd : Fd} {c : ℕ} {client : Client}
    (hopen : s.openFds fd = some c) (hclient : s.clients[c]? = some client) (request : Bytes) :
    Wired { s with
      clients := s.clients.set c { client with submitted := client.submitted ++ [request] }
      jobs := s.jobs ++ [⟨fd, request, c, client.submitted.length⟩] } m := by
  refine ⟨h.chained, h.bound, h.injective, h.kept, h.references, ?_, h.defined⟩
  have hlt : c < s.clients.length := (List.getElem?_eq_some_iff.mp hclient).1
  obtain ⟨client₀, hclient₀, hfd, hothers⟩ := h.owners fd c hopen
  obtain rfl : client = client₀ := Option.some.inj (hclient.symm.trans hclient₀)
  intro fd' c₁ hopen₁
  obtain ⟨client₁, hclient₁, hfd₁, hothers₁⟩ := h.owners fd' c₁ hopen₁
  by_cases hc : c₁ = c
  · subst hc
    obtain rfl : client = client₁ := Option.some.inj (hclient.symm.trans hclient₁)
    refine ⟨_, List.getElem?_set_self hlt, hfd₁, ?_⟩
    intro c' client' hne hclient'
    rw [List.getElem?_set_ne (Ne.symm hne)] at hclient'
    exact hothers₁ c' client' hne hclient'
  · refine ⟨client₁, (List.getElem?_set_ne (Ne.symm hc)).trans hclient₁, hfd₁, ?_⟩
    intro c' client' hne hclient' hfd'
    by_cases hc' : c' = c
    · -- the client that sends has another descriptor
      subst hc'
      rw [List.getElem?_set_self hlt] at hclient'
      cases hclient'
      have hsame : fd = fd' := hfd.symm.trans hfd'
      rw [← hsame, hopen] at hopen₁
      exact absurd (Option.some.inj hopen₁).symm hc
    · rw [List.getElem?_set_ne (Ne.symm hc')] at hclient'
      exact hothers₁ c' client' hne hclient' hfd'

/-- In the hand-out the client sends it.
SOURCE: RequestExecutor.cpp:23-25, ServerApp.cpp:166-167 -/
theorem handout_submit {fd : Fd} {c : ℕ} {client : Client} (hclient : s.clients[c]? = some client)
    (hfd : client.fd = fd) (request : Bytes) :
    (handout s).step (.send c request) = some (handout { s with
      clients := s.clients.set c { client with submitted := client.submitted ++ [request] }
      jobs := s.jobs ++ [⟨fd, request, c, client.submitted.length⟩] }) := by
  have hstream : (handout s).streams[c]? = some (client.fd, client.submitted) := by
    rw [handout, List.getElem?_map, hclient, Option.map_some]
  simp only [Handout.step, hstream, Option.some.injEq]
  ext1
  · simp only [handout, List.map_set]
  · simp only [handout, List.map_append, List.map_cons, List.map_nil, piece, hfd]
  · rfl
  · rfl

/-- The client that sends is the only one to have sent under its descriptor.
SOURCE: ServerApp.cpp:166-167 -/
theorem Wired.careful_send (h : Wired s m) {fd : Fd} {c : ℕ} (hopen : s.openFds fd = some c)
    (request : Bytes) : Handout.Careful (handout s) (.send c request) := by
  obtain ⟨client, hclient, hfd, hothers⟩ := h.owners fd c hopen
  intro c' stream stream' hne hstream hstream' hkey
  rw [handout, List.getElem?_map] at hstream hstream'
  obtain ⟨client₁, hclient₁, rfl⟩ := Option.map_eq_some_iff.mp hstream
  obtain ⟨client', hclient', rfl⟩ := Option.map_eq_some_iff.mp hstream'
  obtain rfl : client = client₁ := Option.some.inj (hclient.symm.trans hclient₁)
  exact hothers c' client' hne hclient' (hkey.trans hfd)

/-- A client that disconnects leaves its connection in the map.
SOURCE: ServerApp.cpp:172-174 -/
theorem Wired.close (h : Wired s m) (fd : Fd) :
    Wired { s with openFds := Function.update s.openFds fd none } m := by
  refine ⟨h.chained, h.bound, h.injective, h.kept, h.references, ?_, h.defined⟩
  intro fd' c hopen
  by_cases hfd : fd' = fd
  · subst hfd
    dsimp only at hopen
    rw [Function.update_self] at hopen
    cases hopen
  · dsimp only at hopen
    rw [Function.update_of_ne hfd] at hopen
    exact h.owners fd' c hopen

/-! ### The steps of a worker -/

/-- The step is one of the hand-out that keeps the order, or is not seen there. -/
def Simulates (s s' : RequestExecutor.State n) : Prop :=
  handout s' = handout s ∨
    ∃ b, Handout.Careful (handout s) b ∧ (handout s).step b = some (handout s')

/-- `Pop` gives the first chunk of the queue to the worker.
SOURCE: RequestExecutor.cpp:37 -/
theorem simulates_pop {job : Job} {jobs : List Job} (hidle : s.workers i = .idle)
    (hjobs : s.jobs = job :: jobs) :
    Simulates s ({ s with jobs }.setWorker i (.popped job)) := by
  refine Or.inr ⟨.take i, trivial, ?_⟩
  have hfree : (handout s).held i = none := by simp only [handout, hidle, unpushed, Option.map_none]
  have hwaiting : (handout s).waiting = piece job :: jobs.map piece := by
    simp only [handout, hjobs, List.map_cons]
  rw [Handout.step, hfree, hwaiting, handout_setWorker]
  rfl

/-- `Insert`, when there is no connection for the descriptor.
SOURCE: RequestExecutor.cpp:41-43 -/
theorem Wired.insertConnection (h : Wired s m) {fd : Fd} (hnone : m fd = none)
    (hresize : s.clientFdToConnection.resizes = true → ∀ j, reference (s.workers j) = none) :
    Wired (s.insertConnection fd) (Function.update m fd (some s.connections.length)) := by
  have hold {fd' : Fd} {object : ℕ} (hobject : m fd' = some object) :
      object ≠ s.connections.length := Nat.ne_of_lt (h.bound fd' object hobject)
  have hcases {fd' : Fd} {object : ℕ}
      (hobject : Function.update m fd (some s.connections.length) fd' = some object) :
      fd' = fd ∧ object = s.connections.length ∨ fd' ≠ fd ∧ m fd' = some object := by
    by_cases hfd : fd' = fd
    · subst hfd
      rw [Function.update_self, Option.some.injEq] at hobject
      exact Or.inl ⟨rfl, hobject.symm⟩
    · rw [Function.update_of_ne hfd] at hobject
      exact Or.inr ⟨hfd, hobject⟩
  refine ⟨h.chained.insert _ fd _, ?_, ?_, ?_, ?_, h.owners, h.defined⟩
  · intro fd' object hobject
    have hlength : (s.insertConnection fd).connections.length = s.connections.length + 1 :=
      List.length_append
    obtain ⟨-, rfl⟩ | ⟨-, hobject⟩ := hcases hobject
    · omega
    · have := h.bound fd' object hobject
      omega
  · intro fd₁ fd₂ object h₁ h₂
    obtain ⟨rfl, rfl⟩ | ⟨-, hold₁⟩ := hcases h₁
    · obtain ⟨rfl, -⟩ | ⟨-, hold₂⟩ := hcases h₂
      · rfl
      · exact absurd rfl (hold hold₂)
    · obtain ⟨rfl, rfl⟩ | ⟨-, hold₂⟩ := hcases h₂
      · exact absurd rfl (hold hold₁)
      · exact h.injective fd₁ fd₂ object hold₁ hold₂
  · intro object connection hconnection hpushed
    have hconnection' : (s.connections ++ [.new])[object]? = some connection := hconnection
    rw [List.getElem?_append] at hconnection'
    split_ifs at hconnection' with hlt
    · obtain ⟨fd', hfd'⟩ := h.kept object connection hconnection' hpushed
      refine ⟨fd', ?_⟩
      rw [Function.update_of_ne]
      · exact hfd'
      · rintro rfl
        rw [hnone] at hfd'
        cases hfd'
    · rw [List.mem_singleton.mp (List.mem_of_getElem? hconnection')] at hpushed
      exact absurd rfl hpushed
  · intro j fd' generation hreference
    obtain ⟨hgeneration, hsome⟩ := h.references j fd' generation hreference
    have hnoResize : s.clientFdToConnection.resizes = false := by
      by_contra hresizes
      rw [Bool.not_eq_false] at hresizes
      exact Option.some_ne_none _ (hreference.symm.trans (hresize hresizes j))
    refine ⟨?_, ?_⟩
    · rw [State.insertConnection, hnoResize]
      exact hgeneration
    · by_cases hfd : fd' = fd
      · subst hfd
        rw [Function.update_self]
        rfl
      · rw [Function.update_of_ne hfd]
        exact hsome

/-- The descriptor gets a new connection, the others keep theirs.
SOURCE: RequestExecutor.cpp:41-43 -/
theorem connectionOf_insertConnection (h : Wired s m) {fd : Fd} (hnone : m fd = none)
    (hresize : s.clientFdToConnection.resizes = true → ∀ j, reference (s.workers j) = none) :
    connectionOf (s.insertConnection fd) =
      Function.update (connectionOf s) fd (some .new) := by
  have hafter := h.insertConnection hnone hresize
  funext fd'
  by_cases hfd : fd' = fd
  · subst hfd
    rw [Function.update_self]
    exact connectionOf_eq hafter (Function.update_self _ _ _) List.getElem?_concat_length
  · have hsame : Function.update m fd (some s.connections.length) fd' = m fd' :=
      Function.update_of_ne hfd _ _
    rw [Function.update_of_ne hfd]
    cases hobject : m fd' with
    | none => rw [connectionOf_none h hobject, connectionOf_none hafter (hsame.trans hobject)]
    | some object =>
      have hlt := h.bound fd' object hobject
      have hget := List.getElem?_eq_getElem hlt
      rw [connectionOf_eq h hobject hget, connectionOf_eq hafter (hsame.trans hobject)
        ((List.getElem?_append_left hlt).trans hget)]

/-- Nothing has been pushed to the new connection, so the hand-out is as before.
SOURCE: RequestExecutor.cpp:41-43 -/
theorem handout_insertConnection (h : Wired s m) {fd : Fd} (hnone : m fd = none)
    (hresize : s.clientFdToConnection.resizes = true → ∀ j, reference (s.workers j) = none) :
    handout (s.insertConnection fd) = handout s := by
  have hconnections := connectionOf_insertConnection h hnone hresize
  ext1
  · rfl
  · rfl
  · rfl
  · funext fd'
    show registered (s.insertConnection fd) fd' = registered s fd'
    by_cases hfd : fd' = fd
    · subst hfd
      rw [registered_of_none (connectionOf_none h hnone),
        registered_of_some (hconnections ▸ Function.update_self _ _ _)]
      rfl
    · exact registered_congr (hconnections ▸ Function.update_of_ne hfd _ _)

/-- In the hand-out the descriptor has received what its connection was given.
SOURCE: RequestExecutor.cpp:61 -/
theorem handout_setConnection (h : Wired s m) {fd : Fd} {object : ℕ} (hobject : m fd = some object)
    (connection : ClientConnection) :
    handout (s.setConnection object connection) = { handout s with
      received := Function.update (handout s).received fd connection.pushed } := by
  have hconnections := connectionOf_setConnection h hobject connection
  ext1
  · rfl
  · rfl
  · rfl
  · funext fd'
    show registered (s.setConnection object connection) fd' =
      Function.update (registered s) fd connection.pushed fd'
    by_cases hfd : fd' = fd
    · subst hfd
      rw [Function.update_self]
      exact registered_of_some (hconnections ▸ Function.update_self _ _ _)
    · rw [Function.update_of_ne hfd]
      exact registered_congr (hconnections ▸ Function.update_of_ne hfd _ _)

/-- The first section.
SOURCE: RequestExecutor.cpp:58-65 -/
theorem Wired.simulates_push (h : Wired s m) {job : Job} {generation object : ℕ}
    {connection connection' : ClientConnection} (hfound : s.workers i = .found job generation)
    (hobject : m job.clientFd = some object)
    (hconnection : s.connections[object]? = some connection)
    (hpushed : connection'.pushed = connection.pushed ++ [job.request])
    (hw : unpushed w = none) (hmay : ∀ j, j ≠ i → Behind job (unpushed (s.workers j))) :
    Simulates s ((s.setConnection object connection').setWorker i w) := by
  have hheld : (handout s).held i = some (piece job) := by
    simp only [handout, hfound, unpushed, Option.map_some]
  have hreceived : (handout s).received (piece job).key = connection.pushed :=
    registered_of_some (connectionOf_eq h hobject hconnection)
  refine Or.inr ⟨.deliver i, ?_, ?_⟩
  · intro piece₁ hpiece₁ j piece₂ hj hpiece₂ hstream
    rw [hheld] at hpiece₁
    cases hpiece₁
    obtain ⟨job', hjob', rfl⟩ := Option.map_eq_some_iff.mp hpiece₂
    have hbehind := hmay j hj
    rw [hjob'] at hbehind
    exact hbehind hstream
  · rw [handout_setWorker, handout_setConnection h hobject, hw, hpushed, Handout.step, hheld]
    dsimp only
    rw [hreceived]
    rfl

/-- The second section leaves what has been pushed as it is.
SOURCE: RequestExecutor.cpp:68-82 -/
theorem Wired.handout_keep (h : Wired s m) {fd : Fd} {object : ℕ}
    {connection connection' : ClientConnection} (hobject : m fd = some object)
    (hconnection : s.connections[object]? = some connection)
    (hpushed : connection'.pushed = connection.pushed) :
    handout (s.setConnection object connection') = handout s := by
  have hreceived : connection'.pushed = (handout s).received fd :=
    hpushed.trans (registered_of_some (connectionOf_eq h hobject hconnection)).symm
  rw [handout_setConnection h hobject, hreceived, Function.update_eq_self]

/-- The first section delivers the chunk of the worker, if no other worker has an earlier one.
SOURCE: RequestExecutor.cpp:58-65 -/
theorem Wired.pushSection (h : Wired s m) {job : Job} {generation : ℕ}
    (hfound : s.workers i = .found job generation)
    (hmay : ∀ j, j ≠ i → Behind job (unpushed (s.workers j))) :
    Wired (s.pushSection i job generation) m ∧ Simulates s (s.pushSection i job generation) := by
  have hreference : reference (s.workers i) = some (job.clientFd, generation) := by
    rw [hfound, reference]
  obtain ⟨object, connection, hderef, hobject, hconnection⟩ := h.deref hreference
  rw [State.pushSection, hderef]
  dsimp only
  split_ifs
  · refine ⟨(h.setConnection hobject _).setWorker fun fd g hg => ?_, ?_⟩
    · cases hg
    · exact h.simulates_push hfound hobject hconnection rfl rfl hmay
  · refine ⟨(h.setConnection hobject _).setWorker fun fd g hg => ?_, ?_⟩
    · cases hg
      exact h.references i _ _ hreference
    · exact h.simulates_push hfound hobject hconnection rfl rfl hmay

/-- The end of the process changes nothing else.
SOURCE: RequestExecutor.cpp:31-86 -/
theorem Wired.setStatus (h : Wired s m) {status : Status} (hstatus : status ≠ .undefined) :
    Wired { s with status } m :=
  ⟨h.chained, h.bound, h.injective, h.kept, h.references, h.owners, hstatus⟩

/-- The second section takes a request out, which the hand-out does not see.
SOURCE: RequestExecutor.cpp:68-82 -/
theorem Wired.popSection (h : Wired s m) {fd : Fd} {generation : ℕ}
    (hprocessing : s.workers i = .processing fd generation) :
    Wired (s.popSection i fd generation) m ∧
      handout (s.popSection i fd generation) = handout s := by
  have hreference : reference (s.workers i) = some (fd, generation) := by
    rw [hprocessing, reference]
  have hnone : none = unpushed (s.workers i) := by rw [hprocessing, unpushed]
  obtain ⟨object, connection, hderef, hobject, hconnection⟩ := h.deref hreference
  have hconnected (connection' : ClientConnection) := h.setConnection hobject connection'
  rw [State.popSection, hderef]
  dsimp only
  split_ifs
  · split
    · refine ⟨(hconnected _).setWorker fun fd' g hg => ?_, ?_⟩
      · cases hg
      · refine (handout_setWorker_same ?_).trans (h.handout_keep hobject hconnection rfl)
        exact hnone
    · refine ⟨(hconnected _).setWorker fun fd' g hg => ?_, ?_⟩
      · cases hg
        exact h.references i fd generation hreference
      · refine (handout_setWorker_same ?_).trans (h.handout_keep hobject hconnection rfl)
        exact hnone
    · exact ⟨(hconnected _).setStatus (by decide), h.handout_keep hobject hconnection rfl⟩
  · exact ⟨h.setStatus (by decide), rfl⟩

/-- A worker that still has its chunk, or still has none.
SOURCE: RequestExecutor.cpp:31-86 -/
theorem Wired.move (h : Wired s m) (hsame : unpushed w = unpushed (s.workers i))
    (hreference : ∀ fd generation, reference w = some (fd, generation) →
      generation = s.generation ∧ (m fd).isSome) :
    (∃ m', Wired (s.setWorker i w) m') ∧ Simulates s (s.setWorker i w) :=
  ⟨⟨m, h.setWorker hreference⟩, Or.inl (handout_setWorker_same hsame)⟩

/-- **Every step** keeps the invariant, and is a step of the hand-out that keeps the order.
SOURCE: RequestExecutor.cpp:23-86, ServerApp.cpp:138-179 -/
theorem Wired.step {s' : RequestExecutor.State n} {a : RequestExecutor.Action n} (h : Wired s m)
    (hguard : Orderly s a) (hstep : s.step a = some s') :
    (∃ m', Wired s' m') ∧ Simulates s s' := by
  cases moves_of_step hstep with
  | @accept fd =>
    exact ⟨⟨m, h.accept hguard⟩, Or.inr ⟨.start fd, trivial, handout_accept s fd _⟩⟩
  | @submit fd request c client hopen hclient =>
    obtain ⟨client', hclient', hfd, -⟩ := h.owners fd c hopen
    obtain rfl : client = client' := Option.some.inj (hclient.symm.trans hclient')
    exact ⟨⟨m, h.submit hopen hclient request⟩,
      Or.inr ⟨.send c request, h.careful_send hopen request, handout_submit hclient hfd request⟩⟩
  | @close fd => exact ⟨⟨m, h.close fd⟩, Or.inl rfl⟩
  | @pop i job jobs hworker hjobs =>
    have hpopped : Wired { s with jobs } m :=
      ⟨h.chained, h.bound, h.injective, h.kept, h.references, h.owners, h.defined⟩
    exact ⟨⟨m, hpopped.setWorker fun fd g hg => by cases hg⟩, simulates_pop hworker hjobs⟩
  | @miss i job hworker =>
    exact h.move (by rw [hworker]; rfl) fun fd g hg => by cases hg
  | @find i job object hworker hobject =>
    rw [h.lookUp] at hobject
    refine h.move ?_ fun fd g hg => ?_
    · obtain hworker | hworker := hworker
      · rw [hworker]
        rfl
      · rw [hworker]
        rfl
    · cases hg
      exact ⟨rfl, by rw [hobject, Option.isSome_some]⟩
  | @insert i job hworker =>
    obtain ⟨hnone, hresize⟩ : MayWork s i (.missing job) := hworker ▸ hguard
    rw [h.lookUp] at hnone
    refine ⟨⟨_, (h.insertConnection hnone hresize).setWorker fun fd g hg => ?_⟩, Or.inl ?_⟩
    · cases hg
    · refine (handout_setWorker_same ?_).trans (handout_insertConnection h hnone hresize)
      exact (congrArg unpushed hworker).symm
  | lost hworker => exact ⟨⟨m, h.setStatus (by decide)⟩, Or.inl rfl⟩
  | @push i job generation hworker =>
    have hmay : MayWork s i (.found job generation) := hworker ▸ hguard
    obtain ⟨hwired, hsimulates⟩ := h.pushSection hworker hmay
    exact ⟨⟨m, hwired⟩, hsimulates⟩
  | popValue hworker =>
    obtain ⟨hwired, hsame⟩ := h.popSection hworker
    exact ⟨⟨m, hwired⟩, Or.inl hsame⟩
  | @dispatch i fd generation respRequest hworker =>
    refine h.move (by rw [hworker]; rfl) fun fd' g hg => ?_
    cases hg
    exact h.references i fd generation (by rw [hworker, reference])

end Steps

/-! ## Whole runs -/

/-- At the start the map is empty.
SOURCE: RequestExecutor.h:29-35 -/
theorem wired_init (hash : Fd → ℕ) :
    Wired (State.init hash : RequestExecutor.State n) (lastInsert []) where
  chained := chained_new hash
  bound fd object hobject := by cases hobject
  injective fd fd' object hobject := by cases hobject
  kept object connection hconnection := by cases hconnection
  references i fd generation hreference := by cases hreference
  owners fd c hopen := by cases hopen
  defined hstatus := by cases hstatus

/-- Nothing has been sent, and no worker has a chunk.
SOURCE: RequestExecutor.h:29-35 -/
theorem handout_init (hash : Fd → ℕ) :
    handout (State.init hash : RequestExecutor.State n) = Handout.init := by
  ext1
  · rfl
  · rfl
  · rfl
  · funext fd
    exact registered_of_none (connectionOf_none (wired_init hash) rfl)

/-- Some run from the start that meets the conditions ends in `s`. -/
abbrev OrderlyRun (hash : Fd → ℕ) (s : RequestExecutor.State n) : Prop :=
  Reaches (fun s a s' => State.step s a = some s') Orderly (State.init hash) s

/-- The invariant holds along every run that meets the conditions.
SOURCE: RequestExecutor.cpp:23-86, ServerApp.cpp:138-179 -/
theorem wired_of_run (hash : Fd → ℕ) {s : RequestExecutor.State n} (hrun : OrderlyRun hash s) :
    ∃ m, Wired s m := by
  refine hrun.invariant (I := fun s => ∃ m, Wired s m) ⟨_, wired_init hash⟩ ?_
  rintro s a s' ⟨m, h⟩ hguard hstep
  exact (h.step hguard hstep).1

/-- **The run is one of the hand-out** that keeps the order.
SOURCE: RequestExecutor.cpp:23-86, ServerApp.cpp:138-179 -/
theorem handout_of_run (hash : Fd → ℕ) {s : RequestExecutor.State n} (hrun : OrderlyRun hash s) :
    Reaches (fun h a h' => Handout.step h a = some h') Handout.Careful Handout.init
      (handout s) := by
  rw [← handout_init hash]
  refine hrun.simulate (v := handout) (fun s => wired_of_run hash) ?_
  rintro s a s' ⟨m, h⟩ hguard hstep
  exact (h.step hguard hstep).2

/-- All chunks of the client have been handled: none waits and no worker has one to push. -/
def AllHandled (s : RequestExecutor.State n) (c : ℕ) : Prop :=
  (∀ job ∈ s.jobs, job.client ≠ c) ∧
    ∀ i job, unpushed (s.workers i) = some job → job.client ≠ c

/-- **The executor preserves each client's bytes**, along every run that meets the conditions, for
any number of workers and any hash function: no reference dangles when it is used, what has been
pushed for a client of which all chunks have been handled is what it has sent, in order, and no
chunk is in a connection that the map does not hold.
SOURCE: RequestExecutor.cpp:23-86, ServerApp.cpp:138-179 -/
theorem bytes_preserved (hash : Fd → ℕ) {s : RequestExecutor.State n}
    (hrun : OrderlyRun hash s) :
    s.status ≠ .undefined ∧
    (∀ (c : ℕ) client, s.clients[c]? = some client → client.submitted ≠ [] → AllHandled s c →
      ∃ object connection, s.clientFdToConnection.lookUp client.fd = some object ∧
        s.connections[object]? = some connection ∧
        connection.pushed.flatten = client.submitted.flatten) ∧
    ∀ (object : ℕ) connection, s.connections[object]? = some connection →
      connection.pushed ≠ [] → ∃ fd, s.clientFdToConnection.lookUp fd = some object := by
  obtain ⟨m, h⟩ := wired_of_run hash hrun
  refine ⟨h.defined, ?_, ?_⟩
  · intro c client hclient hsubmitted hhandled
    have hstream : (handout s).streams[c]? = some (client.fd, client.submitted) := by
      rw [handout, List.getElem?_map, hclient, Option.map_some]
    have hreceived : registered s client.fd = client.submitted := by
      refine Handout.received_eq (handout_of_run hash hrun) hstream hsubmitted ?_ ?_
      · intro piece' hpiece'
        obtain ⟨job, hjob, rfl⟩ := List.mem_map.mp hpiece'
        exact hhandled.1 job hjob
      · intro i piece' hpiece'
        obtain ⟨job, hjob, rfl⟩ := Option.map_eq_some_iff.mp hpiece'
        exact hhandled.2 i job hjob
    -- something has been received, so the map holds a connection
    obtain ⟨object, hobject⟩ : ∃ object, m client.fd = some object := by
      rw [← Option.ne_none_iff_exists']
      intro hnone
      rw [registered_of_none (connectionOf_none h hnone)] at hreceived
      exact hsubmitted hreceived.symm
    have hconnection := List.getElem?_eq_getElem (h.bound client.fd object hobject)
    refine ⟨object, _, (h.lookUp client.fd).trans hobject, hconnection, ?_⟩
    rw [← registered_of_some (connectionOf_eq h hobject hconnection), hreceived]
  · intro object connection hconnection hpushed
    obtain ⟨fd, hfd⟩ := h.kept object connection hconnection hpushed
    exact ⟨fd, (h.lookUp fd).trans hfd⟩

/-! ## Two workers and one client -/

/-- A request that arrives in two chunks. -/
def firstChunk : Bytes := ascii "*1\r\n$4\r\n"

def secondChunk : Bytes := ascii "PING\r\n"

/-- The two workers pop the two chunks. -/
def popBoth : List (RequestExecutor.Action 2) :=
  [.accept 5, .submit 5 firstChunk, .submit 5 secondChunk, .work 0, .work 1]

/-- What there is to see at the end: what the clients have sent, the chunks that are not pushed,
and those that are. -/
structure Ending where
  submitted : List (List Bytes)
  jobs : List Job
  unpushed : List (Option Job)
  registered : List Bytes
  pushed : List (List Bytes)
  deriving DecidableEq

def ending (s : RequestExecutor.State 2) : Ending where
  submitted := s.clients.map Client.submitted
  jobs := s.jobs
  unpushed := [unpushed (s.workers 0), unpushed (s.workers 1)]
  registered := registered s 5
  pushed := s.connections.map ClientConnection.pushed

/-- At such an end nothing is in the queue and no worker has a chunk.
SOURCE: RequestExecutor.cpp:31-86 -/
theorem allHandled_of_ending {s : RequestExecutor.State 2} {submitted pushed : List (List Bytes)}
    {bytes : List Bytes} (h : ending s = ⟨submitted, [], [none, none], bytes, pushed⟩) (c : ℕ) :
    AllHandled s c := by
  rw [ending, Ending.mk.injEq] at h
  obtain ⟨-, hjobs, hunpushed, -⟩ := h
  rw [List.cons.injEq, List.cons.injEq] at hunpushed
  refine ⟨fun job hjob => ?_, Fin.forall_fin_two.mpr ⟨fun job hjob => ?_, fun job hjob => ?_⟩⟩
  · rw [hjobs] at hjob
    cases hjob
  · rw [hunpushed.1] at hjob
    cases hjob
  · rw [hunpushed.2.1] at hjob
    cases hjob

/-- The workers push in the order in which they have popped. -/
def inTurnRun : List (RequestExecutor.Action 2) :=
  popBoth ++ [.work 0, .work 0, .work 0, .work 1, .work 0, .work 1]

/-- The end of the run in which the workers take turns.
SOURCE: RequestExecutor.cpp:23-86, ServerApp.cpp:138-179 -/
theorem ending_inTurn : (runAll State.step Orderly (State.init id) inTurnRun).map ending =
    some ⟨[[firstChunk, secondChunk]], [], [none, none], [firstChunk, secondChunk],
      [[firstChunk, secondChunk]]⟩ := by
  decide +kernel

/-- Two chunks of one client, one after the other.
SOURCE: RequestExecutor.cpp:23-86, ServerApp.cpp:138-179 -/
theorem bytes_preserved_inTurn :
    ∃ s : RequestExecutor.State 2, OrderlyRun id s ∧ AllHandled s 0 ∧
      ∃ client object connection, s.clients[0]? = some client ∧
        client.submitted = [firstChunk, secondChunk] ∧
        s.clientFdToConnection.lookUp client.fd = some object ∧
        s.connections[object]? = some connection ∧
        connection.pushed.flatten = client.submitted.flatten := by
  obtain ⟨s, hs, hending⟩ := Option.map_eq_some_iff.mp ending_inTurn
  have hrun : OrderlyRun id s := reaches_of_runAll hs
  have hhandled := allHandled_of_ending hending 0
  have hsubmitted : s.clients.map Client.submitted = [[firstChunk, secondChunk]] :=
    congrArg Ending.submitted hending
  obtain ⟨client, hclients, hclient⟩ := List.map_eq_singleton_iff.mp hsubmitted
  have hget : s.clients[0]? = some client := by
    rw [hclients]
    rfl
  obtain ⟨object, connection, hpreserved⟩ :=
    (bytes_preserved id hrun).2.1 0 client hget (by rw [hclient]; simp) hhandled
  exact ⟨s, hrun, hhandled, client, object, connection, hget, hclient, hpreserved⟩

/-- The second worker pushes before the first one. -/
def swapped : List (RequestExecutor.Action 2) :=
  popBoth ++ [.work 0, .work 0, .work 0, .work 1, .work 1, .work 0]

/-- Both workers find no connection, and the second one replaces what the first one has inserted
and used. -/
def replaced : List (RequestExecutor.Action 2) :=
  popBoth ++ [.work 0, .work 1, .work 0, .work 0, .work 0, .work 1, .work 1, .work 1]

/-- The end of the run in which the second worker is faster.
SOURCE: RequestExecutor.cpp:23-86, ServerApp.cpp:138-179 -/
theorem ending_swapped :
    (runAll State.step (fun _ _ => True) (State.init id) swapped).map ending =
      some ⟨[[firstChunk, secondChunk]], [], [none, none], [secondChunk, firstChunk],
        [[secondChunk, firstChunk]]⟩ := by
  decide +kernel

/-- The end of the run in which both workers insert a connection.
SOURCE: RequestExecutor.cpp:23-86, ServerApp.cpp:138-179 -/
theorem ending_replaced :
    (runAll State.step (fun _ _ => True) (State.init id) replaced).map ending =
      some ⟨[[firstChunk, secondChunk]], [], [none, none], [secondChunk],
        [[firstChunk], [secondChunk]]⟩ := by
  decide +kernel

/-- **The executor does not preserve a client's bytes**: two workers that have popped chunks of one
client may push them in the other order, and one of them may replace the connection into which
the other one has pushed.
SOURCE: RequestExecutor.cpp:23-86, ServerApp.cpp:138-179 -/
theorem bytes_swapped :
    (∃ s : RequestExecutor.State 2,
      Reaches (fun s a s' => State.step s a = some s') (fun _ _ => True) (State.init id) s ∧
      AllHandled s 0 ∧ s.clients.map Client.submitted = [[firstChunk, secondChunk]] ∧
      registered s 5 = [secondChunk, firstChunk] ∧
      [secondChunk, firstChunk].flatten ≠ [firstChunk, secondChunk].flatten) ∧
    ∃ s : RequestExecutor.State 2,
      Reaches (fun s a s' => State.step s a = some s') (fun _ _ => True) (State.init id) s ∧
      AllHandled s 0 ∧ s.clients.map Client.submitted = [[firstChunk, secondChunk]] ∧
      registered s 5 = [secondChunk] ∧
      s.connections.map ClientConnection.pushed = [[firstChunk], [secondChunk]] := by
  constructor
  · obtain ⟨s, hs, hending⟩ := Option.map_eq_some_iff.mp ending_swapped
    exact ⟨s, reaches_of_runAll hs, allHandled_of_ending hending 0,
      congrArg Ending.submitted hending, congrArg Ending.registered hending, by decide +kernel⟩
  · obtain ⟨s, hs, hending⟩ := Option.map_eq_some_iff.mp ending_replaced
    exact ⟨s, reaches_of_runAll hs, allHandled_of_ending hending 0,
      congrArg Ending.submitted hending, congrArg Ending.registered hending,
      congrArg Ending.pushed hending⟩

end MyRedis.Analysis

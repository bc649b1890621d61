import MyRedis.Analysis.ReplyIsolation

/-!
# The routing table

`fdToThread` is written when a connection is accepted and erased when the `Disconnect` of
a connection arrives, by the descriptor.  A descriptor can be accepted again before the
`Disconnect` of the old connection has arrived; the entry of the new connection is then
erased (`live_connection_unrouted`).

If no descriptor is accepted while a `Disconnect` for it is undelivered, then every owned
connection is routed to the thread that owns it, and the main thread drops no responses
but those of closed connections (`owned_routed`).  The invariant behind it: a descriptor
with an undelivered `Disconnect` is not open (`RoutedBy`).
-/

set_option autoImplicit false

namespace MyRedis.Analysis

open MyRedis.Model MyRedis.Lib

variable {n : ℕ}

/-- The descriptor of a disconnection. -/
def disconnectFd : OutboxMsg → Option Fd
  | .commandBatch _ _ _ => none
  | .disconnect _ fd => some fd

/-- No thread is emitting a `Disconnect` for the descriptor or has one in its outbox. -/
def NoDisconnectFor (s : Server n) (fd : Fd) : Prop :=
  ∀ i, (∀ msg ∈ pendingOf (s.io i).busy, disconnectFd msg ≠ some fd) ∧
    ∀ msg ∈ (s.io i).outbox.items, disconnectFd msg ≠ some fd

instance (s : Server n) (fd : Fd) : Decidable (NoDisconnectFor s fd) :=
  inferInstanceAs (Decidable (∀ i, (∀ msg ∈ pendingOf (s.io i).busy, disconnectFd msg ≠ some fd) ∧
    ∀ msg ∈ (s.io i).outbox.items, disconnectFd msg ≠ some fd))

/-- The same, of a state of the protocol. -/
def Net.NoDisconnectFor (N : Net n) (fd : Fd) : Prop :=
  ∀ i, (∀ msg ∈ (N.io i).pending, disconnectFd msg ≠ some fd) ∧
    ∀ msg ∈ (N.io i).outbox, disconnectFd msg ≠ some fd

/-! ## The invariant -/

/-- What the routing table says of thread `i`. -/
structure RoutedBy (files : Fd → Option ConnId) (fdToThread : Fd → Option (Fin n)) (i : Fin n)
    (t : Thread) : Prop where
  /-- a descriptor with an undelivered disconnection is not open -/
  pending : ∀ conn fd, .disconnect conn fd ∈ t.pending → files fd = none
  outbox : ∀ conn fd, .disconnect conn fd ∈ t.outbox → files fd = none
  routed : ∀ fd conn, t.owner fd = some conn → fdToThread fd = some i

/-- **Owned connections are routed to their thread.** -/
def RoutingTable (N : Net n) : Prop := ∀ i, RoutedBy N.files N.fdToThread i (N.io i)

/-- The entry of a descriptor that is not open is no owned connection's.
SOURCE: server.cc:211, 223 -/
theorem RoutingTable.routed_update {N : Net n} {fd fd' : Fd} {j : Fin n} {conn : ConnId}
    (h : RoutingTable N) (howned : Owned N) (hclosed : N.files fd = none) (o : Option (Fin n))
    (howner : (N.io j).owner fd' = some conn) :
    Function.update N.fdToThread fd o fd' = some j := by
  rw [Function.update_of_ne, (h j).routed fd' conn howner]
  intro heq
  rw [heq, howned.owner_of_closed hclosed] at howner
  cases howner

/-- A connection is accepted, and its descriptor routed to its thread.
SOURCE: server.cc:207-213 -/
theorem RoutingTable.accept {N : Net n} {fd : Fd} (h : RoutingTable N) (howned : Owned N)
    (i : Fin n) (conn : ConnId) (hclosed : N.files fd = none) (hfd : N.NoDisconnectFor fd) :
    ∀ j, RoutedBy (Function.update N.files fd (some conn))
      (Function.update N.fdToThread fd (some i)) j
      ((N.post i (.assignConnection conn fd)).io j) := by
  have hpending (j : Fin n) : ∀ conn' fd', .disconnect conn' fd' ∈ (N.io j).pending →
      Function.update N.files fd (some conn) fd' = none := by
    intro conn' fd' hmsg
    rw [Function.update_of_ne, (h j).pending conn' fd' hmsg]
    intro heq
    exact (hfd j).1 _ hmsg (congrArg some heq)
  have houtbox (j : Fin n) : ∀ conn' fd', .disconnect conn' fd' ∈ (N.io j).outbox →
      Function.update N.files fd (some conn) fd' = none := by
    intro conn' fd' hmsg
    rw [Function.update_of_ne, (h j).outbox conn' fd' hmsg]
    intro heq
    exact (hfd j).2 _ hmsg (congrArg some heq)
  have hrouted (j : Fin n) : ∀ fd' conn', (N.io j).owner fd' = some conn' →
      Function.update N.fdToThread fd (some i) fd' = some j :=
    fun _ _ => h.routed_update howned hclosed (some i)
  apply Net.forall_setIo
  · refine ⟨hpending i, houtbox i, ?_⟩
    intro fd' conn' howner
    rw [Thread.owner_append_assign] at howner
    by_cases hne : fd' = fd
    · rw [hne, Function.update_self]
    · rw [Function.update_of_ne hne] at howner
      exact hrouted i fd' conn' howner
  · intro j
    exact ⟨hpending j, houtbox j, hrouted j⟩

/-- A connection is closed, and its notice is still to come.
SOURCE: io_thread.cc:215-222 -/
theorem RoutingTable.close {N : Net n} {i : Fin n} {fd : Fd} {conn : ConnId}
    (h : RoutingTable N) (howned : Owned N) (hconn : (N.io i).conns fd = some conn) :
    ∀ j, RoutedBy (Function.update N.files fd none) N.fdToThread j ((N.setIo i { N.io i with
      conns := Function.update (N.io i).conns fd none
      pending := some (.disconnect conn fd) }).io j) := by
  have hclosed : ∀ fd', N.files fd' = none → Function.update N.files fd none fd' = none := by
    intro fd' hnone
    by_cases hfd : fd' = fd
    · rw [hfd, Function.update_self]
    · rwa [Function.update_of_ne hfd]
  have houtbox (j : Fin n) : ∀ conn' fd', .disconnect conn' fd' ∈ (N.io j).outbox →
      Function.update N.files fd none fd' = none := by
    intro conn' fd' hmsg
    exact hclosed fd' ((h j).outbox conn' fd' hmsg)
  apply Net.forall_setIo
  · refine ⟨?_, houtbox i, ?_⟩
    · intro conn' fd' hmsg
      cases hmsg
      exact Function.update_self ..
    · intro fd' conn' howner
      rw [Thread.owner, ((howned i).fresh.close hconn).2] at howner
      by_cases hfd : fd' = fd
      · rw [hfd, Function.update_self] at howner
        cases howner
      · rw [Function.update_of_ne hfd] at howner
        exact (h i).routed fd' conn' howner
  · intro j
    refine ⟨?_, houtbox j, (h j).routed⟩
    intro conn' fd' hmsg
    exact hclosed fd' ((h j).pending conn' fd' hmsg)

/-- The disconnection of a closed descriptor erases the entry of no owned connection.
SOURCE: server.cc:222-223 -/
theorem RoutingTable.disconnect {N : Net n} {i : Fin n} {fd : Fd} {conn : ConnId}
    {outbox : List OutboxMsg} (h : RoutingTable N) (howned : Owned N)
    (houtbox : (N.io i).outbox = .disconnect conn fd :: outbox) :
    ∀ j, RoutedBy N.files (Function.update N.fdToThread fd none) j
      ((N.setIo i { N.io i with outbox := outbox }).io j) := by
  have hclosed : N.files fd = none := (h i).outbox conn fd (houtbox ▸ List.mem_cons_self)
  have hrouted (j : Fin n) : ∀ fd' conn', (N.io j).owner fd' = some conn' →
      Function.update N.fdToThread fd none fd' = some j :=
    fun _ _ => h.routed_update howned hclosed none
  apply Net.forall_setIo
  · refine ⟨(h i).pending, ?_, hrouted i⟩
    intro conn' fd' hmsg
    exact (h i).outbox conn' fd' (houtbox ▸ List.mem_cons_of_mem _ hmsg)
  · intro j
    exact ⟨(h j).pending, (h j).outbox, hrouted j⟩

/-- **Every step** keeps the table, if no descriptor is accepted of which a notice is still to come.
SOURCE: server.cc:207-227, io_thread.cc:118-129, 215-222 -/
theorem RoutingTable.step {N N' : Net n} {l : Option Fd} (howned : Owned N) (h : RoutingTable N)
    (hl : ∀ fd ∈ l, N.NoDisconnectFor fd) (hstep : Net.Step N l N') : RoutingTable N' := by
  cases hstep with
  | accept fd i hidle hclosed => exact h.accept howned i _ hclosed (hl fd rfl)
  | @takeAssign i conn fd incoming hincoming =>
    have hrouted := (h i).routed
    rw [Thread.owner, hincoming] at hrouted
    exact Net.forall_setIo ⟨(h i).pending, (h i).outbox, hrouted⟩ h
  | @takeResponse i conn target answers fd bytes incoming hincoming htarget =>
    have hrouted := (h i).routed
    rw [Thread.owner, hincoming] at hrouted
    exact Net.forall_setIo ⟨(h i).pending, (h i).outbox, hrouted⟩ h
  | @dropResponse i conn answers fd bytes incoming hincoming hnone =>
    have hrouted := (h i).routed
    rw [Thread.owner, hincoming] at hrouted
    exact Net.forall_setIo ⟨(h i).pending, (h i).outbox, hrouted⟩ h
  | @batch i conn fd values hpending hconn =>
    refine Net.forall_setIo ⟨?_, (h i).outbox, (h i).routed⟩ h
    intro conn' fd' hmsg
    cases hmsg
  | close hpending hconn => exact h.close howned hconn
  | @push i msg hpending =>
    refine Net.forall_setIo ⟨?_, ?_, (h i).routed⟩ h
    · intro conn fd hmsg
      cases hmsg
    · intro conn fd hmsg
      obtain hmsg | hmsg := List.mem_append.mp hmsg
      · exact (h i).outbox conn fd hmsg
      · rw [← List.mem_singleton.mp hmsg] at hpending
        exact (h i).pending conn fd hpending
  | @takeBatch i conn fd values outbox hidle houtbox =>
    refine Net.forall_setIo ⟨(h i).pending, ?_, (h i).routed⟩ h
    intro conn' fd' hmsg
    exact (h i).outbox conn' fd' (houtbox ▸ List.mem_cons_of_mem _ hmsg)
  | takeDisconnect hidle houtbox => exact h.disconnect howned houtbox
  | execute hexecuting hrun => exact h
  | @respond conn fd answers response i hexecuting hroute =>
    refine Net.forall_setIo ⟨(h i).pending, (h i).outbox, ?_⟩ h
    intro fd' conn' howner
    rw [Thread.owner_append_response] at howner
    exact (h i).routed fd' conn' howner
  | skip hexecuting hroute => exact h

/-- At the start no connection is owned.
SOURCE: server.cc:117-128 -/
theorem routingTable_init (store : Store) : RoutingTable (Net.init store : Net n) := by
  intro i
  refine ⟨?_, ?_, ?_⟩
  · intro conn fd hmsg
    cases hmsg
  · intro conn fd hmsg
    cases hmsg
  · intro fd conn howner
    cases howner

/-! ## The server -/

/-- Thread `i` owns the connection: it is in its map, or assigned to it and still in its
inbox. -/
def Owns (s : Server n) (i : Fin n) (fd : Fd) (conn : ConnId) : Prop :=
  (∃ client, (s.io i).connections fd = some client ∧ client.id = conn) ∨
    .assignConnection conn fd ∈ (s.io i).inbox.items

/-- What a thread of the server owns, it owns in the protocol.
SOURCE: server.cc:207-227, io_thread.cc:118-129, 215-222 -/
theorem owner_of_owns {s : Server n} {i : Fin n} {fd : Fd} {conn : ConnId}
    (hfresh : Fresh ((view s).io i).conns ((view s).io i).incoming) (h : Owns s i fd conn) :
    ((view s).io i).owner fd = some conn := by
  obtain ⟨client, hclient, hid⟩ | hmsg := h
  · apply drained_of_some
    simp only [view, viewIo, hclient, Option.map_some, hid]
  · exact (hfresh.of_mem (List.mem_append_left _ hmsg)).2

/-- **The routing table**: if no descriptor is accepted while a `Disconnect` for it is
undelivered, then an owned connection is routed to its thread, and a response that the main
thread drops is not to an owned connection.
SOURCE: server.cc:198-227, io_thread.cc:108-137, 215-222 -/
theorem owned_routed [NeZero n] {store : Store} {s : Server n}
    (h : Reachable NoDisconnectFor store s) :
    (∀ i fd conn, Owns s i fd conn → s.fdToThread fd = some i) ∧
      ∀ conn answers fd response, s.busy = .execute conn answers fd [] response →
        s.fdToThread fd = none → ∀ i fd', ¬ Owns s i fd' conn := by
  have hreaches := reaches_view Net.NoDisconnectFor (fun _ _ hfd => hfd) h
  obtain ⟨howned, haddressed⟩ := owned_of_reaches hreaches
  have hrouting : Owned (view s) ∧ RoutingTable (view s) := by
    apply Reaches.invariant (I := fun N => Owned N ∧ RoutingTable N) _ _ hreaches
    · exact ⟨owned_init store, routingTable_init store⟩
    · intro N l N' hN hl hstep
      exact ⟨hN.1.step hstep, hN.2.step hN.1 hl hstep⟩
  have hrouted : ∀ i fd conn, Owns s i fd conn → s.fdToThread fd = some i := by
    intro i fd conn howns
    exact (hrouting.2 i).routed fd conn (owner_of_owns (howned i).fresh howns)
  refine ⟨hrouted, ?_⟩
  intro conn answers fd response hbusy hroute i fd' howns
  -- the batch is of a connection accepted on `fd`, so `fd'` is `fd`
  have hexecuting : (view s).executing = some ⟨conn, fd, answers, [], response⟩ := by
    rw [view, hbusy]
    rfl
  obtain ⟨j, hj⟩ := haddressed.executing _ hexecuting
  have hi := ((howned i).owner fd' conn (owner_of_owns (howned i).fresh howns)).2
  cases hj.symm.trans hi
  cases hroute.symm.trans (hrouted i fd conn howns)

/-- **The `Disconnect` of a connection unroutes a later one on the same descriptor.**
SOURCE: server.cc:207-227, io_thread.cc:118-129, 215-222 -/
theorem live_connection_unrouted :
    ∃ s : Server 1, Reachable AnyFd Store.empty s ∧ Owns s 0 5 1 ∧ s.fdToThread 5 = none := by
  have hrun : (runAll Server.step (Accepts AnyFd) (Server.init Store.empty) reuseRun).map
      (fun s => (((s.io 0).connections 5).map Client.id, s.fdToThread 5)) =
      some (some 1, none) := by
    decide +kernel
  obtain ⟨s, hs, heq⟩ := Option.map_eq_some_iff.mp hrun
  obtain ⟨hclient, hroute⟩ := Prod.mk.inj heq
  obtain ⟨client, hconn, hid⟩ := Option.map_eq_some_iff.mp hclient
  exact ⟨s, reaches_of_runAll hs, Or.inl ⟨client, hconn, hid⟩, hroute⟩

/-- Two connections on one descriptor, of which the second is accepted after the notice of the
first.
SOURCE: server.cc:207-227, io_thread.cc:118-129, 215-222 -/
theorem owned_routed_orderly :
    ∃ s : Server 1, Reachable NoDisconnectFor Store.empty s ∧ Owns s 0 5 1 ∧
      s.fdToThread 5 = some 0 := by
  have hrun : (runAll Server.step (Accepts NoDisconnectFor) (Server.init Store.empty)
      orderlyRun).map (fun s => ((s.io 0).connections 5).map Client.id) = some (some 1) := by
    decide +kernel
  obtain ⟨s, hs, hclient⟩ := Option.map_eq_some_iff.mp hrun
  obtain ⟨client, hconn, hid⟩ := Option.map_eq_some_iff.mp hclient
  have hreachable : Reachable NoDisconnectFor Store.empty s := reaches_of_runAll hs
  have howns : Owns s 0 5 1 := Or.inl ⟨client, hconn, hid⟩
  exact ⟨s, hreachable, howns, (owned_routed hreachable).1 0 5 1 howns⟩

end MyRedis.Analysis

import MyRedis.Analysis.Simulation

/-!
# Which thread owns a connection

A connection is owned by the thread it was assigned to, from its acceptance until that
thread closes it: the thread has it in its map, or will have it once it has drained the
messages on their way to it.  `drained` is the map it has then, and `Owned` the invariant:
an owned connection is the one that its descriptor is open for, so no two threads own a
descriptor, and no thread is assigned a descriptor that it already has.

`Addressed` is the second invariant: every message and every batch is about the descriptor
that its connection was accepted on.  Both hold in every run, whatever `accept` returns.
-/

set_option autoImplicit false

namespace MyRedis.Analysis

open MyRedis.Model MyRedis.Lib

/-! ## Draining -/

/-- The connections of a thread after it has drained `msgs`. -/
def drained (conns : Fd → Option ConnId) : List InboxMsg → Fd → Option ConnId
  | [] => conns
  | .assignConnection conn fd :: msgs =>
    drained (Function.update conns fd (some ((conns fd).getD conn))) msgs
  | .writeResponse _ _ _ _ :: msgs => drained conns msgs

/-- Every assigned connection finds its descriptor free. -/
def Fresh (conns : Fd → Option ConnId) : List InboxMsg → Prop
  | [] => True
  | .assignConnection conn fd :: msgs =>
    conns fd = none ∧ Fresh (Function.update conns fd (some conn)) msgs
  | .writeResponse _ _ _ _ :: msgs => Fresh conns msgs

section Drained

variable {conns : Fd → Option ConnId} {msgs : List InboxMsg} {fd : Fd} {conn : ConnId}

/-- The inbox is drained in its order.
SOURCE: io_thread.cc:108-116 -/
theorem drained_append (conns : Fd → Option ConnId) (msgs msgs' : List InboxMsg) :
    drained conns (msgs ++ msgs') = drained (drained conns msgs) msgs' := by
  induction msgs generalizing conns with
  | nil => rfl
  | cons msg msgs ih =>
    cases msg with
    | assignConnection conn fd => exact ih _
    | writeResponse conn answers fd bytes => exact ih _

/-- A connection is not replaced.
SOURCE: io_thread.cc:123 -/
theorem drained_of_some (h : conns fd = some conn) : drained conns msgs fd = some conn := by
  induction msgs generalizing conns with
  | nil => exact h
  | cons msg msgs ih =>
    cases msg with
    | assignConnection conn' fd' =>
      apply ih
      by_cases hfd : fd = fd'
      · subst hfd
        rw [Function.update_self, h, Option.getD_some]
      · rw [Function.update_of_ne hfd, h]
    | writeResponse conn' answers fd' bytes => exact ih h

/-- A connection is assigned under a descriptor that the thread will not have.
SOURCE: server.cc:207-213 -/
theorem Fresh.append_assign (h : Fresh conns msgs) (hfd : drained conns msgs fd = none) :
    Fresh conns (msgs ++ [.assignConnection conn fd]) := by
  induction msgs generalizing conns with
  | nil => exact ⟨hfd, trivial⟩
  | cons msg msgs ih =>
    cases msg with
    | assignConnection conn' fd' =>
      obtain ⟨hnone, hrest⟩ := h
      refine ⟨hnone, ih hrest ?_⟩
      rwa [drained, hnone, Option.getD_none] at hfd
    | writeResponse conn' answers fd' bytes => exact ih h hfd

/-- A response assigns nothing.
SOURCE: server.cc:241 -/
theorem Fresh.append_response {answers : List LogEntry} {bytes : Bytes} (h : Fresh conns msgs) :
    Fresh conns (msgs ++ [.writeResponse conn answers fd bytes]) := by
  induction msgs generalizing conns with
  | nil => trivial
  | cons msg msgs ih =>
    cases msg with
    | assignConnection conn' fd' => exact ⟨h.1, ih h.2⟩
    | writeResponse conn' answers' fd' bytes' => exact ih h

/-- An assigned connection is not there yet, and will be.
SOURCE: io_thread.cc:123 -/
theorem Fresh.of_mem (h : Fresh conns msgs) (hmem : .assignConnection conn fd ∈ msgs) :
    conns fd = none ∧ drained conns msgs fd = some conn := by
  induction msgs generalizing conns with
  | nil => cases hmem
  | cons msg msgs ih =>
    cases msg with
    | assignConnection conn' fd' =>
      obtain ⟨hnone, hrest⟩ := h
      rw [drained, hnone, Option.getD_none]
      obtain heq | hmem := List.mem_cons.mp hmem
      · cases heq
        exact ⟨hnone, drained_of_some (Function.update_self ..)⟩
      · obtain ⟨hnone', hdrained⟩ := ih hrest hmem
        refine ⟨?_, hdrained⟩
        by_cases hfd : fd = fd'
        · rw [hfd, hnone]
        · rwa [Function.update_of_ne hfd] at hnone'
    | writeResponse conn' answers fd' bytes =>
      obtain heq | hmem := List.mem_cons.mp hmem
      · cases heq
      · exact ih h hmem

/-- Closing a connection before draining or after it is the same.
SOURCE: io_thread.cc:215-222 -/
theorem Fresh.close (h : Fresh conns msgs) (hconn : conns fd = some conn) :
    Fresh (Function.update conns fd none) msgs ∧
      drained (Function.update conns fd none) msgs =
        Function.update (drained conns msgs) fd none := by
  induction msgs generalizing conns with
  | nil => exact ⟨trivial, rfl⟩
  | cons msg msgs ih =>
    cases msg with
    | assignConnection conn' fd' =>
      obtain ⟨hnone, hrest⟩ := h
      have hfd : fd ≠ fd' := by
        intro heq
        rw [heq, hnone] at hconn
        cases hconn
      obtain ⟨hfresh, hdrained⟩ := ih hrest (by rwa [Function.update_of_ne hfd])
      have hnone' : Function.update conns fd none fd' = none := by
        rw [Function.update_of_ne hfd.symm, hnone]
      rw [Function.update_comm hfd.symm] at hfresh hdrained
      refine ⟨⟨hnone', hfresh⟩, ?_⟩
      rw [drained, drained, hnone', hnone, Option.getD_none]
      exact hdrained
    | writeResponse conn' answers fd' bytes => exact ih h hconn

end Drained

/-! ## Owned connections -/

/-- The connections a thread owns, by their descriptors. -/
def Thread.owner (t : Thread) : Fd → Option ConnId := drained t.conns t.incoming

/-- A thread owns what is assigned to it.
SOURCE: server.cc:207-213 -/
theorem Thread.owner_append_assign (t : Thread) (conn : ConnId) (fd : Fd) :
    Thread.owner { t with incoming := t.incoming ++ [.assignConnection conn fd] } =
      Function.update t.owner fd (some ((t.owner fd).getD conn)) :=
  drained_append t.conns t.incoming _

/-- A response changes no owner.
SOURCE: server.cc:241 -/
theorem Thread.owner_append_response (t : Thread) (conn : ConnId) (answers : List LogEntry)
    (fd : Fd) (bytes : Bytes) :
    Thread.owner { t with incoming := t.incoming ++ [.writeResponse conn answers fd bytes] } =
      t.owner :=
  drained_append t.conns t.incoming _

variable {n : ℕ}

/-- What is owned by thread `i`. -/
structure OwnedBy (files : Fd → Option ConnId) (accepted : List (Fd × Fin n)) (i : Fin n)
    (t : Thread) : Prop where
  /-- the descriptor is open for the connection, which was assigned to the thread -/
  owner : ∀ fd conn, t.owner fd = some conn → files fd = some conn ∧ accepted[conn]? = some (fd, i)
  fresh : Fresh t.conns t.incoming
  /-- a batch being emitted is of a connection in the map -/
  emitting : ∀ conn fd values, t.pending = some (.commandBatch conn fd values) →
    t.conns fd = some conn

/-- **Connections are owned by the thread they were assigned to.** -/
def Owned (N : Net n) : Prop := ∀ i, OwnedBy N.files N.accepted i (N.io i)

/-- What is in a list stays there when something is appended. -/
theorem getElem?_append_of_some {α : Type} {l : List α} {k : ℕ} {a : α} (h : l[k]? = some a)
    (l' : List α) : (l ++ l')[k]? = some a := by
  rw [List.getElem?_append_left (List.getElem?_eq_some_iff.mp h).1, h]

/-- No two threads own a descriptor.
SOURCE: server.cc:198-242, io_thread.cc:108-137, 215-222 -/
theorem Owned.unique {N : Net n} (h : Owned N) {i j : Fin n} {fd : Fd} {conn conn' : ConnId}
    (hi : (N.io i).owner fd = some conn) (hj : (N.io j).owner fd = some conn') : j = i := by
  obtain ⟨hfile, hhome⟩ := (h i).owner fd conn hi
  obtain ⟨hfile', hhome'⟩ := (h j).owner fd conn' hj
  rw [hfile] at hfile'
  cases hfile'
  rw [hhome] at hhome'
  cases hhome'
  rfl

/-- A descriptor that is not open has no owner.
SOURCE: server.cc:198-242, io_thread.cc:108-137, 215-222 -/
theorem Owned.owner_of_closed {N : Net n} (h : Owned N) {fd : Fd} (hclosed : N.files fd = none)
    (i : Fin n) : (N.io i).owner fd = none := by
  cases howner : (N.io i).owner fd with
  | none => rfl
  | some conn =>
    have hopen := ((h i).owner fd conn howner).1
    rw [hclosed] at hopen
    cases hopen

/-- An accepted connection is owned by the thread that it is assigned to.
SOURCE: server.cc:200-212 -/
theorem Owned.accept {N : Net n} (h : Owned N) {fd : Fd} (i : Fin n) (hclosed : N.files fd = none) :
    ∀ j, OwnedBy (Function.update N.files fd (some N.accepted.length)) (N.accepted ++ [(fd, i)]) j
      ((N.post i (.assignConnection N.accepted.length fd)).io j) := by
  have hnone := h.owner_of_closed hclosed
  have hold (j : Fin n) : ∀ fd' conn, (N.io j).owner fd' = some conn →
      Function.update N.files fd (some N.accepted.length) fd' = some conn ∧
        (N.accepted ++ [(fd, i)])[conn]? = some (fd', j) := by
    intro fd' conn howner
    have hne : fd' ≠ fd := by
      intro heq
      rw [heq, hnone] at howner
      cases howner
    obtain ⟨hopen, hhome⟩ := (h j).owner fd' conn howner
    exact ⟨by rwa [Function.update_of_ne hne], getElem?_append_of_some hhome _⟩
  apply Net.forall_setIo
  · refine ⟨?_, (h i).fresh.append_assign (hnone i), (h i).emitting⟩
    intro fd' conn howner
    rw [Thread.owner_append_assign, hnone, Option.getD_none] at howner
    by_cases hfd : fd' = fd
    · rw [hfd, Function.update_self] at howner
      cases howner
      rw [hfd]
      exact ⟨Function.update_self .., List.getElem?_concat_length⟩
    · rw [Function.update_of_ne hfd] at howner
      exact hold i fd' conn howner
  · intro j
    exact ⟨hold j, (h j).fresh, (h j).emitting⟩

/-- A thread closes a connection of its own, which nobody owns then.
SOURCE: io_thread.cc:215-222 -/
theorem Owned.close {N : Net n} (h : Owned N) {i : Fin n} {fd : Fd} {conn : ConnId}
    (hconn : (N.io i).conns fd = some conn) :
    ∀ j, OwnedBy (Function.update N.files fd none) N.accepted j ((N.setIo i { N.io i with
      conns := Function.update (N.io i).conns fd none
      pending := some (.disconnect conn fd) }).io j) := by
  obtain ⟨hfresh, hdrained⟩ := (h i).fresh.close hconn
  intro j
  by_cases hj : j = i
  · subst hj
    simp only [Net.setIo, Function.update_self]
    refine ⟨?_, hfresh, ?_⟩
    · intro fd' conn' howner
      rw [Thread.owner, hdrained] at howner
      by_cases hfd : fd' = fd
      · rw [hfd, Function.update_self] at howner
        cases howner
      · rw [Function.update_of_ne hfd] at howner ⊢
        exact (h j).owner fd' conn' howner
    · intro conn' fd' values hpending
      cases hpending
  · simp only [Net.setIo, Function.update_of_ne hj]
    refine ⟨?_, (h j).fresh, (h j).emitting⟩
    intro fd' conn' howner
    have hfd : fd' ≠ fd := by
      intro heq
      rw [heq] at howner
      exact hj (h.unique (drained_of_some hconn) howner)
    rw [Function.update_of_ne hfd]
    exact (h j).owner fd' conn' howner

/-- A connection that is taken over has the same owner as before.
SOURCE: io_thread.cc:118-129 -/
theorem OwnedBy.takeAssign {files : Fd → Option ConnId} {accepted : List (Fd × Fin n)} {i : Fin n}
    {t : Thread} {conn : ConnId} {fd : Fd} {incoming : List InboxMsg}
    (h : OwnedBy files accepted i t)
    (hincoming : t.incoming = .assignConnection conn fd :: incoming) :
    OwnedBy files accepted i { t with
      incoming := incoming
      conns := Function.update t.conns fd (some ((t.conns fd).getD conn)) } := by
  obtain ⟨howner, hfresh, hemitting⟩ := h
  rw [Thread.owner, hincoming] at howner
  rw [hincoming] at hfresh
  refine ⟨howner, ?_, ?_⟩
  · rw [hfresh.1, Option.getD_none]
    exact hfresh.2
  · intro conn' fd' values hpending
    have hconn := hemitting conn' fd' values hpending
    show Function.update t.conns fd _ fd' = some conn'
    rw [Function.update_of_ne, hconn]
    intro heq
    rw [heq, hfresh.1] at hconn
    cases hconn

/-- A response that is taken changes no owner.
SOURCE: io_thread.cc:131-137 -/
theorem OwnedBy.takeResponse {files : Fd → Option ConnId} {accepted : List (Fd × Fin n)}
    {i : Fin n} {t : Thread} {conn : ConnId} {answers : List LogEntry} {fd : Fd} {bytes : Bytes}
    {incoming : List InboxMsg} (h : OwnedBy files accepted i t)
    (hincoming : t.incoming = .writeResponse conn answers fd bytes :: incoming) :
    OwnedBy files accepted i { t with incoming := incoming } := by
  obtain ⟨howner, hfresh, hemitting⟩ := h
  rw [Thread.owner, hincoming] at howner
  rw [hincoming] at hfresh
  exact ⟨howner, hfresh, hemitting⟩

/-- **Every step** leaves every open descriptor with its one owner.
SOURCE: server.cc:198-242, io_thread.cc:108-137, 215-222 -/
theorem Owned.step {N N' : Net n} {l : Option Fd} (h : Owned N) (hstep : Net.Step N l N') :
    Owned N' := by
  cases hstep with
  | accept fd i hidle hclosed => exact h.accept i hclosed
  | @takeAssign i conn fd incoming hincoming =>
    exact Net.forall_setIo ((h i).takeAssign hincoming) h
  | @takeResponse i conn target answers fd bytes incoming hincoming htarget =>
    exact Net.forall_setIo ((h i).takeResponse hincoming) h
  | @dropResponse i conn answers fd bytes incoming hincoming hnone =>
    exact Net.forall_setIo ((h i).takeResponse hincoming) h
  | @batch i conn fd values hpending hconn =>
    apply Net.forall_setIo _ h
    refine ⟨(h i).owner, (h i).fresh, ?_⟩
    intro conn' fd' values' hpending'
    cases hpending'
    exact hconn
  | @close i conn fd hpending hconn => exact h.close hconn
  | @push i msg hpending =>
    apply Net.forall_setIo _ h
    refine ⟨(h i).owner, (h i).fresh, ?_⟩
    intro conn fd values hpending'
    cases hpending'
  | @takeBatch i conn fd values outbox hidle houtbox =>
    exact Net.forall_setIo ⟨(h i).owner, (h i).fresh, (h i).emitting⟩ h
  | @takeDisconnect i conn fd outbox hidle houtbox =>
    exact Net.forall_setIo ⟨(h i).owner, (h i).fresh, (h i).emitting⟩ h
  | execute hexecuting hrun => exact h
  | @respond conn fd answers response i hexecuting hroute =>
    apply Net.forall_setIo _ h
    refine ⟨?_, (h i).fresh.append_response, (h i).emitting⟩
    intro fd' conn' howner
    rw [Thread.owner_append_response] at howner
    exact (h i).owner fd' conn' howner
  | skip hexecuting hroute => exact h

/-- A connection in the map of a thread is owned by it.
SOURCE: server.cc:198-242, io_thread.cc:108-137, 215-222 -/
theorem OwnedBy.of_conns {files : Fd → Option ConnId} {accepted : List (Fd × Fin n)} {i : Fin n}
    {t : Thread} (h : OwnedBy files accepted i t) {fd : Fd} {conn : ConnId}
    (hconn : t.conns fd = some conn) : files fd = some conn ∧ accepted[conn]? = some (fd, i) :=
  h.owner fd conn (drained_of_some hconn)

/-! ## The descriptors of messages -/

/-- The connection and the descriptor a message is about. -/
def about : OutboxMsg → ConnId × Fd
  | .commandBatch conn fd _ => (conn, fd)
  | .disconnect conn fd => (conn, fd)

/-- What is said to and by thread `i`. -/
structure AddressedBy (accepted : List (Fd × Fin n)) (i : Fin n) (t : Thread) : Prop where
  pending : ∀ msg ∈ t.pending, accepted[(about msg).1]? = some ((about msg).2, i)
  outbox : ∀ msg ∈ t.outbox, accepted[(about msg).1]? = some ((about msg).2, i)
  responses : ∀ conn answers fd bytes, .writeResponse conn answers fd bytes ∈ t.incoming →
    ∃ j, accepted[conn]? = some (fd, j)

/-- **Messages are about the descriptor their connection was accepted on**, and those of a thread
about connections assigned to it. -/
structure Addressed (N : Net n) : Prop where
  io : ∀ i, AddressedBy N.accepted i (N.io i)
  executing : ∀ e ∈ N.executing, ∃ i, N.accepted[e.conn]? = some (e.fd, i)

/-- A message goes to the right thread when more connections have been accepted, too.
SOURCE: server.cc:198-242, io_thread.cc:108-137, 215-222 -/
theorem AddressedBy.mono {accepted : List (Fd × Fin n)} {i : Fin n} {t : Thread}
    (h : AddressedBy accepted i t) (accepted' : List (Fd × Fin n)) :
    AddressedBy (accepted ++ accepted') i t := by
  refine ⟨?_, ?_, ?_⟩
  · intro msg hmsg
    exact getElem?_append_of_some (h.pending msg hmsg) _
  · intro msg hmsg
    exact getElem?_append_of_some (h.outbox msg hmsg) _
  · intro conn answers fd bytes hmsg
    obtain ⟨j, hj⟩ := h.responses conn answers fd bytes hmsg
    exact ⟨j, getElem?_append_of_some hj _⟩

/-- The messages that are left go to the right thread.
SOURCE: io_thread.cc:108-116 -/
theorem AddressedBy.take {accepted : List (Fd × Fin n)} {i : Fin n} {t : Thread} {msg : InboxMsg}
    {incoming : List InboxMsg} (h : AddressedBy accepted i t)
    (hincoming : t.incoming = msg :: incoming) (conns : Fd → Option ConnId) :
    AddressedBy accepted i { t with incoming := incoming, conns := conns } := by
  refine ⟨h.pending, h.outbox, ?_⟩
  intro conn answers fd bytes hmsg
  exact h.responses conn answers fd bytes (hincoming ▸ List.mem_cons_of_mem _ hmsg)

/-- **Every step**: a message that is posted goes to the thread of its connection.
SOURCE: server.cc:198-242, io_thread.cc:108-137, 215-222 -/
theorem Addressed.step {N N' : Net n} {l : Option Fd} (howned : Owned N) (h : Addressed N)
    (hstep : Net.Step N l N') : Addressed N' := by
  cases hstep with
  | accept fd i hidle hclosed =>
    refine ⟨Net.forall_setIo ?_ fun j => (h.io j).mono _, ?_⟩
    · refine ⟨((h.io i).mono _).pending, ((h.io i).mono _).outbox, ?_⟩
      intro conn answers fd' bytes hmsg
      obtain hmsg | hmsg := List.mem_append.mp hmsg
      · exact ((h.io i).mono _).responses conn answers fd' bytes hmsg
      · cases List.mem_singleton.mp hmsg
    · intro e he
      obtain ⟨j, hj⟩ := h.executing e he
      exact ⟨j, getElem?_append_of_some hj _⟩
  | @takeAssign i conn fd incoming hincoming =>
    exact ⟨Net.forall_setIo ((h.io i).take hincoming _) h.io, h.executing⟩
  | @takeResponse i conn target answers fd bytes incoming hincoming htarget =>
    exact ⟨Net.forall_setIo ((h.io i).take hincoming _) h.io, h.executing⟩
  | @dropResponse i conn answers fd bytes incoming hincoming hnone =>
    exact ⟨Net.forall_setIo ((h.io i).take hincoming _) h.io, h.executing⟩
  | @batch i conn fd values hpending hconn =>
    refine ⟨Net.forall_setIo ⟨?_, (h.io i).outbox, (h.io i).responses⟩ h.io, h.executing⟩
    intro msg hmsg
    cases hmsg
    exact ((howned i).of_conns hconn).2
  | @close i conn fd hpending hconn =>
    refine ⟨Net.forall_setIo ⟨?_, (h.io i).outbox, (h.io i).responses⟩ h.io, h.executing⟩
    intro msg hmsg
    cases hmsg
    exact ((howned i).of_conns hconn).2
  | @push i msg hpending =>
    refine ⟨Net.forall_setIo ⟨?_, ?_, (h.io i).responses⟩ h.io, h.executing⟩
    · intro msg' hmsg'
      cases hmsg'
    · intro msg' hmsg'
      obtain hmsg' | hmsg' := List.mem_append.mp hmsg'
      · exact (h.io i).outbox msg' hmsg'
      · rw [List.mem_singleton.mp hmsg']
        exact (h.io i).pending msg hpending
  | @takeBatch i conn fd values outbox hidle houtbox =>
    have hmem : ∀ msg ∈ outbox, msg ∈ (N.io i).outbox := by
      intro msg hmsg
      rw [houtbox]
      exact List.mem_cons_of_mem _ hmsg
    refine ⟨Net.forall_setIo ⟨(h.io i).pending, ?_, (h.io i).responses⟩ h.io, ?_⟩
    · intro msg hmsg
      exact (h.io i).outbox msg (hmem msg hmsg)
    · intro e he
      cases he
      exact ⟨i, (h.io i).outbox (.commandBatch conn fd values) (houtbox ▸ List.mem_cons_self)⟩
  | @takeDisconnect i conn fd outbox hidle houtbox =>
    refine ⟨Net.forall_setIo ⟨(h.io i).pending, ?_, (h.io i).responses⟩ h.io, h.executing⟩
    intro msg hmsg
    exact (h.io i).outbox msg (houtbox ▸ List.mem_cons_of_mem _ hmsg)
  | execute hexecuting hrun =>
    have hhome := h.executing _ hexecuting
    refine ⟨h.io, ?_⟩
    intro e he
    cases he
    exact hhome
  | @respond conn fd answers response i hexecuting hroute =>
    refine ⟨Net.forall_setIo ⟨(h.io i).pending, (h.io i).outbox, ?_⟩ h.io, ?_⟩
    · intro conn' answers' fd' bytes' hmsg
      obtain hmsg | hmsg := List.mem_append.mp hmsg
      · exact (h.io i).responses conn' answers' fd' bytes' hmsg
      · cases List.mem_singleton.mp hmsg
        exact h.executing _ hexecuting
    · intro e he
      cases he
  | skip hexecuting hroute =>
    refine ⟨h.io, ?_⟩
    intro e he
    cases he

/-! ## Every run -/

/-- At the start no descriptor is open.
SOURCE: server.cc:117-128 -/
theorem owned_init (store : Store) : Owned (Net.init store : Net n) := by
  intro i
  refine ⟨?_, trivial, ?_⟩
  · intro fd conn howner
    cases howner
  · intro conn fd values hpending
    cases hpending

/-- No message is on its way.
SOURCE: server.cc:117-128 -/
theorem addressed_init (store : Store) : Addressed (Net.init store : Net n) := by
  refine ⟨?_, ?_⟩
  · intro i
    refine ⟨?_, ?_, ?_⟩
    · intro msg hmsg
      cases hmsg
    · intro msg hmsg
      cases hmsg
    · intro conn answers fd bytes hmsg
      cases hmsg
  · intro e he
    cases he

/-- Both invariants hold in every run.
SOURCE: server.cc:198-242, io_thread.cc:108-137, 215-222 -/
theorem owned_of_reaches {guard : Net n → Option Fd → Prop} {store : Store} {N : Net n}
    (h : Reaches Net.Step guard (Net.init store) N) : Owned N ∧ Addressed N := by
  apply Reaches.invariant (I := fun N => Owned N ∧ Addressed N) _ _ h
  · exact ⟨owned_init store, addressed_init store⟩
  · intro N l N' hN _ hstep
    exact ⟨hN.1.step hstep, Addressed.step hN.1 hN.2 hstep⟩

end MyRedis.Analysis

import MyRedis.Analysis.Ownership
import MyRedis.Analysis.PacketBoundaries

/-!
# Whose replies a connection gets

Responses find their way by the descriptor alone.  The descriptor of a closed connection
can be accepted again while a batch of the old connection is in an outbox; the batch is
then executed, and its replies go to the new connection (`stale_reply_appended`).

This is the only way it can happen.  If no descriptor is accepted while an outbox holds a
batch for it, then what is appended to an out buffer are the replies to a batch that was
read from that very connection (`replies_isolated`).  Three facts carry this through a run:

* what is answered has been executed, and what is executed has been emitted
  (`Answered`, in every run);
* a batch on its way is of the connection its descriptor is open for, if it is open at all;
* every response on its way to a thread will find its own connection, or none (`Routed`).
-/

set_option autoImplicit false

namespace MyRedis.Analysis

open MyRedis.Model MyRedis.Lib

variable {n : ℕ}

/-! ## Responses answer batches -/

/-- The bytes are the replies to a batch emitted for the connection, all of it executed. -/
structure RepliesTo (emitted : List (ConnId × List RespValue)) (log : List LogEntry)
    (conn : ConnId) (answers : List LogEntry) (bytes : Bytes) : Prop where
  bytes_eq : bytes = answers.flatMap fun entry => entry.reply.serialize
  batch : (conn, answers.map LogEntry.request) ∈ emitted
  executed : ∀ entry ∈ answers, entry.conn = conn ∧ entry ∈ log

/-- A batch in execution: what has been executed of it and what is left. -/
structure Execution.Underway (emitted : List (ConnId × List RespValue)) (log : List LogEntry)
    (e : Execution) : Prop where
  response_eq : e.response = e.answers.flatMap fun entry => entry.reply.serialize
  batch : (e.conn, e.answers.map LogEntry.request ++ e.values) ∈ emitted
  executed : ∀ entry ∈ e.answers, entry.conn = e.conn ∧ entry ∈ log

/-- What a thread has emitted and what it has been answered. -/
structure AnsweredBy (emitted : List (ConnId × List RespValue)) (log : List LogEntry)
    (t : Thread) : Prop where
  outbox : ∀ conn fd values, .commandBatch conn fd values ∈ t.outbox → (conn, values) ∈ emitted
  incoming : ∀ conn answers fd bytes, .writeResponse conn answers fd bytes ∈ t.incoming →
    RepliesTo emitted log conn answers bytes

/-- **What is answered has been executed, what is executed has been emitted.** -/
structure Answered (N : Net n) : Prop where
  io : ∀ i, AnsweredBy N.emitted N.log (N.io i)
  executing : ∀ e ∈ N.executing, e.Underway N.emitted N.log
  appended : ∀ a ∈ N.appended, RepliesTo N.emitted N.log a.source a.answers a.bytes

section Answered

variable {emitted : List (ConnId × List RespValue)} {log : List LogEntry} {conn : ConnId}
  {answers : List LogEntry} {bytes : Bytes}

/-- Replies stay replies when more is emitted and executed.
SOURCE: server.cc:198-246, io_thread.cc:108-137, 172-180, 215-222 -/
theorem RepliesTo.mono (h : RepliesTo emitted log conn answers bytes)
    (emitted' : List (ConnId × List RespValue)) (log' : List LogEntry) :
    RepliesTo (emitted ++ emitted') (log ++ log') conn answers bytes := by
  refine ⟨h.bytes_eq, List.mem_append_left _ h.batch, ?_⟩
  intro entry hentry
  obtain ⟨hconn, hlog⟩ := h.executed entry hentry
  exact ⟨hconn, List.mem_append_left _ hlog⟩

/-- An execution goes on while more is emitted.
SOURCE: io_thread.cc:179 -/
theorem Execution.Underway.emit {e : Execution} (h : e.Underway emitted log)
    (emitted' : List (ConnId × List RespValue)) : e.Underway (emitted ++ emitted') log :=
  ⟨h.response_eq, List.mem_append_left _ h.batch, h.executed⟩

/-- The next request has been executed.
SOURCE: server.cc:235-237 -/
theorem Execution.Underway.execute {fd : Fd} {value : RespValue} {values : List RespValue}
    {response : Bytes} (now : Int64) (reply : RespValue)
    (h : Execution.Underway emitted log ⟨conn, fd, answers, value :: values, response⟩) :
    Execution.Underway emitted (log ++ [⟨conn, now, value, reply⟩])
      ⟨conn, fd, answers ++ [⟨conn, now, value, reply⟩], values, response ++ reply.serialize⟩ := by
  obtain ⟨hresponse, hbatch, hexecuted⟩ := h
  simp only at hresponse hbatch hexecuted
  refine ⟨?_, ?_, ?_⟩
  · simp only [List.flatMap_append, List.flatMap_singleton, hresponse]
  · simpa only [List.map_append, List.map_singleton, List.append_assoc, List.singleton_append]
      using hbatch
  · intro entry hentry
    obtain hentry | hentry := List.mem_append.mp hentry
    · obtain ⟨hconn, hlog⟩ := hexecuted entry hentry
      exact ⟨hconn, List.mem_append_left _ hlog⟩
    · rw [List.mem_singleton.mp hentry]
      exact ⟨rfl, List.mem_append_right _ List.mem_cons_self⟩

/-- When the batch is at its end, the response holds the replies to it.
SOURCE: server.cc:235-241 -/
theorem Execution.Underway.repliesTo {fd : Fd} {response : Bytes}
    (h : Execution.Underway emitted log ⟨conn, fd, answers, [], response⟩) :
    RepliesTo emitted log conn answers response := by
  obtain ⟨hresponse, hbatch, hexecuted⟩ := h
  rw [List.append_nil] at hbatch
  exact ⟨hresponse, hbatch, hexecuted⟩

/-- The messages of a thread stay what they are when more is emitted and executed.
SOURCE: server.cc:198-246, io_thread.cc:108-137, 172-180, 215-222 -/
theorem AnsweredBy.mono {t : Thread} (h : AnsweredBy emitted log t)
    (emitted' : List (ConnId × List RespValue)) (log' : List LogEntry) :
    AnsweredBy (emitted ++ emitted') (log ++ log') t := by
  refine ⟨?_, ?_⟩
  · intro conn fd values hmsg
    exact List.mem_append_left _ (h.outbox conn fd values hmsg)
  · intro conn answers fd bytes hmsg
    exact (h.incoming conn answers fd bytes hmsg).mono _ _

/-- The messages that are left in the inbox stay what they are.
SOURCE: io_thread.cc:109 -/
theorem AnsweredBy.take {t : Thread} {msg : InboxMsg} {incoming : List InboxMsg}
    (h : AnsweredBy emitted log t) (hincoming : t.incoming = msg :: incoming)
    (conns : Fd → Option ConnId) :
    AnsweredBy emitted log { t with incoming := incoming, conns := conns } := by
  refine ⟨h.outbox, ?_⟩
  intro conn answers fd bytes hmsg
  exact h.incoming conn answers fd bytes (hincoming ▸ List.mem_cons_of_mem _ hmsg)

/-- The messages that are left in the outbox stay what they are.
SOURCE: server.cc:219 -/
theorem AnsweredBy.pop {t : Thread} {msg : OutboxMsg} {outbox : List OutboxMsg}
    (h : AnsweredBy emitted log t) (houtbox : t.outbox = msg :: outbox) :
    AnsweredBy emitted log { t with outbox := outbox } := by
  refine ⟨?_, h.incoming⟩
  intro conn fd values hmsg
  exact h.outbox conn fd values (houtbox ▸ List.mem_cons_of_mem _ hmsg)

/-- **Every step**: a response holds the replies to a batch of the connection it was emitted for.
SOURCE: server.cc:198-246, io_thread.cc:108-137, 172-180, 215-222 -/
theorem Answered.step {N N' : Net n} {l : Option Fd} (h : Answered N) (hstep : Net.Step N l N') :
    Answered N' := by
  cases hstep with
  | accept fd i hidle hclosed =>
    refine ⟨Net.forall_setIo ⟨(h.io i).outbox, ?_⟩ h.io, h.executing, h.appended⟩
    intro conn answers fd' bytes hmsg
    obtain hmsg | hmsg := List.mem_append.mp hmsg
    · exact (h.io i).incoming conn answers fd' bytes hmsg
    · cases List.mem_singleton.mp hmsg
  | @takeAssign i conn fd incoming hincoming =>
    exact ⟨Net.forall_setIo ((h.io i).take hincoming _) h.io, h.executing, h.appended⟩
  | @takeResponse i conn target answers fd bytes incoming hincoming htarget =>
    refine ⟨Net.forall_setIo ((h.io i).take hincoming _) h.io, h.executing, ?_⟩
    intro a ha
    obtain ha | ha := List.mem_append.mp ha
    · exact h.appended a ha
    · rw [List.mem_singleton.mp ha]
      exact (h.io i).incoming conn answers fd bytes (hincoming ▸ List.mem_cons_self)
  | @dropResponse i conn answers fd bytes incoming hincoming hnone =>
    exact ⟨Net.forall_setIo ((h.io i).take hincoming _) h.io, h.executing, h.appended⟩
  | @batch i conn fd values hpending hconn =>
    exact ⟨Net.forall_setIo ⟨(h.io i).outbox, (h.io i).incoming⟩ h.io, h.executing, h.appended⟩
  | @close i conn fd hpending hconn =>
    exact ⟨Net.forall_setIo ⟨(h.io i).outbox, (h.io i).incoming⟩ h.io, h.executing, h.appended⟩
  | @push i msg hpending =>
    have hlog : N.log = N.log ++ [] := (List.append_nil _).symm
    have hio (j : Fin n) : AnsweredBy (N.emitted ++ Server.requests msg) N.log (N.io j) := by
      rw [hlog]
      exact (h.io j).mono _ _
    refine ⟨Net.forall_setIo ⟨?_, (hio i).incoming⟩ hio, ?_, ?_⟩
    · intro conn fd values hmsg
      obtain hmsg | hmsg := List.mem_append.mp hmsg
      · exact (hio i).outbox conn fd values hmsg
      · rw [← List.mem_singleton.mp hmsg]
        exact List.mem_append_right _ List.mem_cons_self
    · intro e he
      exact (h.executing e he).emit _
    · intro a ha
      show RepliesTo _ N.log _ _ _
      rw [hlog]
      exact (h.appended a ha).mono _ _
  | @takeBatch i conn fd values outbox hidle houtbox =>
    refine ⟨Net.forall_setIo ((h.io i).pop houtbox) h.io, ?_, h.appended⟩
    intro e he
    cases he
    refine ⟨rfl, (h.io i).outbox conn fd values (houtbox ▸ List.mem_cons_self), ?_⟩
    intro entry hentry
    cases hentry
  | @takeDisconnect i conn fd outbox hidle houtbox =>
    exact ⟨Net.forall_setIo ((h.io i).pop houtbox) h.io, h.executing, h.appended⟩
  | @execute conn fd answers value values response now reply store hexecuting hrun =>
    have hemitted : N.emitted = N.emitted ++ [] := (List.append_nil _).symm
    have hunderway := (h.executing _ hexecuting).execute now reply
    refine ⟨?_, ?_, ?_⟩
    · intro i
      show AnsweredBy N.emitted _ _
      rw [hemitted]
      exact (h.io i).mono _ _
    · intro e he
      cases he
      exact hunderway
    · intro a ha
      show RepliesTo N.emitted _ _ _ _
      rw [hemitted]
      exact (h.appended a ha).mono _ _
  | @respond conn fd answers response i hexecuting hroute =>
    have hreplies := (h.executing _ hexecuting).repliesTo
    refine ⟨Net.forall_setIo ⟨(h.io i).outbox, ?_⟩ h.io, ?_, h.appended⟩
    · intro conn' answers' fd' bytes' hmsg
      obtain hmsg | hmsg := List.mem_append.mp hmsg
      · exact (h.io i).incoming conn' answers' fd' bytes' hmsg
      · cases List.mem_singleton.mp hmsg
        exact hreplies
    · intro e he
      cases he
  | skip hexecuting hroute =>
    refine ⟨h.io, ?_, h.appended⟩
    intro e he
    cases he

end Answered

/-! ## Responses find their connections -/

/-- Every response in `msgs` will find its own connection, or none. -/
def Routed (conns : Fd → Option ConnId) : List InboxMsg → Prop
  | [] => True
  | .assignConnection conn fd :: msgs =>
    Routed (Function.update conns fd (some ((conns fd).getD conn))) msgs
  | .writeResponse conn _ fd _ :: msgs =>
    (∀ conn', conns fd = some conn' → conn' = conn) ∧ Routed conns msgs

section Routed

variable {conns : Fd → Option ConnId} {msgs : List InboxMsg} {fd : Fd} {conn : ConnId}

/-- An assigned connection gets no response.
SOURCE: server.cc:212 -/
theorem Routed.append_assign (h : Routed conns msgs) :
    Routed conns (msgs ++ [.assignConnection conn fd]) := by
  induction msgs generalizing conns with
  | nil => trivial
  | cons msg msgs ih =>
    cases msg with
    | assignConnection conn' fd' => exact ih h
    | writeResponse conn' answers fd' bytes => exact ⟨h.1, ih h.2⟩

/-- A response is put behind the messages of its connection.
SOURCE: server.cc:241 -/
theorem Routed.append_response {answers : List LogEntry} {bytes : Bytes} (h : Routed conns msgs)
    (hconn : ∀ conn', drained conns msgs fd = some conn' → conn' = conn) :
    Routed conns (msgs ++ [.writeResponse conn answers fd bytes]) := by
  induction msgs generalizing conns with
  | nil => exact ⟨hconn, trivial⟩
  | cons msg msgs ih =>
    cases msg with
    | assignConnection conn' fd' => exact ih h hconn
    | writeResponse conn' answers' fd' bytes' => exact ⟨h.1, ih h.2 hconn⟩

/-- A closed connection is not found.
SOURCE: io_thread.cc:215-222 -/
theorem Routed.close (h : Routed conns msgs) (hfresh : Fresh conns msgs)
    (hconn : conns fd = some conn) : Routed (Function.update conns fd none) msgs := by
  induction msgs generalizing conns with
  | nil => trivial
  | cons msg msgs ih =>
    cases msg with
    | assignConnection conn' fd' =>
      obtain ⟨hnone, hrest⟩ := hfresh
      have hfd : fd ≠ fd' := by
        intro heq
        rw [heq, hnone] at hconn
        cases hconn
      unfold Routed at h ⊢
      rw [hnone, Option.getD_none] at h
      rw [Function.update_of_ne hfd.symm, hnone, Option.getD_none, Function.update_comm hfd]
      exact ih h hrest (by rwa [Function.update_of_ne hfd])
    | writeResponse conn' answers fd' bytes =>
      refine ⟨?_, ih h.2 hfresh hconn⟩
      intro conn'' hconn''
      by_cases hfd : fd' = fd
      · rw [hfd, Function.update_self] at hconn''
        cases hconn''
      · rw [Function.update_of_ne hfd] at hconn''
        exact h.1 conn'' hconn''

end Routed

/-! ## Isolation -/

/-- The descriptor of a batch. -/
def batchFd : OutboxMsg → Option Fd
  | .commandBatch _ fd _ => some fd
  | .disconnect _ _ => none

/-- No outbox holds a batch for the descriptor. -/
def NoBatchFor (s : Server n) (fd : Fd) : Prop :=
  ∀ i, ∀ msg ∈ (s.io i).outbox.items, batchFd msg ≠ some fd

instance (s : Server n) (fd : Fd) : Decidable (NoBatchFor s fd) :=
  inferInstanceAs (Decidable (∀ i, ∀ msg ∈ (s.io i).outbox.items, batchFd msg ≠ some fd))

/-- If the descriptor is open, then for the connection. -/
def Current (files : Fd → Option ConnId) (fd : Fd) (conn : ConnId) : Prop :=
  ∀ conn', files fd = some conn' → conn' = conn

/-- A batch stays one of the connection that has its descriptor, or of none.
SOURCE: io_thread.cc:215-222 -/
theorem Current.close {files : Fd → Option ConnId} {fd : Fd} {conn : ConnId}
    (h : Current files fd conn) (fd' : Fd) : Current (Function.update files fd' none) fd conn := by
  intro conn' hopen
  by_cases hfd : fd = fd'
  · rw [hfd, Function.update_self] at hopen
    cases hopen
  · rw [Function.update_of_ne hfd] at hopen
    exact h conn' hopen

/-- A thread that appends no replies to the wrong connection. -/
structure IsolatedBy (files : Fd → Option ConnId) (t : Thread) : Prop where
  outbox : ∀ conn fd values, .commandBatch conn fd values ∈ t.outbox → Current files fd conn
  routed : Routed t.conns t.incoming

/-- **No replies on their way to the wrong connection.** -/
structure Isolated (N : Net n) : Prop where
  io : ∀ i, IsolatedBy N.files (N.io i)
  executing : ∀ e ∈ N.executing, Current N.files e.fd e.conn
  appended : ∀ a ∈ N.appended, a.source = a.target

/-- The batches that are left in the outbox are of current connections.
SOURCE: server.cc:219 -/
theorem IsolatedBy.pop {files : Fd → Option ConnId} {t : Thread} {msg : OutboxMsg}
    {outbox : List OutboxMsg} (h : IsolatedBy files t) (houtbox : t.outbox = msg :: outbox) :
    IsolatedBy files { t with outbox := outbox } := by
  refine ⟨?_, h.routed⟩
  intro conn fd values hmsg
  exact h.outbox conn fd values (houtbox ▸ List.mem_cons_of_mem _ hmsg)

/-- A descriptor is accepted that no batch is left of.
SOURCE: server.cc:200-212 -/
theorem Isolated.accept {N : Net n} {fd : Fd} (h : Isolated N) (i : Fin n) (conn : ConnId)
    (hfd : ∀ i, ∀ msg ∈ (N.io i).outbox, batchFd msg ≠ some fd) :
    ∀ j, IsolatedBy (Function.update N.files fd (some conn))
      ((N.post i (.assignConnection conn fd)).io j) := by
  have houtbox (j : Fin n) : ∀ conn' fd' values, .commandBatch conn' fd' values ∈ (N.io j).outbox →
      Current (Function.update N.files fd (some conn)) fd' conn' := by
    intro conn' fd' values hmsg conn'' hopen
    have hne : fd' ≠ fd := by
      intro heq
      exact hfd j _ hmsg (congrArg some heq)
    rw [Function.update_of_ne hne] at hopen
    exact (h.io j).outbox conn' fd' values hmsg conn'' hopen
  apply Net.forall_setIo
  · exact ⟨houtbox i, (h.io i).routed.append_assign⟩
  · intro j
    exact ⟨houtbox j, (h.io j).routed⟩

/-- **Every step**: no message of an earlier connection comes to a later one.
SOURCE: server.cc:198-246, io_thread.cc:108-137, 172-180, 215-222 -/
theorem Isolated.step {N N' : Net n} {l : Option Fd} (howned : Owned N) (h : Isolated N)
    (hl : ∀ fd ∈ l, ∀ i, ∀ msg ∈ (N.io i).outbox, batchFd msg ≠ some fd)
    (hstep : Net.Step N l N') : Isolated N' := by
  cases hstep with
  | accept fd i hidle hclosed =>
    refine ⟨h.accept i _ (hl fd rfl), ?_, h.appended⟩
    intro e he
    cases hidle.symm.trans he
  | @takeAssign i conn fd incoming hincoming =>
    have hrouted := (h.io i).routed
    rw [hincoming] at hrouted
    exact ⟨Net.forall_setIo ⟨(h.io i).outbox, hrouted⟩ h.io, h.executing, h.appended⟩
  | @takeResponse i conn target answers fd bytes incoming hincoming htarget =>
    have hrouted := (h.io i).routed
    rw [hincoming] at hrouted
    refine ⟨Net.forall_setIo ⟨(h.io i).outbox, hrouted.2⟩ h.io, h.executing, ?_⟩
    intro a ha
    obtain ha | ha := List.mem_append.mp ha
    · exact h.appended a ha
    · rw [List.mem_singleton.mp ha]
      exact (hrouted.1 target htarget).symm
  | @dropResponse i conn answers fd bytes incoming hincoming hnone =>
    have hrouted := (h.io i).routed
    rw [hincoming] at hrouted
    exact ⟨Net.forall_setIo ⟨(h.io i).outbox, hrouted.2⟩ h.io, h.executing, h.appended⟩
  | @batch i conn fd values hpending hconn =>
    exact ⟨Net.forall_setIo ⟨(h.io i).outbox, (h.io i).routed⟩ h.io, h.executing, h.appended⟩
  | @close i conn fd hpending hconn =>
    have houtbox (j : Fin n) : ∀ conn' fd' values,
        .commandBatch conn' fd' values ∈ (N.io j).outbox →
          Current (Function.update N.files fd none) fd' conn' := by
      intro conn' fd' values hmsg
      exact ((h.io j).outbox conn' fd' values hmsg).close fd
    refine ⟨Net.forall_setIo ?_ fun j => ⟨houtbox j, (h.io j).routed⟩, ?_, h.appended⟩
    · exact ⟨houtbox i, (h.io i).routed.close (howned i).fresh hconn⟩
    · intro e he
      exact (h.executing e he).close fd
  | @push i msg hpending =>
    refine ⟨Net.forall_setIo ⟨?_, (h.io i).routed⟩ h.io, h.executing, h.appended⟩
    intro conn fd values hmsg
    obtain hmsg | hmsg := List.mem_append.mp hmsg
    · exact (h.io i).outbox conn fd values hmsg
    · -- the batch has been emitted for a connection that is still in the map
      rw [← List.mem_singleton.mp hmsg] at hpending
      have hopen := ((howned i).of_conns ((howned i).emitting conn fd values hpending)).1
      intro conn' hopen'
      cases hopen.symm.trans hopen'
      rfl
  | @takeBatch i conn fd values outbox hidle houtbox =>
    refine ⟨Net.forall_setIo ((h.io i).pop houtbox) h.io, ?_, h.appended⟩
    intro e he
    cases he
    exact (h.io i).outbox conn fd values (houtbox ▸ List.mem_cons_self)
  | @takeDisconnect i conn fd outbox hidle houtbox =>
    exact ⟨Net.forall_setIo ((h.io i).pop houtbox) h.io, h.executing, h.appended⟩
  | execute hexecuting hrun =>
    have hcurrent := h.executing _ hexecuting
    refine ⟨h.io, ?_, h.appended⟩
    intro e he
    cases he
    exact hcurrent
  | @respond conn fd answers response i hexecuting hroute =>
    refine ⟨Net.forall_setIo ⟨(h.io i).outbox, ?_⟩ h.io, ?_, h.appended⟩
    · apply (h.io i).routed.append_response
      intro conn' howner
      exact h.executing _ hexecuting conn' ((howned i).owner fd conn' howner).1
    · intro e he
      cases he
  | skip hexecuting hroute =>
    refine ⟨h.io, ?_, h.appended⟩
    intro e he
    cases he

/-- At the start nothing has been emitted.
SOURCE: server.cc:198-246, io_thread.cc:108-137, 172-180, 215-222 -/
theorem answered_init (store : Store) : Answered (Net.init store : Net n) := by
  refine ⟨fun i => ⟨?_, ?_⟩, ?_, ?_⟩
  · intro conn fd values hmsg
    cases hmsg
  · intro conn answers fd bytes hmsg
    cases hmsg
  · intro e he
    cases he
  · intro a ha
    cases ha

/-- No message is on its way.
SOURCE: server.cc:198-246, io_thread.cc:108-137, 172-180, 215-222 -/
theorem isolated_init (store : Store) : Isolated (Net.init store : Net n) := by
  refine ⟨fun i => ⟨?_, trivial⟩, ?_, ?_⟩
  · intro conn fd values hmsg
    cases hmsg
  · intro e he
    cases he
  · intro a ha
    cases ha

/-- **Reply isolation**: if no descriptor is accepted while an outbox holds a batch for it, then
the bytes appended to an out buffer are the replies to a batch read from that connection.
SOURCE: server.cc:198-242, io_thread.cc:108-137, 172-180, 215-222 -/
theorem replies_isolated [NeZero n] {store : Store} {s : Server n}
    (h : Reachable NoBatchFor store s) :
    ∀ a ∈ s.appended, a.source = a.target ∧
      RepliesTo s.emitted s.log a.target a.answers a.bytes := by
  have hreaches := reaches_view (fun N fd => ∀ i, ∀ msg ∈ (N.io i).outbox, batchFd msg ≠ some fd)
    (fun _ _ hfd => hfd) h
  have hinv : Owned (view s) ∧ Answered (view s) ∧ Isolated (view s) := by
    apply Reaches.invariant (I := fun N => Owned N ∧ Answered N ∧ Isolated N) _ _ hreaches
    · exact ⟨owned_init store, answered_init store, isolated_init store⟩
    · intro N l N' hN hl hstep
      exact ⟨hN.1.step hstep, hN.2.1.step hstep, hN.2.2.step hN.1 hl hstep⟩
  obtain ⟨-, hanswered, hisolated⟩ := hinv
  intro a ha
  have hsource := hisolated.appended a ha
  exact ⟨hsource, hsource ▸ hanswered.appended a ha⟩

/-! ## Two connections on one descriptor -/

/-- The main thread accepts a connection on descriptor 5 and posts it; `rest` comes after it. -/
def acceptRun (rest : List MainEvent) : List (Server.Action 1) :=
  [.main { events := .listen :: rest }, .main {}, .main { accepted := some 5 }, .main {}, .main {},
    .main {}]

/-- The client on descriptor 5 sends a `PING`, the IO thread emits it, and what follows it takes
`k` steps. -/
def pingRun (last : RecvEnd) (k : ℕ) : List (Server.Action 1) :=
  [.io 0 { events := [.client 5 false true false] }, .io 0 {},
    .io 0 { reads := ⟨[pingChunk], last⟩ }, .io 0 {}, .io 0 {}] ++ List.replicate k (.io 0 {})

/-- The IO thread handles its inbox event: `k` messages, and then one more. -/
def inboxRun (k : ℕ) (sends : List SendResult) : List (Server.Action 1) :=
  [.io 0 { events := [.inbox] }, .io 0 {}] ++ List.replicate k (.io 0 {}) ++
    [.io 0 { sends := sends }, .io 0 {}]

/-- The second connection is accepted while the batch of the first is in the outbox. -/
def reuseRun : List (Server.Action 1) :=
  acceptRun [] ++ inboxRun 0 [] ++ pingRun .shutdown 3 ++ acceptRun [.command] ++
    List.replicate 8 (.main {}) ++ inboxRun 1 [.sent 7]

/-- **The replies of a connection go to a later one on the same descriptor.**
SOURCE: server.cc:198-246, io_thread.cc:108-137, 172-180, 215-222 -/
theorem stale_reply_appended :
    ∃ s : Server 1, Reachable AnyFd Store.empty s ∧ s.accepted = [(5, 0), (5, 0)] ∧
      s.appended.map (fun a => (a.target, a.source, a.bytes)) = [(1, 0, ascii "+PONG\r\n")] := by
  have hrun : (runAll Server.step (Accepts AnyFd) (Server.init Store.empty) reuseRun).map
      (fun s => (s.accepted, s.appended.map fun a => (a.target, a.source, a.bytes))) =
      some ([(5, 0), (5, 0)], [(1, 0, ascii "+PONG\r\n")]) := by
    decide +kernel
  obtain ⟨s, hs, heq⟩ := Option.map_eq_some_iff.mp hrun
  obtain ⟨haccepted, happended⟩ := Prod.mk.inj heq
  exact ⟨s, reaches_of_runAll hs, haccepted, happended⟩

/-- The second connection is accepted after the outbox has been emptied; its client sends a
`PING`, too. -/
def orderlyRun : List (Server.Action 1) :=
  acceptRun [] ++ inboxRun 0 [] ++ pingRun .shutdown 3 ++
    .main { events := [.command] } :: List.replicate 8 (.main {}) ++
    acceptRun [] ++ inboxRun 1 [] ++ pingRun .wouldBlockOrInterrupted 0 ++
    .main { events := [.command] } :: List.replicate 7 (.main {}) ++ inboxRun 0 [.sent 7]

/-- Two connections on one descriptor, of which the first is answered before the second is accepted.
SOURCE: server.cc:198-246, io_thread.cc:108-137, 172-180, 215-222 -/
theorem replies_isolated_orderly :
    ∃ s : Server 1, Reachable NoBatchFor Store.empty s ∧ s.accepted = [(5, 0), (5, 0)] ∧
      s.appended.length = 1 ∧ ∀ a ∈ s.appended, a.source = a.target ∧
        RepliesTo s.emitted s.log a.target a.answers a.bytes := by
  have hrun : (runAll Server.step (Accepts NoBatchFor) (Server.init Store.empty) orderlyRun).map
      (fun s => (s.accepted, s.appended.length)) = some ([(5, 0), (5, 0)], 1) := by
    decide +kernel
  obtain ⟨s, hs, heq⟩ := Option.map_eq_some_iff.mp hrun
  obtain ⟨haccepted, hlength⟩ := Prod.mk.inj heq
  have hreachable : Reachable NoBatchFor Store.empty s := reaches_of_runAll hs
  exact ⟨s, hreachable, haccepted, hlength, replies_isolated hreachable⟩

end MyRedis.Analysis

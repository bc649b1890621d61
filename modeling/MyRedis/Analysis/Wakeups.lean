import MyRedis.Analysis.ReplyIsolation

/-!
# No wake-up is lost

A thread that has pushed a message notifies the receiver after it; a receiver that is woken
drains its event counter before it looks at its queues.  So a message in a queue is always
announced: the counter of the receiver is positive, or the sender is about to notify, or the
receiver has still to look at this queue (`OutboxWatched`, `InboxWatched`).  A receiver in
`epoll_wait` has nothing left to look at, which leaves the first two (`no_lost_wakeup`).
-/

set_option autoImplicit false

namespace MyRedis.Analysis

open MyRedis.Model MyRedis.Lib

variable {n : ℕ}

/-- The messages in the outbox of thread `i` are announced to the main thread. -/
def OutboxWatched (s : Server n) (i : Fin n) : Prop :=
  (s.io i).outbox.items ≠ [] →
    0 < s.commandEvent ∨ (s.io i).busy = .notify ∨ .processCommands i ∈ s.todo

/-- A thread knows of the messages in its inbox. -/
def Attended (t : IoThread) : Prop :=
  t.inbox.items ≠ [] → 0 < t.inboxEvent ∨ .drainInbox ∈ t.todo

/-- The messages in the inbox of thread `i` are announced to it. -/
def InboxWatched (s : Server n) (i : Fin n) : Prop := Attended (s.io i) ∨ s.busy = .notify i

/-- Both queues of thread `i` are watched. -/
def Watched (s : Server n) (i : Fin n) : Prop := OutboxWatched s i ∧ InboxWatched s i

/-! ## Steps of an IO thread -/

section Io

variable {s s' : Server n} {i : Fin n}

/-- A thread still knows of its inbox if it has not finished to look at it.
SOURCE: io_thread.cc:108-116 -/
theorem Attended.of_todo {t t' : IoThread} (h : Attended t) (hinbox : t'.inbox = t.inbox)
    (hevent : t'.inboxEvent = t.inboxEvent) (htodo : .drainInbox ∈ t.todo → .drainInbox ∈ t'.todo) :
    Attended t' := by
  intro hne
  rw [hinbox] at hne
  rw [hevent]
  exact (h hne).imp_right htodo

/-- A thread that has done something else goes on with the rest.
SOURCE: server.cc:170-242, io_thread.cc:58-242 -/
theorem Attended.of_rest {t t' : IoThread} {task : IoTask} {rest : List IoTask} (h : Attended t)
    (htodo : t.todo = task :: rest) (htask : .drainInbox ≠ task) (hinbox : t'.inbox = t.inbox)
    (hevent : t'.inboxEvent = t.inboxEvent) (hrest : ∀ task ∈ rest, task ∈ t'.todo) :
    Attended t' := by
  refine h.of_todo hinbox hevent ?_
  intro hmem
  rw [htodo] at hmem
  exact hrest _ (List.mem_of_ne_of_mem htask hmem)

/-- What a step of a thread does to its outbox and makes of its knowledge of the inbox.  A
thread that has pushed is about to notify, and one that has notified has left the counter of
the main thread positive. -/
structure Announced (i : Fin n) (s s' : Server n) : Prop where
  outbox : (s'.io i).busy = .notify ∨ 0 < s'.commandEvent ∨
    (s'.io i).outbox = (s.io i).outbox ∧ (s.io i).busy ≠ .notify
  inbox : Attended (s.io i) → Attended (s'.io i)

/-- An idle thread is not about to notify.
SOURCE: server.cc:170-242, io_thread.cc:58-242 -/
theorem IoBusy.ne_notify {busy : IoBusy} (h : busy = .idle) : busy ≠ .notify := by
  intro hnotify
  cases h.symm.trans hnotify

/-- A step that leaves the outbox alone.
SOURCE: server.cc:170-242, io_thread.cc:58-242 -/
theorem announced_setIo {t : IoThread} (hbusy : (s.io i).busy ≠ .notify) (hio : s'.io i = t)
    (houtbox : t.outbox = (s.io i).outbox) (hinbox : Attended (s.io i) → Attended t) :
    Announced i s s' := by
  refine ⟨Or.inr (Or.inr ⟨?_, hbusy⟩), ?_⟩
  · rw [hio]
    exact houtbox
  · rw [hio]
    exact hinbox

/-- A thread that has notified the main thread.
SOURCE: io_thread.cc:231, 234 -/
theorem announced_notifyMain (busy : IoBusy) : Announced i s (s.notifyMain i busy) := by
  refine ⟨Or.inr (Or.inl (Nat.succ_pos _)), ?_⟩
  have hio : (s.notifyMain i busy).io i = { s.io i with busy := busy } := Function.update_self ..
  rw [hio]
  exact id

/-- A message was pushed, and the main thread is notified next.
SOURCE: io_thread.cc:230-234 -/
theorem announced_pushOutbox {msg : OutboxMsg} (hbusy : (s.io i).busy = .emit msg) :
    Announced i s (s.pushOutbox i msg) := by
  cases hpush : (s.io i).outbox.push msg with
  | none =>
    have hne : (s.io i).busy ≠ .notify := by
      rw [hbusy]
      exact IoBusy.noConfusion
    simp only [Server.pushOutbox, hpush]
    exact announced_setIo hne (Function.update_self ..) rfl id
  | some outbox =>
    have hio : (s.pushOutbox i msg).io i = { s.io i with outbox := outbox, busy := .notify } := by
      simp only [Server.pushOutbox, hpush, Server.setIo, Function.update_self]
    refine ⟨Or.inl ?_, ?_⟩
    · rw [hio]
    · rw [hio]
      exact id

/-- Flushing touches neither queue, and leaves everything to do that was to do.
SOURCE: io_thread.cc:188-213 -/
theorem flushClient_eq {t t' : IoThread} {fd : Fd} {client : Client} {sends : List SendResult}
    (h : Server.flushClient t fd client sends = some t') :
    t'.outbox = t.outbox ∧ (Attended t → Attended t') ∧ ∀ task ∈ t.todo, task ∈ t'.todo := by
  obtain ⟨⟨conn, failed⟩, -, rfl⟩ := Option.map_eq_some_iff.mp h
  have htodo : ∀ task ∈ t.todo,
      task ∈ if failed then .closeConnection conn.fd :: t.todo else t.todo := by
    intro task htask
    split_ifs
    · exact List.mem_cons_of_mem _ htask
    · exact htask
  exact ⟨rfl, fun h => h.of_todo rfl rfl (htodo _), htodo⟩

/-- A message was taken from the inbox, or there was none left.
SOURCE: io_thread.cc:108-137 -/
theorem announced_drainInbox {rest : List IoTask} {sends : List SendResult}
    (hbusy : (s.io i).busy = .idle) (htodo : (s.io i).todo = .drainInbox :: rest)
    (h : s.drainInbox i rest sends = some s') : Announced i s s' := by
  have hne := IoBusy.ne_notify hbusy
  have hmem : IoTask.drainInbox ∈ (s.io i).todo := by
    rw [htodo]
    exact List.mem_cons_self
  unfold Server.drainInbox at h
  simp only at h
  split at h
  · rename_i hpop
    cases h
    refine announced_setIo hne (Function.update_self ..) rfl ?_
    intro _ hinbox
    exact absurd (BoundedQueue.pop_eq_none hpop) hinbox
  · rename_i conn fd inbox hpop
    cases h
    refine announced_setIo hne (Function.update_self ..) ?_ ?_
    · unfold Server.handleAssign
      split <;> rfl
    · intro _ _
      right
      unfold Server.handleAssign
      split <;> exact hmem
  · rename_i conn answers fd bytes inbox hpop
    split at h
    · cases h
      exact announced_setIo hne (Function.update_self ..) rfl fun _ _ => Or.inr hmem
    · obtain ⟨t, ht, rfl⟩ := Option.map_eq_some_iff.mp h
      obtain ⟨houtbox, -, htask⟩ := flushClient_eq ht
      exact announced_setIo hne (Function.update_self ..) houtbox fun _ _ => Or.inr (htask _ hmem)

section Tasks

variable {fd : Fd} {rest : List IoTask} (hbusy : (s.io i).busy = .idle)

include hbusy

/-- An event was looked at.
SOURCE: io_thread.cc:91-103 -/
theorem announced_handleEvent {ev : IoEvent} (htodo : (s.io i).todo = .event ev :: rest) :
    Announced i s (s.setIo i (Server.handleEvent (s.io i) ev rest)) := by
  refine announced_setIo (IoBusy.ne_notify hbusy) (Function.update_self ..) ?_ ?_
  · unfold Server.handleEvent
    split
    · rfl
    · split_ifs <;> rfl
  · intro hattended
    unfold Server.handleEvent
    split
    · exact fun _ => Or.inr List.mem_cons_self
    · refine hattended.of_rest htodo IoTask.noConfusion ?_ ?_ ?_
      · split_ifs <;> rfl
      · split_ifs <;> rfl
      · intro task htask
        split_ifs <;> simp [htask]

/-- A readable event was handled.
SOURCE: io_thread.cc:139-180 -/
theorem announced_handleReadableTask (htodo : (s.io i).todo = .handleReadable fd :: rest)
    (reads : ReadableEvent) :
    Announced i s (s.setIo i (Server.handleReadableTask (s.io i) fd rest reads)) := by
  refine announced_setIo (IoBusy.ne_notify hbusy) (Function.update_self ..) ?_ ?_
  · unfold Server.handleReadableTask
    split <;> rfl
  · intro hattended
    unfold Server.handleReadableTask
    split
    · exact hattended.of_rest htodo IoTask.noConfusion rfl rfl fun _ htask => htask
    · refine hattended.of_rest htodo IoTask.noConfusion rfl rfl ?_
      intro task htask
      dsimp only
      split_ifs
      · exact List.mem_cons_of_mem _ htask
      · exact htask

/-- A writable event was handled.
SOURCE: io_thread.cc:182-186 -/
theorem announced_handleWritable {t : IoThread} {sends : List SendResult}
    (htodo : (s.io i).todo = .handleWritable fd :: rest)
    (h : Server.handleWritable (s.io i) fd rest sends = some t) :
    Announced i s (s.setIo i t) := by
  have hrest (hattended : Attended (s.io i)) : Attended { s.io i with todo := rest } :=
    hattended.of_rest htodo IoTask.noConfusion rfl rfl fun _ htask => htask
  unfold Server.handleWritable at h
  simp only at h
  split at h
  · cases h
    exact announced_setIo (IoBusy.ne_notify hbusy) (Function.update_self ..) rfl hrest
  · obtain ⟨houtbox, hflush, -⟩ := flushClient_eq h
    exact announced_setIo (IoBusy.ne_notify hbusy) (Function.update_self ..) houtbox
      fun hattended => hflush (hrest hattended)

/-- A connection was closed.
SOURCE: io_thread.cc:215-222 -/
theorem announced_closeConnection (htodo : (s.io i).todo = .closeConnection fd :: rest) :
    Announced i s (s.closeConnection i fd rest) := by
  unfold Server.closeConnection
  simp only
  split
  · refine announced_setIo (IoBusy.ne_notify hbusy) (Function.update_self ..) rfl ?_
    intro hattended
    exact hattended.of_rest htodo IoTask.noConfusion rfl rfl fun _ htask => htask
  · refine announced_setIo (IoBusy.ne_notify hbusy) (Function.update_self ..) rfl ?_
    intro hattended
    exact hattended.of_rest htodo IoTask.noConfusion rfl rfl fun _ htask => htask

end Tasks

/-- **A step of an IO thread**: a message in the outbox is announced, and the inbox is not
forgotten.
SOURCE: io_thread.cc:77-242 -/
theorem ioStep_announced {input : IoInput} (h : s.ioStep i input = some s') : Announced i s s' := by
  unfold Server.ioStep at h
  simp only at h
  split at h
  · rename_i msg hbusy
    cases h
    exact announced_pushOutbox hbusy
  · cases h
    exact announced_notifyMain _
  · cases h
    exact announced_notifyMain _
  · rename_i hbusy htodo
    split_ifs at h
    cases h
    refine announced_setIo (IoBusy.ne_notify hbusy) (Function.update_self ..) rfl ?_
    intro hattended
    refine hattended.of_todo rfl rfl ?_
    rw [htodo]
    exact fun hmem => absurd hmem List.not_mem_nil
  · rename_i ev rest hbusy htodo
    cases h
    exact announced_handleEvent hbusy htodo
  · rename_i rest hbusy htodo
    exact announced_drainInbox hbusy htodo h
  · rename_i fd rest hbusy htodo
    cases h
    exact announced_handleReadableTask hbusy htodo input.reads
  · rename_i fd rest hbusy htodo
    obtain ⟨t, ht, rfl⟩ := Option.map_eq_some_iff.mp h
    exact announced_handleWritable hbusy htodo ht
  · rename_i fd rest hbusy htodo
    cases h
    exact announced_closeConnection hbusy htodo

/-- A step of an IO thread keeps every queue watched.
SOURCE: io_thread.cc:77-242 -/
theorem watched_ioStep {j : Fin n} {input : IoInput} (h : Watched s j)
    (hs : s.ioStep i input = some s') : Watched s' j := by
  obtain ⟨houtbox, hinbox⟩ := h
  have hframe := ioStep_frame hs
  have hannounced := ioStep_announced hs
  by_cases hj : j = i
  · subst hj
    refine ⟨?_, ?_⟩
    · intro hne
      obtain hnotify | hpositive | ⟨hsame, hbusy⟩ := hannounced.outbox
      · exact Or.inr (Or.inl hnotify)
      · exact Or.inl hpositive
      · rw [hsame] at hne
        obtain hpositive | hnotify | htask := houtbox hne
        · exact Or.inl (hpositive.trans_le hframe.commandEvent)
        · exact absurd hnotify hbusy
        · rw [hframe.todo]
          exact Or.inr (Or.inr htask)
    · unfold InboxWatched
      rw [hframe.busy]
      exact hinbox.imp_left hannounced.inbox
  · refine ⟨?_, ?_⟩
    · unfold OutboxWatched
      rw [hframe.io j hj, hframe.todo]
      intro hne
      exact (houtbox hne).imp_left fun hpositive => hpositive.trans_le hframe.commandEvent
    · unfold InboxWatched
      rw [hframe.io j hj, hframe.busy]
      exact hinbox

end Io

/-! ## Steps of the main thread -/

section Main

variable {s s' : Server n} {i : Fin n}

/-- The main thread, not being about to notify thread `i`, goes on to something else.
SOURCE: server.cc:170-242 -/
theorem Watched.of_todo (h : Watched s i) (hbusy : s.busy ≠ .notify i) (hio : s'.io i = s.io i)
    (hevent : s'.commandEvent = s.commandEvent)
    (htodo : .processCommands i ∈ s.todo → .processCommands i ∈ s'.todo) : Watched s' i := by
  refine ⟨?_, Or.inl ?_⟩
  · unfold OutboxWatched
    rw [hio, hevent]
    intro hne
    exact (h.1 hne).imp_right (Or.imp_right htodo)
  · rw [hio]
    exact h.2.resolve_right hbusy

/-- A message was posted, and its thread is notified next.
SOURCE: io_thread.cc:61-64, 71-74 -/
theorem watched_postInbox (h : Watched s i) (hbusy : s.busy ≠ .notify i) (j : Fin n)
    (msg : InboxMsg) : Watched (s.postInbox j msg) i := by
  cases hpush : (s.io j).inbox.push msg with
  | none =>
    simp only [Server.postInbox, hpush]
    exact h
  | some inbox =>
    simp only [Server.postInbox, hpush]
    by_cases hij : i = j
    · subst hij
      have hio : (s.setIo i { s.io i with inbox := inbox }).io i =
          { s.io i with inbox := inbox } := Function.update_self ..
      refine ⟨?_, Or.inr rfl⟩
      unfold OutboxWatched
      simp only [hio]
      exact h.1
    · exact h.of_todo hbusy (Function.update_of_ne hij _ _) rfl id

/-- The thread was notified.
SOURCE: io_thread.cc:64, 74 -/
theorem watched_notify {j : Fin n} (h : Watched s i) (hbusy : s.busy = .notify j) :
    Watched { s.setIo j { s.io j with inboxEvent := (s.io j).inboxEvent + 1 } with
      busy := .idle } i := by
  by_cases hij : i = j
  · subst hij
    have hio : (s.setIo i { s.io i with inboxEvent := (s.io i).inboxEvent + 1 }).io i =
        { s.io i with inboxEvent := (s.io i).inboxEvent + 1 } := Function.update_self ..
    refine ⟨?_, Or.inl ?_⟩
    · unfold OutboxWatched
      simp only [hio]
      exact h.1
    · simp only [hio]
      exact fun _ => Or.inl (Nat.succ_pos _)
  · refine h.of_todo ?_ (Function.update_of_ne hij _ _) rfl id
    rw [hbusy]
    exact fun hj => hij (MainBusy.notify.inj hj).symm

/-- An outbox is left when it is empty.
SOURCE: server.cc:218-226 -/
theorem watched_processCommands {j : Fin n} {rest : List (MainTask n)} (h : Watched s i)
    (hbusy : s.busy = .idle) (htodo : s.todo = .processCommands j :: rest) :
    Watched (s.processCommands j rest) i := by
  have hne : s.busy ≠ .notify i := by simp [hbusy]
  cases hpop : (s.io j).outbox.pop with
  | none =>
    simp only [Server.processCommands, hpop]
    by_cases hij : i = j
    · subst hij
      refine ⟨?_, Or.inl (h.2.resolve_right hne)⟩
      exact fun houtbox => absurd (BoundedQueue.pop_eq_none hpop) houtbox
    · refine h.of_todo hne rfl rfl ?_
      rw [htodo]
      exact List.mem_of_ne_of_mem fun heq => hij (MainTask.processCommands.inj heq)
  | some popped =>
    obtain ⟨msg, outbox⟩ := popped
    have hpopped (busy : MainBusy n) (fdToThread : Fd → Option (Fin n)) :
        Watched { s.setIo j { s.io j with outbox := outbox } with
          busy := busy, fdToThread := fdToThread } i := by
      by_cases hij : i = j
      · subst hij
        have hio : (s.setIo i { s.io i with outbox := outbox }).io i =
            { s.io i with outbox := outbox } := Function.update_self ..
        refine ⟨fun _ => Or.inr (Or.inr ?_), Or.inl ?_⟩
        · show _ ∈ s.todo
          rw [htodo]
          exact List.mem_cons_self
        · simp only [hio]
          exact h.2.resolve_right hne
      · exact h.of_todo hne (Function.update_of_ne hij _ _) rfl id
    cases msg with
    | commandBatch conn fd values =>
      simp only [Server.processCommands, hpop]
      exact hpopped _ _
    | disconnect conn fd =>
      simp only [Server.processCommands, hpop]
      exact hpopped _ _

/-- **A step of the main thread** keeps every queue watched.
SOURCE: server.cc:170-242 -/
theorem watched_mainStep {input : MainInput} (h : Watched s i) (hs : s.mainStep input = some s') :
    Watched s' i := by
  unfold Server.mainStep at hs
  split at hs
  · rename_i j conn fd hbusy
    cases hs
    exact watched_postInbox h (by simp [hbusy]) _ _
  · rename_i j conn answers fd bytes hbusy
    cases hs
    exact watched_postInbox h (by simp [hbusy]) _ _
  · rename_i j hbusy
    cases hs
    exact watched_notify h hbusy
  · rename_i hbusy
    have hne : s.busy ≠ .notify i := by simp [hbusy]
    unfold Server.executeAndRespond at hs
    split at hs <;> split at hs <;> cases hs <;> exact h.of_todo hne rfl rfl id
  · rename_i hbusy htodo
    split_ifs at hs
    cases hs
    refine h.of_todo (by simp [hbusy]) rfl rfl ?_
    rw [htodo]
    exact fun hmem => absurd hmem List.not_mem_nil
  · rename_i rest hbusy htodo
    cases hs
    refine h.of_todo (by simp [hbusy]) rfl rfl ?_
    rw [htodo]
    intro hmem
    exact List.mem_cons_of_mem _ (List.mem_of_ne_of_mem (by simp) hmem)
  · rename_i rest hbusy htodo
    cases hs
    refine ⟨fun _ => Or.inr (Or.inr ?_), Or.inl ?_⟩
    · exact List.mem_append_left _ (List.mem_map_of_mem (List.mem_finRange i))
    · exact h.2.resolve_right (by simp [hbusy])
  · rename_i rest hbusy htodo
    have hne : s.busy ≠ .notify i := by simp [hbusy]
    split at hs
    · cases hs
      refine h.of_todo hne rfl rfl ?_
      rw [htodo]
      exact List.mem_of_ne_of_mem (by simp)
    · split_ifs at hs
      cases hs
      exact h.of_todo hne rfl rfl id
  · rename_i j rest hbusy htodo
    cases hs
    exact watched_processCommands h hbusy htodo

end Main

/-- **Every step** does.
SOURCE: server.cc:170-242, io_thread.cc:58-242 -/
theorem watched_step {s s' : Server n} {a : Server.Action n} (h : ∀ i, Watched s i)
    (hs : s.step a = some s') (i : Fin n) : Watched s' i := by
  cases a with
  | main input => exact watched_mainStep (h i) hs
  | io j input => exact watched_ioStep (h i) hs

/-- **No wake-up is lost.**  While the main thread waits, a non-empty outbox has left its event
counter positive or its thread has still to notify it; and the same for an IO thread that
waits, its inbox and the main thread.
SOURCE: server.cc:170-242, io_thread.cc:58-242 -/
theorem no_lost_wakeup [NeZero n] {store : Store} {s : Server n} (h : Reachable AnyFd store s) :
    (s.busy = .idle → s.todo = [] → ∀ i, (s.io i).outbox.items ≠ [] →
        0 < s.commandEvent ∨ (s.io i).busy = .notify) ∧
      ∀ i, (s.io i).busy = .idle → (s.io i).todo = [] → (s.io i).inbox.items ≠ [] →
        0 < (s.io i).inboxEvent ∨ s.busy = .notify i := by
  have hwatched : ∀ i, Watched s i := by
    apply Reaches.invariant (I := fun s => ∀ i, Watched s i) _ _ h
    · intro i
      exact ⟨fun hne => absurd rfl hne, Or.inl fun hne => absurd rfl hne⟩
    · intro s a s' hs _ hstep
      exact watched_step hs hstep
  refine ⟨?_, ?_⟩
  · intro _ htodo i hne
    obtain hpositive | hnotify | htask := (hwatched i).1 hne
    · exact Or.inl hpositive
    · exact Or.inr hnotify
    · rw [htodo] at htask
      exact absurd htask List.not_mem_nil
  · intro i _ htodo hne
    obtain hattended | hnotify := (hwatched i).2
    · obtain hpositive | htask := hattended hne
      · exact Or.inl hpositive
      · rw [htodo] at htask
        exact absurd htask List.not_mem_nil
    · exact Or.inr hnotify

/-- A connection was assigned, and its thread is still to be woken.
SOURCE: server.cc:170-242, io_thread.cc:58-242 -/
theorem no_lost_wakeup_assign :
    ∃ s : Server 1, Reachable AnyFd Store.empty s ∧ (s.io 0).busy = .idle ∧ (s.io 0).todo = [] ∧
      (s.io 0).inbox.items ≠ [] ∧ (0 < (s.io 0).inboxEvent ∨ s.busy = .notify 0) := by
  have hrun : ∃ s : Server 1, runAll Server.step (Accepts AnyFd) (Server.init Store.empty)
      ((acceptRun []).take 4) = some s ∧ (s.io 0).busy = .idle ∧ (s.io 0).todo = [] ∧
      (s.io 0).inbox.items = [.assignConnection 0 5] :=
    ⟨_, rfl, rfl, rfl, rfl⟩
  obtain ⟨s, hs, hbusy, htodo, hinbox⟩ := hrun
  have hreachable : Reachable AnyFd Store.empty s := reaches_of_runAll hs
  have hne : (s.io 0).inbox.items ≠ [] := by
    rw [hinbox]
    exact List.cons_ne_nil _ _
  exact ⟨s, hreachable, hbusy, htodo, hne, (no_lost_wakeup hreachable).2 0 hbusy htodo hne⟩

end MyRedis.Analysis

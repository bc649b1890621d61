import MyRedis.Analysis.ClientSessions
import MyRedis.Lib.Progress

/-!
# Every request that was read is answered

`ClientSessions.lean` says that a server with nothing left to do has answered everything.  Here:
it gets there.  As long as the clients send nothing and connect nowhere, and no queue is full, the
threads take no more steps than `rank`, whatever their order; and they can go on until all of them
wait for events, unless a request comes to be executed for which `Dispatch` is undefined
(`requests_get_answered`).

The rank is the number of steps that are still to come: for each message the steps of handling
it, with the messages that come of it, and for each `Notify` the steps of waking up and finding
nothing.  A counter that is positive counts once, and not at all if the event is already among
those that `epoll_wait` has returned.
-/

set_option autoImplicit false

namespace MyRedis.Analysis

open MyRedis.Model MyRedis.Model.RespValue MyRedis.Lib

namespace Settling

/-! ## The rank -/

section Weights

/-- A batch is executed, and its response is posted and written, which may close the connection. -/
def outboxWeight (n : ℕ) : OutboxMsg → ℕ
  | .commandBatch _ _ values => values.length + (n + 14)
  | .disconnect _ _ => 1

/-- A response may fail to be written. -/
def inboxWeight (n : ℕ) : InboxMsg → ℕ
  | .assignConnection _ _ => 1
  | .writeResponse .. => n + 7

def ioBusyWeight (n : ℕ) : IoBusy → ℕ
  | .idle => 0
  | .emit msg => outboxWeight n msg + (n + 4)
  | .nudge msg => outboxWeight n msg + (2 * n + 7)
  | .notify => n + 3

def ioTaskWeight (n : ℕ) : IoTask → ℕ
  | .event .inbox => 2
  | .event (.client ..) => 2 * n + 15
  | .drainInbox => 1
  | .handleReadable _ => n + 7
  | .handleWritable _ => n + 7
  | .closeConnection _ => n + 6

/-- The inbox event is among the events that are left. -/
def inboxReported (todo : List IoTask) : Bool :=
  todo.any fun
    | .event .inbox => true
    | _ => false

/-- An IO thread is going to be woken by its inbox event. -/
def ioWake (inboxEvent : ℕ) (todo : List IoTask) : ℕ :=
  if 0 < inboxEvent ∧ inboxReported todo = false then 3 else 0

/-- What an IO thread, its queues and its event still give to do. -/
def ioWeight (n : ℕ) (t : IoThread) : ℕ :=
  (t.inbox.items.map (inboxWeight n)).sum + (t.outbox.items.map (outboxWeight n)).sum +
    ioBusyWeight n t.busy + (t.todo.map (ioTaskWeight n)).sum + ioWake t.inboxEvent t.todo

variable {n : ℕ}

def mainBusyWeight : MainBusy n → ℕ
  | .idle => 0
  | .postAssign .. => 6
  | .postResponse .. => n + 12
  | .notify _ => 4
  | .execute _ _ _ values _ => values.length + (n + 13)

def mainTaskWeight : MainTask n → ℕ
  | .event .listen => 2
  | .event .command => n + 1
  | .acceptConnections => 1
  | .processCommands _ => 1

/-- The command event is among the events that are left. -/
def commandReported (todo : List (MainTask n)) : Bool :=
  todo.any fun
    | .event .command => true
    | _ => false

/-- The main thread is going to be woken by its command event. -/
def mainWake (commandEvent : ℕ) (todo : List (MainTask n)) : ℕ :=
  if 0 < commandEvent ∧ commandReported todo = false then n + 2 else 0

/-- What the main thread and its event still give to do. -/
def mainWeight (s : Server n) : ℕ :=
  mainBusyWeight s.busy + (s.todo.map mainTaskWeight).sum + mainWake s.commandEvent s.todo

/-- The steps that are still to come, if nothing comes from outside. -/
def rank (s : Server n) : ℕ := mainWeight s + total (ioWeight n) s.io

end Weights

section Steps

variable {n : ℕ} {s s' : Server n} {i : Fin n}

/-- The main thread lowers its own weight.
SOURCE: server.cc:178-246 -/
theorem rank_of_main (hio : s'.io = s.io) (h : mainWeight s' < mainWeight s) :
    rank s' < rank s := by
  rw [rank, rank, hio]
  omega

/-- The main thread and one IO thread change.
SOURCE: server.cc:170-246, io_thread.cc:77-242 -/
theorem rank_of_io {t : IoThread} (hio : s'.io = Function.update s.io i t)
    (h : mainWeight s' + ioWeight n t < mainWeight s + ioWeight n (s.io i)) :
    rank s' < rank s := by
  have htotal := total_update (ioWeight n) s.io i t
  rw [rank, rank, hio]
  omega

/-- To be woken is worth three steps of an IO thread at most.
SOURCE: io_thread.cc:91-93 -/
theorem ioWake_le (inboxEvent : ℕ) (todo : List IoTask) : ioWake inboxEvent todo ≤ 3 := by
  unfold ioWake
  split_ifs <;> omega

/-- To be woken is worth a look at every outbox, and two steps more.
SOURCE: server.cc:182-184, 218 -/
theorem mainWake_le (commandEvent : ℕ) (todo : List (MainTask n)) :
    mainWake commandEvent todo ≤ n + 2 := by
  unfold mainWake
  split_ifs <;> omega

/-- No queue is full. -/
def Roomy (s : Server n) : Prop :=
  ∀ i, (s.io i).inbox.items.length < kQueueCapacity ∧
    (s.io i).outbox.items.length < kQueueCapacity

/-! ## Steps of the main thread -/

/-- A message is posted, and the main thread notifies next.
SOURCE: io_thread.cc:61, 71 -/
theorem rank_postInbox (hroom : Roomy s) (msg : InboxMsg)
    (hbusy : mainBusyWeight s.busy = inboxWeight n msg + 5) :
    rank (s.postInbox i msg) < rank s := by
  obtain ⟨inbox, hpush, hitems⟩ := BoundedQueue.exists_push msg (hroom i).1
  rw [Server.postInbox, hpush]
  refine rank_of_io (t := { s.io i with inbox := inbox }) rfl ?_
  have hnotify : mainBusyWeight (.notify i) = 4 := rfl
  simp only [mainWeight, Server.setIo, hnotify, hbusy, ioWeight, hitems, List.map_append,
    List.sum_append, List.map_singleton, List.sum_singleton]
  omega

/-- The IO thread is going to be woken, if it was not before.
SOURCE: io_thread.cc:64, 74 -/
theorem rank_notify (hbusy : s.busy = .notify i) :
    rank { s.setIo i { s.io i with inboxEvent := (s.io i).inboxEvent + 1 } with busy := .idle } <
      rank s := by
  refine rank_of_io (t := { s.io i with inboxEvent := (s.io i).inboxEvent + 1 }) rfl ?_
  have hwake := ioWake_le ((s.io i).inboxEvent + 1) (s.io i).todo
  simp only [mainWeight, Server.setIo, mainBusyWeight, hbusy, ioWeight]
  omega

/-- A request is executed, or the response is posted.
SOURCE: server.cc:229-242 -/
theorem rank_executeAndRespond {now : Int64} {conn : ConnId} {answers : List LogEntry} {fd : Fd}
    {values : List RespValue} {response : Bytes}
    (hbusy : s.busy = .execute conn answers fd values response)
    (h : s.executeAndRespond now conn answers fd values response = some s') : rank s' < rank s := by
  cases values with
  | cons value values =>
    rw [Server.executeAndRespond] at h
    split at h
    · cases h
    · cases h
      refine rank_of_main rfl ?_
      simp only [mainWeight, mainBusyWeight, hbusy, List.length_cons]
      omega
  | nil =>
    rw [Server.executeAndRespond] at h
    split at h <;> cases h
    all_goals
      refine rank_of_main rfl ?_
      simp only [mainWeight, mainBusyWeight, hbusy, List.length_nil]
      omega

/-- A message is taken from an outbox, or there is none left.
SOURCE: server.cc:215-227 -/
theorem rank_processCommands {rest : List (MainTask n)} (hbusy : s.busy = .idle)
    (htodo : s.todo = .processCommands i :: rest) :
    rank (s.processCommands i rest) < rank s := by
  have hreported : commandReported (.processCommands i :: rest) = commandReported rest := rfl
  rw [Server.processCommands]
  split
  · refine rank_of_main rfl ?_
    simp only [mainWeight, htodo, List.map_cons, List.sum_cons, mainTaskWeight, mainWake, hreported]
    omega
  · next conn fd values outbox hpop =>
    have hitems := BoundedQueue.pop_eq_some hpop
    refine rank_of_io (t := { s.io i with outbox := outbox }) rfl ?_
    simp only [mainWeight, Server.setIo, mainBusyWeight, hbusy, ioWeight, hitems, List.map_cons,
      List.sum_cons, outboxWeight]
    omega
  · next conn fd outbox hpop =>
    have hitems := BoundedQueue.pop_eq_some hpop
    refine rank_of_io (t := { s.io i with outbox := outbox }) rfl ?_
    simp only [mainWeight, Server.setIo, ioWeight, hitems, List.map_cons, List.sum_cons,
      outboxWeight]
    omega

/-- What comes from outside is nothing: no descriptor is ready but the eventfds, nothing is
accepted and nothing is received. -/
def Calm : Server.Action n → Prop
  | .main input => input.events = [.command] ∧ input.accepted = none
  | .io _ input => input.events = [.inbox] ∧ input.reads.chunks = []

/-- One look at each of the `n` outboxes.
SOURCE: server.cc:218 -/
theorem sum_processCommands : (((List.finRange n).map MainTask.processCommands).map
    mainTaskWeight).sum = n := by
  rw [List.map_map]
  simp [Function.comp_def, mainTaskWeight]

/-- **Every step of the main thread** lowers the rank, if there is room in the queues and no
connection is accepted.
SOURCE: server.cc:178-246 -/
theorem rank_mainStep {input : MainInput} (hroom : Roomy s) (hcalm : Calm (n := n) (.main input))
    (h : s.mainStep input = some s') : rank s' < rank s := by
  obtain ⟨hevents, haccepted⟩ := hcalm
  unfold Server.mainStep at h
  cases hbusy : s.busy with
  | postAssign i conn fd =>
    simp only [hbusy] at h
    cases h
    exact rank_postInbox hroom _ (by rw [hbusy]; rfl)
  | postResponse i conn answers fd bytes =>
    simp only [hbusy] at h
    cases h
    exact rank_postInbox hroom _ (by rw [hbusy]; rfl)
  | notify i =>
    simp only [hbusy] at h
    cases h
    exact rank_notify hbusy
  | execute conn answers fd values response =>
    simp only [hbusy] at h
    exact rank_executeAndRespond hbusy h
  | idle =>
    cases htodo : s.todo with
    | nil =>
      simp only [hbusy, htodo] at h
      split_ifs at h with hreport
      cases h
      have hready : 0 < s.commandEvent := hreport.2.2.mp (by rw [hevents]; exact List.mem_cons_self)
      refine rank_of_main rfl ?_
      have hbefore : mainWake s.commandEvent ([] : List (MainTask n)) = n + 2 :=
        if_pos ⟨hready, rfl⟩
      have hafter : mainWake s.commandEvent [(.event .command : MainTask n)] = 0 :=
        if_neg fun hwake => Bool.noConfusion hwake.2
      simp only [mainWeight, hbusy, htodo, hevents, List.map_cons, List.map_nil, List.sum_cons,
        List.sum_nil, mainTaskWeight, hbefore, hafter]
      omega
    | cons task rest =>
      cases task with
      | event ev =>
        cases ev with
        | listen =>
          simp only [hbusy, htodo] at h
          cases h
          refine rank_of_main rfl ?_
          have hreported : commandReported (.event .listen :: rest : List (MainTask n)) =
            commandReported (.acceptConnections :: rest) := rfl
          simp only [mainWeight, hbusy, htodo, List.map_cons, List.sum_cons, mainTaskWeight,
            mainWake, hreported]
          omega
        | command =>
          simp only [hbusy, htodo] at h
          cases h
          refine rank_of_main rfl ?_
          have hsum := sum_processCommands (n := n)
          simp only [mainWeight, hbusy, htodo, List.map_append, List.sum_append, List.map_cons,
            List.sum_cons, mainTaskWeight, mainWake, hsum, Nat.lt_irrefl, false_and, if_false]
          omega
      | acceptConnections =>
        simp only [hbusy, htodo, haccepted] at h
        cases h
        refine rank_of_main rfl ?_
        have hreported : commandReported (.acceptConnections :: rest : List (MainTask n)) =
          commandReported rest := rfl
        simp only [mainWeight, hbusy, htodo, List.map_cons, List.sum_cons, mainTaskWeight, mainWake,
          hreported]
        omega
      | processCommands i =>
        simp only [hbusy, htodo] at h
        cases h
        exact rank_processCommands hbusy htodo

/-! ## Steps of an IO thread -/

/-- An IO thread changes, and the main thread is not concerned.
SOURCE: server.cc:170-246, io_thread.cc:77-242 -/
theorem rank_of_setIo {t : IoThread} (h : ioWeight n t < ioWeight n (s.io i)) :
    rank (s.setIo i t) < rank s :=
  rank_of_io (t := t) rfl (Nat.add_lt_add_left h (mainWeight s))

/-- The main thread is going to be woken, if it was not before.
SOURCE: io_thread.cc:231, 234 -/
theorem rank_notifyMain {busy : IoBusy}
    (hbusy : ioBusyWeight n busy + (n + 2) < ioBusyWeight n (s.io i).busy) :
    rank (s.notifyMain i busy) < rank s := by
  refine rank_of_io (t := { s.io i with busy := busy }) rfl ?_
  have hwake := mainWake_le (s.commandEvent + 1) s.todo
  simp only [mainWeight, Server.notifyMain, Server.setIo, ioWeight]
  omega

/-- A message is put into the outbox, and the IO thread notifies next.
SOURCE: io_thread.cc:230 -/
theorem rank_pushOutbox (hroom : Roomy s) {msg : OutboxMsg} (hbusy : (s.io i).busy = .emit msg) :
    rank (s.pushOutbox i msg) < rank s := by
  obtain ⟨outbox, hpush, hitems⟩ := BoundedQueue.exists_push msg (hroom i).2
  rw [Server.pushOutbox, hpush]
  refine rank_of_io (t := { s.io i with outbox := outbox, busy := .notify }) rfl ?_
  simp only [mainWeight, Server.setIo, ioWeight, ioBusyWeight, hbusy, hitems, List.map_append,
    List.sum_append, List.map_singleton, List.sum_singleton]
  omega

/-- A flush may leave a connection to be closed.
SOURCE: io_thread.cc:188-213 -/
theorem ioWeight_flushClient {t t' : IoThread} {fd : Fd} {client : Client}
    {sends : List SendResult} (h : Server.flushClient t fd client sends = some t') :
    ioWeight n t' ≤ ioWeight n t + (n + 6) := by
  obtain ⟨⟨conn, failed⟩, -, rfl⟩ := Option.map_eq_some_iff.mp h
  have hreported : inboxReported (.closeConnection conn.fd :: t.todo) = inboxReported t.todo := rfl
  cases failed with
  | false =>
    simp only [ioWeight, Bool.false_eq_true, if_false]
    omega
  | true =>
    simp only [ioWeight, if_true, List.map_cons, List.sum_cons, ioTaskWeight, ioWake, hreported]
    omega

/-- A message is taken from the inbox, or there is none left.
SOURCE: io_thread.cc:108-137 -/
theorem rank_drainInbox {rest : List IoTask} {sends : List SendResult}
    (htodo : (s.io i).todo = .drainInbox :: rest)
    (h : s.drainInbox i rest sends = some s') : rank s' < rank s := by
  have hreported : inboxReported (.drainInbox :: rest) = inboxReported rest := rfl
  unfold Server.drainInbox at h
  dsimp only at h
  split at h
  · cases h
    apply rank_of_setIo
    simp only [ioWeight, htodo, List.map_cons, List.sum_cons, ioTaskWeight, ioWake, hreported]
    omega
  · next conn fd inbox hpop =>
    have hitems := BoundedQueue.pop_eq_some hpop
    cases h
    apply rank_of_setIo
    unfold Server.handleAssign
    split <;>
    · simp only [ioWeight, hitems, List.map_cons, List.sum_cons, inboxWeight]
      omega
  · next conn answers fd bytes inbox hpop =>
    have hitems := BoundedQueue.pop_eq_some hpop
    have hpopped : ioWeight n { s.io i with inbox := inbox } + (n + 7) = ioWeight n (s.io i) := by
      simp only [ioWeight, hitems, List.map_cons, List.sum_cons, inboxWeight]
      omega
    dsimp only at hpopped
    split at h
    · cases h
      apply rank_of_setIo
      omega
    · obtain ⟨t, hflush, rfl⟩ := Option.map_eq_some_iff.mp h
      have hflushed := ioWeight_flushClient (n := n) hflush
      refine rank_of_io (t := t) rfl ?_
      change mainWeight s + ioWeight n t < _
      omega

/-- An event that is looked at leaves less to do than it counted.
SOURCE: io_thread.cc:91-103 -/
theorem ioWeight_handleEvent {t : IoThread} {ev : IoEvent} {rest : List IoTask}
    (htodo : t.todo = .event ev :: rest) :
    ioWeight n (Server.handleEvent t ev rest) < ioWeight n t := by
  cases ev with
  | inbox =>
    have hwake : ioWake 0 (.drainInbox :: rest) = 0 := if_neg fun h => absurd h.1 (Nat.lt_irrefl 0)
    simp only [Server.handleEvent, ioWeight, htodo, List.map_cons, List.sum_cons, ioTaskWeight,
      hwake]
    omega
  | client fd error readable writable =>
    have hreported : ∀ tasks : List IoTask, inboxReported tasks = false →
        ioWake t.inboxEvent (tasks ++ rest) =
          ioWake t.inboxEvent (.event (.client fd error readable writable) :: rest) := by
      intro tasks htasks
      have hsame : inboxReported (tasks ++ rest) = inboxReported
          (.event (.client fd error readable writable) :: rest) := by
        rw [inboxReported, List.any_append]
        change (inboxReported tasks || inboxReported rest) = inboxReported rest
        rw [htasks, Bool.false_or]
      rw [ioWake, ioWake, hsame]
    cases error with
    | true =>
      have hwake := hreported [.closeConnection fd] rfl
      simp only [List.singleton_append] at hwake
      simp only [Server.handleEvent, if_true, ioWeight, htodo, List.map_cons, List.sum_cons,
        ioTaskWeight, hwake]
      omega
    | false =>
      have hwake := hreported ((if readable then [.handleReadable fd] else []) ++
        (if writable then [.handleWritable fd] else []))
        (by cases readable <;> cases writable <;> rfl)
      have hsum : ((((if readable then [.handleReadable fd] else []) ++
          (if writable then [.handleWritable fd] else []) : List IoTask)).map
            (ioTaskWeight n)).sum ≤ 2 * n + 14 := by
        cases readable <;> cases writable <;> simp [ioTaskWeight] <;> omega
      simp only [Server.handleEvent, Bool.false_eq_true, if_false, ioWeight, htodo, hwake,
        List.map_append, List.sum_append, List.map_cons, List.sum_cons, ioTaskWeight] at hsum ⊢
      omega

/-- A readable event that completes no request; the connection may have to be closed.
SOURCE: io_thread.cc:139-180 -/
theorem ioWeight_handleReadableTask {t : IoThread} {fd : Fd} {rest : List IoTask}
    {reads : ReadableEvent} (hbusy : t.busy = .idle) (htodo : t.todo = .handleReadable fd :: rest)
    (hquiet : ∀ client, t.connections fd = some client →
      (handleReadable client.conn reads).batch = []) :
    ioWeight n (Server.handleReadableTask t fd rest reads) < ioWeight n t := by
  have hreported : inboxReported (.handleReadable fd :: rest) = inboxReported rest := rfl
  have hreported' : inboxReported (.closeConnection fd :: rest) = inboxReported rest := rfl
  unfold Server.handleReadableTask
  split
  · simp only [ioWeight, htodo, List.map_cons, List.sum_cons, ioTaskWeight, ioWake, hreported]
    omega
  · next client hclient =>
    simp only [ioWeight, hquiet client hclient, if_true, hbusy, htodo, ioBusyWeight]
    split_ifs
    · simp only [List.map_cons, List.sum_cons, ioTaskWeight, ioWake, hreported, hreported']
      omega
    · simp only [List.map_cons, List.sum_cons, ioTaskWeight, ioWake, hreported]
      omega

/-- A writable event is done with.
SOURCE: io_thread.cc:182-186 -/
theorem ioWeight_handleWritable {t t' : IoThread} {fd : Fd} {rest : List IoTask}
    {sends : List SendResult} (htodo : t.todo = .handleWritable fd :: rest)
    (h : Server.handleWritable t fd rest sends = some t') : ioWeight n t' < ioWeight n t := by
  have hreported : inboxReported (.handleWritable fd :: rest) = inboxReported rest := rfl
  have hpopped : ioWeight n { t with todo := rest } + (n + 7) = ioWeight n t := by
    simp only [ioWeight, htodo, List.map_cons, List.sum_cons, ioTaskWeight, ioWake, hreported]
    omega
  unfold Server.handleWritable at h
  dsimp only at h
  split at h
  · cases h
    omega
  · have hflushed := ioWeight_flushClient (n := n) h
    omega

/-- A connection is closed, and the main thread is told next.
SOURCE: io_thread.cc:215-222 -/
theorem rank_closeConnection {fd : Fd} {rest : List IoTask} (hbusy : (s.io i).busy = .idle)
    (htodo : (s.io i).todo = .closeConnection fd :: rest) :
    rank (s.closeConnection i fd rest) < rank s := by
  have hreported : inboxReported (.closeConnection fd :: rest) = inboxReported rest := rfl
  unfold Server.closeConnection
  dsimp only
  split
  · apply rank_of_setIo
    simp only [ioWeight, htodo, List.map_cons, List.sum_cons, ioTaskWeight, ioWake, hreported]
    omega
  · next client hclient =>
    refine rank_of_io (t := { s.io i with
      todo := rest
      connections := Function.update (s.io i).connections fd none
      busy := .emit (.disconnect client.id fd) }) rfl ?_
    change mainWeight s + _ < _
    simp only [ioWeight, hbusy, htodo, List.map_cons, List.sum_cons, ioTaskWeight, ioWake,
      hreported, ioBusyWeight, outboxWeight]
    omega

/-- **Every step of an IO thread** lowers the rank, if there is room in the queues and no request is
completed.
SOURCE: io_thread.cc:86-235 -/
theorem rank_ioStep {input : IoInput} (hroom : Roomy s) (hevents : input.events = [.inbox])
    (hquiet : ∀ fd rest client, (s.io i).todo = .handleReadable fd :: rest →
      (s.io i).connections fd = some client → (handleReadable client.conn input.reads).batch = [])
    (h : s.ioStep i input = some s') : rank s' < rank s := by
  unfold Server.ioStep at h
  dsimp only at h
  cases hbusy : (s.io i).busy with
  | emit msg =>
    simp only [hbusy] at h
    cases h
    exact rank_pushOutbox hroom hbusy
  | nudge msg =>
    simp only [hbusy] at h
    cases h
    apply rank_notifyMain
    simp only [hbusy, ioBusyWeight]
    omega
  | notify =>
    simp only [hbusy] at h
    cases h
    apply rank_notifyMain
    simp only [hbusy, ioBusyWeight]
    omega
  | idle =>
    cases htodo : (s.io i).todo with
    | nil =>
      simp only [hbusy, htodo] at h
      split_ifs at h with hreport
      cases h
      have hready : 0 < (s.io i).inboxEvent := by
        have hready := hreport.2.2.2.1 .inbox (by rw [hevents]; exact List.mem_cons_self)
        simpa [IoThread.ready] using hready
      apply rank_of_setIo
      have hbefore : ioWake (s.io i).inboxEvent [] = 3 := if_pos ⟨hready, rfl⟩
      have hafter : ioWake (s.io i).inboxEvent [.event .inbox] = 0 :=
        if_neg fun hwake => Bool.noConfusion hwake.2
      simp only [ioWeight, hbusy, htodo, hevents, List.map_cons, List.map_nil, List.sum_cons,
        List.sum_nil, ioTaskWeight, hbefore, hafter]
      omega
    | cons task rest =>
      cases task with
      | event ev =>
        simp only [hbusy, htodo] at h
        cases h
        exact rank_of_setIo (ioWeight_handleEvent htodo)
      | drainInbox =>
        simp only [hbusy, htodo] at h
        exact rank_drainInbox htodo h
      | handleReadable fd =>
        simp only [hbusy, htodo] at h
        cases h
        exact rank_of_setIo (ioWeight_handleReadableTask hbusy htodo
          fun client hclient => hquiet fd rest client htodo hclient)
      | handleWritable fd =>
        simp only [hbusy, htodo] at h
        obtain ⟨t, hwritten, rfl⟩ := Option.map_eq_some_iff.mp h
        exact rank_of_setIo (ioWeight_handleWritable htodo hwritten)
      | closeConnection fd =>
        simp only [hbusy, htodo] at h
        cases h
        exact rank_closeConnection hbusy htodo

end Steps

/-! ## Where nothing is left to do -/

section Rest

variable {n : ℕ} {s : Server n}

/-- No thread can take a step by itself. -/
def AtRest (s : Server n) : Prop := ∀ a, Calm a → s.step a = none

/-- The main thread is about to execute a request for which `Dispatch` is undefined. -/
def MeetsUndefined (s : Server n) : Prop :=
  ∃ conn answers fd value values response,
    s.busy = .execute conn answers fd (value :: values) response ∧
      ∀ now, ∃ u, dispatch s.store now value = .error u

/-- If nothing can happen the main thread waits, or has met undefined behaviour.
SOURCE: server.cc:170-227 -/
theorem main_of_atRest (h : AtRest s) :
    MeetsUndefined s ∨ (s.busy = .idle ∧ s.todo = [] ∧ s.commandEvent = 0) := by
  have hnone (now : Int64) : s.mainStep ⟨[.command], none, now⟩ = none :=
    h (.main ⟨[.command], none, now⟩) ⟨rfl, rfl⟩
  unfold Server.mainStep at hnone
  cases hbusy : s.busy with
  | postAssign | postResponse | notify =>
    simp only [hbusy] at hnone
    cases hnone 0
  | execute conn answers fd values response =>
    simp only [hbusy] at hnone
    cases values with
    | nil =>
      have hnone := hnone 0
      rw [Server.executeAndRespond] at hnone
      split at hnone <;> cases hnone
    | cons value values =>
      refine Or.inl ⟨conn, answers, fd, value, values, response, hbusy, fun now => ?_⟩
      have hnone := hnone now
      rw [Server.executeAndRespond] at hnone
      split at hnone
      · next u hu => exact ⟨u, hu⟩
      · cases hnone
  | idle =>
    have hnone := hnone 0
    cases htodo : s.todo with
    | nil =>
      simp only [hbusy, htodo] at hnone
      split_ifs at hnone with hreport
      refine Or.inr ⟨rfl, rfl, ?_⟩
      by_contra hevent
      refine hreport ⟨List.cons_ne_nil _ _, List.nodup_singleton _, ?_⟩
      exact iff_of_true List.mem_cons_self (Nat.pos_of_ne_zero hevent)
    | cons task rest =>
      cases task with
      | event ev =>
        cases ev <;>
        · simp only [hbusy, htodo] at hnone
          cases hnone
      | acceptConnections | processCommands =>
        simp only [hbusy, htodo] at hnone
        cases hnone

/-- A flush that would block is possible.
SOURCE: io_thread.cc:201-202 -/
theorem flushClient_wouldBlock (t : IoThread) (fd : Fd) (client : Client) :
    Server.flushClient t fd client [.wouldBlockOrInterrupted] ≠ none := by
  unfold Server.flushClient flushOutBuffer
  cases client.conn.outBuffer <;> simp [sendLoop]

/-- A message can be taken from the inbox, with a socket that would block.
SOURCE: io_thread.cc:108-137, 201-202 -/
theorem drainInbox_wouldBlock (s : Server n) (i : Fin n) (rest : List IoTask) :
    s.drainInbox i rest [.wouldBlockOrInterrupted] ≠ none := by
  unfold Server.drainInbox
  dsimp only
  split
  · exact Option.some_ne_none _
  · exact Option.some_ne_none _
  · split
    · exact Option.some_ne_none _
    · rw [Ne, Option.map_eq_none_iff]
      exact flushClient_wouldBlock _ _ _

/-- A writable event can be handled, with a socket that would block.
SOURCE: io_thread.cc:182-186, 201-202 -/
theorem handleWritable_wouldBlock (t : IoThread) (fd : Fd) (rest : List IoTask) :
    Server.handleWritable t fd rest [.wouldBlockOrInterrupted] ≠ none := by
  unfold Server.handleWritable
  dsimp only
  split
  · exact Option.some_ne_none _
  · exact flushClient_wouldBlock _ _ _

/-- If nothing can happen every IO thread waits.
SOURCE: io_thread.cc:77-116 -/
theorem io_of_atRest (h : AtRest s) (i : Fin n) :
    (s.io i).busy = .idle ∧ (s.io i).todo = [] ∧ (s.io i).inboxEvent = 0 := by
  have hnone : s.ioStep i ⟨[.inbox], ⟨[], .wouldBlockOrInterrupted⟩,
      [.wouldBlockOrInterrupted]⟩ = none := h (.io i _) ⟨rfl, rfl⟩
  unfold Server.ioStep at hnone
  dsimp only at hnone
  cases hbusy : (s.io i).busy with
  | emit | nudge | notify =>
    simp only [hbusy] at hnone
    cases hnone
  | idle =>
    cases htodo : (s.io i).todo with
    | nil =>
      simp only [hbusy, htodo] at hnone
      split_ifs at hnone with hreport
      refine ⟨rfl, rfl, ?_⟩
      by_contra hevent
      have hpositive := Nat.pos_of_ne_zero hevent
      refine hreport ⟨List.cons_ne_nil _ _, by decide, List.nodup_singleton _, ?_, fun _ => ?_⟩
      · intro ev hev
        rw [List.mem_singleton.mp hev]
        exact decide_eq_true hpositive
      · exact Or.inl List.mem_cons_self
    | cons task rest =>
      cases task with
      | event | handleReadable | closeConnection =>
        simp only [hbusy, htodo] at hnone
        cases hnone
      | drainInbox =>
        simp only [hbusy, htodo] at hnone
        exact absurd hnone (drainInbox_wouldBlock s i rest)
      | handleWritable fd =>
        simp only [hbusy, htodo, Option.map_eq_none_iff] at hnone
        exact absurd hnone (handleWritable_wouldBlock _ _ _)

end Rest

/-! ## Runs -/

section Runs

variable {n : ℕ} {t t' : Traffic n}

/-- Nothing that is received completes a request.
SOURCE: io_thread.cc:158-180 -/
theorem quiet_of_served (h : Served t) {i : Fin n} {fd : Fd} {rest : List IoTask}
    {client : Client} {reads : ReadableEvent} (hchunks : reads.chunks = [])
    (htodo : (t.server.io i).todo = .handleReadable fd :: rest)
    (hclient : (t.server.io i).connections fd = some client) :
    (handleReadable client.conn reads).batch = [] := by
  have hopen : (tally t client.id).Open (pendingFor client.id (t.server.io i).busy)
      client.conn := by
    apply (h.io i fd client hclient).opened
    rw [htodo]
    rfl
  have hbytes : reads.bytes = [] := by rw [ReadableEvent.bytes, hchunks, List.flatMap_nil]
  have hwell : ¬ Malformed ((tally t client.id).received ++ reads.bytes) := by
    rw [hbytes, List.append_nil]
    exact hopen.wellFormed
  have hparse := (handleReadable_of_wellFormed hopen.between hwell).1
  rw [hbytes, List.append_nil] at hparse
  exact List.append_right_eq_self.mp hparse

/-- Steps of the threads while nothing comes from outside and there is room in the queues. -/
def Settles (t : Traffic n) : ℕ → Traffic n → Prop :=
  Run (fun t a t' => t.step a = some t') (fun t a => Calm a ∧ Roomy t.server) t

/-- **Every step** lowers the rank.
SOURCE: server.cc:170-246, io_thread.cc:77-242 -/
theorem rank_step (h : Served t) {a : Server.Action n} (hcalm : Calm a) (hroom : Roomy t.server)
    (hstep : t.step a = some t') : rank t'.server < rank t.server := by
  obtain ⟨server, hserver, rfl⟩ := Option.map_eq_some_iff.mp hstep
  cases a with
  | main input => exact rank_mainStep hroom hcalm hserver
  | io i input =>
    exact rank_ioStep hroom hcalm.1 (fun fd rest client htodo hclient =>
      quiet_of_served h hcalm.2 htodo hclient) hserver

/-- No descriptor is accepted.
SOURCE: server.cc:200 -/
theorem accepts_of_calm {allowed : Server n → Fd → Prop} {s : Server n} {a : Server.Action n}
    (h : Calm a) : Accepts allowed s a := by
  intro fd hfd
  cases a with
  | io i input => cases hfd
  | main input =>
    unfold Server.accepting at hfd
    dsimp only at hfd
    split at hfd
    · rw [h.2] at hfd
      cases hfd
    · cases hfd

/-- Nothing is received.
SOURCE: io_thread.cc:160-165 -/
theorem reading_of_calm {s : Server n} {a : Server.Action n} (hcalm : Calm a) :
    ∀ p ∈ s.reading a, p.2 = [] := by
  intro p hp
  cases a with
  | main input => cases hp
  | io i input =>
    unfold Server.reading at hp
    dsimp only at hp
    split at hp
    · obtain ⟨client, -, rfl⟩ := Option.map_eq_some_iff.mp hp
      show input.reads.bytes = []
      rw [ReadableEvent.bytes, hcalm.2, List.flatMap_nil]
    · cases hp

/-- What has been received stays as it is.
SOURCE: io_thread.cc:160-165 -/
theorem receivedFrom_of_calm {a : Server.Action n} (hcalm : Calm a)
    (hstep : t.step a = some t') (conn : ConnId) :
    receivedFrom t' conn = receivedFrom t conn := by
  obtain ⟨server, -, rfl⟩ := Option.map_eq_some_iff.mp hstep
  have hnothing := reading_of_calm (s := t.server) hcalm
  simp only [receivedFrom, ofTag_append, List.flatten_append]
  cases hreading : t.server.reading a with
  | none => simp [ofTag]
  | some p =>
    rw [hreading] at hnothing
    have hp := hnothing p rfl
    obtain ⟨conn', bytes⟩ := p
    subst hp
    simp [ofTag]

/-- **Every request that was read is answered.**  While nothing comes from outside and no queue is
full, the threads take at most `rank` steps; and where they can take none, then, unless a request
came to be executed that is undefined: of every connection that is still open, the requests read
from it have been executed, and the replies have been sent or wait for the socket.
SOURCE: server.cc:169-246, io_thread.cc:58-242 -/
theorem requests_get_answered [NeZero n] {store : Store} {k : ℕ}
    (h : TrafficReachable NeverAccepted store t) (hrun : Settles t k t') :
    k ≤ rank t.server ∧
      (AtRest t'.server → MeetsUndefined t'.server ∨
        ∀ i fd client, (t'.server.io i).connections fd = some client →
          (executedFor t'.server client.id).map LogEntry.request =
              parse (receivedFrom t client.id) ∧
            sentTo t' client.id ++ client.conn.outBuffer =
              serializeAll (repliesTo t'.server client.id)) := by
  obtain ⟨⟨hreachable, hreceived⟩, hsteps⟩ := hrun.length_le_of_invariant
    (I := fun u => TrafficReachable NeverAccepted store u ∧
      ∀ conn, receivedFrom u conn = receivedFrom t conn) (fun u => rank u.server)
    ⟨h, fun _ => rfl⟩
    (fun u a u' hu hguard hstep => ⟨hu.1.tail (accepts_of_calm hguard.1) hstep, fun conn =>
      (receivedFrom_of_calm hguard.1 hstep conn).trans (hu.2 conn)⟩)
    (fun u a u' hu hguard hstep => rank_step (served_of_reachable hu.1) hguard.1 hguard.2 hstep)
  refine ⟨by omega, fun hrest => ?_⟩
  obtain hundefined | hmain := main_of_atRest hrest
  · exact Or.inl hundefined
  · right
    intro i fd client hclient
    have hwaiting : Waiting t'.server := ⟨hmain, io_of_atRest hrest⟩
    obtain ⟨hexecuted, hsent, -⟩ := hwaiting.answered hreachable hclient
    rw [hreceived] at hexecuted
    exact ⟨hexecuted, hsent⟩

end Runs

/-- A client has connected, and its `PING` has been read. -/
def pingRead : List (Server.Action 1) :=
  acceptRun [] ++ inboxRun 0 [] ++ pingRun .wouldBlockOrInterrupted 0

/-- The steps that follow from it, of the main thread and then of the IO thread. -/
def pingAnswered (i : Fin 1) : List (Server.Action 1) :=
  List.replicate 8 (.main ⟨[.command], none, 0⟩) ++
    List.replicate 4 (.io i ⟨[.inbox], ⟨[], .wouldBlockOrInterrupted⟩, [.sent 7]⟩)

instance {n : ℕ} (s : Server n) : Decidable (Roomy s) :=
  inferInstanceAs (Decidable (∀ i, (s.io i).inbox.items.length < kQueueCapacity ∧
    (s.io i).outbox.items.length < kQueueCapacity))

/-- In these steps nothing is accepted or received.
SOURCE: server.cc:170-246, io_thread.cc:77-242 -/
theorem calm_pingAnswered (i : Fin 1) : ∀ a ∈ pingAnswered i, Calm a := by
  intro a ha
  rcases List.mem_append.mp ha with ha | ha
  · rw [List.eq_of_mem_replicate ha]
    exact ⟨rfl, rfl⟩
  · rw [List.eq_of_mem_replicate ha]
    exact ⟨rfl, rfl⟩

/-- One client has sent PING, and is answered in twelve steps.
SOURCE: server.cc:170-246, io_thread.cc:77-242 -/
theorem requests_get_answered_ping :
    ∃ t t' : Traffic 1, TrafficReachable NeverAccepted Store.empty t ∧ Settles t 12 t' ∧
      sentTo t 0 = [] ∧ sentTo t' 0 = ascii "+PONG\r\n" ∧ 12 ≤ rank t.server := by
  have hrun : ((runAll Traffic.step (fun t a => Accepts NeverAccepted t.server a)
      (Traffic.init Store.empty) pingRead).bind fun t =>
        (runAll Traffic.step (fun t _ => Roomy t.server) t (pingAnswered 0)).map fun t' =>
          (sentTo t 0, sentTo t' 0)) = some ([], ascii "+PONG\r\n") := by
    decide +kernel
  obtain ⟨t, ht, hrest⟩ := Option.bind_eq_some_iff.mp hrun
  obtain ⟨t', ht', hsent⟩ := Option.map_eq_some_iff.mp hrest
  rw [Prod.mk.injEq] at hsent
  have hreachable : TrafficReachable NeverAccepted Store.empty t := reaches_of_runAll ht
  have hsettles : Settles t 12 t' := run_of_runAll ht' (calm_pingAnswered 0)
  exact ⟨t, t', hreachable, hsettles, hsent.1, hsent.2,
    (requests_get_answered hreachable hsettles).1⟩

end Settling

end MyRedis.Analysis

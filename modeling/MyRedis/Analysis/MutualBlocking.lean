import MyRedis.Analysis.ReplyIsolation

/-!
# The main thread and an IO thread blocking each other

The main thread posts to an IO thread, and the IO thread emits to the main thread, by trying
until there is room.  Neither empties its own queue while it tries.  So both are stuck for
good when both queues are full (`MutuallyBlocked.step`), and this is reached: while the main
thread accepts connections, an IO thread can fill its outbox and begin to emit one more
batch, and then the main thread can fill the inbox (`mutuallyBlocked_reachable`).

The messages between the two, `exchange`, are then as many as there can be: both queues, one
message being posted and one being emitted (`exchange_full_iff`).  A step adds at most one,
and `adds` says which steps do (`exchange_step`).  So the two do not block each other in a
run in which messages are added only while there are at most as many as the queues can hold
together (`not_mutuallyBlocked`).
-/

set_option autoImplicit false

namespace MyRedis.Analysis

open MyRedis.Model MyRedis.Lib

variable {n : ℕ}

/-- The main thread is trying to post to thread `i`, thread `i` is trying to emit, and both
queues are full. -/
structure MutuallyBlocked (s : Server n) (i : Fin n) : Prop where
  posting : posting i s.busy ≠ []
  inbox : (s.io i).inbox.items.length = kQueueCapacity
  emitting : pendingOf (s.io i).busy ≠ none
  outbox : (s.io i).outbox.items.length = kQueueCapacity

/-! ## Neither can move -/

/-- The main thread posts to a thread when it assigns a connection to it or answers it.
SOURCE: server.cc:198-242 -/
theorem posting_ne_nil {i : Fin n} {busy : MainBusy n} (h : posting i busy ≠ []) :
    (∃ conn fd, busy = .postAssign i conn fd) ∨
      ∃ conn answers fd bytes, busy = .postResponse i conn answers fd bytes := by
  cases busy with
  | postAssign j conn fd =>
    have hj : j = i := by
      by_contra hj
      exact h (if_neg hj)
    exact Or.inl ⟨conn, fd, by rw [hj]⟩
  | postResponse j conn answers fd bytes =>
    have hj : j = i := by
      by_contra hj
      exact h (if_neg hj)
    exact Or.inr ⟨conn, answers, fd, bytes, by rw [hj]⟩
  | idle | notify | execute => exact absurd rfl h

section Blocked

variable {s s' : Server n} {i j : Fin n}

/-- The main thread cannot push.
SOURCE: io_thread.cc:61-64, 71-74 -/
theorem MutuallyBlocked.mainStep {input : MainInput} (h : MutuallyBlocked s i)
    (hs : s.mainStep input = some s') : s' = s := by
  have hpost (msg : InboxMsg) : s.postInbox i msg = s := by
    have hpush : (s.io i).inbox.push msg = none := BoundedQueue.push_eq_none.mpr h.inbox
    simp only [Server.postInbox, hpush]
  obtain ⟨conn, fd, hbusy⟩ | ⟨conn, answers, fd, bytes, hbusy⟩ := posting_ne_nil h.posting
  · simp only [Server.mainStep, hbusy, hpost] at hs
    exact (Option.some.inj hs).symm
  · simp only [Server.mainStep, hbusy, hpost] at hs
    exact (Option.some.inj hs).symm

/-- The threads remain blocked while the IO thread goes through its loop.
SOURCE: server.cc:198-246, io_thread.cc:58-242 -/
theorem MutuallyBlocked.of_busy (h : MutuallyBlocked s i) (busy : IoBusy)
    (hmain : s'.busy = s.busy) (hio : s'.io i = { s.io i with busy := busy })
    (hpending : pendingOf busy ≠ none) : MutuallyBlocked s' i := by
  refine ⟨?_, ?_, ?_, ?_⟩
  · rw [hmain]
    exact h.posting
  · rw [hio]
    exact h.inbox
  · rw [hio]
    exact hpending
  · rw [hio]
    exact h.outbox

/-- The IO thread cannot push: it nudges the main thread and tries again.
SOURCE: io_thread.cc:230-234 -/
theorem MutuallyBlocked.ioStep {input : IoInput} (h : MutuallyBlocked s i)
    (hs : s.ioStep i input = some s') : MutuallyBlocked s' i := by
  cases hbusy : (s.io i).busy with
  | emit msg =>
    have hpush : (s.io i).outbox.push msg = none := BoundedQueue.push_eq_none.mpr h.outbox
    simp only [Server.ioStep, hbusy, Server.pushOutbox, hpush] at hs
    cases hs
    exact h.of_busy (.nudge msg) rfl (Function.update_self ..) (Option.some_ne_none msg)
  | nudge msg =>
    simp only [Server.ioStep, hbusy] at hs
    cases hs
    exact h.of_busy (.emit msg) rfl (Function.update_self ..) (Option.some_ne_none msg)
  | idle | notify =>
    have hemitting := h.emitting
    rw [hbusy] at hemitting
    exact absurd rfl hemitting

/-- **Two threads that block each other do so for ever.**
SOURCE: io_thread.cc:61-64, 71-74, 230-234 -/
theorem MutuallyBlocked.step {a : Server.Action n} (h : MutuallyBlocked s i)
    (hs : s.step a = some s') : MutuallyBlocked s' i := by
  cases a with
  | main input =>
    rw [h.mainStep hs]
    exact h
  | io j input =>
    by_cases hj : j = i
    · subst hj
      exact h.ioStep hs
    · have hframe := ioStep_frame hs
      exact h.of_busy (s.io i).busy hframe.busy (hframe.io i (Ne.symm hj)) h.emitting

end Blocked

/-! ## The messages between the main thread and an IO thread -/

/-- The messages in the queues of a thread, and the one it is emitting. -/
def ioLoad (t : IoThread) : ℕ :=
  t.inbox.items.length + (pendingOf t.busy).toList.length + t.outbox.items.length

/-- The message to thread `i` in the hands of the main thread: the one it is posting, or the
response to the batch it is executing. -/
def mainLoad (i : Fin n) (fdToThread : Fd → Option (Fin n)) : MainBusy n → ℕ
  | .idle => 0
  | .postAssign j _ _ => if j = i then 1 else 0
  | .postResponse j _ _ _ _ => if j = i then 1 else 0
  | .notify _ => 0
  | .execute _ _ fd _ _ => if fdToThread fd = some i then 1 else 0

/-- The messages between the main thread and thread `i`. -/
def exchange (s : Server n) (i : Fin n) : ℕ :=
  ioLoad (s.io i) + mainLoad i s.fdToThread s.busy

/-- Does the main thread take a message to thread `i` in its hands?  It accepts a connection
for the thread, or pops a batch of another thread to be answered to it.  A batch of thread
`i` itself is counted already. -/
def mainAdds (s : Server n) (input : MainInput) (i : Fin n) : Bool :=
  match s.busy, s.todo with
  | .idle, .acceptConnections :: _ => input.accepted.isSome && s.nextThread == i
  | .idle, .processCommands j :: _ =>
    match (s.io j).outbox.items with
    | .commandBatch _ fd _ :: _ => j != i && s.fdToThread fd == some i
    | _ => false
  | _, _ => false

/-- Does the thread begin to emit?  It has read at least one request, or closes a connection. -/
def ioAdds (t : IoThread) (input : IoInput) : Bool :=
  match t.busy, t.todo with
  | .idle, .handleReadable fd :: _ =>
    match t.connections fd with
    | none => false
    | some client => !(handleReadable client.conn input.reads).batch.isEmpty
  | .idle, .closeConnection fd :: _ => (t.connections fd).isSome
  | _, _ => false

/-- Does the step add a message to the exchange with thread `i`? -/
def adds (s : Server n) (i : Fin n) : Server.Action n → Bool
  | .main input => mainAdds s input i
  | .io j input => j == i && ioAdds (s.io j) input

/-- A step that adds a message to an exchange is taken only while this has at most as many as
the two queues can hold. -/
def Paced (s : Server n) (a : Server.Action n) : Prop :=
  ∀ i, adds s i a = true → exchange s i ≤ 2 * kQueueCapacity

instance (s : Server n) (a : Server.Action n) : Decidable (Paced s a) :=
  inferInstanceAs (Decidable (∀ i, adds s i a = true → exchange s i ≤ 2 * kQueueCapacity))

/-- The main thread has at most one message in its hands.
SOURCE: server.cc:198-242 -/
theorem mainLoad_le_one (i : Fin n) (fdToThread : Fd → Option (Fin n)) (busy : MainBusy n) :
    mainLoad i fdToThread busy ≤ 1 := by
  cases busy with
  | idle | notify => exact Nat.zero_le 1
  | postAssign | postResponse | execute =>
    simp only [mainLoad]
    split_ifs <;> omega

/-- A message that is being posted is the one.
SOURCE: server.cc:198-242 -/
theorem mainLoad_of_posting {i : Fin n} {busy : MainBusy n} (h : posting i busy ≠ [])
    (fdToThread : Fd → Option (Fin n)) : mainLoad i fdToThread busy = 1 := by
  obtain ⟨conn, fd, rfl⟩ | ⟨conn, answers, fd, bytes, rfl⟩ := posting_ne_nil h
  · exact if_pos rfl
  · exact if_pos rfl

/-! ### What a step adds -/

section Step

variable {s s' : Server n} {i j : Fin n}

/-- A step that changes thread `j` and what the main thread has in its hands.
SOURCE: server.cc:198-246, io_thread.cc:58-242 -/
theorem exchange_le_of_update {t : IoThread} {d : ℕ} (hio : s'.io = Function.update s.io j t)
    (hself : i = j → ioLoad t + mainLoad j s'.fdToThread s'.busy ≤
      ioLoad (s.io j) + mainLoad j s.fdToThread s.busy + d)
    (hother : i ≠ j → mainLoad i s'.fdToThread s'.busy ≤ mainLoad i s.fdToThread s.busy + d) :
    exchange s' i ≤ exchange s i + d := by
  unfold exchange
  rw [hio]
  by_cases hij : i = j
  · have hle := hself hij
    subst hij
    rwa [Function.update_self]
  · have hle := hother hij
    rw [Function.update_of_ne hij]
    omega

/-- A message is counted before and after its `Push`.
SOURCE: io_thread.cc:61-64, 71-74 -/
theorem exchange_postInbox (hload : mainLoad j s.fdToThread s.busy = 1) (msg : InboxMsg)
    (i : Fin n) : exchange (s.postInbox j msg) i ≤ exchange s i := by
  cases hpush : (s.io j).inbox.push msg with
  | none => simp only [Server.postInbox, hpush, Nat.le_refl]
  | some inbox =>
    have hitems := (BoundedQueue.push_eq_some hpush).2
    simp only [Server.postInbox, hpush]
    refine exchange_le_of_update (d := 0) rfl ?_ fun _ => Nat.zero_le _
    intro _
    rw [hload]
    simp only [ioLoad, mainLoad, hitems, List.length_append, List.length_singleton]
    omega

/-- The response to a batch takes the place of the batch.
SOURCE: server.cc:229-242 -/
theorem exchange_executeAndRespond {now : Int64} {conn : ConnId} {answers : List LogEntry} {fd : Fd}
    {values : List RespValue} {response : Bytes}
    (hbusy : s.busy = .execute conn answers fd values response)
    (h : s.executeAndRespond now conn answers fd values response = some s') (i : Fin n) :
    exchange s' i ≤ exchange s i := by
  unfold exchange
  rw [hbusy]
  unfold Server.executeAndRespond at h
  split at h
  · split at h
    · cases h
    · cases h
      exact Nat.le_refl _
  · simp only at h
    split at h
    · cases h
      exact Nat.add_le_add_left (Nat.zero_le _) _
    · rename_i j hroute
      cases h
      simp only [mainLoad, hroute, Option.some.injEq, Nat.le_refl]

/-- A batch popped from the outbox of the thread it is answered to is counted already.
SOURCE: server.cc:215-227 -/
theorem exchange_processCommands {rest : List (MainTask n)} (hbusy : s.busy = .idle)
    (htodo : s.todo = .processCommands j :: rest) (input : MainInput) (i : Fin n) :
    exchange (s.processCommands j rest) i ≤ exchange s i + (mainAdds s input i).toNat := by
  cases hpop : (s.io j).outbox.pop with
  | none =>
    simp only [Server.processCommands, hpop]
    exact Nat.le_add_right _ _
  | some popped =>
    obtain ⟨msg, outbox⟩ := popped
    have hitems := BoundedQueue.pop_eq_some hpop
    have hload : ioLoad (s.io j) = ioLoad { s.io j with outbox := outbox } + 1 := by
      simp only [ioLoad, hitems, List.length_cons]
      omega
    cases msg with
    | disconnect conn fd =>
      simp only [Server.processCommands, hpop]
      refine exchange_le_of_update rfl (fun _ => ?_) (fun _ => ?_)
      · simp only [Server.setIo, hbusy, mainLoad, hload]
        omega
      · simp only [Server.setIo, hbusy, mainLoad]
        omega
    | commandBatch conn fd values =>
      simp only [Server.processCommands, hpop]
      refine exchange_le_of_update rfl (fun _ => ?_) (fun hij => ?_)
      · have hone := mainLoad_le_one j s.fdToThread (.execute conn [] fd values [])
        show ioLoad { s.io j with outbox := outbox } +
          mainLoad j s.fdToThread (.execute conn [] fd values []) ≤ _
        omega
      · have hadds : mainAdds s input i = (s.fdToThread fd == some i) := by
          simp only [mainAdds, hbusy, htodo, hitems, bne, beq_eq_false_iff_ne.mpr (Ne.symm hij),
            Bool.not_false, Bool.true_and]
        show (if s.fdToThread fd = some i then 1 else 0) ≤ _
        rw [hadds]
        split_ifs with hroute
        · rw [beq_iff_eq.mpr hroute]
          exact Nat.le_add_left _ _
        · exact Nat.zero_le _

/-- A step of the main thread adds to an exchange the connection that it accepts, and nothing else.
SOURCE: server.cc:198-242 -/
theorem exchange_mainStep {input : MainInput} (h : s.mainStep input = some s') (i : Fin n) :
    exchange s' i ≤ exchange s i + (mainAdds s input i).toNat := by
  unfold Server.mainStep at h
  split at h
  · rename_i j conn fd hbusy
    cases h
    refine (exchange_postInbox ?_ _ i).trans (Nat.le_add_right _ _)
    rw [hbusy]
    exact if_pos rfl
  · rename_i j conn answers fd bytes hbusy
    cases h
    refine (exchange_postInbox ?_ _ i).trans (Nat.le_add_right _ _)
    rw [hbusy]
    exact if_pos rfl
  · rename_i j hbusy
    cases h
    refine exchange_le_of_update rfl (fun _ => ?_) fun _ => Nat.zero_le _
    exact Nat.le_trans (Nat.add_le_add_left (Nat.zero_le _) _) (Nat.le_add_right _ _)
  · rename_i hbusy
    exact (exchange_executeAndRespond hbusy h i).trans (Nat.le_add_right _ _)
  · split_ifs at h
    cases h
    exact Nat.le_add_right _ _
  · cases h
    exact Nat.le_add_right _ _
  · cases h
    exact Nat.le_add_right _ _
  · rename_i hbusy htodo
    split at h
    · cases h
      exact Nat.le_add_right _ _
    · rename_i fd haccepted
      split_ifs at h
      cases h
      have hadds : mainAdds s input i = (s.nextThread == i) := by
        simp only [mainAdds, hbusy, htodo, haccepted, Option.isSome_some, Bool.true_and]
      rw [hadds]
      show ioLoad (s.io i) + (if s.nextThread = i then 1 else 0) ≤ ioLoad (s.io i) + _ + _
      split_ifs with hi
      · rw [beq_iff_eq.mpr hi, Bool.toNat_true]
        omega
      · omega
  · rename_i hbusy htodo
    cases h
    exact exchange_processCommands hbusy htodo input i

/-- A flush adds no message.
SOURCE: io_thread.cc:188-213 -/
theorem ioLoad_flushClient {t t' : IoThread} {fd : Fd} {client : Client} {sends : List SendResult}
    (h : Server.flushClient t fd client sends = some t') : ioLoad t' = ioLoad t := by
  obtain ⟨r, -, rfl⟩ := Option.map_eq_some_iff.mp h
  rfl

/-- A message is counted before and after it is pushed to the outbox.
SOURCE: io_thread.cc:230-234 -/
theorem ioLoad_pushOutbox {msg : OutboxMsg} (hbusy : (s.io i).busy = .emit msg) :
    ioLoad ((s.pushOutbox i msg).io i) = ioLoad (s.io i) := by
  cases hpush : (s.io i).outbox.push msg with
  | none =>
    simp only [Server.pushOutbox, hpush, Server.setIo, Function.update_self, ioLoad, hbusy,
      pendingOf]
  | some outbox =>
    have hitems := (BoundedQueue.push_eq_some hpush).2
    simp only [Server.pushOutbox, hpush, Server.setIo, Function.update_self, ioLoad, hbusy,
      pendingOf, hitems, List.length_append, Option.toList_some, Option.toList_none,
      List.length_singleton, List.length_nil]
    omega

/-- Taking a message out of the inbox adds none.
SOURCE: io_thread.cc:108-137 -/
theorem ioLoad_drainInbox {rest : List IoTask} {sends : List SendResult}
    (h : s.drainInbox i rest sends = some s') : ioLoad (s'.io i) ≤ ioLoad (s.io i) := by
  have hset (t : IoThread) : (s.setIo i t).io i = t := Function.update_self ..
  have hpopped {msg : InboxMsg} {inbox : BoundedQueue InboxMsg kQueueCapacity}
      (hpop : (s.io i).inbox.pop = some (msg, inbox)) :
      ioLoad { s.io i with inbox := inbox } ≤ ioLoad (s.io i) := by
    simp only [ioLoad, BoundedQueue.pop_eq_some hpop, List.length_cons]
    omega
  unfold Server.drainInbox at h
  simp only at h
  split at h
  · cases h
    rw [hset]
    exact Nat.le_refl _
  · rename_i conn fd inbox hpop
    cases h
    rw [hset]
    refine Nat.le_trans (Nat.le_of_eq ?_) (hpopped hpop)
    unfold Server.handleAssign
    split <;> rfl
  · rename_i conn answers fd bytes inbox hpop
    split at h
    · cases h
      rw [hset]
      exact hpopped hpop
    · obtain ⟨t, ht, rfl⟩ := Option.map_eq_some_iff.mp h
      show ioLoad ((s.setIo i t).io i) ≤ _
      rw [hset, ioLoad_flushClient ht]
      exact hpopped hpop

/-- A readable event adds the batch that it completes.
SOURCE: io_thread.cc:139-180 -/
theorem ioLoad_handleReadableTask {t : IoThread} {fd : Fd} {rest : List IoTask}
    (hbusy : t.busy = .idle) (htodo : t.todo = .handleReadable fd :: rest) (input : IoInput) :
    ioLoad (Server.handleReadableTask t fd rest input.reads) ≤
      ioLoad t + (ioAdds t input).toNat := by
  cases hclient : t.connections fd with
  | none =>
    simp only [Server.handleReadableTask, hclient]
    exact Nat.le_add_right _ _
  | some client =>
    simp only [Server.handleReadableTask, ioAdds, ioLoad, hbusy, htodo, hclient]
    cases (handleReadable client.conn input.reads).batch with
    | nil => exact Nat.le_add_right _ _
    | cons value values =>
      rw [if_neg (List.cons_ne_nil value values)]
      simp only [pendingOf, Option.toList_some, Option.toList_none, List.length_singleton,
        List.length_nil, List.isEmpty_cons, Bool.not_false, Bool.toNat_true]
      omega

/-- A connection that is closed adds its notice.
SOURCE: io_thread.cc:215-222 -/
theorem ioLoad_closeConnection {fd : Fd} {rest : List IoTask} (hbusy : (s.io i).busy = .idle)
    (htodo : (s.io i).todo = .closeConnection fd :: rest) (input : IoInput) :
    ioLoad ((s.closeConnection i fd rest).io i) ≤
      ioLoad (s.io i) + (ioAdds (s.io i) input).toNat := by
  cases hclient : (s.io i).connections fd with
  | none =>
    simp only [Server.closeConnection, hclient, Server.setIo, Function.update_self]
    exact Nat.le_add_right _ _
  | some client =>
    simp only [Server.closeConnection, hclient, Server.setIo, Function.update_self, ioAdds, ioLoad,
      hbusy, htodo, pendingOf, Option.isSome_some, Option.toList_some, Option.toList_none,
      List.length_singleton, List.length_nil, Bool.toNat_true]
    omega

/-- A step of an IO thread adds what it begins to emit, and nothing else.
SOURCE: io_thread.cc:77-242 -/
theorem ioLoad_ioStep {input : IoInput} (h : s.ioStep i input = some s') :
    ioLoad (s'.io i) ≤ ioLoad (s.io i) + (ioAdds (s.io i) input).toNat := by
  have hset (t : IoThread) : (s.setIo i t).io i = t := Function.update_self ..
  unfold Server.ioStep at h
  simp only at h
  split at h
  · rename_i msg hbusy
    cases h
    rw [ioLoad_pushOutbox hbusy]
    exact Nat.le_add_right _ _
  · rename_i msg hbusy
    cases h
    show ioLoad ((s.setIo i _).io i) ≤ _
    rw [hset]
    simp only [ioLoad, hbusy, pendingOf]
    exact Nat.le_add_right _ _
  · rename_i hbusy
    cases h
    show ioLoad ((s.setIo i _).io i) ≤ _
    rw [hset]
    simp only [ioLoad, hbusy, pendingOf]
    exact Nat.le_add_right _ _
  · split_ifs at h
    cases h
    rw [hset]
    exact Nat.le_add_right _ _
  · rename_i ev rest hbusy htodo
    cases h
    rw [hset]
    refine Nat.le_trans (Nat.le_of_eq ?_) (Nat.le_add_right _ _)
    unfold Server.handleEvent
    split
    · rfl
    · split_ifs <;> rfl
  · exact (ioLoad_drainInbox h).trans (Nat.le_add_right _ _)
  · rename_i fd rest hbusy htodo
    cases h
    rw [hset]
    exact ioLoad_handleReadableTask hbusy htodo input
  · obtain ⟨t, ht, rfl⟩ := Option.map_eq_some_iff.mp h
    rw [hset]
    refine Nat.le_trans (Nat.le_of_eq ?_) (Nat.le_add_right _ _)
    unfold Server.handleWritable at ht
    simp only at ht
    split at ht
    · cases ht
      rfl
    · rw [ioLoad_flushClient ht]
      rfl
  · rename_i fd rest hbusy htodo
    cases h
    exact ioLoad_closeConnection hbusy htodo input

/-- **What a step adds to an exchange.**
SOURCE: server.cc:198-246, io_thread.cc:58-242 -/
theorem exchange_step {a : Server.Action n} (h : s.step a = some s') (i : Fin n) :
    exchange s' i ≤ exchange s i + (adds s i a).toNat := by
  cases a with
  | main input => exact exchange_mainStep h i
  | io j input =>
    have hframe := ioStep_frame h
    unfold exchange
    rw [hframe.busy, hframe.fdToThread]
    by_cases hij : i = j
    · subst hij
      have hload := ioLoad_ioStep h
      simp only [adds, beq_self_eq_true, Bool.true_and]
      omega
    · rw [hframe.io i hij]
      exact Nat.le_add_right _ _

end Step

/-- An exchange is as large as it can be when both queues are full, the IO thread is emitting,
and the main thread is posting to it or will do so after the batch in execution.
SOURCE: server.cc:198-246, io_thread.cc:58-242 -/
theorem exchange_full_iff {s : Server n} {i : Fin n} :
    exchange s i = 2 * kQueueCapacity + 2 ↔
      (s.io i).inbox.items.length = kQueueCapacity ∧
      (s.io i).outbox.items.length = kQueueCapacity ∧ pendingOf (s.io i).busy ≠ none ∧
      mainLoad i s.fdToThread s.busy = 1 := by
  have hinbox := (s.io i).inbox.bounded
  have houtbox := (s.io i).outbox.bounded
  have hmain := mainLoad_le_one i s.fdToThread s.busy
  unfold exchange ioLoad
  cases pendingOf (s.io i).busy with
  | none =>
    rw [Option.toList_none, List.length_nil]
    constructor
    · intro h
      omega
    · rintro ⟨-, -, hne, -⟩
      exact absurd rfl hne
  | some msg =>
    rw [Option.toList_some, List.length_singleton]
    constructor
    · intro h
      exact ⟨by omega, by omega, Option.some_ne_none msg, by omega⟩
    · rintro ⟨hin, hout, -, hload⟩
      omega

/-- Two threads that block each other have as many messages as there can be.
SOURCE: server.cc:198-246, io_thread.cc:58-242 -/
theorem MutuallyBlocked.exchange_eq {s : Server n} {i : Fin n} (h : MutuallyBlocked s i) :
    exchange s i = 2 * kQueueCapacity + 2 :=
  exchange_full_iff.mpr ⟨h.inbox, h.outbox, h.emitting, mainLoad_of_posting h.posting _⟩

/-- **No mutual blocking** in a run in which messages are added to an exchange only while it
has at most as many as the two queues can hold.
SOURCE: server.cc:198-246, io_thread.cc:58-242 -/
theorem not_mutuallyBlocked [NeZero n] {store : Store} {s : Server n}
    (h : Reaches (fun s a s' => s.step a = some s') Paced (Server.init store) s) (i : Fin n) :
    ¬ MutuallyBlocked s i := by
  have hbound : ∀ i, exchange s i ≤ 2 * kQueueCapacity + 1 := by
    apply Reaches.invariant (I := fun s => ∀ i, exchange s i ≤ 2 * kQueueCapacity + 1) _ _ h
    · exact fun i => Nat.zero_le _
    · intro s a s' hs hpaced hstep j
      have hstep := exchange_step hstep j
      cases hadds : adds s j a with
      | false =>
        rw [hadds] at hstep
        exact hstep.trans (hs j)
      | true =>
        rw [hadds] at hstep
        exact hstep.trans (Nat.succ_le_succ (hpaced j hadds))
  intro hblocked
  have hfull := hblocked.exchange_eq
  have hle := hbound i
  omega

/-- One client is served in such a run.
SOURCE: server.cc:198-246, io_thread.cc:58-242 -/
theorem not_mutuallyBlocked_orderly :
    ∃ s : Server 1,
      Reaches (fun s a s' => s.step a = some s') Paced (Server.init Store.empty) s ∧
        s.appended.length = 1 ∧ ¬ MutuallyBlocked s 0 := by
  have hrun : (runAll Server.step Paced (Server.init Store.empty) orderlyRun).map
      (fun s => s.appended.length) = some 1 := by
    decide +kernel
  obtain ⟨s, hs, hlength⟩ := Option.map_eq_some_iff.mp hrun
  have hreaches := reaches_of_runAll hs
  exact ⟨s, hreaches, hlength, not_mutuallyBlocked hreaches 0⟩

/-! ## How the two come to block each other -/

/-- The thread that is set is there. -/
theorem Server.setIo_io (s : Server n) (i : Fin n) (t : IoThread) : (s.setIo i t).io i = t :=
  Function.update_self ..

/-- The last one that is set counts. -/
theorem Server.setIo_setIo (s : Server n) (i : Fin n) (t t' : IoThread) :
    (s.setIo i t).setIo i t' = s.setIo i t' := by
  simp only [Server.setIo, Function.update_idem]

/-- Every step leads to a state that is reached by some run.
SOURCE: server.cc:198-246, io_thread.cc:58-242 -/
theorem reachable_step [NeZero n] {store : Store} {s s' : Server n} {a : Server.Action n}
    (h : Reachable AnyFd store s) (hs : s.step a = some s') : Reachable AnyFd store s' :=
  h.tail (fun _ _ => trivial) hs

/-- A client of thread 0 is there, and the main thread is going to accept more connections.
Thread 0 has `k` messages in its outbox and `m` in its inbox. -/
structure Accepting (busy : IoBusy) (k m : ℕ) (s : Server 1) : Prop where
  main_busy : s.busy = .idle
  main_todo : s.todo = [.acceptConnections]
  closed : ∀ fd, m < fd → s.files fd = none
  io_busy : (s.io 0).busy = busy
  io_todo : (s.io 0).todo = []
  inboxEvent : (s.io 0).inboxEvent = m
  inbox : (s.io 0).inbox.items.length = m
  outbox : (s.io 0).outbox.items.length = k
  client : (s.io 0).connections 0 = some ⟨0, .new 0⟩

/-- The first client is accepted on descriptor 0 and taken over. -/
def startRun : List (Server.Action 1) :=
  [.main { events := [.listen] }, .main {}, .main { accepted := some 0 }, .main {}, .main {}] ++
    inboxRun 0 []

/-- The main thread is in the loop of `AcceptConnections`, and thread 0 serves the first connection.
SOURCE: server.cc:198-213 -/
theorem accepting_start : ∃ s, Reachable AnyFd Store.empty s ∧ Accepting .idle 0 0 s := by
  have hrun : ∃ s, runAll Server.step (Accepts AnyFd) (Server.init Store.empty) startRun = some s ∧
      Accepting .idle 0 0 s := by
    refine ⟨_, rfl, rfl, rfl, ?_, rfl, rfl, rfl, rfl, rfl, rfl⟩
    intro fd hfd
    exact Function.update_of_ne (Nat.ne_of_gt hfd) _ _
  obtain ⟨s, hs, haccepting⟩ := hrun
  exact ⟨s, reaches_of_runAll hs, haccepting⟩

/-- The client has sent a `PING`. -/
def pingEvent : ReadableEvent := ⟨[pingChunk], .wouldBlockOrInterrupted⟩

/-- A PING is a batch of one request and leaves the connection as new.
SOURCE: io_thread.cc:139-180 -/
theorem handleReadable_ping : (handleReadable (.new 0) pingEvent).conn = .new 0 ∧
    (handleReadable (.new 0) pingEvent).batch ≠ [] ∧
    (handleReadable (.new 0) pingEvent).close = false := by
  have hconn : (handleReadable (.new 0) pingEvent).conn.fd = 0 ∧
      (handleReadable (.new 0) pingEvent).conn.parseQueue.buffer = [] ∧
      (handleReadable (.new 0) pingEvent).conn.parseQueue.values.length = 0 ∧
      (handleReadable (.new 0) pingEvent).conn.outBuffer = [] ∧
      (handleReadable (.new 0) pingEvent).conn.writable = false := by
    decide +kernel
  have hbatch : (handleReadable (.new 0) pingEvent).batch.length = 1 := by
    decide +kernel
  have hclose : (handleReadable (.new 0) pingEvent).close = false := by
    decide +kernel
  refine ⟨?_, ?_, hclose⟩
  · obtain ⟨⟨fd, ⟨buffer, values⟩, outBuffer, writable⟩, heq⟩ :
        ∃ conn, (handleReadable (.new 0) pingEvent).conn = conn := ⟨_, rfl⟩
    rw [heq] at hconn ⊢
    obtain ⟨rfl, rfl, hvalues, rfl, rfl⟩ := hconn
    cases List.length_eq_zero_iff.mp hvalues
    rfl
  · intro hnil
    rw [hnil] at hbatch
    cases hbatch

section Accepting

variable {busy : IoBusy} {k m : ℕ} {s : Server 1}

/-- Thread 0 reads a batch and begins to emit it.
SOURCE: io_thread.cc:139-180 -/
theorem Accepting.read (h : Accepting .idle k 0 s) (hreach : Reachable AnyFd Store.empty s) :
    ∃ msg s', Reachable AnyFd Store.empty s' ∧ Accepting (.emit msg) k 0 s' := by
  obtain ⟨hconn, hbatch, hclose⟩ := handleReadable_ping
  let batch := (handleReadable (.new 0) pingEvent).batch
  let t := s.io 0
  let t₁ : IoThread := { t with busy := .idle, todo := [.event (.client 0 false true false)] }
  let t₂ : IoThread := { t with busy := .idle, todo := [.handleReadable 0] }
  let t₃ : IoThread := { t with
    connections := Function.update t.connections 0 (some ⟨0, .new 0⟩)
    busy := .emit (.commandBatch 0 0 batch)
    todo := [] }
  have hreport : t.MayReport [.client 0 false true false] := by
    refine ⟨List.cons_ne_nil _ _, by decide, List.nodup_singleton _, ?_, ?_⟩
    · intro ev hev
      rw [List.mem_singleton.mp hev]
      simp only [IoThread.ready, t, h.client, Bool.not_false, Bool.true_or]
    · intro hpos
      rw [h.inboxEvent] at hpos
      exact absurd hpos (Nat.lt_irrefl 0)
  have h₁ : s.step (.io 0 { events := [.client 0 false true false] }) = some (s.setIo 0 t₁) := by
    simp only [Server.step, Server.ioStep, h.io_busy, h.io_todo]
    rw [if_pos hreport]
    rfl
  have h₂ : (s.setIo 0 t₁).step (.io 0 {}) = some (s.setIo 0 t₂) := by
    simp only [Server.step, Server.ioStep, Server.setIo_io, t₁, Server.setIo_setIo]
    rfl
  have h₃ : (s.setIo 0 t₂).step (.io 0 { reads := pingEvent }) = some (s.setIo 0 t₃) := by
    simp only [Server.step, Server.ioStep, Server.setIo_io, t₂, t, Server.setIo_setIo,
      Server.handleReadableTask, h.client, hconn, hclose]
    rw [if_neg hbatch]
    rfl
  refine ⟨.commandBatch 0 0 batch, s.setIo 0 t₃, ?_, ?_⟩
  · exact reachable_step (reachable_step (reachable_step hreach h₁) h₂) h₃
  · exact ⟨h.main_busy, h.main_todo, h.closed, rfl, rfl, h.inboxEvent, h.inbox, h.outbox, rfl⟩

/-- Thread 0 pushes what it is emitting.
SOURCE: io_thread.cc:230-234 -/
theorem Accepting.push {msg : OutboxMsg} (h : Accepting (.emit msg) k 0 s)
    (hreach : Reachable AnyFd Store.empty s) (hk : k < kQueueCapacity) :
    ∃ s', Reachable AnyFd Store.empty s' ∧ Accepting .idle (k + 1) 0 s' := by
  have hroom : (s.io 0).outbox.items.length < kQueueCapacity := by
    rw [h.outbox]
    exact hk
  obtain ⟨outbox, hpush, hitems⟩ := BoundedQueue.exists_push msg hroom
  let t := s.io 0
  let s₁ : Server 1 := { s.setIo 0 { t with outbox := outbox, busy := .notify } with
    emitted := s.emitted ++ Server.requests msg }
  have h₁ : s.step (.io 0 {}) = some s₁ := by
    simp only [Server.step, Server.ioStep, h.io_busy, Server.pushOutbox, hpush]
    rfl
  have h₂ : s₁.step (.io 0 {}) = some (s₁.notifyMain 0 .idle) := by
    simp only [Server.step, Server.ioStep]
    rfl
  refine ⟨s₁.notifyMain 0 .idle, reachable_step (reachable_step hreach h₁) h₂, ?_⟩
  refine ⟨h.main_busy, h.main_todo, h.closed, rfl, h.io_todo, h.inboxEvent, h.inbox, ?_, h.client⟩
  show outbox.items.length = k + 1
  rw [hitems, List.length_append, h.outbox]
  rfl

/-- The main thread accepts one more connection.
SOURCE: server.cc:200-212 -/
theorem Accepting.assign (h : Accepting busy k m s) (hreach : Reachable AnyFd Store.empty s) :
    Reachable AnyFd Store.empty (s.assignToIoThread (m + 1)) ∧
      (s.assignToIoThread (m + 1)).busy = .postAssign 0 s.accepted.length (m + 1) := by
  have hstep : s.step (.main { accepted := some (m + 1) }) =
      some (s.assignToIoThread (m + 1)) := by
    simp only [Server.step, Server.mainStep, h.main_busy, h.main_todo]
    rw [if_pos (h.closed (m + 1) (Nat.lt_succ_self m))]
  refine ⟨reachable_step hreach hstep, ?_⟩
  show MainBusy.postAssign s.nextThread _ _ = _
  rw [Subsingleton.elim s.nextThread 0]

/-- An accepted connection is posted while there is room in the inbox.
SOURCE: io_thread.cc:61-64 -/
theorem Accepting.accept (h : Accepting busy k m s) (hreach : Reachable AnyFd Store.empty s)
    (hm : m < kQueueCapacity) :
    ∃ s', Reachable AnyFd Store.empty s' ∧ Accepting busy k (m + 1) s' := by
  obtain ⟨hreach₁, hbusy⟩ := h.assign hreach
  let msg : InboxMsg := .assignConnection s.accepted.length (m + 1)
  have hroom : (s.io 0).inbox.items.length < kQueueCapacity := by
    rw [h.inbox]
    exact hm
  obtain ⟨inbox, hpush, hitems⟩ := BoundedQueue.exists_push msg hroom
  let s₁ := s.assignToIoThread (m + 1)
  let t := s.io 0
  let s₂ : Server 1 := { s₁.setIo 0 { t with inbox := inbox } with busy := .notify 0 }
  let t₃ : IoThread := { t with inbox := inbox, inboxEvent := t.inboxEvent + 1 }
  let s₃ : Server 1 := { s₂.setIo 0 t₃ with busy := .idle }
  have h₂ : s₁.step (.main {}) = some s₂ := by
    have hpush₁ : (s₁.io 0).inbox.push msg = some inbox := hpush
    have hpost : s₁.postInbox 0 msg = s₂ := by
      simp only [Server.postInbox, hpush₁]
      rfl
    rw [← hpost]
    simp only [Server.step, Server.mainStep, s₁, hbusy]
    rfl
  have h₃ : s₂.step (.main {}) = some s₃ := by
    simp only [Server.step, Server.mainStep]
    rfl
  refine ⟨s₃, reachable_step (reachable_step hreach₁ h₂) h₃, ?_⟩
  refine ⟨rfl, h.main_todo, ?_, h.io_busy, h.io_todo, ?_, ?_, h.outbox, h.client⟩
  · intro fd hfd
    show Function.update s.files (m + 1) _ fd = none
    rw [Function.update_of_ne (Nat.ne_of_gt hfd)]
    exact h.closed fd (Nat.lt_of_succ_lt hfd)
  · show (s.io 0).inboxEvent + 1 = m + 1
    rw [h.inboxEvent]
  · show inbox.items.length = m + 1
    rw [hitems, List.length_append, h.inbox]
    rfl

end Accepting

/-- Thread 0 fills its outbox while the main thread is between two calls of `accept`.
SOURCE: io_thread.cc:139-180, 230-234 -/
theorem accepting_outbox (k : ℕ) (hk : k ≤ kQueueCapacity) :
    ∃ s, Reachable AnyFd Store.empty s ∧ Accepting .idle k 0 s := by
  induction k with
  | zero => exact accepting_start
  | succ k ih =>
    obtain ⟨s, hreach, hs⟩ := ih (Nat.le_of_succ_le hk)
    obtain ⟨msg, s₁, hreach₁, hs₁⟩ := hs.read hreach
    exact hs₁.push hreach₁ hk

/-- The main thread fills the inbox while thread 0 is trying to emit.
SOURCE: server.cc:200-212, io_thread.cc:61-64 -/
theorem accepting_inbox (m : ℕ) (hm : m ≤ kQueueCapacity) :
    ∃ msg s, Reachable AnyFd Store.empty s ∧ Accepting (.emit msg) kQueueCapacity m s := by
  induction m with
  | zero =>
    obtain ⟨s, hreach, hs⟩ := accepting_outbox kQueueCapacity (Nat.le_refl _)
    exact hs.read hreach
  | succ m ih =>
    obtain ⟨msg, s, hreach, hs⟩ := ih (Nat.le_of_succ_le hm)
    exact ⟨msg, hs.accept hreach hm⟩

/-- **The main thread and an IO thread can block each other for ever.**
SOURCE: server.cc:198-246, io_thread.cc:58-242 -/
theorem mutuallyBlocked_reachable :
    ∃ s : Server 1, Reachable AnyFd Store.empty s ∧ MutuallyBlocked s 0 ∧
      ∀ s', Reaches (fun s a s' => s.step a = some s') (Accepts AnyFd) s s' →
        MutuallyBlocked s' 0 := by
  obtain ⟨msg, s, hreach, hs⟩ := accepting_inbox kQueueCapacity (Nat.le_refl _)
  obtain ⟨hreach₁, hbusy⟩ := hs.assign hreach
  have hblocked : MutuallyBlocked (s.assignToIoThread (kQueueCapacity + 1)) 0 := by
    refine ⟨?_, hs.inbox, ?_, hs.outbox⟩
    · rw [hbusy]
      exact List.cons_ne_nil _ _
    · show pendingOf (s.io 0).busy ≠ none
      rw [hs.io_busy]
      exact Option.some_ne_none msg
  refine ⟨_, hreach₁, hblocked, ?_⟩
  intro s' hs'
  apply Reaches.invariant (I := fun s => MutuallyBlocked s 0) hblocked _ hs'
  intro s a s' h _ hstep
  exact h.step hstep

end MyRedis.Analysis

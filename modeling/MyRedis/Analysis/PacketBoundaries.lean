import MyRedis.Analysis.QueueChunking
import MyRedis.Model.Connection

/-!
# What is emitted for a connection, and packet boundaries

`IoThread::EmitParsedCommands` collects the requests of one readable event in a local
vector and emits it when `PopValue` has nothing more to return.  `PopValue` parses the
whole buffer before it returns anything, so malformed bytes make its first call throw, and
every request that arrived with the same event is lost.  `batches_flatten_iff` says
exactly when that does not happen: no readable event both completes a request and makes
the stream malformed.

Between two events nothing is queued and the buffer is what is left of the stream
(`Between`); that is the invariant of the induction over the events.
-/

set_option autoImplicit false

namespace MyRedis.Analysis

open MyRedis.Model MyRedis.Model.RespValue MyRedis.Lib

/-- `RespValue::FromString` throws `std::invalid_argument` on what is left of `B`. -/
def Malformed (B : Bytes) : Prop := ∃ what, verdict B = .invalidArgument what

/-- The bytes of a sequence of readable events. -/
def received (evs : List ReadableEvent) : Bytes := evs.flatMap (·.bytes)

/-- The events of one connection: only the last one may report that the peer is gone. -/
def Uninterrupted (evs : List ReadableEvent) : Prop :=
  ∀ ev ∈ evs.dropLast, ev.last = .wouldBlockOrInterrupted

/-- Behind the bytes `B`, an event of `evs` that makes the stream malformed completes no
request. -/
def CleanFrom (B : Bytes) (evs : List ReadableEvent) : Prop :=
  ∀ before ev, before ++ [ev] <+: evs → ¬ Malformed (B ++ received before) →
    Malformed (B ++ received (before ++ [ev])) →
    parse (B ++ received before) = parse (B ++ received (before ++ [ev]))

/-- No readable event both completes a request and makes the stream malformed. -/
def Clean (evs : List ReadableEvent) : Prop := CleanFrom [] evs

/-! ## One event -/

/-- One round of the loop of `EmitParsedCommands`.
SOURCE: io_thread.cc:175-179 -/
theorem popAll_eq (q : RespValueQueue) :
    q.popAll = match q.popValue with
      | (.error e, q) => (.error e, q)
      | (.ok none, q) => (.ok [], q)
      | (.ok (some request), q) => (q.popAll.1.map (request :: ·), q.popAll.2) := by
  rw [RespValueQueue.popAll]
  split
  all_goals next heq => rw [heq]

/-- The loop of `EmitParsedCommands` on a buffer that ends in a malformed value: the first
`PopValue` throws, whatever was parsed before.
SOURCE: io_thread.cc:175-179 -/
theorem popAll_of_invalid {q : RespValueQueue} {what : String}
    (h : verdict q.buffer = .invalidArgument what) :
    q.popAll = (.error (.invalidArgument what),
      ⟨unparsed q.buffer, q.values ++ parse q.buffer⟩) := by
  rw [popAll_eq, popValue_of_invalid h]

/-- The loop of `EmitParsedCommands` otherwise: it empties the queue.
SOURCE: io_thread.cc:175-179 -/
theorem popAll_of_incomplete {q : RespValueQueue} {what : String}
    (h : verdict q.buffer = .outOfRange what) :
    q.popAll = (.ok (q.values ++ parse q.buffer), ⟨unparsed q.buffer, []⟩) := by
  induction hvs : q.values ++ parse q.buffer generalizing q with
  | nil => rw [popAll_eq, popValue_of_incomplete h, hvs]; rfl
  | cons v vs ih =>
    obtain ⟨hleft, hnone, hverdict⟩ := unparsed_of_error (fromString_unparsed q.buffer)
    have hrest := ih (q := ⟨unparsed q.buffer, vs⟩) (hverdict.trans h) (by simp [hnone])
    rw [popAll_eq, popValue_of_incomplete h, hvs]
    simp only [List.head?_cons, List.tail_cons, hrest, hleft]
    rfl

/-- The chunks of an event go behind the buffer.
SOURCE: io_thread.cc:161-165 -/
theorem foldl_pushString (chunks : List Chunk) (q : RespValueQueue) :
    chunks.foldl (fun q chunk => q.pushString chunk.bytes) q =
      { q with buffer := q.buffer ++ chunks.flatMap (·.bytes) } := by
  induction chunks generalizing q with
  | nil => simp
  | cons chunk chunks ih =>
    rw [List.foldl_cons, ih, List.flatMap_cons]
    simp only [RespValueQueue.pushString, List.append_assoc]

/-- Between two events: nothing is queued, and the buffer is what is left of the stream. -/
def Between (B : Bytes) (conn : Connection) : Prop := conn.parseQueue = ⟨unparsed B, []⟩

/-- Reading puts the bytes of the event behind the buffer.
SOURCE: io_thread.cc:158-170 -/
theorem readIntoParseQueue_eq {B : Bytes} {conn : Connection} (hconn : Between B conn)
    (ev : ReadableEvent) :
    readIntoParseQueue conn ev = ({ conn with parseQueue := ⟨unparsed B ++ ev.bytes, []⟩ },
      ev.last == .wouldBlockOrInterrupted) := by
  rw [readIntoParseQueue, foldl_pushString, hconn, ReadableEvent.bytes]

/-- What an event does to what is left of the stream.
SOURCE: resp_value_queue.cc:8-35 -/
theorem unparsed_append (B b : Bytes) :
    unparsed (unparsed B ++ b) = unparsed (B ++ b) ∧
      parse B ++ parse (unparsed B ++ b) = parse (B ++ b) ∧
      verdict (unparsed B ++ b) = verdict (B ++ b) := by
  obtain ⟨hvalues, hleft⟩ := Prod.ext_iff.mp (Streaming.drain_append (P := respFront) B b)
  change unparsed (B ++ b) = unparsed (unparsed B ++ b) at hleft
  exact ⟨hleft.symm, hvalues.symm, by rw [verdict, verdict, hleft]⟩

/-- An event that makes the stream malformed: nothing is emitted, and the connection is
closed.
SOURCE: io_thread.cc:139-180 -/
theorem handleReadable_of_malformed {B : Bytes} {conn : Connection} {ev : ReadableEvent}
    (hconn : Between B conn) (h : Malformed (B ++ ev.bytes)) :
    (handleReadable conn ev).batch = [] ∧ (handleReadable conn ev).close = true := by
  obtain ⟨what, hwhat⟩ := h
  rw [← (unparsed_append B ev.bytes).2.2] at hwhat
  rw [handleReadable, readIntoParseQueue_eq hconn]
  simp only [popAll_of_invalid (q := ⟨unparsed B ++ ev.bytes, []⟩) hwhat, and_self]

/-- Any other event: the requests it completes are emitted.
SOURCE: io_thread.cc:139-180 -/
theorem handleReadable_of_wellFormed {B : Bytes} {conn : Connection} {ev : ReadableEvent}
    (hconn : Between B conn) (h : ¬ Malformed (B ++ ev.bytes)) :
    parse B ++ (handleReadable conn ev).batch = parse (B ++ ev.bytes) ∧
      Between (B ++ ev.bytes) (handleReadable conn ev).conn ∧
      (handleReadable conn ev).close = !(ev.last == .wouldBlockOrInterrupted) := by
  obtain ⟨hleft, hvalues, hverdict⟩ := unparsed_append B ev.bytes
  cases hcase : verdict (B ++ ev.bytes) with
  | invalidArgument what => exact absurd ⟨what, hcase⟩ h
  | outOfRange what =>
    rw [handleReadable, readIntoParseQueue_eq hconn]
    simp only [popAll_of_incomplete (q := ⟨unparsed B ++ ev.bytes, []⟩) (hverdict.trans hcase),
      List.nil_append, hleft, hvalues, Between, and_self]

/-! ## A sequence of events -/

/-- Nothing that arrives after malformed bytes is parsed.
SOURCE: resp_value_queue.cc:8-35 -/
theorem parse_append_of_malformed {B : Bytes} (h : Malformed B) (b : Bytes) :
    parse (B ++ b) = parse B ∧ Malformed (B ++ b) := by
  obtain ⟨what, hwhat⟩ := h
  have hfail : fromString (unparsed B) = .error (.invalidArgument what) := by
    rw [fromString_unparsed, hwhat]
  have hfinal : respFront.Final (.invalidArgument what) := ⟨what, rfl⟩
  obtain ⟨hvalues, hleft⟩ := Prod.ext_iff.mp
    (Streaming.drain_append_of_final (t := b) (P := respFront) hfail hfinal)
  change unparsed (B ++ b) = unparsed B ++ b at hleft
  have hstays : fromString (unparsed B ++ b) = .error (.invalidArgument what) :=
    respFront.final_append b hfail hfinal
  exact ⟨hvalues, what, by rw [verdict, hleft, hstays]⟩

/-- The condition on the first event, and on those behind it. -/
theorem cleanFrom_cons {B : Bytes} {ev : ReadableEvent} {evs : List ReadableEvent} :
    CleanFrom B (ev :: evs) ↔
      (¬ Malformed B → Malformed (B ++ ev.bytes) → parse B = parse (B ++ ev.bytes)) ∧
        CleanFrom (B ++ ev.bytes) evs := by
  constructor
  · intro h
    refine ⟨fun hwell hmal => ?_, fun before ev' hbefore hwell hmal => ?_⟩
    · simpa [received] using h [] ev (by simp) (by simpa [received] using hwell)
        (by simpa [received] using hmal)
    · have := h (ev :: before) ev' (by simpa using hbefore)
      simp only [received, List.cons_append, List.flatMap_cons, List.append_assoc] at *
      exact this hwell hmal
  · rintro ⟨hfirst, hrest⟩ before ev' hbefore hwell hmal
    cases before with
    | nil =>
      obtain rfl : ev' = ev := by simpa using hbefore
      simp only [received, List.flatMap_nil, List.append_nil, List.nil_append,
        List.flatMap_singleton] at *
      exact hfirst hwell hmal
    | cons e before =>
      obtain ⟨rfl, htail⟩ : e = ev ∧ before ++ [ev'] <+: evs := by simpa using hbefore
      have := hrest before ev' htail
      simp only [received, List.cons_append, List.flatMap_cons, List.append_assoc] at *
      exact this hwell hmal

/-- The requests emitted over a sequence of events, from any point of the stream.
SOURCE: io_thread.cc:139-180 -/
theorem batches_flatten_from {B : Bytes} {conn : Connection} {evs : List ReadableEvent}
    (hconn : Between B conn) (hwell : ¬ Malformed B) (hevs : Uninterrupted evs) :
    parse B ++ (batches conn evs).flatten = parse (B ++ received evs) ↔ CleanFrom B evs := by
  induction evs generalizing B conn with
  | nil => simp [batches, received, CleanFrom]
  | cons ev evs ih =>
    have hbytes : B ++ received (ev :: evs) = B ++ ev.bytes ++ received evs := by
      simp [received]
    rw [cleanFrom_cons, hbytes]
    by_cases hmal : Malformed (B ++ ev.bytes)
    · -- nothing of this event is emitted, and nothing after it is parsed
      obtain ⟨hbatch, hclose⟩ := handleReadable_of_malformed hconn hmal
      have hlater : CleanFrom (B ++ ev.bytes) evs := fun before _ _ hno _ =>
        absurd (parse_append_of_malformed hmal (received before)).2 hno
      rw [(parse_append_of_malformed hmal _).1]
      simp [batches, hbatch, hclose, hwell, hmal, hlater]
    · obtain ⟨hparse, hnext, hclose⟩ := handleReadable_of_wellFormed hconn hmal
      have hfirst : ¬ Malformed B → Malformed (B ++ ev.bytes) → parse B = parse (B ++ ev.bytes) :=
        fun _ h => absurd h hmal
      have hflatten : (batches conn (ev :: evs)).flatten = (handleReadable conn ev).batch ++
          (batches (handleReadable conn ev).conn evs).flatten := by
        have hopen : (handleReadable conn ev).close = true → evs = [] := by
          intro hclosed
          rw [hclose] at hclosed
          by_contra hmore
          have hmem : ev ∈ (ev :: evs).dropLast := by
            rw [List.dropLast_cons_of_ne_nil hmore]
            exact List.mem_cons_self
          simp [hevs ev hmem] at hclosed
        rw [batches, List.flatten_append]
        congr 1
        · split_ifs with hempty <;> simp [hempty]
        · split_ifs with hclosed
          · rw [hopen hclosed, batches]
          · rfl
      have htail : Uninterrupted evs := fun e he => hevs e (by
        cases evs with
        | nil => simp at he
        | cons => exact List.mem_cons_of_mem _ he)
      rw [hflatten, ← List.append_assoc, hparse, ih hnext hmal htail]
      exact ⟨fun h => ⟨hfirst, h⟩, fun h => h.2⟩

/-- Nothing has arrived on a new connection.
SOURCE: resp_value_queue.cc:8-35 -/
theorem not_malformed_nil : ¬ Malformed [] := by
  rintro ⟨what, hwhat⟩
  rw [(unparsed_of_error fromString_nil).2.2] at hwhat
  cases hwhat

/-- No bytes, no values.
SOURCE: resp_value_queue.cc:8-35 -/
theorem parse_nil : parse [] = [] := (unparsed_of_error fromString_nil).2.1

/-- Nothing has been read from a new connection.
SOURCE: connection.h:13-22 -/
theorem between_new (fd : Fd) : Between [] (Connection.new fd) := by
  rw [Between, (unparsed_of_error fromString_nil).1]
  rfl

/-- The requests emitted for a connection are the values of its byte stream exactly if no
readable event both completes a request and makes the stream malformed.
SOURCE: io_thread.cc:139-180 -/
theorem batches_flatten_iff (fd : Fd) {evs : List ReadableEvent} (hevs : Uninterrupted evs) :
    (batches (Connection.new fd) evs).flatten = parse (received evs) ↔ Clean evs := by
  have h := batches_flatten_from (between_new fd) not_malformed_nil hevs
  rwa [parse_nil, List.nil_append, List.nil_append] at h

/-- **When packet boundaries do not matter.**  Two ways in which one byte stream can be
received lead to the same emitted requests, the values of the stream, exactly if neither
has a readable event that both completes a request and makes the stream malformed.
SOURCE: io_thread.cc:139-180, resp_value_queue.cc:10-35 -/
theorem batches_agree_iff (fd : Fd) (evs evs' : List ReadableEvent) (S : Bytes)
    (hevs : Uninterrupted evs) (hevs' : Uninterrupted evs')
    (hS : received evs = S) (hS' : received evs' = S) :
    ((batches (Connection.new fd) evs).flatten = parse S ∧
        (batches (Connection.new fd) evs').flatten = parse S) ↔ Clean evs ∧ Clean evs' := by
  rw [← batches_flatten_iff fd hevs, ← batches_flatten_iff fd hevs', hS, hS']

/-- The bytes of a `PING`. -/
def pingChunk : Chunk := ⟨ascii "*1\r\n$4\r\nPING\r\n", by decide, by decide⟩

/-- A request, and a byte that cannot start a value. -/
def pingThenGarbage : List Chunk := [pingChunk, ⟨ascii "!", by decide, by decide⟩]

/-- The two received with one readable event. -/
def together : List ReadableEvent := [⟨pingThenGarbage, .wouldBlockOrInterrupted⟩]

/-- The two received with an event each. -/
def apart : List ReadableEvent :=
  pingThenGarbage.map fun chunk => ⟨[chunk], .wouldBlockOrInterrupted⟩

/-- The two ways to receive a PING and a byte that is no prefix.
SOURCE: io_thread.cc:139-180 -/
theorem batches_agree_iff_apart :
    ((batches (Connection.new 5) together).flatten = parse (received apart) ∧
        (batches (Connection.new 5) apart).flatten = parse (received apart)) ↔
      Clean together ∧ Clean apart :=
  batches_agree_iff 5 together apart (received apart) (by simp [Uninterrupted, together])
    (by unfold Uninterrupted; decide) (by decide) rfl

/-- **Packet boundaries matter.**  The same bytes: received with one event nothing is
emitted, received with two events the request is.
SOURCE: io_thread.cc:139-180 -/
theorem batches_together_ne_apart :
    received together = received apart ∧
      (batches (Connection.new 5) together).flatten.length = 0 ∧
      (batches (Connection.new 5) apart).flatten.length = 1 := by
  decide +kernel

/-- A byte stream received one byte at a time, with one readable event. -/
def inOneEvent (S : Bytes) : ReadableEvent :=
  ⟨S.map fun b => ⟨[b], by simp, by simp [kReadBufSize]⟩, .wouldBlockOrInterrupted⟩

/-- One event brings all bytes. -/
theorem received_inOneEvent (S : Bytes) : received [inOneEvent S] = S := by
  induction S with
  | nil => rfl
  | cons b S ih =>
    simp only [received, inOneEvent, ReadableEvent.bytes, List.flatMap_cons, List.flatMap_nil,
      List.append_nil, List.map_cons] at ih ⊢
    rw [ih]
    rfl

/-- The values of a prefix of the stream are values of the stream.
SOURCE: resp_value_queue.cc:8-35 -/
theorem parse_prefix (B b : Bytes) : parse B <+: parse (B ++ b) :=
  ⟨_, (unparsed_append B b).2.1⟩

/-- **The streams for which packet boundaries do not matter** are those that are never
malformed, and those that are so before their first request.
SOURCE: io_thread.cc:139-180 -/
theorem batches_flatten_forall_iff (fd : Fd) (S : Bytes) :
    (∀ evs, Uninterrupted evs → received evs = S →
        (batches (Connection.new fd) evs).flatten = parse S) ↔
      ¬ Malformed S ∨ parse S = [] := by
  constructor
  · intro hall
    by_cases hmal : Malformed S
    · have hone : Uninterrupted [inOneEvent S] := by simp [Uninterrupted]
      have hS := received_inOneEvent S
      have hclean := (batches_flatten_iff fd hone).mp (by rw [hS]; exact hall _ hone hS)
      have hlost := (cleanFrom_cons.mp hclean).1 not_malformed_nil
      have hbytes : (inOneEvent S).bytes = S := by simpa [received] using hS
      rw [hbytes, List.nil_append, parse_nil] at hlost
      exact Or.inr (hlost hmal).symm
    · exact Or.inl hmal
  · rintro h evs hevs rfl
    refine (batches_flatten_iff fd hevs).mpr fun before ev ⟨after, hafter⟩ hwell hmal => ?_
    have hall : received evs = received (before ++ [ev]) ++ received after := by
      simp [← hafter, received]
    have hevent : received (before ++ [ev]) = received before ++ ev.bytes := by simp [received]
    rw [hall] at h
    simp only [List.nil_append] at hmal ⊢
    rcases h with h | h
    · exact absurd (parse_append_of_malformed hmal _).2 h
    · -- a stream with no values has no values in any prefix either
      have hnone := List.prefix_nil.mp (h ▸ parse_prefix (received (before ++ [ev])) _)
      have hbefore := List.prefix_nil.mp (hnone ▸ hevent ▸ parse_prefix (received before) ev.bytes)
      rw [hnone, hbefore]

end MyRedis.Analysis

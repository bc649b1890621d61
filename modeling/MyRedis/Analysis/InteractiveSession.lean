import MyRedis.Analysis.ClientSessions
import MyRedis.Model.ClientWorker

/-!
# A session, from the keyboard to the screen

The client's sender puts the lines of the user on its socket as requests, whole ones up to the
last.  The server executes the first of them and its socket takes the first replies
(`ClientSessions`).  The client's receiver prints one text for each reply that has arrived whole,
however the bytes were cut into packets.  Put together: what is on the screen are the replies to
the first lines, in order (`session_shows_replies`).

The receiver takes its packets for zero-terminated strings.  So the replies may contain no zero
byte, and a packet that fills the buffer makes it read past the end.
-/

set_option autoImplicit false

namespace MyRedis.Analysis

open MyRedis.Model MyRedis.Model.RespValue MyRedis.Model.Client MyRedis.Lib

/-! ## The sender -/

/-- `SendAll` puts the first bytes on the socket, and returns their number only if they are all.
SOURCE: network/send_all.cc:10-33 -/
theorem sendAllLoop_spec {len : ℕ} {outcomes : List SendOutcome} {remaining taken : Bytes}
    {result : ℤ} (h : sendAllLoop len remaining outcomes = some (taken, result))
    (hle : remaining.length ≤ len) :
    taken <+: remaining ∧ (result = len ↔ taken = remaining) := by
  induction outcomes generalizing remaining taken with
  | nil =>
    cases remaining with
    | nil =>
      cases h
      exact ⟨List.prefix_rfl, iff_of_true rfl rfl⟩
    | cons b bs => cases h
  | cons outcome outcomes ih =>
    cases remaining with
    | nil =>
      cases h
      exact ⟨List.prefix_rfl, iff_of_true rfl rfl⟩
    | cons b bs =>
      have hstopped : ∀ r : ℤ, r ≠ len → some (([] : Bytes), r) = some (taken, result) →
          taken <+: b :: bs ∧ (result = len ↔ taken = b :: bs) := by
        rintro r hr ⟨⟩
        exact ⟨List.nil_prefix, iff_of_false hr (List.cons_ne_nil b bs).symm⟩
      cases outcome with
      | interrupted => exact ih h hle
      | wouldBlock => exact hstopped _ (by omega) h
      | fatal => exact hstopped _ (by omega) h
      | sent n =>
        rw [sendAllLoop] at h
        split_ifs at h with hzero hle'
        · refine hstopped _ ?_ h
          simp only [List.length_cons]
          omega
        · obtain ⟨⟨more, result'⟩, hmore, heq⟩ := Option.map_eq_some_iff.mp h
          cases heq
          have hdrop : ((b :: bs).drop n).length ≤ len := by
            rw [List.length_drop]
            omega
          obtain ⟨hfront, hresult⟩ := ih hmore hdrop
          have hsplit := List.take_append_drop n (b :: bs)
          refine ⟨?_, ?_⟩
          · obtain ⟨rest, hrest⟩ := hfront
            exact ⟨rest, by rw [List.append_assoc, hrest, hsplit]⟩
          · rw [hresult]
            nth_rewrite 3 [← hsplit]
            exact (List.append_cancel_left_eq _ _ _ ▸ Iff.rfl)

/-- The requests for the lines up to `exit`. -/
def typed (inputs : List Bytes) : List RespValue :=
  (inputs.takeWhile (· ≠ ascii "exit")).map message

/-- The socket has taken the first bytes of the requests.
SOURCE: client/worker.cc:19-43 -/
theorem senderWorker_first {lines : List (Bytes × List SendOutcome)} {wire : Bytes}
    (h : senderWorker lines = some wire) : wire <+: serializeAll (typed (lines.map Prod.fst)) := by
  induction lines generalizing wire with
  | nil =>
    cases h
    exact List.nil_prefix
  | cons first lines ih =>
    obtain ⟨input, outcomes⟩ := first
    rw [senderWorker] at h
    split_ifs at h with hexit
    · cases h
      exact List.nil_prefix
    · obtain ⟨⟨taken, result⟩, hsent, h⟩ := Option.bind_eq_some_iff.mp h
      have htyped : serializeAll (typed (((input, outcomes) :: lines).map Prod.fst)) =
          (message input).serialize ++ serializeAll (typed (lines.map Prod.fst)) := by
        rw [typed, List.map_cons, List.takeWhile_cons_of_pos (by simpa using hexit),
          List.map_cons, serializeAll]
        rfl
      rw [htyped]
      obtain ⟨hfront, hall⟩ := sendAllLoop_spec hsent le_rfl
      dsimp only at h
      split_ifs at h with hresult
      · cases h
        exact hfront.trans (List.prefix_append _ _)
      · obtain ⟨more, hmore, rfl⟩ := Option.map_eq_some_iff.mp h
        rw [hall.mp (not_not.mp hresult)]
        exact (List.prefix_append_right_inj _).mpr (ih hmore)

/-- What the client sends are arrays of bulk strings.
SOURCE: client/worker.cc:26-34 -/
theorem message_lineSafe (input : Bytes) : LineSafe (message input) := by
  refine .array fun v hv => ?_
  obtain ⟨value, -, rfl⟩ := List.mem_map.mp hv
  exact .bulkString _

/-- The server finds the first requests in what it has read.
SOURCE: client/worker.cc:45-67 -/
theorem parse_typed {inputs : List Bytes} {read : Bytes}
    (h : read <+: serializeAll (typed inputs))
    (hfits : (serializeAll (typed inputs)).length < 2 ^ 63) : parse read <+: typed inputs := by
  have hsafe : ∀ v ∈ typed inputs, LineSafe v := by
    intro v hv
    obtain ⟨input, -, rfl⟩ := List.mem_map.mp hv
    exact message_lineSafe input
  obtain ⟨rest, hrest⟩ := h
  have hfront := parse_prefix read rest
  rwa [hrest, (parse_serializeAll hsafe hfits).1] at hfront

/-! ## The receiver -/

/-- One round of the loop that prints.
SOURCE: client/worker.cc:59-65 -/
theorem printValues_eq (q : RespValueQueue) :
    printValues q = match q.popValue with
      | (.error e, _) => ([], .error e)
      | (.ok none, q) => ([], .ok q)
      | (.ok (some value), q) => (line value :: (printValues q).1, (printValues q).2) := by
  rw [printValues]
  split
  all_goals next heq => rw [heq]

/-- The receiver prints the values of a buffer that is not malformed.
SOURCE: client/worker.cc:59-65 -/
theorem printValues_of_incomplete {q : RespValueQueue} {what : String}
    (h : verdict q.buffer = .outOfRange what) :
    printValues q = ((q.values ++ parse q.buffer).map line, .ok ⟨unparsed q.buffer, []⟩) := by
  induction hvs : q.values ++ parse q.buffer generalizing q with
  | nil => rw [printValues_eq, popValue_of_incomplete h, hvs]; rfl
  | cons v vs ih =>
    obtain ⟨hleft, hnone, hverdict⟩ := unparsed_of_error (fromString_unparsed q.buffer)
    have hrest := ih (q := ⟨unparsed q.buffer, vs⟩) (hverdict.trans h) (by simp [hnone])
    rw [printValues_eq, popValue_of_incomplete h, hvs]
    simp only [List.head?_cons, List.tail_cons, hrest, hleft, List.map_cons]

/-- The packets up to the end of the stream. -/
def heard : List RecvOutcome → List Packet
  | .data packet :: outcomes => packet :: heard outcomes
  | .interrupted :: outcomes => heard outcomes
  | _ => []

/-- The bytes of the packets. -/
def arrived (packets : List Packet) : Bytes := packets.flatMap Packet.bytes

/-- The packets before the first that fills the buffer. -/
def short (packets : List Packet) : List Packet :=
  packets.takeWhile (·.bytes.length < kBufferSize)

section Buffer

variable {r : Receiver} {packet : Packet}

/-- The last byte of the buffer has not been overwritten. -/
def Ended (buffer : Bytes) : Prop := buffer.getLast? = some 0

/-- The last byte of the receiver's buffer is zero at the start.
SOURCE: client/worker.cc:46-47 -/
theorem ended_init : Ended Receiver.init.buffer := by
  rw [Ended, Receiver.init, List.getLast?_replicate, if_neg (by decide)]

/-- A packet overwrites the front of the buffer.
SOURCE: client/worker.cc:49 -/
theorem recv_buffer (r : Receiver) (packet : Packet) :
    (r.recv packet).buffer = packet.bytes ++ r.buffer.drop packet.bytes.length := rfl

/-- A packet that does not fill the buffer leaves its last byte as it is.
SOURCE: client/worker.cc:49 -/
theorem Ended.recv (h : Ended r.buffer) (hshort : packet.bytes.length < kBufferSize) :
    Ended (r.recv packet).buffer := by
  have hlast : (r.buffer.drop packet.bytes.length).getLast? = some 0 := by
    rw [List.getLast?_drop, if_neg (by rw [r.sized]; omega), h]
  rw [Ended, recv_buffer, List.getLast?_append, hlast, Option.some_or]

/-- A packet without zeros that does not fill the buffer is pushed as it is.
SOURCE: client/worker.cc:49-51 -/
theorem receive_short (h : Ended r.buffer) (hshort : packet.bytes.length < kBufferSize)
    (hzero : 0 ∉ packet.bytes) :
    r.receive (.data packet) =
      .ok { r.recv packet with queue := r.queue.pushString packet.bytes } := by
  have hended : (0 : UInt8) ∈ (r.recv packet).buffer := List.mem_of_getLast? (h.recv hshort)
  have hstring : cString (r.recv packet).buffer = some (packet.bytes ++
      (r.buffer.drop packet.bytes.length).takeWhile (· ≠ 0)) := by
    rw [cString, if_pos hended, recv_buffer, List.takeWhile_append_of_pos]
    intro b hb
    exact decide_eq_true (ne_of_mem_of_not_mem hb hzero)
  simp only [Receiver.receive, hstring, substr, List.drop_zero, List.take_left']
  rfl

/-- A packet without zeros that fills the buffer leaves no zero in it.
SOURCE: client/worker.cc:49-51 -/
theorem receive_full (hfull : packet.bytes.length = kBufferSize) (hzero : 0 ∉ packet.bytes) :
    r.receive (.data packet) = .error .overread := by
  have hbuffer : (r.recv packet).buffer = packet.bytes := by
    rw [recv_buffer, List.drop_eq_nil_of_le (by rw [r.sized, hfull]), List.append_nil]
  simp only [Receiver.receive, hbuffer, cString, if_neg hzero]

end Buffer

/-- What a run of the receiver behind the bytes `B` prints, and how it ends. -/
structure Shows (B : Bytes) (packets : List Packet) (run : List Bytes × ReceiverEnd) : Prop where
  printed : run.1 = (parse (unparsed B ++ arrived (short packets))).map line
  overread : run.2 = .overread ↔ ∃ packet ∈ packets, packet.bytes.length = kBufferSize
  caught : ∀ e, run.2 ≠ .threw e

/-- The receiver prints the values in a buffer that is not malformed, and goes on with the rest.
SOURCE: client/worker.cc:45-67 -/
theorem receiverWorker_ok {B : Bytes} {r r' : Receiver} {outcome : RecvOutcome}
    {outcomes : List RecvOutcome} (hreceive : r.receive outcome = .ok r')
    (hqueue : r'.queue.values = []) (hleft : verdict r'.queue.buffer = verdict B)
    (hwell : ¬ Malformed B) :
    receiverWorker r (outcome :: outcomes) =
      ((parse r'.queue.buffer).map line ++
          (receiverWorker { r' with queue := ⟨unparsed r'.queue.buffer, []⟩ } outcomes).1,
        (receiverWorker { r' with queue := ⟨unparsed r'.queue.buffer, []⟩ } outcomes).2) := by
  cases hverdict : verdict B with
  | invalidArgument what => exact absurd ⟨what, hverdict⟩ hwell
  | outOfRange what =>
    have hprinted := printValues_of_incomplete (hleft.trans hverdict)
    rw [hqueue, List.nil_append] at hprinted
    simp only [receiverWorker, hreceive, hprinted]

/-- The receiver has stopped before another packet.
SOURCE: client/worker.cc:45-67 -/
theorem shows_nil (B : Bytes) {e : ReceiverEnd} (hread : e ≠ .overread)
    (hcaught : ∀ what, e ≠ .threw what) : Shows B [] ([], e) := by
  refine ⟨?_, iff_of_false hread (by simp), hcaught⟩
  have hnone : parse (unparsed B) = [] := (unparsed_of_error (fromString_unparsed B)).2.1
  rw [short, List.takeWhile_nil, arrived, List.flatMap_nil, List.append_nil, hnone]
  rfl

/-- A packet that fills the buffer.
SOURCE: client/worker.cc:45-67 -/
theorem shows_full (B : Bytes) {packet : Packet} (packets : List Packet)
    (hfull : packet.bytes.length = kBufferSize) : Shows B (packet :: packets) ([], .overread) := by
  refine ⟨?_, iff_of_true rfl ⟨packet, List.mem_cons_self, hfull⟩, fun _ => ReceiverEnd.noConfusion⟩
  have hnone : parse (unparsed B) = [] := (unparsed_of_error (fromString_unparsed B)).2.1
  rw [short, List.takeWhile_cons_of_neg (by simp [hfull]), arrived, List.flatMap_nil,
    List.append_nil, hnone]
  rfl

/-- A packet that does not.
SOURCE: client/worker.cc:45-67 -/
theorem Shows.cons {B : Bytes} {packet : Packet} {packets : List Packet}
    {run : List Bytes × ReceiverEnd} (h : Shows (B ++ packet.bytes) packets run)
    (hshort : packet.bytes.length < kBufferSize) :
    Shows B (packet :: packets)
      ((parse (unparsed B ++ packet.bytes)).map line ++ run.1, run.2) := by
  refine ⟨?_, ?_, h.caught⟩
  · have hbytes : arrived (short (packet :: packets)) =
        packet.bytes ++ arrived (short packets) := by
      rw [short, List.takeWhile_cons_of_pos (by simpa using hshort)]
      rfl
    have hparse := (unparsed_append (unparsed B ++ packet.bytes) (arrived (short packets))).2.1
    rw [(unparsed_append B packet.bytes).1] at hparse
    rw [h.printed, hbytes, ← List.append_assoc, ← hparse, List.map_append]
  · rw [h.overread, List.exists_mem_cons_iff, or_iff_right hshort.ne]

/-- What the receiver prints and how it ends, if the bytes that arrive behind `B` contain no zero
and do not make the stream malformed.
SOURCE: client/worker.cc:45-67 -/
theorem receiverWorker_shows {B : Bytes} {r : Receiver} {outcomes : List RecvOutcome}
    (hqueue : r.queue = ⟨unparsed B, []⟩) (hended : Ended r.buffer)
    (hzero : 0 ∉ arrived (heard outcomes))
    (hwell : ¬ Malformed (B ++ arrived (heard outcomes))) :
    Shows B (heard outcomes) (receiverWorker r outcomes) := by
  induction outcomes generalizing B r with
  | nil => exact shows_nil B ReceiverEnd.noConfusion fun _ => ReceiverEnd.noConfusion
  | cons outcome outcomes ih =>
    cases outcome with
    | closed | failed =>
      exact shows_nil B ReceiverEnd.noConfusion fun _ => ReceiverEnd.noConfusion
    | interrupted =>
      obtain ⟨hleft, hnone, hverdict⟩ := unparsed_of_error (fromString_unparsed B)
      have hwellB : ¬ Malformed B := fun h => hwell (parse_append_of_malformed h _).2
      have hreceive : r.receive .interrupted = .ok r := rfl
      rw [receiverWorker_ok hreceive (by rw [hqueue]) (by rw [hqueue, hverdict]) hwellB]
      simp only [hqueue, hleft, hnone, List.map_nil, List.nil_append]
      exact ih rfl hended hzero hwell
    | data packet =>
      have hbytes : arrived (heard (.data packet :: outcomes)) =
          packet.bytes ++ arrived (heard outcomes) := rfl
      rw [hbytes, List.mem_append, not_or] at hzero
      rw [hbytes, ← List.append_assoc] at hwell
      obtain hshort | hfull := packet.bounded.lt_or_eq
      · obtain ⟨hleft, -, hverdict⟩ := unparsed_append B packet.bytes
        have hwellB : ¬ Malformed (B ++ packet.bytes) := fun h =>
          hwell (parse_append_of_malformed h _).2
        have hreceive := receive_short hended hshort hzero.1
        rw [hqueue] at hreceive
        rw [receiverWorker_ok hreceive rfl hverdict hwellB]
        apply Shows.cons _ hshort
        refine ih ?_ (hended.recv hshort) hzero.2 hwell
        simp only [RespValueQueue.pushString, hleft]
      · rw [receiverWorker, receive_full hfull hzero.1]
        exact shows_full B _ hfull

/-! ## From the keyboard to the screen -/

/-- A stream of replies is not malformed, wherever it is cut.
SOURCE: client/worker.cc:45-67 -/
theorem not_malformed_of_cut {vs : List RespValue} {B : Bytes}
    (hsafe : ∀ v ∈ vs, LineSafe v) (hfits : (serializeAll vs).length < 2 ^ 63)
    (h : B <+: serializeAll vs) : ¬ Malformed B := by
  intro hmalformed
  obtain ⟨rest, hrest⟩ := h
  obtain ⟨what, hwhat⟩ := (parse_append_of_malformed hmalformed rest).2
  rw [hrest, verdict, (parse_serializeAll hsafe hfits).2, fromString_nil] at hwhat
  cases hwhat

/-- **What is on the screen.**  The server has read some of what the socket of the client has
taken, and the client has received some of what the socket of the server has taken; no zero byte
is in it.  Then the requests executed for the client are those of the first lines, and what it has
printed are the replies to them, in order; it prints all that have arrived unless a packet has
filled its buffer, and exactly then it reads past the end of it.
SOURCE: client/worker.cc:19-67, network/send_all.cc:10-33 -/
theorem session_shows_replies {n : ℕ} [NeZero n] {store : Store} {t : Traffic n}
    (h : TrafficReachable NeverAccepted store t) {conn : ConnId}
    {lines : List (Bytes × List SendOutcome)} {wire : Bytes} {outcomes : List RecvOutcome}
    (hwire : senderWorker lines = some wire) (hread : receivedFrom t conn <+: wire)
    (harrived : arrived (heard outcomes) <+: sentTo t conn)
    (hzero : 0 ∉ arrived (heard outcomes))
    (hrequests : (serializeAll (typed (lines.map Prod.fst))).length < 2 ^ 63)
    (hreplies : (serializeAll (repliesTo t.server conn)).length < 2 ^ 63) :
    dispatchAll store (t.server.log.map fun entry => (entry.now, entry.request)) =
        .ok (t.server.log.map LogEntry.reply, t.server.store) ∧
      (executedFor t.server conn).map LogEntry.request <+: typed (lines.map Prod.fst) ∧
      (receiverWorker .init outcomes).1 <+: (repliesTo t.server conn).map line ∧
      ((receiverWorker .init outcomes).2 = .overread ↔
        ∃ packet ∈ heard outcomes, packet.bytes.length = kBufferSize) ∧
      ((∀ packet ∈ heard outcomes, packet.bytes.length < kBufferSize) →
        (receiverWorker .init outcomes).1 = (parse (arrived (heard outcomes))).map line) := by
  obtain ⟨haddressed, hserial, hdelivered, hanswered⟩ :=
    serial_of_reachable (reachable_of_traffic h)
  have hserved := (served_of_reachable h).sound conn
  have hsafe := hserial.lineSafe conn
  have hstream : arrived (heard outcomes) <+: serializeAll (repliesTo t.server conn) :=
    harrived.trans (hserved.writes.trans (hdelivered.appended_prefix hserial hanswered conn))
  have hempty : unparsed [] = [] := (unparsed_of_error fromString_nil).1
  have hshows : Shows [] (heard outcomes) (receiverWorker .init outcomes) :=
    receiverWorker_shows (by rw [hempty]; rfl) ended_init hzero
      (not_malformed_of_cut hsafe hreplies hstream)
  have hprinted := hshows.printed
  rw [hempty, List.nil_append] at hprinted
  refine ⟨hserial.replay, ?_, ?_, hshows.overread, ?_⟩
  · have hexecuted := (hserial.log_prefix_emitted haddressed conn).trans hserved.reads
    exact hexecuted.trans (parse_typed (hread.trans (senderWorker_first hwire)) hrequests)
  · have hshort : arrived (short (heard outcomes)) <+: serializeAll (repliesTo t.server conn) :=
      ((List.takeWhile_prefix _).flatMap _).trans hstream
    obtain ⟨rest, hrest⟩ := hshort
    have hfront := parse_prefix (arrived (short (heard outcomes))) rest
    rw [hrest, (parse_serializeAll hsafe hreplies).1] at hfront
    rw [hprinted]
    exact hfront.map line
  · intro hall
    have hshort : short (heard outcomes) = heard outcomes :=
      List.takeWhile_eq_self_iff.mpr fun packet hpacket => decide_eq_true (hall packet hpacket)
    rw [hprinted, hshort]

/-- The line `ping`, sent in two pieces, and then `exit`. -/
def pingLines : List (Bytes × List SendOutcome) :=
  [(ascii "PING", [.sent 5, .interrupted, .sent 9]), (ascii "exit", [])]

/-- The reply in two packets. -/
def pongPackets : List RecvOutcome :=
  [.data ⟨ascii "+PO", by decide, by decide⟩, .interrupted,
    .data ⟨ascii "NG\r\n", by decide, by decide⟩]

/-- One client types PING and sees its answer.
SOURCE: client/worker.cc:19-67, server.cc:150-246, io_thread.cc:58-242 -/
theorem session_shows_replies_ping :
    ∃ t : Traffic 1, TrafficReachable NeverAccepted Store.empty t ∧
      (receiverWorker .init pongPackets).1 = [ascii "\"PONG\"\n"] ∧
      (receiverWorker .init pongPackets).1 <+: (repliesTo t.server 0).map line := by
  have hrun : (runAll Traffic.step (fun t a => Accepts NeverAccepted t.server a)
      (Traffic.init Store.empty) pingSession).map
        (fun t => (receivedFrom t 0, sentTo t 0, (serializeAll (repliesTo t.server 0)).length)) =
      some ((message (ascii "PING")).serialize, ascii "+PONG\r\n", 7) := by
    decide +kernel
  obtain ⟨t, ht, hvalues⟩ := Option.map_eq_some_iff.mp hrun
  simp only [Prod.mk.injEq] at hvalues
  obtain ⟨hreceived, hsent, hlength⟩ := hvalues
  have hreachable : TrafficReachable NeverAccepted Store.empty t := reaches_of_runAll ht
  have hwire : senderWorker pingLines = some (message (ascii "PING")).serialize := by
    decide +kernel
  have harrived : arrived (heard pongPackets) <+: sentTo t 0 := by
    rw [hsent]
    decide +kernel
  have hshown := session_shows_replies hreachable hwire (by rw [hreceived]) harrived
    (by decide +kernel) (by decide +kernel) (by rw [hlength]; decide)
  exact ⟨t, hreachable, by decide +kernel, hshown.2.2.1⟩

-- a zero byte in a reply: what follows it in the packet is lost
example : (receiverWorker .init [.data ⟨ascii "$3\r\n" ++ [97, 0, 98, 13, 10] ++ ascii "+OK\r\n",
    by decide, by decide⟩]).1 = [] := by
  decide +kernel

end MyRedis.Analysis

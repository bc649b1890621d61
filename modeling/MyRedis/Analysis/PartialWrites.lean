import MyRedis.Lib.Numbered
import MyRedis.Lib.TransitionSystem
import MyRedis.Model.IoWrites

/-!
# Partial writes

No reply byte is lost, duplicated or stranded.  A flush hands the front of the buffer to the
socket and keeps the rest, or closes the connection (`flushOutBuffer_eq`), so every event of an
IO thread does one of four things (`step_cases`).  Each of them keeps the books of the thread
(`Books`): what a socket has accepted and what is left in its buffer is what was received for it,
`EPOLLOUT` is registered while something is left, and there is one `Disconnect` for every
connection that was erased.

The references that the thread holds while it flushes are those of elements that are still in the
map: it never comes upon one that was erased.
-/

set_option autoImplicit false

namespace MyRedis.Analysis

open MyRedis.Model MyRedis.Lib

/-! ## One flush -/

/-- The bytes the socket accepts, and those that are left or `none` after a failure. -/
def flushed : Bytes → List SendResult → Option (Bytes × Option Bytes)
  | [], _ => some ([], some [])
  | _ :: _, [] => none
  | b :: bs, .sent n :: results =>
    if n = 0 then some ([], none)
    else if n ≤ (b :: bs).length then
      (flushed ((b :: bs).drop n) results).map fun r => ((b :: bs).take n ++ r.1, r.2)
    else none
  | b :: bs, .wouldBlockOrInterrupted :: _ => some ([], some (b :: bs))
  | _ :: _, .fatal :: _ => some ([], none)

/-- A part that is accepted comes off the front.
SOURCE: io_thread.cc:196-200 -/
theorem flushed_sent {buffer : Bytes} {n : ℕ} {results : List SendResult} (hn : n ≠ 0)
    (hle : n ≤ buffer.length) (hne : buffer ≠ []) :
    flushed buffer (.sent n :: results) =
      (flushed (buffer.drop n) results).map fun r => (buffer.take n ++ r.1, r.2) := by
  obtain ⟨b, bs, rfl⟩ := List.exists_cons_of_ne_nil hne
  rw [flushed, if_neg hn, if_pos hle]

/-- What is left is what `sendLoop` leaves.
SOURCE: io_thread.cc:193-208 -/
theorem sendLoop_eq_flushed (buffer : Bytes) (results : List SendResult) :
    sendLoop buffer results = (flushed buffer results).map Prod.snd := by
  fun_induction flushed buffer results with
  | case1 => rw [sendLoop]; rfl
  | case2 => rw [sendLoop]; rfl
  | case3 b bs results => rw [sendLoop, if_pos rfl]; rfl
  | case4 b bs n results hn hle ih =>
    rw [sendLoop, if_neg hn, if_pos hle, ih, Option.map_map]
    rfl
  | case5 b bs n results hn hle => rw [sendLoop, if_neg hn, if_neg hle]; rfl
  | case6 => rw [sendLoop]; rfl
  | case7 => rw [sendLoop]; rfl

/-- Nothing is lost between what is accepted and what is left.
SOURCE: io_thread.cc:193-210 -/
theorem flushed_append {buffer taken remaining : Bytes} {results : List SendResult}
    (h : flushed buffer results = some (taken, some remaining)) : taken ++ remaining = buffer := by
  fun_induction flushed buffer results generalizing taken with
  | case1 =>
    cases h
    rfl
  | case2 => cases h
  | case3 => cases h
  | case4 b bs n results hn hle ih =>
    obtain ⟨⟨taken', left⟩, hrest, heq⟩ := Option.map_eq_some_iff.mp h
    cases heq
    rw [List.append_assoc, ih hrest, List.take_append_drop]
  | case5 => cases h
  | case6 =>
    cases h
    rfl
  | case7 => cases h

section Flush

variable {s : IoWrites} {fd : Fd} {e : Element} {id : ℕ}

/-- A reference to an element of the map leads there.
SOURCE: io_thread.cc:118-137, 188-222 -/
theorem deref_eq (h : s.connections fd = some e) (hid : e.id = id) :
    s.deref ⟨fd, id⟩ = .ok e := by
  simp only [IoWrites.deref, h, if_pos hid]

/-- The map with another element for a descriptor. -/
def withElement (s : IoWrites) (fd : Fd) (e : Element) : IoWrites :=
  { s with connections := Function.update s.connections fd (some e) }

/-- The element that was put in is there.
SOURCE: io_thread.cc:118-137, 188-222 -/
theorem withElement_self (s : IoWrites) (fd : Fd) (e : Element) :
    (withElement s fd e).connections fd = some e :=
  Function.update_self ..

/-- An assignment through a reference changes its element.
SOURCE: io_thread.cc:118-137, 188-222 -/
theorem assign_eq (h : s.connections fd = some e) (hid : e.id = id) (f : Element → Element) :
    s.assign ⟨fd, id⟩ f = .ok (withElement s fd (f e)) := by
  rw [IoWrites.assign, deref_eq h hid]
  rfl

/-- A failed write closes the connection.
SOURCE: io_thread.cc:204-206 -/
theorem failWrite_eq (h : s.connections fd = some e) (hid : e.id = id) (hkey : e.fd = fd) :
    s.failWrite ⟨fd, id⟩ = .ok (s.closeConnection fd) := by
  subst hkey
  have hcleared := withElement_self s e.fd { e with outBuffer := [] }
  have hclosed : (withElement s e.fd { e with outBuffer := [] }).closeConnection e.fd =
      s.closeConnection e.fd := by
    simp only [IoWrites.closeConnection, hcleared, h]
    simp only [withElement, Function.update_idem]
  rw [IoWrites.failWrite, assign_eq h hid]
  simp only [bind, Except.bind, deref_eq hcleared hid, hclosed]

/-- How the loop of a flush ends. -/
def flushEnd (s : IoWrites) (fd : Fd) (id sent : ℕ) :
    Option (Bytes × Option Bytes) → Except Stop (IoWrites × Option ℕ)
  | none => .error .noResult
  | some (taken, none) => .ok ((s.accept id taken).closeConnection fd, none)
  | some (taken, some _) => .ok (s.accept id taken, some (sent + taken.length))

/-- Two parts that are accepted one after the other are one part.
SOURCE: io_thread.cc:196-200 -/
theorem accept_accept (s : IoWrites) (id : ℕ) (a b : Bytes) :
    (s.accept id a).accept id b = s.accept id (a ++ b) := by
  simp only [IoWrites.accept, Function.update_self, Function.update_idem, List.append_assoc]

/-- Nothing accepted changes nothing.
SOURCE: io_thread.cc:118-137, 188-222 -/
theorem accept_nil (s : IoWrites) (id : ℕ) : s.accept id [] = s := by
  simp only [IoWrites.accept, List.append_nil, Function.update_eq_self]

/-- What was accepted before counts as well.
SOURCE: io_thread.cc:118-137, 188-222 -/
theorem flushEnd_accept (s : IoWrites) (fd : Fd) (id sent : ℕ) (front : Bytes)
    (r : Option (Bytes × Option Bytes)) :
    flushEnd (s.accept id front) fd id (sent + front.length) r =
      flushEnd s fd id sent (r.map fun r => (front ++ r.1, r.2)) := by
  rcases r with _ | ⟨taken, _ | remaining⟩
  · rfl
  · rw [Option.map_some, flushEnd, flushEnd, accept_accept]
  · rw [Option.map_some, flushEnd, flushEnd, accept_accept, List.length_append, Nat.add_assoc]

/-- With nothing left to send, the loop asks for no result of the socket.
SOURCE: io_thread.cc:195 -/
theorem flushLoop_done (h : s.connections fd = some e) (hid : e.id = id) {sent : ℕ}
    (hdone : e.outBuffer.length ≤ sent) (results : List SendResult) :
    IoWrites.flushLoop ⟨fd, id⟩ results s sent =
      flushEnd s fd id sent (flushed (e.outBuffer.drop sent) results) := by
  rw [List.drop_eq_nil_of_le hdone]
  cases results <;>
    simp only [IoWrites.flushLoop, deref_eq h hid, bind, Except.bind,
      if_neg (Nat.not_lt.mpr hdone), flushed, flushEnd, accept_nil, List.length_nil, Nat.add_zero]

/-- One accepted part, given what the loop does after it.
SOURCE: io_thread.cc:196-200 -/
theorem flushLoop_sent (h : s.connections fd = some e) (hid : e.id = id) (hkey : e.fd = fd)
    {sent : ℕ} (hmore : sent < e.outBuffer.length) (n : ℕ) (results : List SendResult)
    (hrest : IoWrites.flushLoop ⟨fd, id⟩ results
        (s.accept id ((e.outBuffer.drop sent).take n)) (sent + n) =
      flushEnd (s.accept id ((e.outBuffer.drop sent).take n)) fd id (sent + n)
        (flushed (e.outBuffer.drop (sent + n)) results)) :
    IoWrites.flushLoop ⟨fd, id⟩ (.sent n :: results) s sent =
      flushEnd s fd id sent (flushed (e.outBuffer.drop sent) (.sent n :: results)) := by
  have hbuffer : e.outBuffer.drop sent = e.outBuffer[sent] :: e.outBuffer.drop (sent + 1) :=
    List.drop_eq_getElem_cons hmore
  have hlength : (e.outBuffer.drop sent).length = e.outBuffer.length - sent := List.length_drop
  rw [IoWrites.flushLoop, deref_eq h hid]
  simp only [bind, Except.bind, if_pos hmore]
  by_cases hn : n = 0
  · rw [hbuffer]
    simp only [flushed, if_pos hn, flushEnd, accept_nil, failWrite_eq h hid hkey]
  by_cases hle : n ≤ e.outBuffer.length - sent
  · have htaken : ((e.outBuffer.drop sent).take n).length = n := by
      rw [List.length_take, hlength, Nat.min_eq_left hle]
    simp only [if_neg hn, if_pos hle, hrest]
    rw [flushed_sent hn (hlength ▸ hle) (hbuffer ▸ List.cons_ne_nil _ _), List.drop_drop]
    rw [← flushEnd_accept, htaken]
  · simp only [if_neg hn, if_neg hle]
    rw [hbuffer] at hlength ⊢
    rw [flushed, if_neg hn, if_neg (hlength ▸ hle)]
    rfl

/-- **The loop of a flush.**
SOURCE: io_thread.cc:193-208 -/
theorem flushLoop_eq (h : s.connections fd = some e) (hid : e.id = id) (hkey : e.fd = fd)
    (sent : ℕ) (results : List SendResult) :
    IoWrites.flushLoop ⟨fd, id⟩ results s sent =
      flushEnd s fd id sent (flushed (e.outBuffer.drop sent) results) := by
  -- Every accepted part moves the state on, and leaves the connection's element as it is.
  induction results generalizing s sent with
  | nil =>
    by_cases hmore : sent < e.outBuffer.length
    · rw [IoWrites.flushLoop, deref_eq h hid, List.drop_eq_getElem_cons hmore]
      simp only [bind, Except.bind, if_pos hmore, flushed, flushEnd]
    · exact flushLoop_done h hid (Nat.le_of_not_lt hmore) _
  | cons result results ih =>
    by_cases hmore : sent < e.outBuffer.length
    · cases result with
      | sent n =>
        have hrest := ih (s := s.accept id ((e.outBuffer.drop sent).take n)) h (sent + n)
        exact flushLoop_sent h hid hkey hmore n results hrest
      | wouldBlockOrInterrupted =>
        rw [IoWrites.flushLoop, deref_eq h hid, List.drop_eq_getElem_cons hmore]
        simp only [bind, Except.bind, if_pos hmore, flushed, flushEnd, accept_nil, List.length_nil,
          Nat.add_zero]
      | fatal =>
        rw [IoWrites.flushLoop, deref_eq h hid, List.drop_eq_getElem_cons hmore]
        simp only [bind, Except.bind, if_pos hmore, flushed, flushEnd, accept_nil,
          failWrite_eq h hid hkey]
    · exact flushLoop_done h hid (Nat.le_of_not_lt hmore) _

/-- How a flush ends. -/
def flushDone (s : IoWrites) (fd : Fd) (e : Element) :
    Option (Bytes × Option Bytes) → Except Stop IoWrites
  | none => .error .noResult
  | some (taken, none) => .ok ((s.accept e.id taken).closeConnection fd)
  | some (taken, some remaining) =>
    .ok ((withElement (s.accept e.id taken) fd { e with outBuffer := remaining }).updateEpoll fd
      (!remaining.isEmpty))

/-- **A flush** hands the front of the buffer to the socket and keeps the rest, or closes the
connection.  No reference is dangling.
SOURCE: io_thread.cc:188-213 -/
theorem flushOutBuffer_eq (h : s.connections fd = some e) (hkey : e.fd = fd)
    (results : List SendResult) :
    s.flushOutBuffer ⟨fd, e.id⟩ results = flushDone s fd e (flushed e.outBuffer results) := by
  subst hkey
  rw [IoWrites.flushOutBuffer, flushLoop_eq h rfl rfl, List.drop_zero]
  rcases hflushed : flushed e.outBuffer results with _ | ⟨taken, _ | remaining⟩
  · rfl
  · rfl
  · have hsplit := flushed_append hflushed
    have hrest : e.outBuffer.drop (0 + taken.length) = remaining := by
      rw [Nat.zero_add, ← hsplit, List.drop_left]
    have hlive : (s.accept e.id taken).connections e.fd = some e := h
    have hput := withElement_self (s.accept e.id taken) e.fd { e with outBuffer := remaining }
    simp only [flushEnd, bind, Except.bind, assign_eq hlive rfl, hrest, deref_eq hput rfl]
    rfl

end Flush

/-! ## The events -/

section Events

variable {s s' : IoWrites} {fd : Fd} {e : Element}

/-- A response or none has come in, some bytes were accepted and the others are kept. -/
def wrote (s : IoWrites) (fd : Fd) (e : Element) (bytes taken remaining : Bytes) : IoWrites :=
  { s with
    connections := Function.update s.connections fd (some { e with outBuffer := remaining })
    interest := Function.update s.interest fd (some (!remaining.isEmpty))
    received := Function.update s.received e.id (s.received e.id ++ bytes)
    accepted := Function.update s.accepted e.id (s.accepted e.id ++ taken) }

/-- A response or none has come in, some bytes were accepted, and the connection is closed. -/
def lost (s : IoWrites) (fd : Fd) (e : Element) (bytes taken : Bytes) : IoWrites :=
  { s with
    connections := Function.update s.connections fd none
    interest := Function.update s.interest fd none
    received := Function.update s.received e.id (s.received e.id ++ bytes)
    accepted := Function.update s.accepted e.id (s.accepted e.id ++ taken)
    disconnects := s.disconnects ++ [(e.id, fd)] }

/-- A connection is taken over. -/
def opened (s : IoWrites) (fd : Fd) : IoWrites :=
  { s with
    connections := Function.update s.connections fd (some ⟨s.created, fd, []⟩)
    interest := Function.update s.interest fd (some false)
    created := s.created + 1 }

/-- How a response or a writable event ends. -/
def responded (s : IoWrites) (fd : Fd) (e : Element) (bytes : Bytes) :
    Option (Bytes × Option Bytes) → Except Stop IoWrites
  | none => .error .noResult
  | some (taken, none) => .ok (lost s fd e bytes taken)
  | some (taken, some remaining) => .ok (wrote s fd e bytes taken remaining)

/-- A response is appended and flushed.
SOURCE: io_thread.cc:131-137 -/
theorem handleWriteResponse_eq {w : Bool} (h : s.connections fd = some e) (hkey : e.fd = fd)
    (hwatched : s.interest fd = some w) (bytes : Bytes) (results : List SendResult) :
    s.handleWriteResponse fd bytes results =
      responded s fd e bytes (flushed (e.outBuffer ++ bytes) results) := by
  have hlive : (s.receive e.id bytes).connections fd = some e := h
  have hput :=
    withElement_self (s.receive e.id bytes) fd { e with outBuffer := e.outBuffer ++ bytes }
  have hflush := flushOutBuffer_eq hput hkey results
  simp only [IoWrites.handleWriteResponse, h, assign_eq hlive rfl, bind, Except.bind]
  rw [hflush]
  rcases flushed (e.outBuffer ++ bytes) results with _ | ⟨taken, _ | remaining⟩
  · rfl
  · simp only [flushDone, responded, IoWrites.closeConnection, IoWrites.accept, hput]
    simp only [withElement, IoWrites.receive, lost, Function.update_idem]
  · simp only [flushDone, responded, withElement, IoWrites.accept, IoWrites.receive,
      IoWrites.updateEpoll, hwatched, wrote, Function.update_idem]

/-- A writable event is a response without bytes.
SOURCE: io_thread.cc:182-186 -/
theorem handleWritable_eq (s : IoWrites) (fd : Fd) (results : List SendResult) :
    s.handleWritable fd results = s.handleWriteResponse fd [] results := by
  cases h : s.connections fd with
  | none => simp only [IoWrites.handleWritable, IoWrites.handleWriteResponse, h]
  | some e =>
    have hreceive : s.receive e.id [] = s := by
      simp only [IoWrites.receive, List.append_nil, Function.update_eq_self]
    have hsame : withElement s fd { e with outBuffer := e.outBuffer ++ [] } = s := by
      rw [List.append_nil, withElement, ← h, Function.update_eq_self]
    simp only [IoWrites.handleWritable, IoWrites.handleWriteResponse, h, hreceive,
      assign_eq h rfl, hsame, bind, Except.bind]

/-- A connection that is closed takes what was left of its buffer with it.
SOURCE: io_thread.cc:215-222 -/
theorem closeConnection_eq (h : s.connections fd = some e) :
    s.closeConnection fd = lost s fd e [] [] := by
  simp only [IoWrites.closeConnection, h, lost, List.append_nil, Function.update_eq_self]

end Events

/-! ## The books -/

/-- The numbers of the elements of the map. -/
def ids (s : IoWrites) (fd : Fd) : Option ℕ := (s.connections fd).map Element.id

/-- **The books of an IO thread.** -/
structure Books (s : IoWrites) : Prop where
  /-- an element is in the map under its descriptor -/
  keyed : ∀ {fd e}, s.connections fd = some e → e.fd = fd
  /-- what was accepted and what is left is what was received -/
  balanced : ∀ {fd e}, s.connections fd = some e → s.accepted e.id ++ e.outBuffer = s.received e.id
  /-- nothing was received for an element that is not there yet -/
  blank : ∀ {id}, s.created ≤ id → s.accepted id = [] ∧ s.received id = []
  /-- `EPOLLOUT` is registered while something is left -/
  watched : ∀ fd, s.interest fd = (s.connections fd).map fun e => !e.outBuffer.isEmpty
  /-- there is one `Disconnect` for each element that was erased -/
  numbered : Numbered (ids s) s.created (s.disconnects.map Prod.fst)

section Books

variable {s s' : IoWrites} {fd : Fd} {e : Element}

/-- A new thread has no connections.
SOURCE: io_thread.cc:118-137, 188-222 -/
theorem books_init : Books IoWrites.init where
  keyed h := by cases h
  balanced h := by cases h
  blank _ := ⟨rfl, rfl⟩
  watched _ := rfl
  numbered := .empty

/-- The number of an element of the map.
SOURCE: io_thread.cc:118-137, 188-222 -/
theorem ids_eq_some (h : s.connections fd = some e) : ids s fd = some e.id := by
  rw [ids, h, Option.map_some]

/-- The numbers after the element of a descriptor was put in, changed or erased.
SOURCE: io_thread.cc:118-137, 188-222 -/
theorem ids_update {o : Option Element} (h : s'.connections = Function.update s.connections fd o) :
    ids s' = Function.update (ids s) fd (o.map Element.id) := by
  funext fd'
  rw [ids, h]
  by_cases hfd : fd' = fd
  · rw [hfd, Function.update_self, Function.update_self]
  · rw [Function.update_of_ne hfd, Function.update_of_ne hfd, ids]

/-- Another element has another number.
SOURCE: io_thread.cc:118-137, 188-222 -/
theorem Books.id_ne {fd' : Fd} {e' : Element} (hs : Books s) (h : s.connections fd = some e)
    (h' : s.connections fd' = some e') (hne : fd' ≠ fd) : e'.id ≠ e.id := by
  intro heq
  have hid : ids s fd' = some e.id := by rw [ids_eq_some h', heq]
  exact hne (hs.numbered.unique hid (ids_eq_some h))

/-- The number of an element is not one that is still to be given out.
SOURCE: io_thread.cc:123 -/
theorem Books.ne_of_created_le {id : ℕ} (hs : Books s) (h : s.connections fd = some e)
    (hid : s.created ≤ id) : id ≠ e.id := by
  have hlt := hs.numbered.bound (ids_eq_some h)
  omega

/-- The books after a flush that does not fail: what was appended has been accepted or is left, and
the rest is waited for.
SOURCE: io_thread.cc:188-213 -/
theorem Books.wrote {bytes taken remaining : Bytes} (hs : Books s) (h : s.connections fd = some e)
    (hsplit : taken ++ remaining = e.outBuffer ++ bytes) :
    Books (wrote s fd e bytes taken remaining) where
  keyed h' := by
    have hkey := hs.keyed h
    obtain ⟨rfl, heq⟩ | ⟨-, h'⟩ := of_update_eq_some h'
    · cases heq
      exact hkey
    · exact hs.keyed h'
  balanced {fd' e'} h' := by
    obtain ⟨rfl, heq⟩ | ⟨hne, h'⟩ := of_update_eq_some h'
    · cases heq
      simp only [Analysis.wrote, Function.update_self]
      rw [List.append_assoc, hsplit, ← List.append_assoc, hs.balanced h]
    · have hid := hs.id_ne h h' hne
      simp only [Analysis.wrote, Function.update_of_ne hid]
      exact hs.balanced h'
  blank hid := by
    have hne := hs.ne_of_created_le h hid
    simp only [Analysis.wrote, Function.update_of_ne hne]
    exact hs.blank hid
  watched fd' := by
    simp only [Analysis.wrote]
    by_cases hfd : fd' = fd
    · rw [hfd, Function.update_self, Function.update_self, Option.map_some]
    · rw [Function.update_of_ne hfd, Function.update_of_ne hfd, hs.watched]
  numbered := by
    have hsame : ids (Analysis.wrote s fd e bytes taken remaining) = ids s := by
      rw [ids_update rfl, Option.map_some, ← ids_eq_some h, Function.update_eq_self]
    rw [hsame]
    exact hs.numbered

/-- The books after a connection was closed.
SOURCE: io_thread.cc:204-206, 215-222 -/
theorem Books.lost (hs : Books s) (h : s.connections fd = some e) (bytes taken : Bytes) :
    Books (lost s fd e bytes taken) where
  keyed h' := by
    obtain ⟨-, heq⟩ | ⟨-, h'⟩ := of_update_eq_some h'
    · cases heq
    · exact hs.keyed h'
  balanced h' := by
    obtain ⟨-, heq⟩ | ⟨hne, h'⟩ := of_update_eq_some h'
    · cases heq
    · have hid := hs.id_ne h h' hne
      simp only [Analysis.lost, Function.update_of_ne hid]
      exact hs.balanced h'
  blank hid := by
    have hne := hs.ne_of_created_le h hid
    simp only [Analysis.lost, Function.update_of_ne hne]
    exact hs.blank hid
  watched fd' := by
    simp only [Analysis.lost]
    by_cases hfd : fd' = fd
    · rw [hfd, Function.update_self, Function.update_self, Option.map_none]
    · rw [Function.update_of_ne hfd, Function.update_of_ne hfd, hs.watched]
  numbered := by
    have hids : ids (Analysis.lost s fd e bytes taken) = Function.update (ids s) fd none :=
      ids_update (o := none) rfl
    have hgone : (Analysis.lost s fd e bytes taken).disconnects.map Prod.fst =
        s.disconnects.map Prod.fst ++ [e.id] := List.map_append
    rw [hids, hgone]
    exact hs.numbered.leave (ids_eq_some h)

/-- The books after a connection was taken over.
SOURCE: io_thread.cc:118-129 -/
theorem Books.opened (hs : Books s) (h : s.connections fd = none) : Books (opened s fd) where
  keyed h' := by
    obtain ⟨rfl, heq⟩ | ⟨-, h'⟩ := of_update_eq_some h'
    · cases heq
      rfl
    · exact hs.keyed h'
  balanced h' := by
    obtain ⟨-, heq⟩ | ⟨-, h'⟩ := of_update_eq_some h'
    · cases heq
      have hblank := hs.blank (Nat.le_refl s.created)
      simp only [Analysis.opened, hblank, List.append_nil]
    · exact hs.balanced h'
  blank hid := hs.blank (Nat.le_of_succ_le hid)
  watched fd' := by
    simp only [Analysis.opened]
    by_cases hfd : fd' = fd
    · rw [hfd, Function.update_self, Function.update_self, Option.map_some]
      rfl
    · rw [Function.update_of_ne hfd, Function.update_of_ne hfd, hs.watched]
  numbered := by
    have hids : ids (Analysis.opened s fd) = Function.update (ids s) fd (some s.created) :=
      ids_update (o := some ⟨s.created, fd, []⟩) rfl
    rw [hids]
    exact hs.numbered.enter (by rw [ids, h, Option.map_none])

/-! ## Runs -/

/-- A connection is watched for writing exactly while bytes are left.
SOURCE: io_thread.cc:210-212 -/
theorem Books.watched_some (hs : Books s) (h : s.connections fd = some e) :
    s.interest fd = some (!e.outBuffer.isEmpty) := by
  rw [hs.watched, h, Option.map_some]

/-- What an event does: nothing, a connection is taken over, bytes are written, or a connection is
closed. -/
inductive EventResult (s : IoWrites) : Except Stop IoWrites → Prop where
  | noResult : EventResult s (.error .noResult)
  | unchanged : EventResult s (.ok s)
  | opened {fd : Fd} (h : s.connections fd = none) : EventResult s (.ok (opened s fd))
  | wrote {fd : Fd} {e : Element} {bytes taken remaining : Bytes} (h : s.connections fd = some e)
    (hsplit : taken ++ remaining = e.outBuffer ++ bytes) :
    EventResult s (.ok (wrote s fd e bytes taken remaining))
  | lost {fd : Fd} {e : Element} (h : s.connections fd = some e) (bytes taken : Bytes) :
    EventResult s (.ok (lost s fd e bytes taken))

/-- A connection is taken over, or the descriptor is in the map already.
SOURCE: io_thread.cc:118-129 -/
theorem handleAssign_result (hs : Books s) (fd : Fd) : EventResult s (.ok (s.handleAssign fd)) := by
  cases h : s.connections fd with
  | none =>
    have hnot : s.interest fd = none := by rw [hs.watched, h, Option.map_none]
    have heq : s.handleAssign fd = opened s fd := by
      simp only [IoWrites.handleAssign, h, IoWrites.epollAdd, hnot, opened]
    rw [heq]
    exact .opened h
  | some e =>
    have heq : s.handleAssign fd = s := by
      simp only [IoWrites.handleAssign, h, IoWrites.epollAdd, hs.watched_some h]
    rw [heq]
    exact .unchanged

/-- A response is written, in part or whole, or loses its connection, or has none.
SOURCE: io_thread.cc:131-137 -/
theorem handleWriteResponse_result (hs : Books s) (fd : Fd) (bytes : Bytes)
    (results : List SendResult) : EventResult s (s.handleWriteResponse fd bytes results) := by
  cases h : s.connections fd with
  | none =>
    simp only [IoWrites.handleWriteResponse, h]
    exact .unchanged
  | some e =>
    rw [handleWriteResponse_eq h (hs.keyed h) (hs.watched_some h)]
    rcases hflushed : flushed (e.outBuffer ++ bytes) results with _ | ⟨taken, _ | remaining⟩
    · exact .noResult
    · exact .lost h bytes taken
    · exact .wrote h (flushed_append hflushed)

/-- A connection is closed if it is there.
SOURCE: io_thread.cc:215-222 -/
theorem closeConnection_result (s : IoWrites) (fd : Fd) :
    EventResult s (.ok (s.closeConnection fd)) := by
  cases h : s.connections fd with
  | none =>
    simp only [IoWrites.closeConnection, h]
    exact .unchanged
  | some e =>
    rw [closeConnection_eq h]
    exact .lost h [] []

/-- **The events of an IO thread.**
SOURCE: io_thread.cc:108-137, 182-222 -/
theorem step_result (hs : Books s) (ev : IoWrites.Event) : EventResult s (s.step ev) := by
  cases ev with
  | assignConnection fd => exact handleAssign_result hs fd
  | writeResponse fd bytes results => exact handleWriteResponse_result hs fd bytes results
  | writable fd results =>
    rw [IoWrites.step, handleWritable_eq]
    exact handleWriteResponse_result hs fd [] results
  | close fd => exact closeConnection_result s fd

/-- Every outcome of an event keeps the books.
SOURCE: io_thread.cc:108-137, 182-222 -/
theorem EventResult.books {r : Except Stop IoWrites} (h : EventResult s r) (hs : Books s)
    (hr : r = .ok s') : Books s' := by
  cases h with
  | noResult => cases hr
  | unchanged =>
    cases hr
    exact hs
  | opened h =>
    cases hr
    exact hs.opened h
  | wrote h hsplit =>
    cases hr
    exact hs.wrote h hsplit
  | lost h bytes taken =>
    cases hr
    exact hs.lost h bytes taken

/-- In no outcome has a dangling reference been used.
SOURCE: io_thread.cc:108-137, 182-222 -/
theorem EventResult.ne_dangling {r : Except Stop IoWrites} (h : EventResult s r) :
    r ≠ .error .dangling := by
  intro hr
  cases h <;> cases hr

/-- The states an IO thread reaches, with any messages and events. -/
def WritesReach : IoWrites → Prop :=
  Reaches (fun s ev s' => s.step ev = .ok s') (fun _ _ => True) IoWrites.init

/-- The books are kept in every run.
SOURCE: io_thread.cc:108-137, 182-222 -/
theorem books_of_reach (h : WritesReach s) : Books s := by
  apply Reaches.invariant (I := Books) books_init _ h
  intro s ev s' hs _ hstep
  exact (step_result hs ev).books hs hstep

end Books

/-- **No reply byte is lost, duplicated or stranded.**  In every state an IO thread reaches:

* what the socket of a live connection has accepted, followed by its buffer, is what was received
  for it, and `EPOLLOUT` is registered exactly while the buffer is not empty;
* no event uses a reference to a connection that was erased;
* an event whose `send` calls do not fail leaves the connection live, and one whose `send` calls
  fail erases it and emits one `Disconnect`;
* there is no `Disconnect` for a live connection and exactly one for each that was erased.

SOURCE: io_thread.cc:118-137, 182-242 -/
theorem writes_kept {s : IoWrites} (h : WritesReach s) :
    (∀ fd e, s.connections fd = some e →
      s.accepted e.id ++ e.outBuffer = s.received e.id ∧
      (s.interest fd = some true ↔ e.outBuffer ≠ []) ∧
      (s.disconnects.map Prod.fst).count e.id = 0) ∧
    (∀ id < s.created, (∃ fd e, s.connections fd = some e ∧ e.id = id) ∨
      (s.disconnects.map Prod.fst).count id = 1) ∧
    (∀ ev, s.step ev ≠ .error .dangling) ∧
    (∀ fd results, s.step (.writable fd results) = s.step (.writeResponse fd [] results)) ∧
    ∀ fd e bytes results, s.connections fd = some e →
      (∀ remaining, sendLoop (e.outBuffer ++ bytes) results = some (some remaining) →
        ∃ s', s.step (.writeResponse fd bytes results) = .ok s' ∧
          s'.connections fd = some { e with outBuffer := remaining } ∧
          s'.disconnects = s.disconnects) ∧
      (sendLoop (e.outBuffer ++ bytes) results = some none →
        ∃ s', s.step (.writeResponse fd bytes results) = .ok s' ∧
          s'.connections fd = none ∧ s'.interest fd = none ∧
          s'.disconnects = s.disconnects ++ [(e.id, fd)]) := by
  have hs := books_of_reach h
  refine ⟨?_, ?_, ?_, ?_, ?_⟩
  · intro fd e he
    refine ⟨hs.balanced he, ?_, hs.numbered.count_of_mem (ids_eq_some he)⟩
    rw [hs.watched_some he]
    simp
  · intro id hid
    refine (hs.numbered.count_of_lt hid).imp_left ?_
    rintro ⟨fd, hfd⟩
    obtain ⟨e, he, rfl⟩ := Option.map_eq_some_iff.mp hfd
    exact ⟨fd, e, he, rfl⟩
  · intro ev
    exact (step_result hs ev).ne_dangling
  · intro fd results
    exact handleWritable_eq s fd results
  · intro fd e bytes results he
    have hstep : s.step (.writeResponse fd bytes results) = _ :=
      handleWriteResponse_eq he (hs.keyed he) (hs.watched_some he) bytes results
    rw [hstep, sendLoop_eq_flushed]
    refine ⟨?_, ?_⟩
    · intro remaining hsend
      obtain ⟨⟨taken, left⟩, hflushed, rfl⟩ := Option.map_eq_some_iff.mp hsend
      rw [hflushed]
      exact ⟨_, rfl, Function.update_self .., rfl⟩
    · intro hsend
      obtain ⟨⟨taken, left⟩, hflushed, rfl⟩ := Option.map_eq_some_iff.mp hsend
      rw [hflushed]
      exact ⟨_, rfl, Function.update_self .., Function.update_self .., rfl⟩

/-- A thread whose client has taken one of three bytes.
SOURCE: io_thread.cc:188-213 -/
theorem partlyWritten_reached : ∃ s, WritesReach s ∧ s.connections 5 = some ⟨0, 5, [98, 99]⟩ :=
  ⟨_, (Reaches.refl.tail (a := .assignConnection 5) trivial rfl).tail
    (a := .writeResponse 5 [97, 98, 99] [.sent 1, .wouldBlockOrInterrupted]) trivial rfl, rfl⟩

/-- One of three bytes has been taken, the other two are kept.
SOURCE: io_thread.cc:188-213 -/
theorem writes_kept_partlyWritten :
    ∃ s, WritesReach s ∧ s.connections 5 = some ⟨0, 5, [98, 99]⟩ ∧
      s.accepted 0 ++ [98, 99] = s.received 0 ∧ s.interest 5 = some true := by
  obtain ⟨s, hs, hconn⟩ := partlyWritten_reached
  have hbytes := (writes_kept hs).1 5 _ hconn
  exact ⟨s, hs, hconn, hbytes.1, hbytes.2.1.mpr (List.cons_ne_nil _ _)⟩

end MyRedis.Analysis

import MyRedis.Lib.TransitionSystem
import Mathlib.Data.List.Range
import Mathlib.Logic.Function.Basic

/-!
# Streams handed out in pieces

What several streams send waits in one queue.  Workers take pieces from its front, hold them for
a while and deliver them, each at a speed of its own, and a stream's pieces are received under
its key.  If a worker delivers a piece only when no other one holds an earlier piece of the
stream, and a stream sends only under a key under which no other one has sent, then a stream
of which nothing waits or is held has been received as it was sent (`received_eq`).
-/

set_option autoImplicit false

namespace MyRedis.Lib

/-- A piece: the `index`-th that its stream has sent. -/
structure Piece (Key α : Type) where
  key : Key
  chunk : α
  stream : ℕ
  index : ℕ

/-- The streams with their keys and what they have sent, the queue, what each worker holds and
what has been received under each key. -/
@[ext]
structure Handout (ι Key α : Type) where
  streams : List (Key × List α)
  waiting : List (Piece Key α)
  held : ι → Option (Piece Key α)
  received : Key → List α

namespace Handout

variable {ι Key α : Type}

inductive Act (ι Key α : Type) where
  | start (key : Key)
  | send (c : ℕ) (a : α)
  | take (i : ι)
  | deliver (i : ι)

/-- Nothing has happened. -/
def init : Handout ι Key α := ⟨[], [], fun _ => none, fun _ => []⟩

def step [DecidableEq ι] [DecidableEq Key] (h : Handout ι Key α) :
    Act ι Key α → Option (Handout ι Key α)
  | .start key => some { h with streams := h.streams ++ [(key, [])] }
  | .send c a =>
    match h.streams[c]? with
    | none => none
    | some (key, sent) => some { h with
        streams := h.streams.set c (key, sent ++ [a])
        waiting := h.waiting ++ [⟨key, a, c, sent.length⟩] }
  | .take i =>
    match h.held i, h.waiting with
    | none, piece :: waiting =>
      some { h with waiting, held := Function.update h.held i (some piece) }
    | _, _ => none
  | .deliver i =>
    match h.held i with
    | none => none
    | some piece => some { h with
        held := Function.update h.held i none
        received := Function.update h.received piece.key
          (h.received piece.key ++ [piece.chunk]) }

/-- A stream sends under a key of its own, and its pieces are delivered in the order in which
they were sent. -/
def Careful (h : Handout ι Key α) : Act ι Key α → Prop
  | .send c _ => ∀ (c' : ℕ) (stream stream' : Key × List α), c' ≠ c →
      h.streams[c]? = some stream → h.streams[c']? = some stream' → stream'.1 = stream.1 →
      stream'.2 = []
  | .deliver i => ∀ piece, h.held i = some piece → ∀ j piece', j ≠ i → h.held j = some piece' →
      piece'.stream = piece.stream → piece.index < piece'.index
  | _ => True

/-- How far a stream has got: its first `p` pieces have been received, those up to the `k`-th are
held, by one worker each, and the others wait. -/
structure Progress (h : Handout ι Key α) (c : ℕ) (stream : Key × List α) (p k : ℕ) : Prop where
  received : h.received stream.1 = stream.2.take p
  order : p ≤ k
  bound : k ≤ stream.2.length
  held : ∀ index, (∃ i piece, h.held i = some piece ∧ piece.stream = c ∧ piece.index = index) ↔
    p ≤ index ∧ index < k
  once : ∀ i j piece piece', h.held i = some piece → h.held j = some piece' →
    piece.stream = c → piece'.stream = c → piece.index = piece'.index → i = j
  waiting : (h.waiting.filter (fun piece => piece.stream = c)).map Piece.index =
    List.range' k (stream.2.length - k)

/-- A piece is what its stream has sent. -/
def FromStream (h : Handout ι Key α) (piece : Piece Key α) : Prop :=
  ∃ stream, h.streams[piece.stream]? = some stream ∧ stream.1 = piece.key ∧
    stream.2[piece.index]? = some piece.chunk

/-- The invariant. -/
structure Tracked (h : Handout ι Key α) : Prop where
  alone : ∀ (c c' : ℕ) (stream stream' : Key × List α), c ≠ c' →
    h.streams[c]? = some stream → h.streams[c']? = some stream' → stream.1 = stream'.1 →
    stream.2 = [] ∨ stream'.2 = []
  waiting : ∀ piece ∈ h.waiting, FromStream h piece
  held : ∀ i piece, h.held i = some piece → FromStream h piece
  unused : ∀ key, (∀ stream ∈ h.streams, stream.1 = key → stream.2 = []) → h.received key = []
  progress : ∀ (c : ℕ) (stream : Key × List α), h.streams[c]? = some stream → stream.2 ≠ [] →
    ∃ p k, Progress h c stream p k

/-- At the start there is nothing to track. -/
theorem tracked_init : Tracked (init : Handout ι Key α) where
  alone _ _ _ _ _ hstream := by cases hstream
  waiting _ hpiece := by cases hpiece
  held _ _ hpiece := by cases hpiece
  unused _ _ := rfl
  progress _ _ hstream := by cases hstream

/-! ## Streams -/

section Streams

variable {h h' : Handout ι Key α} {c p k : ℕ} {stream : Key × List α}

/-- What a stream's progress depends on. -/
theorem Progress.congr (hprogress : Progress h c stream p k)
    (hreceived : h'.received stream.1 = h.received stream.1)
    (hheld : ∀ i piece, piece.stream = c → (h'.held i = some piece ↔ h.held i = some piece))
    (hwaiting : h'.waiting.filter (fun piece => piece.stream = c) =
      h.waiting.filter (fun piece => piece.stream = c)) : Progress h' c stream p k where
  received := hreceived.trans hprogress.received
  order := hprogress.order
  bound := hprogress.bound
  held index := by
    rw [← hprogress.held index]
    constructor
    · rintro ⟨i, piece, hpiece, hstream, hindex⟩
      exact ⟨i, piece, (hheld i piece hstream).mp hpiece, hstream, hindex⟩
    · rintro ⟨i, piece, hpiece, hstream, hindex⟩
      exact ⟨i, piece, (hheld i piece hstream).mpr hpiece, hstream, hindex⟩
  once i j piece piece' hpiece hpiece' hstream hstream' :=
    hprogress.once i j piece piece' ((hheld i piece hstream).mp hpiece)
      ((hheld j piece' hstream').mp hpiece') hstream hstream'
  waiting := by
    rw [hwaiting]
    exact hprogress.waiting

/-- A stream that a piece is from has sent something. -/
theorem FromStream.sent_ne_nil {piece : Piece Key α} (hpiece : FromStream h piece)
    (hstream : h.streams[piece.stream]? = some stream) : stream.2 ≠ [] := by
  obtain ⟨stream', hstream', -, hchunk⟩ := hpiece
  obtain rfl : stream = stream' := Option.some.inj (hstream.symm.trans hstream')
  rintro hnil
  rw [hnil] at hchunk
  cases hchunk

/-- A stream that has sent nothing has nothing in the queue or with a worker. -/
theorem Tracked.nothing (htracked : Tracked h) (hstream : h.streams[c]? = some stream)
    (hnil : stream.2 = []) : h.waiting.filter (fun piece => piece.stream = c) = [] ∧
      ∀ i piece, h.held i = some piece → piece.stream ≠ c := by
  constructor
  · rw [List.filter_eq_nil_iff]
    intro piece hpiece hc
    rw [decide_eq_true_eq] at hc
    subst hc
    exact (htracked.waiting piece hpiece).sent_ne_nil hstream hnil
  · rintro i piece hpiece rfl
    exact (htracked.held i piece hpiece).sent_ne_nil hstream hnil

/-- A new stream has sent nothing, so that no piece is from it. -/
theorem Tracked.start (htracked : Tracked h) (key : Key) :
    Tracked { h with streams := h.streams ++ [(key, [])] } := by
  have hcases {c : ℕ} {stream : Key × List α}
      (hstream : (h.streams ++ [(key, [])])[c]? = some stream) :
      h.streams[c]? = some stream ∨ stream = (key, []) := by
    rw [List.getElem?_append] at hstream
    split_ifs at hstream with hlt
    · exact Or.inl hstream
    · exact Or.inr (List.mem_singleton.mp (List.mem_of_getElem? hstream))
  have hfrom {piece : Piece Key α} (hpiece : FromStream h piece) :
      FromStream { h with streams := h.streams ++ [(key, [])] } piece := by
    obtain ⟨stream, hstream, hrest⟩ := hpiece
    refine ⟨stream, ?_, hrest⟩
    rw [List.getElem?_append_left (List.getElem?_eq_some_iff.mp hstream).1]
    exact hstream
  refine ⟨?_, fun piece hpiece => hfrom (htracked.waiting piece hpiece),
    fun i piece hpiece => hfrom (htracked.held i piece hpiece), ?_, ?_⟩
  · intro c c' stream stream' hne hstream hstream' hkey
    obtain hold | rfl := hcases hstream
    · obtain hold' | rfl := hcases hstream'
      · exact htracked.alone c c' stream stream' hne hold hold' hkey
      · exact Or.inr rfl
    · exact Or.inl rfl
  · intro key' hnone
    exact htracked.unused key' fun stream hstream => hnone stream (List.mem_append_left _ hstream)
  · intro c stream hstream hsent
    obtain hold | rfl := hcases hstream
    · obtain ⟨p, k, hprogress⟩ := htracked.progress c stream hold hsent
      exact ⟨p, k, hprogress.congr rfl (fun _ _ _ => Iff.rfl) rfl⟩
    · exact absurd rfl hsent

/-- A stream sends one more piece. -/
theorem Progress.send {key : Key} {sent : List α} (hprogress : Progress h c (key, sent) p k)
    (a : α) : Progress { h with
      streams := h.streams.set c (key, sent ++ [a])
      waiting := h.waiting ++ [⟨key, a, c, sent.length⟩] } c (key, sent ++ [a]) p k where
  received := by
    have hle : p ≤ sent.length := le_trans hprogress.order hprogress.bound
    rw [List.take_append_of_le_length hle]
    exact hprogress.received
  order := hprogress.order
  bound := by
    rw [List.length_append]
    exact Nat.le_add_right_of_le hprogress.bound
  held := hprogress.held
  once := hprogress.once
  waiting := by
    have hbound : k ≤ sent.length := hprogress.bound
    have hlength : (sent ++ [a]).length - k = (sent.length - k) + 1 := by
      rw [List.length_append, List.length_singleton]
      omega
    have hlast : k + 1 * (sent.length - k) = sent.length := by omega
    rw [List.filter_append, List.map_append, hprogress.waiting, hlength, List.range'_concat, hlast]
    simp

/-- A stream that has sent nothing under a key of its own is at its beginning. -/
theorem Tracked.beginning (htracked : Tracked h) (hstream : h.streams[c]? = some stream)
    (hnil : stream.2 = [])
    (hunused : ∀ stream' ∈ h.streams, stream'.1 = stream.1 → stream'.2 = []) :
    Progress h c stream 0 0 := by
  obtain ⟨hwaiting, hheld⟩ := htracked.nothing hstream hnil
  refine ⟨htracked.unused stream.1 hunused, le_rfl, Nat.zero_le _, ?_, ?_, ?_⟩
  · intro index
    constructor
    · rintro ⟨i, piece, hpiece, hc, -⟩
      exact absurd hc (hheld i piece hpiece)
    · rintro ⟨-, hlt⟩
      exact absurd hlt (Nat.not_lt_zero _)
  · intro i j piece piece' hpiece _ hc
    exact absurd hc (hheld i piece hpiece)
  · rw [hwaiting, hnil]
    rfl

section Send

variable {key : Key} {sent : List α}

/-- What a stream has sent stays where it is. -/
theorem FromStream.send (hstream : h.streams[c]? = some (key, sent)) (a : α)
    {piece : Piece Key α} (hpiece : FromStream h piece) : FromStream { h with
      streams := h.streams.set c (key, sent ++ [a])
      waiting := h.waiting ++ [⟨key, a, c, sent.length⟩] } piece := by
  obtain ⟨stream, hold, hkey, hchunk⟩ := hpiece
  by_cases hc : piece.stream = c
  · rw [hc, hstream] at hold
    cases hold
    have hlt := (List.getElem?_eq_some_iff.mp hstream).1
    refine ⟨(key, sent ++ [a]), by rw [hc]; exact List.getElem?_set_self hlt, hkey, ?_⟩
    rw [List.getElem?_append_left (List.getElem?_eq_some_iff.mp hchunk).1]
    exact hchunk
  · exact ⟨stream, (List.getElem?_set_ne (Ne.symm hc)).trans hold, hkey, hchunk⟩

/-- The streams after one of them was replaced. -/
theorem of_getElem?_set {β : Type} {l : List β} {i j : ℕ} {x y : β}
    (h : (l.set i x)[j]? = some y) : j = i ∧ y = x ∨ j ≠ i ∧ l[j]? = some y := by
  by_cases hj : j = i
  · rw [hj] at h
    rw [List.getElem?_set_self (by simpa using (List.getElem?_eq_some_iff.mp h).1)] at h
    exact Or.inl ⟨hj, (Option.some.inj h).symm⟩
  · rw [List.getElem?_set_ne (Ne.symm hj)] at h
    exact Or.inr ⟨hj, h⟩

/-- A stream that is alone under its key and has sent nothing: nothing was sent under the key. -/
theorem unused_of_alone (hstream : h.streams[c]? = some (key, sent)) (hnil : sent = [])
    (halone : ∀ (c' : ℕ) stream', c' ≠ c → h.streams[c']? = some stream' → stream'.1 = key →
      stream'.2 = []) : ∀ stream' ∈ h.streams, stream'.1 = key → stream'.2 = [] := by
  intro stream' hmem hkey
  obtain ⟨c', hc'⟩ := List.mem_iff_getElem?.mp hmem
  by_cases heq : c' = c
  · rw [heq, hstream] at hc'
    cases hc'
    exact hnil
  · exact halone c' stream' heq hc' hkey

/-- A piece that is sent is the last one of its stream and waits behind the others. -/
theorem Tracked.send (htracked : Tracked h) (hstream : h.streams[c]? = some (key, sent))
    (halone : ∀ (c' : ℕ) stream', c' ≠ c → h.streams[c']? = some stream' → stream'.1 = key →
      stream'.2 = []) (a : α) :
    Tracked { h with
      streams := h.streams.set c (key, sent ++ [a])
      waiting := h.waiting ++ [⟨key, a, c, sent.length⟩] } := by
  have hself : (h.streams.set c (key, sent ++ [a]))[c]? = some (key, sent ++ [a]) :=
    List.getElem?_set_self (List.getElem?_eq_some_iff.mp hstream).1
  refine ⟨?_, ?_, fun i piece hpiece => (htracked.held i piece hpiece).send hstream a, ?_, ?_⟩
  · intro c₁ c₂ stream₁ stream₂ hne h₁ h₂ hkey
    obtain ⟨rfl, rfl⟩ | ⟨hc₁, hold₁⟩ := of_getElem?_set h₁
    · obtain ⟨rfl, -⟩ | ⟨hc₂, hold₂⟩ := of_getElem?_set h₂
      · exact absurd rfl hne
      · exact Or.inr (halone c₂ stream₂ hc₂ hold₂ hkey.symm)
    · obtain ⟨rfl, rfl⟩ | ⟨-, hold₂⟩ := of_getElem?_set h₂
      · exact Or.inl (halone c₁ stream₁ hc₁ hold₁ hkey)
      · exact htracked.alone c₁ c₂ stream₁ stream₂ hne hold₁ hold₂ hkey
  · intro piece hpiece
    obtain hold | hnew := List.mem_append.mp hpiece
    · exact (htracked.waiting piece hold).send hstream a
    · rw [List.mem_singleton.mp hnew]
      exact ⟨_, hself, rfl, List.getElem?_concat_length⟩
  · intro key' hnone
    apply htracked.unused key'
    intro stream hmem hkey
    obtain ⟨c', hc'⟩ := List.mem_iff_getElem?.mp hmem
    by_cases hc : c' = c
    · -- the stream that sends is not empty any more
      rw [hc, hstream] at hc'
      cases hc'
      have hnil := hnone _ (List.mem_of_getElem? hself) hkey
      simp at hnil
    · have hother := (List.getElem?_set_ne (Ne.symm hc) (a := (key, sent ++ [a]))).trans hc'
      exact hnone stream (List.mem_of_getElem? hother) hkey
  · intro c' stream hc' hsent
    obtain ⟨rfl, rfl⟩ | ⟨hc, hold⟩ := of_getElem?_set hc'
    · by_cases hnil : sent = []
      · have hunused := unused_of_alone hstream hnil halone
        exact ⟨0, 0, (htracked.beginning hstream hnil hunused).send a⟩
      · obtain ⟨p, k, hprogress⟩ := htracked.progress c' (key, sent) hstream hnil
        exact ⟨p, k, hprogress.send a⟩
    · obtain ⟨p, k, hprogress⟩ := htracked.progress c' stream hold hsent
      refine ⟨p, k, hprogress.congr rfl (fun _ _ _ => Iff.rfl) ?_⟩
      rw [List.filter_append]
      simp [Ne.symm hc]

end Send

end Streams

/-! ## Workers -/

section Workers

variable {h : Handout ι Key α} {c p k : ℕ} {stream : Key × List α} {i : ι}
  {piece : Piece Key α} {waiting : List (Piece Key α)}

/-- The piece at the front of the queue is the next one of its stream. -/
theorem Progress.front (hprogress : Progress h piece.stream stream p k)
    (hwaiting : h.waiting = piece :: waiting) :
    piece.index = k ∧ k < stream.2.length ∧
      (waiting.filter (fun piece' => piece'.stream = piece.stream)).map Piece.index =
        List.range' (k + 1) (stream.2.length - (k + 1)) := by
  have hrange := hprogress.waiting
  rw [hwaiting, List.filter_cons_of_pos (by simp), List.map_cons] at hrange
  cases hleft : stream.2.length - k with
  | zero =>
    rw [hleft] at hrange
    cases hrange
  | succ left =>
    rw [hleft, List.range'_succ, List.cons.injEq] at hrange
    have hmore : stream.2.length - (k + 1) = left := by omega
    refine ⟨hrange.1, by omega, ?_⟩
    rw [hmore]
    exact hrange.2

variable [DecidableEq ι]

/-- What the receivers hold after one of them has taken a piece. -/
theorem held_take (hfree : h.held i = none) {j : ι} {piece' : Piece Key α} :
    Function.update h.held i (some piece) j = some piece' ↔
      j = i ∧ piece' = piece ∨ h.held j = some piece' := by
  by_cases hj : j = i
  · subst hj
    rw [Function.update_self, hfree]
    simp [eq_comm]
  · rw [Function.update_of_ne hj]
    simp [hj]

/-- What the receivers hold after one of them has delivered its piece. -/
theorem held_deliver {j : ι} {piece' : Piece Key α} :
    Function.update h.held i none j = some piece' ↔ j ≠ i ∧ h.held j = some piece' := by
  by_cases hj : j = i
  · subst hj
    simp
  · rw [Function.update_of_ne hj]
    simp [hj]

/-- A worker takes a piece of the stream. -/
theorem Progress.take (hprogress : Progress h piece.stream stream p k) (hfree : h.held i = none)
    (hwaiting : h.waiting = piece :: waiting) :
    Progress { h with waiting, held := Function.update h.held i (some piece) } piece.stream stream
      p (k + 1) := by
  obtain ⟨hindex, hlt, hrest⟩ := hprogress.front hwaiting
  have hearlier {j : ι} {piece' : Piece Key α} (hpiece' : h.held j = some piece')
      (hstream : piece'.stream = piece.stream) : piece'.index < piece.index := by
    rw [hindex]
    exact ((hprogress.held piece'.index).mp ⟨j, piece', hpiece', hstream, rfl⟩).2
  refine ⟨hprogress.received, Nat.le_succ_of_le hprogress.order, hlt, ?_, ?_, hrest⟩
  · intro index
    have hiff := hprogress.held index
    have horder := hprogress.order
    constructor
    · rintro ⟨j, piece', hpiece', hstream, rfl⟩
      obtain ⟨-, rfl⟩ | hold := (held_take hfree).mp hpiece'
      · omega
      · have := hiff.mp ⟨j, piece', hold, hstream, rfl⟩
        omega
    · rintro ⟨hp, hk⟩
      by_cases heq : index = k
      · exact ⟨i, piece, (held_take hfree).mpr (Or.inl ⟨rfl, rfl⟩), rfl, hindex.trans heq.symm⟩
      · obtain ⟨j, piece', hold, hstream, hpiece'⟩ := hiff.mpr ⟨hp, by omega⟩
        exact ⟨j, piece', (held_take hfree).mpr (Or.inr hold), hstream, hpiece'⟩
  · intro j j' piece₁ piece₂ h₁ h₂ hs₁ hs₂ heq
    obtain ⟨rfl, rfl⟩ | hold₁ := (held_take hfree).mp h₁
    · obtain ⟨rfl, -⟩ | hold₂ := (held_take hfree).mp h₂
      · rfl
      · exact absurd heq (Nat.ne_of_gt (hearlier hold₂ hs₂))
    · obtain ⟨rfl, rfl⟩ | hold₂ := (held_take hfree).mp h₂
      · exact absurd heq (Nat.ne_of_lt (hearlier hold₁ hs₁))
      · exact hprogress.once j j' piece₁ piece₂ hold₁ hold₂ hs₁ hs₂ heq

/-- The first piece that waits goes to a receiver; nothing else moves. -/
theorem Tracked.take (htracked : Tracked h) (hfree : h.held i = none)
    (hwaiting : h.waiting = piece :: waiting) :
    Tracked { h with waiting, held := Function.update h.held i (some piece) } := by
  have hfront : FromStream h piece := htracked.waiting piece (hwaiting ▸ List.mem_cons_self)
  refine ⟨htracked.alone, ?_, ?_, htracked.unused, ?_⟩
  · intro piece' hpiece'
    exact htracked.waiting piece' (hwaiting ▸ List.mem_cons_of_mem _ hpiece')
  · intro j piece' hpiece'
    obtain ⟨-, rfl⟩ | hold := (held_take hfree).mp hpiece'
    · exact hfront
    · exact htracked.held j piece' hold
  · intro c stream hstream hsent
    obtain ⟨p, k, hprogress⟩ := htracked.progress c stream hstream hsent
    by_cases hc : piece.stream = c
    · subst hc
      exact ⟨p, k + 1, hprogress.take hfree hwaiting⟩
    · refine ⟨p, k, hprogress.congr rfl ?_ ?_⟩
      · intro j piece' hpiece'
        rw [held_take hfree]
        constructor
        · rintro (⟨-, rfl⟩ | hold)
          · exact absurd hpiece' hc
          · exact hold
        · exact Or.inr
      · rw [hwaiting, List.filter_cons_of_neg (by simpa using hc)]

variable [DecidableEq Key]

/-- A worker delivers the earliest piece of the stream that is not delivered. -/
theorem Progress.deliver (hprogress : Progress h piece.stream stream p k)
    (hpiece : h.held i = some piece) (hkey : stream.1 = piece.key)
    (hchunk : stream.2[piece.index]? = some piece.chunk)
    (hfirst : ∀ j piece', j ≠ i → h.held j = some piece' → piece'.stream = piece.stream →
      piece.index < piece'.index) :
    Progress { h with
      held := Function.update h.held i none
      received := Function.update h.received piece.key (h.received piece.key ++ [piece.chunk]) }
      piece.stream stream (p + 1) k := by
  obtain ⟨hp, hk⟩ := (hprogress.held piece.index).mp ⟨i, piece, hpiece, rfl, rfl⟩
  -- some worker holds the `p`-th piece, and no other one is before this one's
  have hindex : piece.index = p := by
    obtain ⟨j, piece', hpiece', hstream', hp'⟩ :=
      (hprogress.held p).mpr ⟨le_rfl, Nat.lt_of_le_of_lt hp hk⟩
    by_cases hj : j = i
    · subst hj
      obtain rfl : piece = piece' := Option.some.inj (hpiece.symm.trans hpiece')
      exact hp'
    · have hlt := hfirst j piece' hj hpiece' hstream'
      omega
  refine ⟨?_, by omega, hprogress.bound, ?_, ?_, hprogress.waiting⟩
  · obtain ⟨hlt, hget⟩ := List.getElem?_eq_some_iff.mp hchunk
    dsimp only
    rw [hkey, Function.update_self, ← hkey, hprogress.received, ← hindex, ← hget,
      List.take_append_getElem]
  · intro index
    constructor
    · rintro ⟨j, piece', hpiece', hstream, rfl⟩
      obtain ⟨hj, hold⟩ := held_deliver.mp hpiece'
      have hrange := (hprogress.held piece'.index).mp ⟨j, piece', hold, hstream, rfl⟩
      have hlt := hfirst j piece' hj hold hstream
      omega
    · rintro ⟨hp', hk'⟩
      obtain ⟨j, piece', hold, hstream, hpiece'⟩ := (hprogress.held index).mpr ⟨by omega, hk'⟩
      have hj : j ≠ i := by
        rintro rfl
        obtain rfl : piece = piece' := Option.some.inj (hpiece.symm.trans hold)
        omega
      exact ⟨j, piece', held_deliver.mpr ⟨hj, hold⟩, hstream, hpiece'⟩
  · intro j j' piece₁ piece₂ h₁ h₂
    exact hprogress.once j j' piece₁ piece₂ (held_deliver.mp h₁).2 (held_deliver.mp h₂).2

/-- A piece that is delivered before the later ones of its stream is the next one for its key. -/
theorem Tracked.deliver (htracked : Tracked h) (hpiece : h.held i = some piece)
    (hfirst : ∀ j piece', j ≠ i → h.held j = some piece' → piece'.stream = piece.stream →
      piece.index < piece'.index) :
    Tracked { h with
      held := Function.update h.held i none
      received := Function.update h.received piece.key
        (h.received piece.key ++ [piece.chunk]) } := by
  have hfrom := htracked.held i piece hpiece
  obtain ⟨stream, hstream, hkey, hchunk⟩ := hfrom
  have hsent : stream.2 ≠ [] := (htracked.held i piece hpiece).sent_ne_nil hstream
  refine ⟨htracked.alone, htracked.waiting, ?_, ?_, ?_⟩
  · intro j piece' hpiece'
    exact htracked.held j piece' (held_deliver.mp hpiece').2
  · intro key hnone
    have hne : key ≠ piece.key := by
      rintro rfl
      exact hsent (hnone stream (List.mem_of_getElem? hstream) hkey)
    exact (Function.update_of_ne hne _ _).trans (htracked.unused key hnone)
  · intro c stream' hstream' hsent'
    obtain ⟨p, k, hprogress⟩ := htracked.progress c stream' hstream' hsent'
    by_cases hc : piece.stream = c
    · subst hc
      obtain rfl : stream = stream' := Option.some.inj (hstream.symm.trans hstream')
      exact ⟨p + 1, k, hprogress.deliver hpiece hkey hchunk hfirst⟩
    · refine ⟨p, k, hprogress.congr ?_ ?_ rfl⟩
      · -- another stream that has sent something has another key
        have hne : stream'.1 ≠ piece.key := fun heq =>
          (htracked.alone piece.stream c stream stream' hc hstream hstream'
            (hkey.trans heq.symm)).elim hsent hsent'
        exact Function.update_of_ne hne _ _
      · intro j piece' hpiece'
        rw [held_deliver]
        constructor
        · exact And.right
        · intro hold
          refine ⟨?_, hold⟩
          rintro rfl
          obtain rfl : piece = piece' := Option.some.inj (hpiece.symm.trans hold)
          exact hc hpiece'

/-! ## Runs -/

/-- **Every careful step keeps track of the pieces.** -/
theorem Tracked.step {h' : Handout ι Key α} {a : Act ι Key α} (htracked : Tracked h)
    (hcareful : Careful h a) (hstep : h.step a = some h') : Tracked h' := by
  cases a with
  | start key =>
    cases hstep
    exact htracked.start key
  | send c a =>
    rw [Handout.step] at hstep
    split at hstep
    · cases hstep
    · rename_i key sent hstream
      cases hstep
      exact htracked.send hstream
        (fun c' stream' hne hstream' hkey => hcareful c' _ stream' hne hstream hstream' hkey) a
  | take i =>
    rw [Handout.step] at hstep
    split at hstep
    · rename_i piece waiting hfree hwaiting
      cases hstep
      exact htracked.take hfree hwaiting
    · cases hstep
  | deliver i =>
    rw [Handout.step] at hstep
    split at hstep
    · cases hstep
    · rename_i piece hpiece
      cases hstep
      exact htracked.deliver hpiece (hcareful piece hpiece)

/-- The pieces are tracked along every careful run. -/
theorem tracked_of_run (hrun : Reaches (fun h a h' => step h a = some h') Careful init h) :
    Tracked h :=
  hrun.invariant tracked_init fun _ _ _ htracked hcareful hstep => htracked.step hcareful hstep

/-- What has been received has been sent by somebody. -/
theorem exists_sender (hrun : Reaches (fun h a h' => step h a = some h') Careful init h) {key : Key}
    (hreceived : h.received key ≠ []) : ∃ stream ∈ h.streams, stream.1 = key ∧ stream.2 ≠ [] := by
  by_contra hnone
  push Not at hnone
  exact hreceived ((tracked_of_run hrun).unused key hnone)

/-- **In order and complete**: a stream of which nothing waits or is held has been received as it
was sent. -/
theorem received_eq (hrun : Reaches (fun h a h' => step h a = some h') Careful init h)
    (hstream : h.streams[c]? = some stream) (hsent : stream.2 ≠ [])
    (hwaiting : ∀ piece ∈ h.waiting, piece.stream ≠ c)
    (hheld : ∀ i piece, h.held i = some piece → piece.stream ≠ c) :
    h.received stream.1 = stream.2 := by
  have htracked : Tracked h :=
    hrun.invariant tracked_init fun _ _ _ htracked hcareful hstep => htracked.step hcareful hstep
  obtain ⟨p, k, hprogress⟩ := htracked.progress c stream hstream hsent
  have hk : k = stream.2.length := by
    have hrange := hprogress.waiting
    rw [List.filter_eq_nil_iff.mpr (by simpa using hwaiting), List.map_nil] at hrange
    have hzero : stream.2.length - k = 0 := by
      simpa using (congrArg List.length hrange).symm
    have hbound := hprogress.bound
    omega
  have hp : p = k := by
    by_contra hne
    have horder := hprogress.order
    obtain ⟨i, piece, hpiece, hc, -⟩ := (hprogress.held p).mpr ⟨le_rfl, by omega⟩
    exact hheld i piece hpiece hc
  rw [hprogress.received, hp, hk, List.take_length]

end Workers

end Handout

end MyRedis.Lib

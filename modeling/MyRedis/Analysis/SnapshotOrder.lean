import MyRedis.Analysis.LatestSnapshot
import MyRedis.Lib.MapHistory
import MyRedis.Lib.TransitionSystem
import MyRedis.Model.SnapshotChildren

/-!
# Is the latest snapshot the latest state?

A child stamps its file when it has serialised its store, not when it is forked.  As long as no
child is overtaken by one that was forked after it, neither when it reads the clock nor when it
renames its file (`NotOvertaken`), the clock gives the children their timestamps in the order of
the forks (`StampsInOrder`), a child that completes is the newest one, and its file is the latest
one: the file that `LatestSnapshot` selects is that of the most recent fork among the completed
children (`latest_is_newest`).  Nothing in the code sees to that: a child that was forked before
another one and stamps its file after it puts the older state in front (`older_selected`).
-/

set_option autoImplicit false

namespace MyRedis.Analysis

open MyRedis.Model MyRedis.Model.Snapshotter MyRedis.Model.SnapshotChildren MyRedis.Lib

/-! ## The most recent fork among the completed children -/

/-- The last entry that is there, and its position. -/
def lastSome {α : Type} : List (Option α) → Option (ℕ × α)
  | [] => none
  | x :: xs =>
    match lastSome xs with
    | some (i, a) => some (i + 1, a)
    | none => x.map fun a => (0, a)

section LastSome

variable {α : Type} {xs : List (Option α)} {i : ℕ} {a : α}

/-- A last element that is none does not count. -/
theorem lastSome_append_none (xs : List (Option α)) : lastSome (xs ++ [none]) = lastSome xs := by
  induction xs with
  | nil => rfl
  | cons x xs ih => simp only [List.cons_append, lastSome, ih]

/-- Without any there is no last one. -/
theorem lastSome_eq_none (h : ∀ (j : ℕ) b, xs[j]? ≠ some (some b)) :
    lastSome xs = none := by
  induction xs with
  | nil => rfl
  | cons x xs ih =>
    have hrest : lastSome xs = none := ih fun j b => by simpa using h (j + 1) b
    cases x with
    | none => simp only [lastSome, hrest, Option.map_none]
    | some b => exact absurd rfl (h 0 b)

/-- The last one is the one that no other stands behind. -/
theorem lastSome_eq_some (h : xs[i]? = some (some a))
    (hlast : ∀ (j : ℕ) b, xs[j]? = some (some b) → j ≤ i) : lastSome xs = some (i, a) := by
  induction xs generalizing i with
  | nil => simp at h
  | cons x xs ih =>
    cases i with
    | zero =>
      obtain rfl : x = some a := by simpa using h
      have hrest : lastSome xs = none := lastSome_eq_none fun j b hb =>
        absurd (hlast (j + 1) b (by simpa using hb)) (by omega)
      simp only [lastSome, hrest, Option.map_some]
    | succ i =>
      have hrest : lastSome xs = some (i, a) :=
        ih (by simpa using h) fun j b hb =>
          Nat.le_of_succ_le_succ (hlast (j + 1) b (by simpa using hb))
      simp only [lastSome, hrest]

/-- The last one stands where it is said to. -/
theorem getElem?_of_lastSome (h : lastSome xs = some (i, a)) : xs[i]? = some (some a) := by
  induction xs generalizing i with
  | nil => simp [lastSome] at h
  | cons x xs ih =>
    rw [lastSome] at h
    cases hrest : lastSome xs with
    | none =>
      rw [hrest] at h
      obtain ⟨b, rfl, hb⟩ := Option.map_eq_some_iff.mp h
      cases hb
      rfl
    | some last =>
      rw [hrest] at h
      cases h
      exact ih hrest

end LastSome

/-- The timestamp of the file of a completed child. -/
def completedAt (child : Child) : Option Int64 :=
  match child.phase with
  | .completed timestamp => some timestamp
  | _ => none

/-- When a child has completed, by its phase.
SOURCE: snapshotter.cc:121-124 -/
theorem completedAt_eq_some {child : Child} {t : Int64} :
    completedAt child = some t ↔ child.phase = .completed t := by
  unfold completedAt
  cases child.phase with
  | completed t' => simp
  | forked | serialised | stamped | failed => simp

/-- The time that a child has read, for its file.
SOURCE: snapshotter.cc:117-119 -/
def stampOf (child : Child) : Option Int64 :=
  match child.phase with
  | .stamped _ timestamp => some timestamp
  | .completed timestamp => some timestamp
  | _ => none

/-- A completed child has read the time that is in the name of its file.
SOURCE: snapshotter.cc:117-124 -/
theorem stampOf_of_completedAt {child : Child} {t : Int64} (h : completedAt child = some t) :
    stampOf child = some t := by
  rw [completedAt_eq_some] at h
  rw [stampOf, h]

/-- The completed child that was forked last, and the timestamp of its file. -/
def newest (s : State) : Option (ℕ × Int64) := lastSome (s.children.map completedAt)

/-- The elements after the `i`-th one, by their positions. -/
theorem mem_drop_of_getElem? {α : Type} {l : List α} {i j : ℕ} {a : α} (h : l[j]? = some a)
    (hlt : i < j) : a ∈ l.drop (i + 1) := by
  apply List.mem_of_getElem? (i := j - (i + 1))
  rw [List.getElem?_drop, Nat.add_sub_cancel' hlt, h]

section Steps

variable {filePrefix : Bytes} {start : Int64} {s : State} {i : ℕ} {child : Child} {phase : Phase}

/-- The newest one to complete is a child.
SOURCE: server.cc:248-253, snapshotter.cc:114-125 -/
theorem exists_child_of_newest {t : Int64} (h : newest s = some (i, t)) :
    ∃ child, s.children[i]? = some child := by
  have hget := getElem?_of_lastSome h
  rw [List.getElem?_map] at hget
  obtain ⟨child, hchild, -⟩ := Option.map_eq_some_iff.mp hget
  exact ⟨child, hchild⟩

/-- A child that moves on without completing does not change which one is the newest.
SOURCE: server.cc:248-253, snapshotter.cc:114-125 -/
theorem newest_moveTo (hchild : s.children[i]? = some child) (hopen : completedAt child = none)
    (hphase : completedAt ⟨child.store, phase⟩ = none) :
    newest (s.moveTo i child phase) = newest s := by
  have hget : (s.children.map completedAt)[i]? = some none := by
    rw [List.getElem?_map, hchild, Option.map_some, hopen]
  obtain ⟨hlt, hnone⟩ := List.getElem?_eq_some_iff.mp hget
  rw [newest, newest, State.moveTo, List.map_set, hphase, ← hnone, List.set_getElem_self]

/-- A child that completes is the newest one, if none that was forked later has completed.
SOURCE: snapshotter.cc:121-124 -/
theorem newest_complete (hchild : s.children[i]? = some child)
    (hlater : ∀ later ∈ s.children.drop (i + 1), completedAt later = none) (t : Int64) :
    newest (s.moveTo i child (.completed t)) = some (i, t) := by
  obtain ⟨hlt, -⟩ := List.getElem?_eq_some_iff.mp hchild
  apply lastSome_eq_some
  · rw [State.moveTo, List.map_set, List.getElem?_set_self (by rwa [List.length_map])]
    rfl
  · intro j t' hj
    by_contra hji
    rw [State.moveTo, List.getElem?_map, List.getElem?_set_ne (by omega)] at hj
    obtain ⟨later, hget, hcompleted⟩ := Option.map_eq_some_iff.mp hj
    rw [hlater later (mem_drop_of_getElem? hget (by omega))] at hcompleted
    cases hcompleted

/-- A child keeps the store it was forked with.
SOURCE: server.cc:249-251 -/
theorem store_moveTo (hchild : s.children[i]? = some child) {j : ℕ} {after : Child}
    (hafter : (s.moveTo i child phase).children[j]? = some after) :
    ∃ before, s.children[j]? = some before ∧ before.store = after.store := by
  rw [State.moveTo, List.getElem?_set] at hafter
  split_ifs at hafter with hi hlt
  · subst hi
    refine ⟨child, hchild, ?_⟩
    rw [← Option.some.inj hafter]
  · exact ⟨after, hafter, rfl⟩

/-! ## The invariant -/

/-- The text is a serialisation of the store. -/
def Serialises (storeJson : Bytes) (store : Store) : Prop :=
  ∃ entries, store.Enumerates entries ∧ storeJson = Store.serialiseToJson entries

/-- What a child has in its hands is its own store. -/
def InHand (child : Child) : Prop :=
  match child.phase with
  | .serialised storeJson => Serialises storeJson child.store
  | .stamped storeJson _ => Serialises storeJson child.store
  | _ => True

/-- The children have their timestamps in the order of the forks, each between the start and now. -/
structure StampsInOrder (start now : Int64) (children : List Child) : Prop where
  inTime : ∀ child ∈ children, ∀ t, stampOf child = some t → start ≤ t ∧ t ≤ now
  sorted : ∀ (i j : ℕ) earlier later t t', i < j → children[i]? = some earlier →
    children[j]? = some later → stampOf earlier = some t → stampOf later = some t' → t ≤ t'

/-- No snapshot in the directory is later, and each has the name `Snapshot` gives it. -/
def UpTo (filePrefix : Bytes) (bound : Int64) (files : Bytes → Option Node) : Prop :=
  ∀ name content t, files name = some (.file content) → timestampOf filePrefix name = some t →
    name = fileName filePrefix t ∧ t ≤ bound

/-- The latest snapshot has this timestamp and holds the store. -/
structure Latest (filePrefix : Bytes) (files : Bytes → Option Node) (t : Int64) (store : Store) :
    Prop where
  upTo : UpTo filePrefix t files
  content : ∃ storeJson, files (fileName filePrefix t) = some (.file storeJson) ∧
    Serialises storeJson store

/-- The latest file is the one of the child that was forked last among the completed ones. -/
structure Ordered (filePrefix : Bytes) (start : Int64) (s : State) : Prop where
  clock : start ≤ s.now
  inHand : ∀ child ∈ s.children, InHand child
  stamps : StampsInOrder start s.now s.children
  before : newest s = none → UpTo filePrefix start s.files
  latest : ∀ i t child, newest s = some (i, t) → s.children[i]? = some child →
    Latest filePrefix s.files t child.store

/-- One child changes, to a timestamp that fits between those of the others.
SOURCE: server.cc:248-253, snapshotter.cc:114-125 -/
theorem StampsInOrder.set {start now : Int64} {children : List Child} {after : Child}
    (h : StampsInOrder start now children)
    (htime : ∀ t, stampOf after = some t → start ≤ t ∧ t ≤ now)
    (hearlier : ∀ t (j : ℕ) earlier u, stampOf after = some t → j < i →
      children[j]? = some earlier → stampOf earlier = some u → u ≤ t)
    (hlater : ∀ t (j : ℕ) later u, stampOf after = some t → i < j →
      children[j]? = some later → stampOf later = some u → t ≤ u) :
    StampsInOrder start now (children.set i after) where
  inTime changed hchanged t ht := by
    obtain hold | rfl := List.mem_or_eq_of_mem_set hchanged
    · exact h.inTime changed hold t ht
    · exact htime t ht
  sorted j k earlier later t t' hjk hj hk ht ht' := by
    have hself {k : ℕ} {c : Child} (hk : (children.set k after)[k]? = some c) : c = after := by
      rw [List.getElem?_set_self'] at hk
      obtain ⟨_, -, rfl⟩ := Option.map_eq_some_iff.mp hk
      rfl
    by_cases hij : i = j
    · subst hij
      cases hself hj
      rw [List.getElem?_set_ne (by omega)] at hk
      exact hlater t k later t' ht hjk hk ht'
    · rw [List.getElem?_set_ne hij] at hj
      by_cases hik : i = k
      · subst hik
        cases hself hk
        exact hearlier t' j earlier t ht' hjk hj ht
      · rw [List.getElem?_set_ne hik] at hk
        exact h.sorted j k earlier later t t' hjk hj hk ht ht'

/-- One child changes and keeps its timestamp, or loses it.
SOURCE: server.cc:248-253, snapshotter.cc:114-125 -/
theorem StampsInOrder.keep {start now : Int64} {children : List Child} {after : Child}
    (h : StampsInOrder start now children) (hchild : children[i]? = some child)
    (hkeep : ∀ t, stampOf after = some t → stampOf child = some t) :
    StampsInOrder start now (children.set i after) :=
  h.set (fun t ht => h.inTime child (List.mem_of_getElem? hchild) t (hkeep t ht))
    (fun t j earlier u ht hji hj hu => h.sorted j i earlier child u t hji hj hchild hu (hkeep t ht))
    fun t j later u ht hij hj hu => h.sorted i j child later t u hij hchild hj (hkeep t ht) hu

/-- **A child reads the clock** before all that were forked after it: its timestamp is not less
than those of the children before it, because the clock has not gone back.
SOURCE: snapshotter.cc:117-119 -/
theorem StampsInOrder.readClock {start now : Int64} {children : List Child} {after : Child}
    (h : StampsInOrder start now children) (hclock : start ≤ now)
    (hstamp : stampOf after = some now)
    (hlater : ∀ later ∈ children.drop (i + 1), stampOf later = none) :
    StampsInOrder start now (children.set i after) := by
  refine h.set (fun t ht => ?_) (fun t j earlier u ht _ hj hu => ?_)
    fun t j later u ht hij hj hu => ?_
  · cases hstamp.symm.trans ht
    exact ⟨hclock, Int64.le_refl now⟩
  · cases hstamp.symm.trans ht
    exact (h.inTime earlier (List.mem_of_getElem? hj) u hu).2
  · rw [hlater later (mem_drop_of_getElem? hj hij)] at hu
    cases hu

/-- The clock moves on.
SOURCE: server.cc:248-253, snapshotter.cc:114-125 -/
theorem StampsInOrder.tick {start now now' : Int64} {children : List Child}
    (h : StampsInOrder start now children) (hle : now ≤ now') :
    StampsInOrder start now' children where
  inTime child hchild t ht :=
    ⟨(h.inTime child hchild t ht).1, Int64.le_trans (h.inTime child hchild t ht).2 hle⟩
  sorted := h.sorted

/-- A child that has just been forked has no timestamp.
SOURCE: server.cc:249 -/
theorem StampsInOrder.fork {start now : Int64} {children : List Child}
    (h : StampsInOrder start now children) (store : Store) :
    StampsInOrder start now (children ++ [⟨store, .forked⟩]) where
  inTime child hchild t ht := by
    obtain hold | hnew := List.mem_append.mp hchild
    · exact h.inTime child hold t ht
    · rw [List.mem_singleton.mp hnew] at ht
      cases ht
  sorted i j earlier later t t' hij hi hj ht ht' := by
    have hold {k : ℕ} {c : Child} {u : Int64} (hk : (children ++ [⟨store, .forked⟩])[k]? = some c)
        (hu : stampOf c = some u) : children[k]? = some c := by
      rw [List.getElem?_append] at hk
      split_ifs at hk
      · exact hk
      · rw [List.mem_singleton.mp (List.mem_of_getElem? hk)] at hu
        cases hu
    exact h.sorted i j earlier later t t' hij (hold hi ht) (hold hj ht') ht ht'

/-- A child moves on and does not complete.
SOURCE: server.cc:248-253, snapshotter.cc:114-125 -/
theorem Ordered.moveTo (h : Ordered filePrefix start s) (hchild : s.children[i]? = some child)
    (hopen : completedAt child = none) (hphase : completedAt ⟨child.store, phase⟩ = none)
    (hhand : InHand ⟨child.store, phase⟩)
    (hstamps : StampsInOrder start s.now (s.children.set i ⟨child.store, phase⟩)) :
    Ordered filePrefix start (s.moveTo i child phase) where
  clock := h.clock
  inHand after hafter := by
    obtain hold | rfl := List.mem_or_eq_of_mem_set hafter
    · exact h.inHand after hold
    · exact hhand
  stamps := hstamps
  before hnone := h.before (newest_moveTo hchild hopen hphase ▸ hnone)
  latest j t after hnewest hafter := by
    rw [newest_moveTo hchild hopen hphase] at hnewest
    obtain ⟨before, hbefore, hstore⟩ := store_moveTo hchild hafter
    rw [← hstore]
    exact h.latest j t before hnewest hbefore

/-- `CreateSnapshot` forks a child, which has not completed.
SOURCE: server.cc:248-253 -/
theorem Ordered.fork (h : Ordered filePrefix start s) :
    Ordered filePrefix start { s with children := s.children ++ [⟨s.store, .forked⟩] } := by
  have hnewest : newest { s with children := s.children ++ [⟨s.store, .forked⟩] } = newest s := by
    rw [newest, List.map_append]
    exact lastSome_append_none _
  refine ⟨h.clock, ?_, h.stamps.fork s.store, fun hnone => h.before (hnewest ▸ hnone), ?_⟩
  · intro child hchild
    obtain hold | hnew := List.mem_append.mp hchild
    · exact h.inHand child hold
    · rw [List.mem_singleton.mp hnew]
      exact trivial
  · intro i t child hlast hchild
    rw [hnewest] at hlast
    obtain ⟨_, hold⟩ := exists_child_of_newest hlast
    obtain ⟨hlt, -⟩ := List.getElem?_eq_some_iff.mp hold
    rw [List.getElem?_append_left hlt] at hchild
    exact h.latest i t child hlast hchild

/-! ## The condition -/

/-- No child is overtaken by one that was forked after it: it reads the clock while none of them
has a timestamp, and it renames its file while none of them has completed.
SOURCE: snapshotter.cc:114-125, server.cc:248-275 -/
def NotOvertaken (s : State) : Action → Prop
  | .readClock i => ∀ later ∈ s.children.drop (i + 1), stampOf later = none
  | .write i => ∀ later ∈ s.children.drop (i + 1), completedAt later = none
  | _ => True

instance (s : State) (a : Action) : Decidable (NotOvertaken s a) := by
  cases a with
  | readClock i =>
    exact inferInstanceAs (Decidable (∀ later ∈ s.children.drop (i + 1), stampOf later = none))
  | write i =>
    exact inferInstanceAs (Decidable (∀ later ∈ s.children.drop (i + 1), completedAt later = none))
  | execute | tick | fork | serialise | fail => exact isTrue trivial

/-! ## Steps -/

/-- A later bound holds as well.
SOURCE: server.cc:248-253, snapshotter.cc:114-125 -/
theorem UpTo.mono {bound bound' : Int64} {files : Bytes → Option Node}
    (h : UpTo filePrefix bound files) (hle : bound ≤ bound') : UpTo filePrefix bound' files :=
  fun name content t hfile ht =>
    ⟨(h name content t hfile ht).1, Int64.le_trans (h name content t hfile ht).2 hle⟩

/-- A new file that is not later than the bound.
SOURCE: snapshotter.cc:121-124 -/
theorem UpTo.update {bound t : Int64} {files : Bytes → Option Node}
    (h : UpTo filePrefix bound files) (hle : t ≤ bound) (storeJson : Bytes) :
    UpTo filePrefix bound
      (Function.update files (fileName filePrefix t) (some (.file storeJson))) := by
  intro name content t' hfile ht'
  by_cases hname : name = fileName filePrefix t
  · subst hname
    rw [timestampOf_fileName] at ht'
    cases ht'
    exact ⟨rfl, hle⟩
  · rw [Function.update_of_ne hname] at hfile
    exact h name content t' hfile ht'

/-- The new file is the latest one.
SOURCE: snapshotter.cc:28-51 -/
theorem Latest.of_update {t : Int64} {files : Bytes → Option Node} {storeJson : Bytes}
    {store : Store} (hupTo : UpTo filePrefix t files) (hserialises : Serialises storeJson store) :
    Latest filePrefix
      (Function.update files (fileName filePrefix t) (some (.file storeJson))) t store :=
  ⟨hupTo.update (Int64.le_refl t) storeJson, storeJson, Function.update_self _ _ _, hserialises⟩

/-- The snapshots in the directory are not later than the file of a child that completes and was
forked after the newest one: its timestamp is not less.
SOURCE: snapshotter.cc:117-124 -/
theorem Ordered.upTo_stamp (h : Ordered filePrefix start s) (hchild : s.children[i]? = some child)
    (hopen : completedAt child = none) {t : Int64} (hstamp : stampOf child = some t)
    (hlater : ∀ later ∈ s.children.drop (i + 1), completedAt later = none) :
    UpTo filePrefix t s.files := by
  cases hlast : newest s with
  | none =>
    have htime := h.stamps.inTime child (List.mem_of_getElem? hchild) t hstamp
    exact (h.before hlast).mono htime.1
  | some last =>
    obtain ⟨m, tm⟩ := last
    have hget := getElem?_of_lastSome hlast
    rw [List.getElem?_map] at hget
    obtain ⟨newestChild, hm, hcompleted⟩ := Option.map_eq_some_iff.mp hget
    have hmi : m < i := by
      by_contra hge
      obtain rfl | hlt := Nat.eq_or_lt_of_le (Nat.le_of_not_lt hge)
      · cases hchild.symm.trans hm
        cases hopen.symm.trans hcompleted
      · cases (hlater newestChild (mem_drop_of_getElem? hm hlt)).symm.trans hcompleted
    have hle : tm ≤ t := h.stamps.sorted m i newestChild child tm t hmi hm hchild
      (stampOf_of_completedAt hcompleted) hstamp
    exact (h.latest m tm newestChild hlast hm).upTo.mono hle

/-- **A child completes** while none that was forked after it has: it is the newest one, and its
file the latest one.
SOURCE: snapshotter.cc:121-125 -/
theorem Ordered.write (h : Ordered filePrefix start s) (hchild : s.children[i]? = some child)
    {storeJson : Bytes} {t : Int64} (hphase : child.phase = .stamped storeJson t)
    (hlater : ∀ later ∈ s.children.drop (i + 1), completedAt later = none) :
    Ordered filePrefix start
      ((s.moveTo i child (.completed t)).durableWrite (fileName filePrefix t) storeJson) := by
  have hopen : completedAt child = none := by rw [completedAt, hphase]
  have hstamp : stampOf child = some t := by rw [stampOf, hphase]
  have hserialises : Serialises storeJson child.store := by
    have hhand := h.inHand child (List.mem_of_getElem? hchild)
    rwa [InHand, hphase] at hhand
  have hcomplete : newest ((s.moveTo i child (.completed t)).durableWrite
      (fileName filePrefix t) storeJson) = some (i, t) := newest_complete hchild hlater t
  refine ⟨h.clock, ?_, h.stamps.keep hchild fun t' ht' => hstamp.trans ht', ?_, ?_⟩
  · intro after hafter
    obtain hold | rfl := List.mem_or_eq_of_mem_set hafter
    · exact h.inHand after hold
    · exact trivial
  · intro hnone
    cases hcomplete.symm.trans hnone
  · intro j latest after hnewest hafter
    cases hcomplete.symm.trans hnewest
    obtain ⟨before, hbefore, hstore⟩ := store_moveTo hchild hafter
    cases hchild.symm.trans hbefore
    rw [← hstore]
    exact .of_update (h.upTo_stamp hchild hopen hstamp hlater) hserialises

/-- **Every step keeps the order**, if no child is overtaken.
SOURCE: server.cc:248-253, snapshotter.cc:114-125 -/
theorem Ordered.step {s' : State} {a : Action} (h : Ordered filePrefix start s)
    (hguard : NotOvertaken s a) (hstep : s.step filePrefix a = some s') :
    Ordered filePrefix start s' := by
  cases a with
  | execute request =>
    rw [State.step] at hstep
    split at hstep
    · cases hstep
      exact ⟨h.clock, h.inHand, h.stamps, h.before, h.latest⟩
    · cases hstep
  | tick now =>
    rw [State.step] at hstep
    split_ifs at hstep with hle
    cases hstep
    exact ⟨Int64.le_trans h.clock hle, h.inHand, h.stamps.tick hle, h.before, h.latest⟩
  | fork =>
    cases hstep
    exact h.fork
  | serialise i entries =>
    obtain ⟨child, hchild, hrest⟩ := Option.bind_eq_some_iff.mp hstep
    split_ifs at hrest with hcan
    obtain ⟨hphase, henumerates⟩ := hcan
    cases hrest
    exact h.moveTo hchild (by rw [completedAt, hphase]) rfl ⟨entries, henumerates, rfl⟩
      (h.stamps.keep hchild fun t ht => by cases ht)
  | readClock i =>
    obtain ⟨child, hchild, hrest⟩ := Option.bind_eq_some_iff.mp hstep
    have hhand := h.inHand child (List.mem_of_getElem? hchild)
    split at hrest
    · rename_i storeJson hphase
      cases hrest
      rw [InHand, hphase] at hhand
      exact h.moveTo hchild (by rw [completedAt, hphase]) rfl hhand
        (h.stamps.readClock h.clock rfl hguard)
    · cases hrest
  | write i =>
    obtain ⟨child, hchild, hrest⟩ := Option.bind_eq_some_iff.mp hstep
    split at hrest
    · rename_i storeJson t hphase
      cases hrest
      exact h.write hchild hphase hguard
    · cases hrest
  | fail i =>
    obtain ⟨child, hchild, hrest⟩ := Option.bind_eq_some_iff.mp hstep
    split at hrest
    · cases hrest
    · rename_i hphase
      cases hrest
      have hopen : completedAt child = none := by
        rw [Option.eq_none_iff_forall_ne_some]
        exact fun t ht => hphase t (completedAt_eq_some.mp ht)
      exact h.moveTo hchild hopen rfl trivial (h.stamps.keep hchild fun t ht => by cases ht)

end Steps

/-! ## Whole runs -/

/-- The server starts without children and not before the epoch, over a directory whose snapshots
are named as `Snapshot` names them, each at a time the clock has passed. -/
structure Start (filePrefix : Bytes) (s : State) : Prop where
  children : s.children = []
  sinceEpoch : 0 ≤ s.now
  files : UpTo filePrefix s.now s.files

/-- The invariant holds at the start, where no child has a timestamp.
SOURCE: server.cc:248-253, snapshotter.cc:114-125 -/
theorem Start.ordered {filePrefix : Bytes} {s : State} (h : Start filePrefix s) :
    Ordered filePrefix s.now s := by
  have hnone : ∀ child, child ∉ s.children := fun child hchild => by
    rw [h.children] at hchild
    exact List.not_mem_nil hchild
  refine ⟨Int64.le_refl _, fun child hchild => absurd hchild (hnone child), ?_, fun _ => h.files,
    ?_⟩
  · exact ⟨fun child hchild => absurd hchild (hnone child), fun i j earlier later t t' _ hi =>
      absurd (List.mem_of_getElem? hi) (hnone earlier)⟩
  · exact fun i t child _ hchild => absurd (List.mem_of_getElem? hchild) (hnone child)

/-- **The latest snapshot is the state at the most recent fork**, along every run in which no child
is overtaken by one that was forked after it.  The timestamps need no condition of their own: the
clock does not go back.
SOURCE: snapshotter.cc:28-51, snapshotter.cc:114-150, server.cc:248-285 -/
theorem latest_is_newest (filePrefix : Bytes) {s₀ s : State} (hstart : Start filePrefix s₀)
    (hrun : Reaches (fun s a s' => s.step filePrefix a = some s') NotOvertaken s₀ s)
    {i : ℕ} {child : Child} {t : Int64} (hchild : s.children[i]? = some child)
    (hcompleted : child.phase = .completed t)
    (hlast : ∀ (j : ℕ) child' t', s.children[j]? = some child' → child'.phase = .completed t' →
      j ≤ i)
    {listing : List (Bytes × Node)} (hlisting : Lists s.files listing) :
    latestSnapshot filePrefix listing = some (fileName filePrefix t) ∧
      (∃ entries, child.store.Enumerates entries ∧ s.files (fileName filePrefix t) =
        some (.file (Store.serialiseToJson entries))) ∧
      restore filePrefix s.files listing Store.empty = (true, child.store) := by
  have hordered : Ordered filePrefix s₀.now s :=
    hrun.invariant hstart.ordered fun _ _ _ h hguard hstep => h.step hguard hstep
  have hnewest : newest s = some (i, t) := by
    apply lastSome_eq_some
    · rw [List.getElem?_map, hchild, Option.map_some, completedAt_eq_some.mpr hcompleted]
    · intro j t' hj
      rw [List.getElem?_map] at hj
      obtain ⟨child', hchild', ht'⟩ := Option.map_eq_some_iff.mp hj
      exact hlast j child' t' hchild' (completedAt_eq_some.mp ht')
  have hpos : 0 ≤ t := by
    have htime := hordered.stamps.inTime child (List.mem_of_getElem? hchild) t
      (stampOf_of_completedAt (completedAt_eq_some.mpr hcompleted))
    exact Int64.le_trans hstart.sinceEpoch htime.1
  obtain ⟨hupTo, storeJson, hfile, entries, henumerates, rfl⟩ :=
    hordered.latest i t child hnewest hchild
  have hsnapshot {entry : Bytes × Node} {t' : Int64} (hentry : entry ∈ listing)
      (h : Snapshot filePrefix entry t') : entry.1 = fileName filePrefix t' ∧ t' ≤ t := by
    obtain ⟨⟨content, hcontent⟩, ht'⟩ := h
    refine hupTo entry.1 content t' ?_ ht'
    rw [← hcontent]
    exact (hlisting.2 entry.1 entry.2).mp hentry
  have hselected : latestSnapshot filePrefix listing = some (fileName filePrefix t) :=
    latestSnapshot_eq ((hlisting.2 _ _).mpr hfile) ⟨⟨_, rfl⟩, timestampOf_fileName _ _⟩ hpos
      (fun _ hentry _ h => (hsnapshot hentry h).2) (fun _ hentry h => (hsnapshot hentry h).1)
  exact ⟨hselected, ⟨entries, henumerates, hfile⟩, restore_selected hselected hfile henumerates⟩

/-! ## Two children at the same time -/

/-- A server that has just been started on an empty directory. -/
def fresh : State := ⟨0, Store.empty, [], fun _ => none⟩

/-- No child, and an empty directory.
SOURCE: server.cc:248-253, snapshotter.cc:114-125 -/
theorem start_fresh (filePrefix : Bytes) : Start filePrefix fresh :=
  ⟨rfl, Int64.le_refl 0, fun _ _ _ hfile => by cases hfile⟩

/-- A request that sets a key, the store after it and its entries. -/
def setRequest : RespValue :=
  .array [.bulkString (some (ascii "SET")), .bulkString (some (ascii "k")),
    .bulkString (some (ascii "v"))]

def afterSet : Store := Store.empty.set (ascii "k") (some (ascii "v"))

def setEntries : List (Sigma fun _ : Bytes => Store.Entry) :=
  [⟨ascii "k", ⟨Store.noExpiry, some (ascii "v")⟩⟩]

/-- What is in the directory when the two children have written their files at times 0 and 1. -/
def twoFiles (first second : List (Sigma fun _ : Bytes => Store.Entry)) : List (Bytes × Node) :=
  [(fileName (ascii "dump-") 1, .file (Store.serialiseToJson second)),
    (fileName (ascii "dump-") 0, .file (Store.serialiseToJson first))]

def directory (first second : List (Sigma fun _ : Bytes => Store.Entry)) : Bytes → Option Node :=
  Function.update
    (Function.update (fun _ => none) (fileName (ascii "dump-") 0)
      (some (.file (Store.serialiseToJson first))))
    (fileName (ascii "dump-") 1) (some (.file (Store.serialiseToJson second)))

/-- The two files are what is in the directory.
SOURCE: server.cc:248-253, snapshotter.cc:114-125 -/
theorem lists_twoFiles (first second : List (Sigma fun _ : Bytes => Store.Entry)) :
    Lists (directory first second) (twoFiles first second) := by
  apply Lists.cons
  · apply Lists.cons Lists.nil
    rfl
  · rw [Function.update_of_ne (by decide +kernel)]

/-- The second child completes after the first one. -/
def inTurn : List Action :=
  [.fork, .serialise 0 [], .execute setRequest, .readClock 0, .fork, .serialise 1 setEntries,
    .write 0, .tick 1, .readClock 1, .write 1]

set_option maxRecDepth 4000 in
/-- The second child is forked when the first one has completed.
SOURCE: server.cc:248-253, snapshotter.cc:114-125 -/
theorem runAll_inTurn : runAll (State.step (ascii "dump-")) NotOvertaken fresh inTurn = some
    ⟨1, afterSet, [⟨Store.empty, .completed 0⟩, ⟨afterSet, .completed 1⟩],
      directory [] setEntries⟩ :=
  rfl

/-- What is restored is what the second child was forked with.
SOURCE: server.cc:248-253, snapshotter.cc:28-51, 114-150 -/
theorem latest_is_newest_inTurn :
    ∃ s, runAll (State.step (ascii "dump-")) NotOvertaken fresh inTurn = some s ∧
      restore (ascii "dump-") s.files (twoFiles [] setEntries) Store.empty = (true, afterSet) := by
  refine ⟨_, runAll_inTurn, ?_⟩
  have hlast : ∀ (j : ℕ) child t, [(⟨Store.empty, .completed 0⟩ : Child),
      ⟨afterSet, .completed 1⟩][j]? = some child → child.phase = .completed t → j ≤ 1 := by
    intro j child t hj _
    obtain ⟨hlt, -⟩ := List.getElem?_eq_some_iff.mp hj
    exact Nat.le_of_lt_succ hlt
  exact (latest_is_newest (ascii "dump-") (start_fresh _) (reaches_of_runAll runAll_inTurn)
    (show _ = some (⟨afterSet, .completed 1⟩ : Child) from rfl) rfl hlast
    (lists_twoFiles [] setEntries)).2.2

/-- The second child, forked after a key has been set, is faster than the first one. -/
def overtaking : List Action :=
  [.fork, .execute setRequest, .fork, .serialise 1 setEntries, .readClock 1, .write 1, .tick 1,
    .serialise 0 [], .readClock 0, .write 0]

set_option maxRecDepth 4000 in
/-- The second child reads the clock before the first one does.
SOURCE: server.cc:248-253, snapshotter.cc:114-125 -/
theorem runAll_overtaking :
    runAll (State.step (ascii "dump-")) (fun _ _ => True) fresh overtaking = some
      ⟨1, afterSet, [⟨Store.empty, .completed 1⟩, ⟨afterSet, .completed 0⟩],
        directory setEntries []⟩ :=
  rfl

/-- **The latest snapshot is not the latest state**: the file of the first child has the later
timestamp, so `Restore` loads a store without the key that the second child has saved.
SOURCE: server.cc:248-253, snapshotter.cc:28-51, 114-150 -/
theorem older_selected :
    ∃ s, Reaches (fun s a s' => s.step (ascii "dump-") a = some s') (fun _ _ => True) fresh s ∧
      s.children = [⟨Store.empty, .completed 1⟩, ⟨afterSet, .completed 0⟩] ∧
      Lists s.files (twoFiles setEntries []) ∧
      latestSnapshot (ascii "dump-") (twoFiles setEntries []) =
        some (fileName (ascii "dump-") 1) ∧
      restore (ascii "dump-") s.files (twoFiles setEntries []) Store.empty =
        (true, Store.empty) ∧
      Store.empty ≠ afterSet := by
  have hselected : latestSnapshot (ascii "dump-") (twoFiles setEntries []) =
      some (fileName (ascii "dump-") 1) := by decide +kernel
  have hfile : directory setEntries [] (fileName (ascii "dump-") 1) =
      some (.file (Store.serialiseToJson [])) := Function.update_self _ _ _
  refine ⟨_, reaches_of_runAll runAll_overtaking, rfl, lists_twoFiles setEntries [], hselected,
    ?_, ?_⟩
  · exact restore_selected hselected hfile rfl
  · intro heq
    have hlookUp : Store.empty.lookUp (ascii "k") = afterSet.lookUp (ascii "k") := by rw [heq]
    exact absurd hlookUp (by decide +kernel)

end MyRedis.Analysis

import MyRedis.Lib.TransitionSystem
import MyRedis.Model.MainLoop

/-!
# Disabled snapshots

`CreateTimerIntervalFd` returns an interval that is not positive as if it were a descriptor.  The
constructor takes only `-1` for "none".  `epoll_ctl` refuses any other negative number, but `0` is
standard input: if it can be watched, it is, and input on it is taken for an expired timer
(`standardInput_snapshot`).  This is the only way in which snapshots that are disabled are made
or a descriptor is watched that should not be (`disabled_iff`).
-/

set_option autoImplicit false

namespace MyRedis.Analysis

open MyRedis.Model MyRedis.Lib

/-- A step of the main loop. -/
def LoopStep (s : MainLoop) (a : MainLoop.Action) (s' : MainLoop) : Prop := s.step a = some s'

/-- The main loop gets there from its start. -/
def LoopReaches (start s : MainLoop) : Prop :=
  Reaches LoopStep (fun _ _ => True) start s

/-- A descriptor the main loop may watch and read: the listen socket, the command eventfd and
those of snapshot children. -/
def Own (s : MainLoop) (fd : ℤ) : Prop :=
  fd = s.listenFd ∨ fd = s.commandFd ∨ (s.snapshotChildren fd).isSome = true

/-- No snapshot has been made, and no descriptor is watched or has been read that is not an own
one. -/
structure Quiet (s : MainLoop) : Prop where
  snapshots : s.snapshots = 0
  watched : ∀ fd ∈ s.watched, Own s fd
  read : ∀ fd ∈ s.read, Own s fd

/-- What the loop keeps if the snapshot descriptor is not watched: it has no children, and every
event is one of the listen socket or of the command eventfd. -/
structure Unarmed (s : MainLoop) : Prop where
  snapshots : s.snapshots = 0
  children : ∀ fd, s.snapshotChildren fd = none
  watched : ∀ fd ∈ s.watched, fd = s.listenFd ∨ fd = s.commandFd
  events : ∀ fd ∈ s.events, fd = s.listenFd ∨ fd = s.commandFd
  read : ∀ fd ∈ s.read, fd = s.commandFd

/-- A loop that does not watch the snapshot descriptor is quiet.
SOURCE: server.cc:185-189 -/
theorem Unarmed.quiet {s : MainLoop} (h : Unarmed s) : Quiet s := by
  refine ⟨h.snapshots, ?_, ?_⟩
  · intro fd hfd
    obtain hlisten | hcommand := h.watched fd hfd
    · exact Or.inl hlisten
    · exact Or.inr (Or.inl hcommand)
  · intro fd hfd
    exact Or.inr (Or.inl (h.read fd hfd))

/-- No step of the loop puts a timer into the set.
SOURCE: server.cc:170-195 -/
theorem Unarmed.step {s s' : MainLoop} {a : MainLoop.Action} (h : Unarmed s)
    (hstep : s.step a = some s') : Unarmed s' := by
  cases a with
  | wait events =>
    rw [MainLoop.step] at hstep
    split_ifs at hstep with hreport
    cases hstep
    exact ⟨h.snapshots, h.children, h.watched,
      fun fd hfd => h.watched fd (hreport.2.2.2 fd hfd), h.read⟩
  | event results =>
    rw [MainLoop.step] at hstep
    cases hevents : s.events with
    | nil =>
      rw [hevents] at hstep
      cases hstep
    | cons fd events =>
      rw [hevents] at hstep
      have hrest : ∀ fd' ∈ events, fd' = s.listenFd ∨ fd' = s.commandFd := by
        intro fd' hmem
        apply h.events
        rw [hevents]
        exact List.mem_cons_of_mem _ hmem
      have hfd : fd = s.listenFd ∨ fd = s.commandFd := by
        apply h.events
        rw [hevents]
        exact List.mem_cons_self
      simp only [MainLoop.handle] at hstep
      split_ifs at hstep with hlisten hcommand
      · cases hstep
        exact ⟨h.snapshots, h.children, h.watched, hrest, h.read⟩
      · cases hstep
        refine ⟨h.snapshots, h.children, h.watched, hrest, ?_⟩
        intro fd' hmem
        obtain hmem | hmem := List.mem_append.mp hmem
        · exact h.read fd' hmem
        · rw [List.mem_singleton.mp hmem]
          exact hcommand
      all_goals exact absurd hfd (not_or.mpr ⟨hlisten, hcommand⟩)

/-- There is no timer in the set in any state that the loop reaches.
SOURCE: server.cc:170-195 -/
theorem Unarmed.reached {start s : MainLoop} (h : Unarmed start)
    (hreached : LoopReaches start s) : Unarmed s :=
  Reaches.invariant h (fun _ _ _ hunarmed _ hstep => hunarmed.step hstep) hreached

/-- The listening socket is not standard input: it is the descriptor of a new socket, or `-1`.
SOURCE: server.cc:44-74 -/
theorem createListenSocket_ne_zero (k : Kernel) (port : ℤ) : createListenSocket k port ≠ 0 := by
  unfold createListenSocket
  split_ifs
  · decide
  · decide
  · decide
  · exact k.socket_ne_zero

/-- The constructed server, if snapshots are disabled.
SOURCE: server.cc:117-142 -/
theorem new_of_disabled {k : Kernel} {config : ServerConfig} {s : MainLoop}
    (hdisabled : config.snapshotIntervalMs ≤ 0) (hnew : MainLoop.new k config = some s) :
    s.snapshotFd = config.snapshotIntervalMs ∧ s.listenFd = createListenSocket k config.port ∧
      s.commandFd = k.eventfd ∧ s.epollFd = k.epollCreate ∧ s.snapshots = 0 ∧ s.events = [] ∧
      s.read = [] ∧ (∀ fd, s.snapshotChildren fd = none) ∧
      (0 ≤ s.epollFd → 0 ≤ s.listenFd → s.watched = [s.listenFd, s.commandFd, s.snapshotFd].filter
        fun watchedFd => watchedFd ≠ -1 && k.epollAdd watchedFd) := by
  rw [MainLoop.new, createTimerIntervalFd, if_pos hdisabled] at hnew
  cases hnew
  refine ⟨rfl, rfl, rfl, rfl, rfl, rfl, rfl, fun _ => rfl, ?_⟩
  intro hepoll hlisten
  exact if_neg (not_or.mpr ⟨not_lt.mpr hepoll, not_lt.mpr hlisten⟩)

/-- `Run` comes to its loop only with both descriptors, and as the constructor has left the server.
SOURCE: server.cc:150-170 -/
theorem looping_of_run {s loop : MainLoop} {restore : Store → Bool × Store}
    {store store' : Store} (hrun : s.run restore store = .looping loop store') :
    loop = s ∧ 0 ≤ s.epollFd ∧ 0 ≤ s.listenFd := by
  rw [MainLoop.run] at hrun
  split_ifs at hrun with hfailed
  rw [not_or, not_lt, not_lt] at hfailed
  cases hrestore : restore store with
  | mk restored store₁ =>
    rw [hrestore] at hrun
    cases restored with
    | false => cases hrun
    | true =>
      cases hrun
      exact ⟨rfl, hfailed⟩

/-- `epoll_ctl` refuses the descriptor of a disabled timer, if the interval is negative or standard
input cannot be watched.
SOURCE: server.cc:82-108, 134-140 -/
theorem epollAdd_disabled {k : Kernel} {interval : ℤ} (hdisabled : interval ≤ 0)
    (hcondition : interval < 0 ∨ k.epollAdd 0 = false) : k.epollAdd interval = false := by
  by_cases hneg : interval < 0
  · by_contra hadd
    rw [Bool.not_eq_false] at hadd
    have hnonneg := k.epollAdd_nonneg _ hadd
    omega
  · have hzero : interval = 0 := by omega
    rw [hzero]
    exact hcondition.resolve_left hneg

/-- The constructed server has no timer in its set, if `epoll_ctl` refuses it.
SOURCE: server.cc:117-142 -/
theorem unarmed_of_new {k : Kernel} {config : ServerConfig} {s : MainLoop}
    (hdisabled : config.snapshotIntervalMs ≤ 0) (hnew : MainLoop.new k config = some s)
    (hepoll : 0 ≤ s.epollFd) (hlisten : 0 ≤ s.listenFd)
    (hrefused : k.epollAdd config.snapshotIntervalMs = false) : Unarmed s := by
  obtain ⟨hsnapshotFd, -, -, -, hsnapshots, hevents, hread, hchildren, hwatched⟩ :=
    new_of_disabled hdisabled hnew
  refine ⟨hsnapshots, hchildren, ?_, ?_, ?_⟩
  · intro fd hmem
    rw [hwatched hepoll hlisten, List.mem_filter] at hmem
    obtain ⟨hmem, hadded⟩ := hmem
    simp only [List.mem_cons, List.not_mem_nil, or_false] at hmem
    obtain rfl | rfl | rfl := hmem
    · exact Or.inl rfl
    · exact Or.inr rfl
    · rw [hsnapshotFd, hrefused, Bool.and_false] at hadded
      cases hadded
  · rw [hevents]
    exact fun fd hmem => absurd hmem List.not_mem_nil
  · rw [hread]
    exact fun fd hmem => absurd hmem List.not_mem_nil

/-- **Disabled snapshots stay disabled** through every run of the main loop exactly if the
interval is negative or standard input cannot be watched.
SOURCE: server.cc:82-195 -/
theorem disabled_iff (k : Kernel) (config : ServerConfig)
    (hdisabled : config.snapshotIntervalMs ≤ 0) {s loop : MainLoop}
    {restore : Store → Bool × Store} {store store' : Store}
    (hnew : MainLoop.new k config = some s) (hrun : s.run restore store = .looping loop store') :
    (∀ s', LoopReaches loop s' → Quiet s') ↔
      config.snapshotIntervalMs < 0 ∨ k.epollAdd 0 = false := by
  obtain ⟨rfl, hepoll, hlisten⟩ := looping_of_run hrun
  constructor
  · intro hquiet
    obtain ⟨hsnapshotFd, hlistenFd, hcommandFd, -, -, -, -, hchildren, hwatched⟩ :=
      new_of_disabled hdisabled hnew
    by_contra hcondition
    rw [not_or, not_lt, Bool.not_eq_false] at hcondition
    have hzero : loop.snapshotFd = 0 := by
      rw [hsnapshotFd]
      omega
    -- standard input is watched from the start
    have hmem : 0 ∈ loop.watched := by
      rw [hwatched hepoll hlisten, hzero]
      simp [hcondition.2]
    obtain hzero | hzero | hchild := (hquiet loop Reaches.refl).watched 0 hmem
    · exact createListenSocket_ne_zero k config.port (hlistenFd.symm.trans hzero.symm)
    · exact k.eventfd_ne_zero (hcommandFd.symm.trans hzero.symm)
    · rw [hchildren] at hchild
      cases hchild
  · intro hcondition s' hreached
    have hrefused := epollAdd_disabled hdisabled hcondition
    have hunarmed := unarmed_of_new hdisabled hnew hepoll hlisten hrefused
    exact (hunarmed.reached hreached).quiet

/-- A process with a terminal as standard input. -/
def terminal : Kernel where
  epollCreate := 3
  socket := 4
  bind _ _ := true
  listen _ := true
  eventfd := 5
  timerfdCreate := 6
  timerfdSettime _ := true
  epollAdd fd := 0 ≤ fd
  epollAdd_nonneg _ h := of_decide_eq_true h
  socket_ne_zero := by decide
  eventfd_ne_zero := by decide

/-- There is nothing to restore. -/
def nothingToRestore (store : Store) : Bool × Store := (true, store)

/-- The interval `-1`, on a terminal.
SOURCE: server.cc:82-108, 170-195 -/
theorem disabled_iff_minusOne :
    (⟨6379, -1⟩ : ServerConfig).snapshotIntervalMs ≤ 0 ∧
      ∃ s, MainLoop.new terminal ⟨6379, -1⟩ = some s ∧
        s.run nothingToRestore .empty = .looping s .empty ∧
        ∀ s', LoopReaches s s' → Quiet s' := by
  have hdisabled : (⟨6379, -1⟩ : ServerConfig).snapshotIntervalMs ≤ 0 := by decide
  refine ⟨hdisabled, _, rfl, rfl, ?_⟩
  apply (disabled_iff terminal ⟨6379, -1⟩ hdisabled rfl
    (rfl : MainLoop.run _ nothingToRestore .empty = .looping _ .empty)).mpr
  exact Or.inl (by decide)

/-- The main loop of a server that is started without options on a terminal. -/
def startedOnTerminal : MainLoop where
  epollFd := 3
  listenFd := 4
  snapshotFd := 0
  commandFd := 5
  snapshotChildren _ := none
  watched := [4, 5, 0]
  events := []
  read := []
  snapshots := 0

/-- **A snapshot that nobody asked for**: eight bytes come in on standard input.
SOURCE: server.cc:82-108, 185-189 -/
theorem standardInput_snapshot :
    (ServerConfig.ofOptions none none).snapshotIntervalMs ≤ 0 ∧
      MainLoop.new terminal (.ofOptions none none) = some startedOnTerminal ∧
      startedOnTerminal.run nothingToRestore .empty = .looping startedOnTerminal .empty ∧
      ∃ s', LoopReaches startedOnTerminal s' ∧ s'.snapshots = 1 ∧ s'.read = [0] := by
  refine ⟨by decide, rfl, rfl, ?_⟩
  have hwait : LoopStep startedOnTerminal (.wait [0]) { startedOnTerminal with events := [0] } :=
    rfl
  have hevent : LoopStep { startedOnTerminal with events := [0] } (.event ⟨8, 100, 7, true⟩)
      ({ startedOnTerminal with read := [0] }.createSnapshot ⟨8, 100, 7, true⟩) := rfl
  exact ⟨_, (Reaches.refl.tail trivial hwait).tail trivial hevent, rfl, rfl⟩

end MyRedis.Analysis

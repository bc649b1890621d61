import MyRedis.Lib.Progress
import MyRedis.Model.SnapshotReaping

/-!
# Every snapshot child is reaped once

The main loop learns from a descriptor that a child has exited, and finds the process number in
`snapshot_children_`.  Both kinds of number are given again, the descriptor even while events of
the same `epoll_wait` are still to be handled, so this is right only because of three facts.

* `Table.Tracked`: the children that have not been reaped and the descriptors that are open belong
  together, one to one, and each is listed and in the epoll set.  The child between its `fork` and
  its `pidfd_open` is the only exception.
* `Reported`: the descriptors of the events that are left are those of children that have exited.
  They are still open, so none of their numbers is given again before the event is handled.
* `Waited`: no `waitpid` has failed, and none has returned a child twice.

The first is kept by the four changes of a `Table`, which is what the state is for it.
-/

set_option autoImplicit false

namespace MyRedis.Analysis

open Model Model.SnapshotReaping Lib

namespace Reaping

/-! ### Children and descriptors -/

/-- The children with their process numbers while they are not reaped, their descriptors, the epoll
set, `snapshot_children_`, and the child the main thread holds after its `fork`. -/
structure Table where
  processes : ℕ → Option Pid
  fds : Fd → Option ℕ
  interest : Fd → Bool
  listed : Fd → Option Pid
  held : Option Pid

namespace Table

variable {t : Table} {fd fd' : Fd} {c c' : ℕ} {pid : Pid}

/-- A child is forked. -/
def fork (t : Table) (c : ℕ) (pid : Pid) : Table :=
  { t with processes := Function.update t.processes c (some pid), held := some pid }

/-- A descriptor is opened for the child that is held. -/
def watch (t : Table) (fd : Fd) (c : ℕ) (pid : Pid) : Table :=
  { t with
    fds := Function.update t.fds fd (some c)
    interest := Function.update t.interest fd true
    listed := Function.update t.listed fd (some pid)
    held := none }

/-- The child that is held is reaped. -/
def discard (t : Table) (c : ℕ) : Table :=
  { t with processes := Function.update t.processes c none, held := none }

/-- The child of a descriptor is reaped, and the descriptor closed. -/
def reap (t : Table) (fd : Fd) (c : ℕ) : Table :=
  { t with
    processes := Function.update t.processes c none
    fds := Function.update t.fds fd none
    interest := Function.update t.interest fd false
    listed := Function.update t.listed fd none }

/-- Children and descriptors belong together. -/
structure Tracked (t : Table) : Prop where
  numbers : ∀ c c' pid, t.processes c = some pid → t.processes c' = some pid → c = c'
  opened : ∀ fd c, t.fds fd = some c →
    ∃ pid, t.processes c = some pid ∧ t.listed fd = some pid ∧ t.interest fd = true
  closed : ∀ fd, t.fds fd = none → t.listed fd = none ∧ t.interest fd = false
  single : ∀ fd fd' c, t.fds fd = some c → t.fds fd' = some c → fd = fd'
  owned : ∀ c pid, t.processes c = some pid → (∃ fd, t.fds fd = some c) ∨ t.held = some pid
  inHand : ∀ pid, t.held = some pid →
    ∃ c, t.processes c = some pid ∧ ∀ fd, t.fds fd ≠ some c

namespace Tracked

/-- A listed number is that of the child of the descriptor.
SOURCE: server.cc:270 -/
theorem of_listed (h : t.Tracked) (hlisted : t.listed fd = some pid) :
    ∃ c, t.fds fd = some c ∧ t.processes c = some pid := by
  cases hfd : t.fds fd with
  | none =>
    rw [(h.closed fd hfd).1] at hlisted
    cases hlisted
  | some c =>
    obtain ⟨pid', hpid', hlisted', -⟩ := h.opened fd c hfd
    rw [hlisted, Option.some.injEq] at hlisted'
    exact ⟨c, rfl, hlisted' ▸ hpid'⟩

/-- A child is forked, with a number that no child has that is left.
SOURCE: server.cc:249 -/
theorem fork (h : t.Tracked) (hheld : t.held = none) (hc : t.processes c = none)
    (hpid : ∀ c', t.processes c' ≠ some pid) : (t.fork c pid).Tracked where
  numbers c₁ c₂ pid' h₁ h₂ := by
    simp only [Table.fork, Function.update_apply] at h₁ h₂
    split_ifs at h₁ h₂ with e₁ e₂ e₂
    · rw [e₁, e₂]
    · rw [← h₁] at h₂
      exact absurd h₂ (hpid c₂)
    · rw [← h₂] at h₁
      exact absurd h₁ (hpid c₁)
    · exact h.numbers c₁ c₂ pid' h₁ h₂
  opened fd c' hfd := by
    obtain ⟨pid', hpid', hrest⟩ := h.opened fd c' hfd
    have hne : c' ≠ c := by
      rintro rfl
      rw [hc] at hpid'
      cases hpid'
    exact ⟨pid', (Function.update_of_ne hne _ _).trans hpid', hrest⟩
  closed := h.closed
  single := h.single
  owned c' pid' hpid' := by
    simp only [Table.fork, Function.update_apply] at hpid' ⊢
    split_ifs at hpid' with e
    · exact .inr hpid'
    · exact .inl ((h.owned c' pid' hpid').resolve_right (by simp [hheld]))
  inHand pid' hpid' := by
    refine ⟨c, (Function.update_self c _ _).trans hpid', fun fd hfd => ?_⟩
    obtain ⟨pid'', hpid'', -⟩ := h.opened fd c hfd
    rw [hc] at hpid''
    cases hpid''

/-- Its descriptor is listed, under a number that is not in use.
SOURCE: server.cc:260, 270 -/
theorem watch (h : t.Tracked) (hheld : t.held = some pid) (hc : t.processes c = some pid)
    (hfd : t.fds fd = none) : (t.watch fd c pid).Tracked := by
  -- The child that is held is `c`, and it has no descriptor.
  have hfresh : ∀ fd', t.fds fd' ≠ some c := by
    obtain ⟨c', hc', hfresh⟩ := h.inHand pid hheld
    rwa [h.numbers c c' pid hc hc']
  refine
    { numbers := h.numbers, opened := ?_, closed := ?_, single := ?_, owned := ?_, inHand := ?_ }
  · intro fd' c' hfd'
    simp only [Table.watch, Function.update_apply] at hfd' ⊢
    split_ifs at hfd' ⊢ with e
    · cases hfd'
      exact ⟨pid, hc, rfl, rfl⟩
    · exact h.opened fd' c' hfd'
  · intro fd' hfd'
    simp only [Table.watch, Function.update_apply] at hfd' ⊢
    split_ifs at hfd' ⊢ with e
    exact h.closed fd' hfd'
  · intro fd₁ fd₂ c' h₁ h₂
    simp only [Table.watch, Function.update_apply] at h₁ h₂
    split_ifs at h₁ h₂ with e₁ e₂ e₂
    · rw [e₁, e₂]
    · rw [← h₁] at h₂
      exact absurd h₂ (hfresh fd₂)
    · rw [← h₂] at h₁
      exact absurd h₁ (hfresh fd₁)
    · exact h.single fd₁ fd₂ c' h₁ h₂
  · intro c' pid' hc'
    refine .inl ?_
    obtain ⟨fd', hfd'⟩ | hheld' := h.owned c' pid' hc'
    · have hne : fd' ≠ fd := by
        rintro rfl
        rw [hfd] at hfd'
        cases hfd'
      exact ⟨fd', (Function.update_of_ne hne _ _).trans hfd'⟩
    · rw [hheld, Option.some.injEq] at hheld'
      rw [← hheld'] at hc'
      rw [h.numbers c' c pid hc' hc]
      exact ⟨fd, Function.update_self fd _ _⟩
  · intro pid' hpid'
    cases hpid'

/-- No two children have one number, after one of them is reaped.
SOURCE: server.cc:169-195, 248-285 -/
theorem numbers_update (h : t.Tracked) (c : ℕ) (c₁ c₂ : ℕ) (pid : Pid)
    (h₁ : Function.update t.processes c none c₁ = some pid)
    (h₂ : Function.update t.processes c none c₂ = some pid) : c₁ = c₂ := by
  simp only [Function.update_apply] at h₁ h₂
  split_ifs at h₁ h₂
  exact h.numbers c₁ c₂ pid h₁ h₂

/-- A child without a descriptor is reaped at once.
SOURCE: server.cc:264 -/
theorem discard (h : t.Tracked) (hheld : t.held = some pid) (hc : t.processes c = some pid) :
    (t.discard c).Tracked := by
  have hfresh : ∀ fd', t.fds fd' ≠ some c := by
    obtain ⟨c', hc', hfresh⟩ := h.inHand pid hheld
    rwa [h.numbers c c' pid hc hc']
  refine
    { numbers := h.numbers_update c, opened := ?_, closed := h.closed, single := h.single,
      owned := ?_, inHand := ?_ }
  · intro fd' c' hfd'
    obtain ⟨pid', hpid', hrest⟩ := h.opened fd' c' hfd'
    have hne : c' ≠ c := by
      rintro rfl
      exact hfresh fd' hfd'
    exact ⟨pid', (Function.update_of_ne hne _ _).trans hpid', hrest⟩
  · intro c' pid' hc'
    simp only [Table.discard, Function.update_apply] at hc' ⊢
    split_ifs at hc' with e
    refine .inl ((h.owned c' pid' hc').resolve_right fun hheld' => e ?_)
    rw [hheld, Option.some.injEq] at hheld'
    exact h.numbers c' c pid (hheld' ▸ hc') hc
  · intro pid' hpid'
    cases hpid'

/-- A child is reaped, and its descriptor closed and taken out of the list.
SOURCE: server.cc:281-284 -/
theorem reap (h : t.Tracked) (hheld : t.held = none) (hfd : t.fds fd = some c) :
    (t.reap fd c).Tracked := by
  refine
    { numbers := h.numbers_update c, opened := ?_, closed := ?_, single := ?_, owned := ?_,
      inHand := ?_ }
  · intro fd' c' hfd'
    simp only [Table.reap, Function.update_apply] at hfd' ⊢
    split_ifs at hfd' ⊢ with e e'
    · exact absurd (h.single fd' fd c (e ▸ hfd') hfd) e'
    · exact h.opened fd' c' hfd'
  · intro fd' hfd'
    simp only [Table.reap, Function.update_apply] at hfd' ⊢
    split_ifs at hfd' ⊢ with e
    · exact ⟨rfl, rfl⟩
    · exact h.closed fd' hfd'
  · intro fd₁ fd₂ c' h₁ h₂
    simp only [Table.reap, Function.update_apply] at h₁ h₂
    split_ifs at h₁ h₂
    exact h.single fd₁ fd₂ c' h₁ h₂
  · intro c' pid' hc'
    simp only [Table.reap, Function.update_apply] at hc' ⊢
    split_ifs at hc' with e
    obtain ⟨fd', hfd'⟩ | hheld' := h.owned c' pid' hc'
    · refine .inl ⟨fd', ?_⟩
      rw [if_neg, hfd']
      rintro rfl
      rw [hfd, Option.some.injEq] at hfd'
      exact e hfd'.symm
    · rw [hheld] at hheld'
      cases hheld'
  · intro pid' hpid'
    cases hheld.symm.trans hpid'

end Tracked

end Table

/-! ### The state as a table -/

section State

variable {s s' : State} {fd : Fd} {c c' : ℕ} {pid : Pid} {child : Child}

/-- The process number of a child that has not been reaped. -/
def unreaped (children : List Child) (c : ℕ) : Option Pid :=
  children[c]?.bind fun child => if child.status = .reaped then none else some child.pid

/-- The child the main thread holds. -/
def held : Busy → Option Pid
  | .forked pid => some pid
  | .unwatched pid => some pid
  | .idle => none
  | .reaping _ _ => none

/-- What `Table.Tracked` is about. -/
def table (s : State) : Table :=
  ⟨unreaped s.children, s.openFds, s.interest, s.snapshotChildren, held s.busy⟩

/-- The number of a child that has not been reaped.
SOURCE: server.cc:169-195, 248-285 -/
theorem unreaped_eq_some {children : List Child} :
    unreaped children c = some pid ↔
      ∃ status, children[c]? = some ⟨pid, status⟩ ∧ status ≠ .reaped := by
  unfold unreaped
  cases children[c]? with
  | none => simp
  | some child =>
    obtain ⟨pid', status⟩ := child
    simp [and_comm]

/-- A child exits.
SOURCE: server.cc:169-195, 248-285 -/
theorem unreaped_exit {children : List Child} (h : children[c]? = some ⟨pid, .running⟩) :
    unreaped (children.set c ⟨pid, .exited⟩) = unreaped children := by
  obtain ⟨hlt, -⟩ := List.getElem?_eq_some_iff.mp h
  funext c'
  unfold unreaped
  rw [List.getElem?_set]
  split_ifs with e
  · subst e
    rw [h]
    rfl
  · rfl

/-- A reaped child is not left.
SOURCE: server.cc:264, 281 -/
theorem unreaped_reap {children : List Child} (hlt : c < children.length) :
    unreaped (children.set c ⟨pid, .reaped⟩) = Function.update (unreaped children) c none := by
  funext c'
  rw [Function.update_apply]
  unfold unreaped
  rw [List.getElem?_set]
  split_ifs with e e' e'
  · rfl
  · exact absurd e.symm e'
  · exact absurd e'.symm e
  · rfl

/-- A forked child is.
SOURCE: server.cc:249 -/
theorem unreaped_fork (children : List Child) (pid : Pid) :
    unreaped (children ++ [⟨pid, .running⟩]) =
      Function.update (unreaped children) children.length (some pid) := by
  funext c'
  rw [Function.update_apply]
  unfold unreaped
  split_ifs with e
  · subst e
    simp
  · obtain hlt | hge := lt_or_gt_of_ne e
    · rw [List.getElem?_append_left hlt]
    · rw [List.getElem?_eq_none (by simp; omega), List.getElem?_eq_none hge.le]

/-- No process that is left has the number.
SOURCE: server.cc:264, 281 -/
theorem findChild_eq_none : s.findChild pid = none ↔ ∀ c, unreaped s.children c ≠ some pid := by
  unfold State.findChild
  rw [List.findIdx?_eq_none_iff]
  constructor
  · intro h c hc
    obtain ⟨status, hget, hstatus⟩ := unreaped_eq_some.mp hc
    simpa [hstatus] using h _ (List.mem_of_getElem? hget)
  · intro h child hchild
    obtain ⟨c, hc⟩ := List.mem_iff_getElem?.mp hchild
    obtain ⟨pid', status⟩ := child
    by_contra hp
    simp only [Bool.not_eq_false, Bool.and_eq_true, decide_eq_true_eq, bne_iff_ne] at hp
    exact h c (unreaped_eq_some.mpr ⟨status, hp.1 ▸ hc, hp.2⟩)

/-- **A number stands for the child that has it**, of those that are left.
SOURCE: server.cc:264, 281 -/
theorem findChild_eq (h : (table s).Tracked) (hc : unreaped s.children c = some pid) :
    s.findChild pid = some c := by
  cases hfind : s.findChild pid with
  | none => exact absurd hc (findChild_eq_none.mp hfind c)
  | some c' =>
    obtain ⟨hlt, hp, -⟩ := List.findIdx?_eq_some_iff_getElem.mp hfind
    simp only [Bool.and_eq_true, decide_eq_true_eq, bne_iff_ne] at hp
    have hc' : unreaped s.children c' = some pid :=
      unreaped_eq_some.mpr ⟨_, by rw [List.getElem?_eq_getElem hlt, ← hp.1], hp.2⟩
    rw [h.numbers c' c pid hc' hc]

/-- **`waitpid` on a child that is left** returns when the child has exited.
SOURCE: server.cc:264, 281 -/
theorem waitpid_eq_some (h : (table s).Tracked) (hc : unreaped s.children c = some pid) :
    s.waitpid pid = some s' ↔
      s.children[c]? = some ⟨pid, .exited⟩ ∧
      s' = { s with
        children := s.children.set c ⟨pid, .reaped⟩, waits := s.waits ++ [some c] } := by
  obtain ⟨status, hget, hstatus⟩ := unreaped_eq_some.mp hc
  unfold State.waitpid
  rw [findChild_eq h hc]
  cases status with
  | running => simp [hget]
  | exited => simp [hget, eq_comm]
  | reaped => exact absurd rfl hstatus

/-- A child that does not run does not run again. -/
def StaysEnded (children children' : List Child) : Prop :=
  ∀ (c : ℕ) (child : Child), children[c]? = some child → child.status ≠ .running →
    ∃ child' : Child, children'[c]? = some child' ∧ child'.status ≠ .running

/-- A child that has exited does not run again, if nothing has happened.
SOURCE: server.cc:169-195, 248-285 -/
theorem StaysEnded.refl (children : List Child) : StaysEnded children children :=
  fun _ child hc hstatus => ⟨child, hc, hstatus⟩

/-- A child that has exited does not run again, if one child has changed that does not run then.
SOURCE: server.cc:169-195, 248-285 -/
theorem StaysEnded.set (children : List Child) (c : ℕ) (h : child.status ≠ .running) :
    StaysEnded children (children.set c child) := by
  intro c' child' hc' hstatus'
  by_cases e : c = c'
  · subst e
    exact ⟨child, by rw [List.getElem?_set_self (List.getElem?_eq_some_iff.mp hc').1], h⟩
  · exact ⟨child', by rw [List.getElem?_set_ne e, hc'], hstatus'⟩

/-- A child that has exited does not run again, if there are new children.
SOURCE: server.cc:169-195, 248-285 -/
theorem StaysEnded.append (children new : List Child) : StaysEnded children (children ++ new) := by
  intro c child hc hstatus
  refine ⟨child, ?_, hstatus⟩
  rw [List.getElem?_append_left (List.getElem?_eq_some_iff.mp hc).1, hc]

/-- The descriptor of a child is readable when the child does not run.
SOURCE: server.cc:190-192 -/
theorem readable_iff : s.readable fd = true ↔
    ∃ c, s.openFds fd = some c ∧
      ∃ child, s.children[c]? = some child ∧ child.status ≠ .running := by
  simp [State.readable, Option.any_eq_true]

/-- A descriptor stays readable while it is open.
SOURCE: server.cc:190-192 -/
theorem readable_of_staysEnded (h : s.readable fd = true) (hfd : s'.openFds fd = s.openFds fd)
    (hchildren : StaysEnded s.children s'.children) : s'.readable fd = true := by
  obtain ⟨c, hopen, child, hc, hstatus⟩ := readable_iff.mp h
  exact readable_iff.mpr ⟨c, hfd.trans hopen, hchildren c child hc hstatus⟩

/-! ### The invariant of the main loop -/

/-- The events that are left. -/
structure Reported (s : State) : Prop where
  nodup : s.todo.Nodup
  events : ∀ fd, .pidfd fd ∈ s.todo → s.readable fd = true
  reaping : ∀ fd pid, s.busy = .reaping fd pid →
    s.snapshotChildren fd = some pid ∧ s.readable fd = true ∧ .pidfd fd ∉ s.todo

/-- The calls of `waitpid` so far. -/
structure Waited (children : List Child) (waits : List (Option ℕ)) : Prop where
  succeeded : none ∉ waits
  once : waits.Nodup
  reaped : ∀ c, some c ∈ waits ↔ ∃ pid, children[c]? = some ⟨pid, .reaped⟩

structure Invariant (s : State) : Prop where
  tracked : (table s).Tracked
  reported : Reported s
  waited : Waited s.children s.waits

/-- **`waitpid` returns a child**, once and for all.
SOURCE: server.cc:264, 281 -/
theorem Waited.wait {children : List Child} {waits : List (Option ℕ)} (h : Waited children waits)
    (hc : children[c]? = some ⟨pid, .exited⟩) :
    Waited (children.set c ⟨pid, .reaped⟩) (waits ++ [some c]) := by
  have hnew : some c ∉ waits := by
    rw [h.reaped c, hc]
    simp
  refine ⟨?_, ?_, fun c' => ?_⟩
  · simpa using h.succeeded
  · refine List.nodup_append.mpr ⟨h.once, List.pairwise_singleton _ _, fun w hw w' hw' e => ?_⟩
    rw [e, List.mem_singleton.mp hw'] at hw
    exact hnew hw
  · rw [List.mem_append, List.mem_singleton, h.reaped c', Option.some.injEq, List.getElem?_set]
    split_ifs with e hlt
    · exact ⟨fun _ => ⟨pid, rfl⟩, fun _ => .inr e.symm⟩
    · exact absurd (List.getElem?_eq_some_iff.mp hc).1 (e ▸ hlt)
    · exact or_iff_left (Ne.symm e)

/-- A child exits.
SOURCE: server.cc:169-195, 248-285 -/
theorem Invariant.exit (h : Invariant s) (hc : s.children[c]? = some ⟨pid, .running⟩) :
    Invariant { s with children := s.children.set c ⟨pid, .exited⟩ } := by
  have hends : StaysEnded s.children (s.children.set c ⟨pid, .exited⟩) :=
    .set _ _ Status.noConfusion
  refine ⟨?_, ⟨h.reported.nodup, fun fd hfd => ?_, fun fd pid' hbusy => ?_⟩, ?_⟩
  · unfold table
    rw [unreaped_exit hc]
    exact h.tracked
  · exact readable_of_staysEnded (h.reported.events fd hfd) rfl hends
  · obtain ⟨hlisted, hreadable, hfd⟩ := h.reported.reaping fd pid' hbusy
    exact ⟨hlisted, readable_of_staysEnded hreadable rfl hends, hfd⟩
  · refine ⟨h.waited.succeeded, h.waited.once, fun c' => ?_⟩
    rw [h.waited.reaped c', List.getElem?_set]
    split_ifs with e hlt
    · subst e
      simp [hc]
    · exact absurd (List.getElem?_eq_some_iff.mp hc).1 (e ▸ hlt)
    · rfl

/-- `epoll_wait` reports some of the events that are there.
SOURCE: server.cc:171 -/
theorem Invariant.wait (h : Invariant s) (hidle : s.busy = .idle) {events : List Event}
    (hnodup : events.Nodup) (hevents : events.all s.mayReport = true) :
    Invariant { s with todo := events } := by
  refine ⟨h.tracked, ⟨hnodup, fun fd hfd => ?_, fun fd pid hbusy => ?_⟩, h.waited⟩
  · have hmay := List.all_eq_true.mp hevents _ hfd
    exact (Bool.and_eq_true_iff.mp hmay).2
  · cases hidle.symm.trans hbusy

/-- An event is done with.
SOURCE: server.cc:178-194 -/
theorem Invariant.drop (h : Invariant s) (hidle : s.busy = .idle) {e : Event} {rest : List Event}
    (htodo : s.todo = e :: rest) : Invariant { s with todo := rest } := by
  have hnodup := h.reported.nodup
  rw [htodo, List.nodup_cons] at hnodup
  refine ⟨h.tracked, ⟨hnodup.2, fun fd hfd => ?_, fun fd pid hbusy => ?_⟩, h.waited⟩
  · exact h.reported.events fd (htodo ▸ List.mem_cons_of_mem _ hfd)
  · cases hidle.symm.trans hbusy

/-- **`fork`**: the number is that of no child that is left.
SOURCE: server.cc:249 -/
theorem Invariant.fork (h : Invariant s) (hidle : s.busy = .idle) (hpid : s.findChild pid = none) :
    Invariant { s with children := s.children ++ [⟨pid, .running⟩], busy := .forked pid } := by
  refine ⟨?_, ⟨h.reported.nodup, fun fd hfd => ?_, fun fd pid' hbusy => ?_⟩, ?_⟩
  · have hlast : unreaped s.children s.children.length = none := by
      rw [unreaped, List.getElem?_eq_none le_rfl]
      rfl
    have hheld : (table s).held = none := congrArg held hidle
    have htracked := h.tracked.fork hheld hlast (findChild_eq_none.mp hpid)
    unfold table
    rw [unreaped_fork]
    exact htracked
  · exact readable_of_staysEnded (h.reported.events fd hfd) rfl (.append _ _)
  · cases hbusy
  · refine ⟨h.waited.succeeded, h.waited.once, fun c => ?_⟩
    rw [h.waited.reaped c]
    obtain hlt | hge := Nat.lt_or_ge c s.children.length
    · rw [List.getElem?_append_left hlt]
    · rw [List.getElem?_append_right hge, List.getElem?_eq_none hge, List.getElem?_singleton]
      split_ifs <;> simp

/-- **`pidfd_open`**: the number is that of no descriptor of an event that is left.
SOURCE: server.cc:260-274 -/
theorem Invariant.watch (h : Invariant s) (hbusy : s.busy = .forked pid)
    (hfd : s.openFds fd = none) :
    Invariant { s with
      openFds := Function.update s.openFds fd (s.findChild pid)
      interest := Function.update s.interest fd true
      snapshotChildren := Function.update s.snapshotChildren fd (some pid)
      busy := .idle } := by
  have hheld : (table s).held = some pid := congrArg held hbusy
  obtain ⟨c, hc, -⟩ := h.tracked.inHand pid hheld
  rw [findChild_eq h.tracked hc]
  refine ⟨h.tracked.watch hheld hc hfd,
    ⟨h.reported.nodup, fun fd' hfd' => ?_, fun fd' pid' hbusy' => ?_⟩, h.waited⟩
  · have hreadable := h.reported.events fd' hfd'
    have hne : fd' ≠ fd := by
      rintro rfl
      obtain ⟨c', hopen, -⟩ := readable_iff.mp hreadable
      rw [hfd] at hopen
      cases hopen
    exact readable_of_staysEnded hreadable (Function.update_of_ne hne _ _) (.refl _)
  · cases hbusy'

/-- The child in hand, after `pidfd_open` has failed.
SOURCE: server.cc:261-264 -/
theorem Invariant.unwatched (h : Invariant s) (hbusy : s.busy = .forked pid) :
    Invariant { s with busy := .unwatched pid } := by
  have htracked := h.tracked
  rw [table, hbusy] at htracked
  refine ⟨htracked, ⟨h.reported.nodup, h.reported.events, fun fd pid' hbusy' => ?_⟩,
    h.waited⟩
  cases hbusy'

/-- The `waitpid` after `pidfd_open` has failed.
SOURCE: server.cc:264 -/
theorem Invariant.discard (h : Invariant s) (hbusy : s.busy = .unwatched pid)
    (hwait : s.waitpid pid = some s') : Invariant { s' with busy := .idle } := by
  have hheld : (table s).held = some pid := congrArg held hbusy
  obtain ⟨c, hc, -⟩ := h.tracked.inHand pid hheld
  obtain ⟨hget, rfl⟩ := (waitpid_eq_some h.tracked hc).mp hwait
  have hends : StaysEnded s.children (s.children.set c ⟨pid, .reaped⟩) :=
    .set _ _ Status.noConfusion
  refine ⟨?_, ⟨h.reported.nodup, fun fd hfd => ?_, fun fd pid' hbusy' => ?_⟩, h.waited.wait hget⟩
  · have htracked := h.tracked.discard hheld hc
    unfold table
    rw [unreaped_reap (List.getElem?_eq_some_iff.mp hget).1]
    exact htracked
  · exact readable_of_staysEnded (h.reported.events fd hfd) rfl hends
  · cases hbusy'

/-- `ReapSnapshot` has found the process number.
SOURCE: server.cc:278-279 -/
theorem Invariant.found (h : Invariant s) (hidle : s.busy = .idle) {rest : List Event}
    (htodo : s.todo = .pidfd fd :: rest) (hlisted : s.snapshotChildren fd = some pid) :
    Invariant { s with todo := rest, busy := .reaping fd pid } := by
  have hnodup := h.reported.nodup
  rw [htodo, List.nodup_cons] at hnodup
  have htracked := h.tracked
  rw [table, hidle] at htracked
  refine ⟨htracked, ⟨hnodup.2, fun fd' hfd' => ?_, fun fd' pid' hbusy' => ?_⟩, h.waited⟩
  · exact h.reported.events fd' (htodo ▸ List.mem_cons_of_mem _ hfd')
  · cases hbusy'
    exact ⟨hlisted, h.reported.events fd (htodo ▸ List.mem_cons_self), hnodup.1⟩

/-- **The child `ReapSnapshot` waits for has exited.**
SOURCE: server.cc:281 -/
theorem Invariant.exited (h : Invariant s) (hbusy : s.busy = .reaping fd pid) :
    ∃ c, s.openFds fd = some c ∧ unreaped s.children c = some pid ∧
      s.children[c]? = some ⟨pid, .exited⟩ := by
  obtain ⟨hlisted, hreadable, -⟩ := h.reported.reaping fd pid hbusy
  obtain ⟨c, hopen, hc⟩ := h.tracked.of_listed hlisted
  obtain ⟨c', hopen', child, hget', hstatus'⟩ := readable_iff.mp hreadable
  cases hopen.symm.trans hopen'
  obtain ⟨status, hget, hstatus⟩ := unreaped_eq_some.mp hc
  cases hget.symm.trans hget'
  refine ⟨c, hopen, hc, ?_⟩
  cases status with
  | running => exact absurd rfl hstatus'
  | exited => exact hget
  | reaped => exact absurd rfl hstatus

/-- The rest of `ReapSnapshot`.
SOURCE: server.cc:281-284 -/
theorem Invariant.reap (h : Invariant s) (hbusy : s.busy = .reaping fd pid)
    (hwait : s.waitpid pid = some s') : Invariant (s'.forget fd) := by
  obtain ⟨c, hopen, hc, -⟩ := h.exited hbusy
  obtain ⟨hget, rfl⟩ := (waitpid_eq_some h.tracked hc).mp hwait
  have hends : StaysEnded s.children (s.children.set c ⟨pid, .reaped⟩) :=
    .set _ _ Status.noConfusion
  refine ⟨?_, ⟨h.reported.nodup, fun fd' hfd' => ?_, fun fd' pid' hbusy' => ?_⟩, h.waited.wait hget⟩
  · have hheld : (table s).held = none := congrArg held hbusy
    have htracked := h.tracked.reap hheld hopen
    rw [Table.reap, hheld] at htracked
    unfold table State.forget
    rw [unreaped_reap (List.getElem?_eq_some_iff.mp hget).1]
    exact htracked
  · have hne : fd' ≠ fd := by
      rintro rfl
      exact (h.reported.reaping fd' pid hbusy).2.2 hfd'
    exact readable_of_staysEnded (h.reported.events fd' hfd') (Function.update_of_ne hne _ _) hends
  · cases hbusy'

/-! ### Steps and runs -/

/-- What a step of the main thread can be. -/
inductive Advances (s : State) (results : Results) : State → Prop where
  | unwatched (pid : Pid) (hbusy : s.busy = .forked pid) :
      Advances s results { s with busy := .unwatched pid }
  | watch (fd : Fd) (pid : Pid) (hbusy : s.busy = .forked pid) (hfd : s.openFds fd = none) :
      Advances s results { s with
        openFds := Function.update s.openFds fd (s.findChild pid)
        interest := Function.update s.interest fd results.added
        snapshotChildren := Function.update s.snapshotChildren fd (some pid)
        busy := .idle }
  | discard (pid : Pid) (s₁ : State) (hbusy : s.busy = .unwatched pid)
      (hwait : s.waitpid pid = some s₁) : Advances s results { s₁ with busy := .idle }
  | reap (fd : Fd) (pid : Pid) (s₁ : State) (hbusy : s.busy = .reaping fd pid)
      (hwait : s.waitpid pid = some s₁) : Advances s results (s₁.forget fd)
  | drop (e : Event) (rest : List Event) (hidle : s.busy = .idle) (htodo : s.todo = e :: rest)
      (hunlisted : ∀ fd, e = .pidfd fd → s.snapshotChildren fd = none) :
      Advances s results { s with todo := rest }
  | fork (pid : Pid) (rest : List Event) (hidle : s.busy = .idle)
      (htodo : s.todo = .timer :: rest) (hfree : s.findChild pid = none) :
      Advances s results { s with
        children := s.children ++ [⟨pid, .running⟩], todo := rest, busy := .forked pid }
  | found (fd : Fd) (pid : Pid) (rest : List Event) (hidle : s.busy = .idle)
      (htodo : s.todo = .pidfd fd :: rest) (hlisted : s.snapshotChildren fd = some pid) :
      Advances s results { s with todo := rest, busy := .reaping fd pid }

/-- The steps of the main thread are those listed in `Advances`.
SOURCE: server.cc:170-195, 248-285 -/
theorem advances_of_advance {results : Results} (h : s.advance results = some s') :
    Advances s results s' := by
  unfold State.advance at h
  split at h
  case h_1 pid hbusy =>
    unfold State.watchChild at h
    split at h
    case h_1 =>
      cases h
      exact .unwatched pid hbusy
    case h_2 fd _ =>
      split_ifs at h with hclosed
      cases h
      exact .watch fd pid hbusy hclosed
  case h_2 pid hbusy =>
    obtain ⟨s₁, hwait, rfl⟩ := Option.map_eq_some_iff.mp h
    exact .discard pid s₁ hbusy hwait
  case h_3 fd pid hbusy =>
    obtain ⟨s₁, hwait, rfl⟩ := Option.map_eq_some_iff.mp h
    exact .reap fd pid s₁ hbusy hwait
  case h_4 => cases h
  case h_5 rest hbusy htodo =>
    cases h
    exact .drop .listen rest hbusy htodo fun _ e => by cases e
  case h_6 rest hbusy htodo =>
    cases h
    exact .drop .command rest hbusy htodo fun _ e => by cases e
  case h_7 rest hbusy htodo =>
    unfold State.createSnapshot at h
    split at h
    case h_1 =>
      cases h
      exact .drop .timer rest hbusy htodo fun _ e => by cases e
    case h_2 pid _ =>
      split_ifs at h with hfree
      cases h
      exact .fork pid rest hbusy htodo hfree
  case h_8 fd rest hbusy htodo =>
    split at h
    case h_1 hunlisted =>
      cases h
      refine .drop (.pidfd fd) rest hbusy htodo fun fd' e => ?_
      cases e
      exact hunlisted
    case h_2 pid hlisted =>
      cases h
      exact .found fd pid rest hbusy htodo hlisted

/-- `epoll_ctl` adds what it is to add; the source does not look at its result. -/
def Adds : Action → Prop
  | .advance results => results.added = true
  | _ => True

instance : DecidablePred Adds
  | .advance results => inferInstanceAs (Decidable (results.added = true))
  | .exit _ => .isTrue trivial
  | .wait _ => .isTrue trivial

/-- **Every step** keeps the invariant.
SOURCE: server.cc:170-195, 248-285 -/
theorem Invariant.step (h : Invariant s) {a : Action} (hadds : Adds a)
    (hs : s.step a = some s') : Invariant s' := by
  cases a with
  | exit c =>
    rw [State.step] at hs
    split at hs
    case h_1 pid hc =>
      cases hs
      exact h.exit hc
    case h_2 => cases hs
  | wait events =>
    rw [State.step] at hs
    split_ifs at hs with hwait
    cases hs
    exact h.wait hwait.1 hwait.2.2.1 hwait.2.2.2
  | advance results =>
    cases advances_of_advance hs with
    | unwatched pid hbusy => exact h.unwatched hbusy
    | watch fd pid hbusy hfd =>
      rw [show results.added = true from hadds]
      exact h.watch hbusy hfd
    | discard pid s₁ hbusy hwait => exact h.discard hbusy hwait
    | reap fd pid s₁ hbusy hwait => exact h.reap hbusy hwait
    | drop e rest hidle htodo _ => exact h.drop hidle htodo
    | fork pid rest hidle htodo hfree => exact (h.drop hidle htodo).fork hidle hfree
    | found fd pid rest hidle htodo hlisted => exact h.found hidle htodo hlisted

/-- The steps before the main thread calls `epoll_wait` again. -/
def Handles : Action → Prop
  | .wait _ => False
  | a => Adds a

/-- In such a step `epoll_ctl` adds what it is to add.
SOURCE: server.cc:169-195, 248-285 -/
theorem Handles.adds {a : Action} (h : Handles a) : Adds a := by
  cases a with
  | wait _ => exact h.elim
  | exit _ => exact h
  | advance _ => exact h

/-- The child has been reaped, or its descriptor is open and its event is still to be handled. -/
def Due (c : ℕ) (fd : Fd) (s : State) : Prop :=
  some c ∈ s.waits ∨
    s.openFds fd = some c ∧ (.pidfd fd ∈ s.todo ∨ ∃ pid, s.busy = .reaping fd pid)

/-- No step forgets whom `waitpid` has returned.
SOURCE: server.cc:170-195, 248-285 -/
theorem waits_of_advances {results : Results} (h : Advances s results s') {w : Option ℕ}
    (hw : w ∈ s.waits) : w ∈ s'.waits := by
  have hwaitpid : ∀ (pid : Pid) (s₁ : State), s.waitpid pid = some s₁ → w ∈ s₁.waits := by
    intro pid s₁ hwait
    unfold State.waitpid at hwait
    split at hwait
    case h_1 =>
      cases hwait
      exact List.mem_append_left _ hw
    case h_2 =>
      split at hwait
      case h_1 =>
        cases hwait
        exact List.mem_append_left _ hw
      case h_2 => cases hwait
  cases h with
  | unwatched _ _ => exact hw
  | watch _ _ _ _ => exact hw
  | discard pid s₁ _ hwait => exact hwaitpid pid s₁ hwait
  | reap _ pid s₁ _ hwait => exact hwaitpid pid s₁ hwait
  | drop _ _ _ _ _ => exact hw
  | fork _ _ _ _ _ => exact hw
  | found _ _ _ _ _ _ => exact hw

/-- **The event of a child is handled**, unless it is still to be.
SOURCE: server.cc:170-195, 248-285 -/
theorem Due.advance (hinv : Invariant s) {results : Results} (h : Due c fd s)
    (hs : Advances s results s') : Due c fd s' := by
  obtain hw | ⟨hopen, hevent⟩ := h
  · exact .inl (waits_of_advances hs hw)
  -- While the main thread is not in `ReapSnapshot`, the event is among those that are left.
  have hleft : (∀ pid, s.busy ≠ .reaping fd pid) → .pidfd fd ∈ s.todo := fun hbusy =>
    hevent.resolve_right fun ⟨pid, hreaping⟩ => hbusy pid hreaping
  cases hs with
  | unwatched pid hbusy => exact .inr ⟨hopen, .inl (hleft (by simp [hbusy]))⟩
  | watch fd' pid hbusy hfd' =>
    have hne : fd ≠ fd' := by
      rintro rfl
      cases hfd'.symm.trans hopen
    exact .inr ⟨(Function.update_of_ne hne _ _).trans hopen, .inl (hleft (by simp [hbusy]))⟩
  | discard pid s₁ hbusy hwait =>
    obtain ⟨c', hc', -⟩ := hinv.tracked.inHand pid (congrArg held hbusy)
    obtain ⟨-, rfl⟩ := (waitpid_eq_some hinv.tracked hc').mp hwait
    exact .inr ⟨hopen, .inl (hleft (by simp [hbusy]))⟩
  | reap fd' pid s₁ hbusy hwait =>
    obtain ⟨c', hopen', hc', -⟩ := hinv.exited hbusy
    obtain ⟨-, rfl⟩ := (waitpid_eq_some hinv.tracked hc').mp hwait
    by_cases e : fd = fd'
    · subst e
      cases hopen.symm.trans hopen'
      exact .inl (List.mem_append_right _ List.mem_cons_self)
    · have hbusy' : ∀ pid', s.busy ≠ .reaping fd pid' := by
        intro pid' hreaping
        cases hbusy.symm.trans hreaping
        exact e rfl
      exact .inr ⟨(Function.update_of_ne e _ _).trans hopen, .inl (hleft hbusy')⟩
  | drop e rest hidle htodo hunlisted =>
    have hmem := hleft (by simp [hidle])
    rw [htodo, List.mem_cons] at hmem
    obtain he | hrest := hmem
    · obtain ⟨pid, -, hlisted, -⟩ := hinv.tracked.opened fd c hopen
      cases (hunlisted fd he.symm).symm.trans hlisted
    · exact .inr ⟨hopen, .inl hrest⟩
  | fork pid rest hidle htodo hfree =>
    have hmem := hleft (by simp [hidle])
    rw [htodo, List.mem_cons] at hmem
    exact .inr ⟨hopen, .inl (hmem.resolve_left Event.noConfusion)⟩
  | found fd' pid rest hidle htodo hlisted =>
    have hmem := hleft (by simp [hidle])
    rw [htodo, List.mem_cons, Event.pidfd.injEq] at hmem
    obtain rfl | hrest := hmem
    · exact .inr ⟨hopen, .inr ⟨pid, rfl⟩⟩
    · exact .inr ⟨hopen, .inl hrest⟩

/-- Every step handles the event of a child, unless it is still to be handled.
SOURCE: server.cc:170-195, 248-285 -/
theorem Due.step (hinv : Invariant s) {a : Action} (h : Due c fd s) (hhandles : Handles a)
    (hs : s.step a = some s') : Due c fd s' := by
  cases a with
  | exit c' =>
    rw [State.step] at hs
    split at hs
    case h_1 =>
      cases hs
      exact h
    case h_2 => cases hs
  | wait _ => exact hhandles.elim
  | advance results => exact h.advance hinv (advances_of_advance hs)

/-- The main thread is at `epoll_wait`. -/
def AtRest (s : State) : Prop := s.busy = .idle ∧ s.todo = []

instance (s : State) : Decidable (AtRest s) :=
  inferInstanceAs (Decidable (s.busy = .idle ∧ s.todo = []))

/-- When the loop comes back to `epoll_wait`, the child has been reaped.
SOURCE: server.cc:170-195 -/
theorem Due.done (h : Due c fd s) (hrest : AtRest s) : some c ∈ s.waits := by
  refine h.resolve_right fun ⟨_, hevent⟩ => ?_
  obtain hmem | ⟨pid, hreaping⟩ := hevent
  · rw [hrest.2] at hmem
    exact List.not_mem_nil hmem
  · cases hrest.1.symm.trans hreaping

/-- How many steps the main thread is from the next event. -/
def busyWeight : Busy → ℕ
  | .idle => 0
  | .forked _ => 2
  | .unwatched _ => 1
  | .reaping _ _ => 1

/-- No more than this many steps before the main thread is at rest and every child has exited: an
event is worth what comes of it, and a child its exit. -/
def rank (s : State) : ℕ :=
  4 * s.todo.length + busyWeight s.busy + s.children.countP (·.status = .running)

/-- A child that exits, or is reaped, is counted as before or as one less.
SOURCE: server.cc:169-195, 248-285 -/
theorem countP_running_set {children : List Child} (child' : Child)
    (hc : children[c]? = some child) (hstatus : child'.status ≠ .running) :
    (children.set c child').countP (·.status = .running) +
        (if child.status = .running then 1 else 0) =
      children.countP (·.status = .running) := by
  obtain ⟨hlt, rfl⟩ := List.getElem?_eq_some_iff.mp hc
  rw [List.countP_set hlt]
  have hpos : children[c].status = .running → 0 < children.countP (·.status = .running) :=
    fun hrunning => List.countP_pos_iff.mpr ⟨_, List.getElem_mem hlt, by simpa using hrunning⟩
  by_cases hrunning : children[c].status = .running
  · have := hpos hrunning
    simp [hrunning, hstatus]
    omega
  · simp [hrunning, hstatus]

/-- A step of the main thread leaves less to do.
SOURCE: server.cc:170-195, 248-285 -/
theorem rank_lt_of_advances (hinv : Invariant s) {results : Results}
    (h : Advances s results s') : rank s' < rank s := by
  cases h with
  | unwatched pid hbusy => simp [rank, hbusy, busyWeight]
  | watch fd pid hbusy hfd => simp [rank, hbusy, busyWeight]
  | discard pid s₁ hbusy hwait =>
    obtain ⟨c, hc, -⟩ := hinv.tracked.inHand pid (congrArg held hbusy)
    obtain ⟨hget, rfl⟩ := (waitpid_eq_some hinv.tracked hc).mp hwait
    have hcount := countP_running_set ⟨pid, .reaped⟩ hget Status.noConfusion
    simp only [rank, hbusy, busyWeight]
    omega
  | reap fd pid s₁ hbusy hwait =>
    obtain ⟨c, -, hc, -⟩ := hinv.exited hbusy
    obtain ⟨hget, rfl⟩ := (waitpid_eq_some hinv.tracked hc).mp hwait
    have hcount := countP_running_set ⟨pid, .reaped⟩ hget Status.noConfusion
    simp only [rank, State.forget, hbusy, busyWeight]
    omega
  | drop e rest hidle htodo _ => simp [rank, hidle, htodo, busyWeight]
  | fork pid rest hidle htodo hfree =>
    simp only [rank, hidle, htodo, busyWeight, List.length_cons, List.countP_append,
      List.countP_singleton, decide_true, if_true]
    omega
  | found fd pid rest hidle htodo hlisted =>
    simp only [rank, hidle, htodo, busyWeight, List.length_cons]
    omega

/-- Every step before the next `epoll_wait` leaves less to do.
SOURCE: server.cc:170-195, 248-285 -/
theorem rank_lt_of_step (hinv : Invariant s) {a : Action} (hhandles : Handles a)
    (hs : s.step a = some s') : rank s' < rank s := by
  cases a with
  | exit c =>
    rw [State.step] at hs
    split at hs
    case h_1 pid hc =>
      cases hs
      have hcount := countP_running_set ⟨pid, .exited⟩ hc Status.noConfusion
      simp only [rank, if_true] at hcount ⊢
      omega
    case h_2 => cases hs
  | wait _ => exact hhandles.elim
  | advance results => exact rank_lt_of_advances hinv (advances_of_advance hs)

/-- A `ReapSnapshot` that has found its child can go on to its end.
SOURCE: server.cc:281-284 -/
theorem step_reaping (hinv : Invariant s) (hbusy : s.busy = .reaping fd pid)
    (results : Results) : ∃ s', s.step (.advance results) = some s' ∧ s'.busy = .idle := by
  obtain ⟨c, -, hc, hget⟩ := hinv.exited hbusy
  obtain ⟨s₁, hwait⟩ : ∃ s₁, s.waitpid pid = some s₁ :=
    ⟨_, (waitpid_eq_some hinv.tracked hc).mpr ⟨hget, rfl⟩⟩
  refine ⟨s₁.forget fd, ?_, rfl⟩
  rw [State.step, State.advance, hbusy]
  exact congrArg (Option.map _) hwait

/-- **The loop goes on**: what holds it up is at most a child that is still to exit.
SOURCE: server.cc:170-195, 248-285 -/
theorem exists_step (hinv : Invariant s) (hrest : ¬ AtRest s) :
    ∃ a s', Handles a ∧ s.step a = some s' := by
  cases hbusy : s.busy with
  | forked pid =>
    refine ⟨.advance ⟨none, none, true⟩, { s with busy := .unwatched pid }, rfl, ?_⟩
    rw [State.step, State.advance, hbusy]
    rfl
  | unwatched pid =>
    obtain ⟨c, hc, -⟩ := hinv.tracked.inHand pid (congrArg held hbusy)
    obtain ⟨status, hget, hstatus⟩ := unreaped_eq_some.mp hc
    cases status with
    | running =>
      refine ⟨.exit c, { s with children := s.children.set c ⟨pid, .exited⟩ }, trivial, ?_⟩
      rw [State.step, hget]
    | exited =>
      obtain ⟨s₁, hwait⟩ : ∃ s₁, s.waitpid pid = some s₁ :=
        ⟨_, (waitpid_eq_some hinv.tracked hc).mpr ⟨hget, rfl⟩⟩
      refine ⟨.advance ⟨none, none, true⟩, { s₁ with busy := .idle }, rfl, ?_⟩
      rw [State.step, State.advance, hbusy]
      exact congrArg (Option.map _) hwait
    | reaped => exact absurd rfl hstatus
  | reaping fd pid =>
    obtain ⟨s', hs', -⟩ := step_reaping hinv hbusy ⟨none, none, true⟩
    exact ⟨.advance ⟨none, none, true⟩, s', rfl, hs'⟩
  | idle =>
    cases htodo : s.todo with
    | nil => exact absurd ⟨hbusy, htodo⟩ hrest
    | cons e rest =>
      obtain ⟨s', hs'⟩ : ∃ s', s.advance ⟨none, none, true⟩ = some s' := by
        unfold State.advance
        rw [hbusy, htodo]
        cases e with
        | listen => exact ⟨_, rfl⟩
        | command => exact ⟨_, rfl⟩
        | timer => exact ⟨_, rfl⟩
        | pidfd fd =>
          dsimp only
          split <;> exact ⟨_, rfl⟩
      exact ⟨.advance ⟨none, none, true⟩, s', rfl, hs'⟩

/-- The steps after `epoll_wait` has reported a descriptor.
SOURCE: server.cc:170-195, 248-285 -/
theorem handled {s₁ s₂ : State} {events : List Event} {k : ℕ} (hinv : Invariant s)
    (hopen : s.openFds fd = some c) (hwait : s.step (.wait events) = some s₁)
    (hevent : .pidfd fd ∈ events)
    (h : Run (fun s a s' => s.step a = some s') (fun _ a => Handles a) s₁ k s₂) :
    (Invariant s₂ ∧ Due c fd s₂) ∧ k + rank s₂ ≤ rank s₁ := by
  have hinv₁ : Invariant s₁ := hinv.step (a := .wait events) trivial hwait
  have hdue₁ : Due c fd s₁ := by
    rw [State.step] at hwait
    split_ifs at hwait
    cases hwait
    exact .inr ⟨hopen, .inl hevent⟩
  refine h.length_le_of_invariant (I := fun s => Invariant s ∧ Due c fd s) rank ⟨hinv₁, hdue₁⟩
    (fun s a s' hs hhandles hstep => ?_) (fun s a s' hs hhandles hstep => ?_)
  · exact ⟨hs.1.step hhandles.adds hstep, hs.2.step hs.1 hhandles hstep⟩
  · exact rank_lt_of_step hs.1 hhandles hstep

end State

end Reaping

end MyRedis.Analysis

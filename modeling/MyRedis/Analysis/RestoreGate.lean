import MyRedis.Analysis.LatestSnapshot
import MyRedis.Analysis.Simulation
import MyRedis.Analysis.SnapshotFormat
import MyRedis.Model.ServerRun

/-!
# The server starts from the newest snapshot

A file counts as a snapshot by its name and its type (`Candidate`).  `Restore` selects a candidate
of the greatest timestamp, in whatever order the directory is visited (`latestSnapshot_newest`),
and succeeds exactly if it is a document, whose members are then the store (`restore_candidate`).

`Server::Run` does nothing with a store that could not be restored: in every run of the server the
threads start with a store that was (`Gated`).
-/

set_option autoImplicit false

namespace MyRedis.Analysis

open MyRedis.Model MyRedis.Model.Snapshotter MyRedis.Lib

/-! ## Candidates -/

/-- **A candidate**: a regular file named `dump-<m>.snapshot.json`, where `m` is read entirely by
`std::from_chars` as a time since the epoch. -/
def Candidate (entry : Bytes × Node) (t : Int64) : Prop :=
  (∃ content, entry.2 = .file content) ∧ 0 ≤ t ∧
    ∃ m, entry.1 = ascii "dump-" ++ m ++ ascii ".snapshot.json" ∧ fromChars m = .ok (t, m.length)

/-- A candidate is a snapshot of a time since the epoch.
SOURCE: snapshotter.cc:31-45 -/
theorem candidate_iff {entry : Bytes × Node} {t : Int64} :
    Candidate entry t ↔ Snapshot kSnapshotPrefix entry t ∧ 0 ≤ t := by
  rw [Snapshot, timestampOf_iff, Candidate, and_comm (a := 0 ≤ t), and_assoc]
  rfl

section Directory

variable {files : Bytes → Option Node} {entries : List (Bytes × Node)}

/-- Without a candidate none is selected.
SOURCE: snapshotter.cc:28-51 -/
theorem latestSnapshot_without (h : ¬ ∃ entry ∈ entries, ∃ t, Candidate entry t) :
    latestSnapshot kSnapshotPrefix entries = none := by
  apply latestSnapshot_none
  intro entry hentry t ht
  by_contra hneg
  exact h ⟨entry, hentry, t, candidate_iff.mpr ⟨ht, Int64.not_lt.mp hneg⟩⟩

/-- **The newest candidate is selected.**
SOURCE: snapshotter.cc:28-51 -/
theorem latestSnapshot_newest (h : ∃ entry ∈ entries, ∃ t, Candidate entry t) :
    ∃ entry ∈ entries, ∃ t, Candidate entry t ∧
      (∀ entry' ∈ entries, ∀ t', Candidate entry' t' → t' ≤ t) ∧
      latestSnapshot kSnapshotPrefix entries = some entry.1 := by
  obtain ⟨entry₀, hentry₀, t₀, hcandidate⟩ := h
  obtain ⟨ht₀, hpos⟩ := candidate_iff.mp hcandidate
  obtain ⟨entry, hentry, t, ht, hbound, hselected⟩ := latestSnapshot_greatest hentry₀ ht₀ hpos
  have hnonneg : 0 ≤ t := Int64.le_trans hpos (hbound entry₀ hentry₀ t₀ ht₀)
  refine ⟨entry, hentry, t, candidate_iff.mpr ⟨ht, hnonneg⟩, ?_, hselected⟩
  intro entry' hentry' t' hcandidate'
  exact hbound entry' hentry' t' (candidate_iff.mp hcandidate').1

/-- `Restore` then leaves the store as it is, and succeeds.
SOURCE: snapshotter.cc:128-130 -/
theorem restore_without (h : latestSnapshot kSnapshotPrefix entries = none) (store : Store) :
    restore kSnapshotPrefix files entries store = (true, store) := by
  simp only [restore, h]

/-- **What is restored from a file.**
SOURCE: snapshotter.cc:127-150 -/
theorem restore_content {name content : Bytes}
    (hselected : latestSnapshot kSnapshotPrefix entries = some name)
    (hfile : files name = some (.file content)) (store : Store) :
    ((restore kSnapshotPrefix files entries store).1 = true ↔ ∃ ms, Document content ms) ∧
      ∀ ms, Document content ms →
        (restore kSnapshotPrefix files entries store).2 = insertMembers store ms := by
  obtain ⟨outcome, store', hread⟩ :
      ∃ outcome store', store.deserialiseFromJson content = (outcome, store') := ⟨_, _, rfl⟩
  cases outcome with
  | error e =>
    have hnone : ¬ ∃ ms, Document content ms := by
      rintro ⟨ms, hdocument⟩
      cases hread.symm.trans (deserialiseFromJson_iff.mpr ⟨ms, hdocument, rfl⟩)
    have hfalse : restore kSnapshotPrefix files entries store = (false, store') := by
      simp only [restore, hselected, hfile, hread]
    rw [hfalse]
    exact ⟨iff_of_false Bool.false_ne_true hnone, fun ms hdocument => absurd ⟨ms, hdocument⟩ hnone⟩
  | ok _ =>
    have htrue : restore kSnapshotPrefix files entries store = (true, store') := by
      simp only [restore, hselected, hfile, hread]
    rw [htrue]
    obtain ⟨ms, hdocument, -⟩ := deserialiseFromJson_iff.mp hread
    refine ⟨iff_of_true rfl ⟨ms, hdocument⟩, ?_⟩
    intro ms' hdocument'
    cases hread.symm.trans (deserialiseFromJson_iff.mpr ⟨ms', hdocument', rfl⟩)
    rfl

end Directory

/-! ## Runs of the server -/

section Runs

variable {n : ℕ} [NeZero n] {files : Bytes → Option Node} {entries : List (Bytes × Node)}

/-- A run of the server from its start, with the empty store of the constructor. -/
def RunReaches (files : Bytes → Option Node) (entries : List (Bytes × Node)) (loop : MainLoop) :
    ServerRun n → Prop :=
  Reaches (fun run a run' => run.step files entries a = some run') (fun _ _ => True)
    (.starting loop .empty)

/-- The threads run with a store that was restored. -/
def Gated (loop : MainLoop) (restored : Bool × Store) : ServerRun n → Prop
  | .starting loop' store => loop' = loop ∧ store = .empty
  | .ended _ => True
  | .serving server => restored.1 = true ∧ Reachable AnyFd restored.2 server

/-- `Server::Run` starts the threads with what was restored, or ends.
SOURCE: server.cc:150-165 -/
theorem gated_of_start {loop : MainLoop} {run : ServerRun n}
    (h : (ServerRun.starting loop .empty).step files entries .start = some run) :
    Gated loop (restore kSnapshotPrefix files entries .empty) run := by
  rw [ServerRun.step, MainLoop.run] at h
  obtain ⟨success, store, hrestore⟩ :
      ∃ success store, restore kSnapshotPrefix files entries .empty = (success, store) :=
    ⟨_, _, rfl⟩
  split_ifs at h with hfailed
  · cases h
    trivial
  · rw [hrestore] at h ⊢
    cases success with
    | false =>
      cases h
      trivial
    | true =>
      cases h
      exact ⟨rfl, .refl⟩

/-- `Server::Run` ends where nothing could be restored.
SOURCE: server.cc:160-163 -/
theorem ended_of_start (loop : MainLoop)
    (h : (restore kSnapshotPrefix files entries .empty).1 = false) :
    ∃ message, (ServerRun.starting loop .empty : ServerRun n).step files entries .start =
      some (.ended message) := by
  obtain ⟨success, store, hrestore⟩ :
      ∃ success store, restore kSnapshotPrefix files entries .empty = (success, store) :=
    ⟨_, _, rfl⟩
  rw [hrestore] at h
  cases h
  rw [ServerRun.step, MainLoop.run]
  split_ifs with hfailed
  · exact ⟨_, rfl⟩
  · rw [hrestore]
    exact ⟨_, rfl⟩

/-- **The gate**, over whole runs.
SOURCE: server.cc:150-196 -/
theorem gated_of_reaches {loop : MainLoop} {run : ServerRun n}
    (h : RunReaches files entries loop run) :
    Gated loop (restore kSnapshotPrefix files entries .empty) run := by
  apply Reaches.invariant (I := Gated loop (restore kSnapshotPrefix files entries .empty)) _ _ h
  · exact ⟨rfl, rfl⟩
  · intro run a run' hgated _ hstep
    cases run with
    | starting loop' store =>
      obtain ⟨rfl, rfl⟩ := hgated
      cases a with
      | start => exact gated_of_start hstep
      | thread a => cases hstep
    | ended message => cases a <;> cases hstep
    | serving server =>
      cases a with
      | start => cases hstep
      | thread a =>
        obtain ⟨server', hserver, rfl⟩ := Option.map_eq_some_iff.mp hstep
        exact ⟨hgated.1, hgated.2.tail (fun _ _ => trivial) hserver⟩

end Runs

/-- **The server starts only from the newest snapshot, whole.**  `entries` is what a directory
iterator visits, in any order.
SOURCE: snapshotter.cc:20-51, 127-150, server.cc:150-170 -/
theorem starts_from_newest {n : ℕ} [NeZero n] (files : Bytes → Option Node)
    (entries : List (Bytes × Node))
    (hentries : ∀ entry, entry ∈ entries ↔ files entry.1 = some entry.2) :
    ((¬ ∃ entry ∈ entries, ∃ t, Candidate entry t) →
      restore kSnapshotPrefix files entries .empty = (true, .empty)) ∧
    ((∃ entry ∈ entries, ∃ t, Candidate entry t) →
      ∃ name content t, latestSnapshot kSnapshotPrefix entries = some name ∧
        (name, .file content) ∈ entries ∧ Candidate (name, .file content) t ∧
        (∀ entry ∈ entries, ∀ t', Candidate entry t' → t' ≤ t) ∧
        ((restore kSnapshotPrefix files entries .empty).1 = true ↔ ∃ ms, Document content ms) ∧
        ∀ ms, Document content ms →
          (restore kSnapshotPrefix files entries .empty).2 = insertMembers .empty ms) ∧
    (∀ loop : MainLoop, (restore kSnapshotPrefix files entries .empty).1 = false →
      ∃ message, (ServerRun.starting loop .empty : ServerRun n).step files entries .start =
        some (.ended message)) ∧
    ∀ (loop : MainLoop) (run : ServerRun n), RunReaches files entries loop run →
      ((restore kSnapshotPrefix files entries .empty).1 = false →
        run.log = [] ∧ ∀ server, run ≠ .serving server) ∧
      ∀ server, run = .serving server →
        (restore kSnapshotPrefix files entries .empty).1 = true ∧
        Reachable AnyFd (restore kSnapshotPrefix files entries .empty).2 server := by
  refine ⟨?_, ?_, fun loop => ended_of_start loop, ?_⟩
  · intro hnone
    exact restore_without (latestSnapshot_without hnone) .empty
  · intro hsome
    obtain ⟨⟨name, node⟩, hentry, t, hcandidate, hbound, hselected⟩ := latestSnapshot_newest hsome
    obtain ⟨content, rfl⟩ := hcandidate.1
    have hfile : files name = some (.file content) := (hentries _).mp hentry
    exact ⟨name, content, t, hselected, hentry, hcandidate, hbound,
      restore_content hselected hfile .empty⟩
  · intro loop run hrun
    have hgated := gated_of_reaches hrun
    have hserving : ∀ server, run = .serving server →
        (restore kSnapshotPrefix files entries .empty).1 = true ∧
        Reachable AnyFd (restore kSnapshotPrefix files entries .empty).2 server := by
      rintro server rfl
      exact hgated
    refine ⟨?_, hserving⟩
    intro hfalse
    have hnot : ∀ server, run ≠ .serving server := by
      intro server hrun
      rw [(hserving server hrun).1] at hfalse
      cases hfalse
    refine ⟨?_, hnot⟩
    cases run with
    | starting loop' store => rfl
    | ended message => rfl
    | serving server => exact absurd rfl (hnot server)

/-- The newer of two snapshots is an empty file.  Its name comes first as a text. -/
def truncatedEntries : List (Bytes × Node) :=
  [(fileName kSnapshotPrefix 9, .file (ascii "\x7b\x7d")), (fileName kSnapshotPrefix 10, .file [])]

/-- The directory of `truncatedEntries`. -/
def truncatedFiles (name : Bytes) : Option Node :=
  if name = fileName kSnapshotPrefix 9 then some (.file (ascii "\x7b\x7d"))
  else if name = fileName kSnapshotPrefix 10 then some (.file [])
  else none

/-- A newest snapshot that is cut off: no request is served.
SOURCE: server.cc:150-196, snapshotter.cc:28-51, 127-150 -/
theorem starts_from_newest_truncated :
    (∀ entry, entry ∈ truncatedEntries ↔ truncatedFiles entry.1 = some entry.2) ∧
      ∀ (loop : MainLoop) (run : ServerRun 1),
        RunReaches truncatedFiles truncatedEntries loop run → run.log = [] := by
  have hentries : ∀ entry, entry ∈ truncatedEntries ↔ truncatedFiles entry.1 = some entry.2 := by
    rintro ⟨name, node⟩
    have hne : fileName kSnapshotPrefix 10 ≠ fileName kSnapshotPrefix 9 := fun h =>
      absurd (fileName_injective h) (by decide)
    rw [truncatedEntries, truncatedFiles, List.mem_pair]
    by_cases h₁ : name = fileName kSnapshotPrefix 9
    · rw [if_pos h₁, h₁]
      simp [hne.symm, eq_comm]
    by_cases h₂ : name = fileName kSnapshotPrefix 10
    · rw [if_neg h₁, if_pos h₂, h₂]
      simp [hne.symm, eq_comm]
    · simp [h₁, h₂]
  refine ⟨hentries, ?_⟩
  intro loop run hrun
  have hfalse : (restore kSnapshotPrefix truncatedFiles truncatedEntries .empty).1 = false := by
    decide +kernel
  exact (((starts_from_newest truncatedFiles truncatedEntries hentries).2.2.2 loop run hrun).1
    hfalse).1

end MyRedis.Analysis

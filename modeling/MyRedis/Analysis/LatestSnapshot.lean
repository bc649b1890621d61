import MyRedis.Analysis.SnapshotRoundTrip
import MyRedis.Model.Snapshotter

/-!
# Which snapshot is restored

A name counts as a snapshot's exactly if a number stands between the prefix and the suffix
(`timestampOf_iff`), and the name that is written gives its timestamp back.  The loop of
`LatestSnapshot` ends with the greatest timestamp of a snapshot, if one is not negative
(`foldl_visit`), and so with a file that has it (`latestSnapshot_greatest`).
-/

set_option autoImplicit false

namespace MyRedis.Analysis

open MyRedis.Model MyRedis.Model.Snapshotter MyRedis.Lib

/-! ## Names -/

/-- The name of a snapshot: what stands between the prefix and the suffix is a number.
SOURCE: snapshotter.cc:37-43 -/
theorem timestampOf_iff {filePrefix name : Bytes} {t : Int64} :
    timestampOf filePrefix name = some t ↔
      ∃ m, name = filePrefix ++ m ++ kSnapshotSuffix ∧ fromChars m = .ok (t, m.length) := by
  constructor
  · intro h
    rw [timestampOf] at h
    split_ifs at h with hfits
    rw [Bool.and_eq_true, List.isPrefixOf_iff_prefix, List.isSuffixOf_iff_suffix] at hfits
    obtain ⟨hfront, stem, rfl⟩ := hfits
    rw [List.length_append, Nat.add_sub_cancel, List.take_left] at h
    cases hread : fromChars (stem.drop filePrefix.length) with
    | error e =>
      simp only [hread] at h
      cases h
    | ok r =>
      obtain ⟨t', taken⟩ := r
      simp only [hread] at h
      split_ifs at h with htaken
      cases h
      -- there is a number, so the prefix ends before the suffix begins
      have hlength : filePrefix.length ≤ stem.length := by
        by_contra hshort
        rw [List.drop_eq_nil_of_le (by omega)] at hread
        cases hread
      obtain ⟨m, rfl⟩ :=
        List.prefix_of_prefix_length_le hfront (List.prefix_append stem _) hlength
      rw [List.drop_left] at hread htaken
      rw [htaken] at hread
      exact ⟨m, rfl, hread⟩
  · rintro ⟨m, rfl, hread⟩
    have hfits : (filePrefix.isPrefixOf (filePrefix ++ m ++ kSnapshotSuffix) &&
        kSnapshotSuffix.isSuffixOf (filePrefix ++ m ++ kSnapshotSuffix)) = true := by
      rw [Bool.and_eq_true, List.isPrefixOf_iff_prefix, List.isSuffixOf_iff_suffix,
        List.append_assoc]
      refine ⟨List.prefix_append _ _, ?_⟩
      rw [← List.append_assoc]
      exact List.suffix_append _ _
    rw [timestampOf, if_pos hfits]
    simp only [List.length_append, Nat.add_sub_cancel]
    rw [← List.length_append, List.take_left, List.drop_left, hread]
    simp

/-- `from_chars` reads back what `to_string` has written.
SOURCE: snapshotter.cc:42, 122 -/
theorem fromChars_toStringInt (n : Int64) :
    fromChars (toStringInt n) = .ok (n, (toStringInt n).length) := by
  have hread := fromChars_encodeInt_append (int64_range n) [] (by simp)
  rw [List.append_nil, Int64.ofInt_toInt] at hread
  exact hread

/-- **A snapshot's name gives its timestamp back.**
SOURCE: snapshotter.cc:37-43, 121-123 -/
theorem timestampOf_fileName (filePrefix : Bytes) (timestamp : Int64) :
    timestampOf filePrefix (fileName filePrefix timestamp) = some timestamp :=
  timestampOf_iff.mpr ⟨toStringInt timestamp, rfl, fromChars_toStringInt timestamp⟩

/-- Snapshots of different times have different names.
SOURCE: snapshotter.cc:121-123 -/
theorem fileName_injective {filePrefix : Bytes} {t t' : Int64}
    (h : fileName filePrefix t = fileName filePrefix t') : t = t' := by
  have hread := timestampOf_fileName filePrefix t
  rw [h, timestampOf_fileName] at hread
  exact (Option.some.inj hread).symm

/-! ## The loop -/

section Loop

variable {filePrefix : Bytes} {entries : List (Bytes × Node)}

/-- The entry is a snapshot with this timestamp. -/
def Snapshot (filePrefix : Bytes) (entry : Bytes × Node) (timestamp : Int64) : Prop :=
  (∃ content, entry.2 = .file content) ∧ timestampOf filePrefix entry.1 = some timestamp

/-- A file has one timestamp.
SOURCE: snapshotter.cc:37-43 -/
theorem Snapshot.unique {entry : Bytes × Node} {t t' : Int64} (h : Snapshot filePrefix entry t)
    (h' : Snapshot filePrefix entry t') : t = t' :=
  Option.some.inj (h.2.symm.trans h'.2)

/-- A snapshot is selected if it is later than the best one so far.
SOURCE: snapshotter.cc:35-48 -/
theorem visit_snapshot {entry : Bytes × Node} {t : Int64} (h : Snapshot filePrefix entry t)
    (best : Option Bytes × Int64) :
    visit filePrefix best entry = if best.2 < t then (some entry.1, t) else best := by
  obtain ⟨⟨content, hfile⟩, ht⟩ := h
  simp only [visit, hfile, ht]

/-- A file that is not a snapshot is passed over.
SOURCE: snapshotter.cc:35-43 -/
theorem visit_other {entry : Bytes × Node} (h : ∀ t, ¬ Snapshot filePrefix entry t)
    (best : Option Bytes × Int64) : visit filePrefix best entry = best := by
  unfold visit
  split
  · rfl
  · rename_i content hfile
    split
    · rfl
    · rename_i t ht
      exact absurd ⟨⟨content, hfile⟩, ht⟩ (h t)

/-- **The loop of `LatestSnapshot`**: it ends where it started, having seen no later snapshot, or
at a later snapshot that none it has seen is later than.
SOURCE: snapshotter.cc:34-49 -/
theorem foldl_visit (best : Option Bytes × Int64) :
    (entries.foldl (visit filePrefix) best = best ∧
      ∀ entry ∈ entries, ∀ t, Snapshot filePrefix entry t → t ≤ best.2) ∨
    ∃ entry ∈ entries, ∃ t, Snapshot filePrefix entry t ∧ best.2 < t ∧
      entries.foldl (visit filePrefix) best = (some entry.1, t) ∧
      ∀ entry' ∈ entries, ∀ t', Snapshot filePrefix entry' t' → t' ≤ t := by
  induction entries generalizing best with
  | nil => exact Or.inl ⟨rfl, by simp⟩
  | cons e entries ih =>
    rw [List.foldl_cons]
    by_cases hlater : ∃ t, Snapshot filePrefix e t ∧ best.2 < t
    · obtain ⟨t, ht, hlt⟩ := hlater
      rw [visit_snapshot ht, if_pos hlt]
      right
      obtain ⟨hstay, hbound⟩ | ⟨entry, hentry, t', ht', hlt', hend, hbound⟩ :=
        ih (some e.1, t)
      · refine ⟨e, List.mem_cons_self, t, ht, hlt, hstay, ?_⟩
        rw [List.forall_mem_cons]
        exact ⟨fun t' ht' => Int64.le_of_eq (ht'.unique ht), hbound⟩
      · refine ⟨entry, List.mem_cons_of_mem _ hentry, t', ht', Int64.lt_trans hlt hlt', hend, ?_⟩
        rw [List.forall_mem_cons]
        exact ⟨fun t'' ht'' => ht''.unique ht ▸ Int64.le_of_lt hlt', hbound⟩
    · -- the entry is passed over
      have hearlier : ∀ t, Snapshot filePrefix e t → t ≤ best.2 := fun t ht =>
        Int64.not_lt.mp fun hlt => hlater ⟨t, ht, hlt⟩
      have hsame : visit filePrefix best e = best := by
        by_cases hsnapshot : ∃ t, Snapshot filePrefix e t
        · obtain ⟨t, ht⟩ := hsnapshot
          rw [visit_snapshot ht, if_neg (Int64.not_lt.mpr (hearlier t ht))]
        · exact visit_other (not_exists.mp hsnapshot) best
      rw [hsame]
      obtain ⟨hstay, hbound⟩ | ⟨entry, hentry, t', ht', hlt', hend, hbound⟩ := ih best
      · exact Or.inl ⟨hstay, List.forall_mem_cons.mpr ⟨hearlier, hbound⟩⟩
      · refine Or.inr ⟨entry, List.mem_cons_of_mem _ hentry, t', ht', hlt', hend, ?_⟩
        exact List.forall_mem_cons.mpr
          ⟨fun t ht => Int64.le_trans (hearlier t ht) (Int64.le_of_lt hlt'), hbound⟩

/-- **A snapshot of the greatest timestamp is selected**, if there is one of a time since the
epoch.
SOURCE: snapshotter.cc:28-51 -/
theorem latestSnapshot_greatest {entry₀ : Bytes × Node} {t₀ : Int64} (hentry₀ : entry₀ ∈ entries)
    (ht₀ : Snapshot filePrefix entry₀ t₀) (hpos : 0 ≤ t₀) :
    ∃ entry ∈ entries, ∃ t, Snapshot filePrefix entry t ∧
      (∀ entry' ∈ entries, ∀ t', Snapshot filePrefix entry' t' → t' ≤ t) ∧
      latestSnapshot filePrefix entries = some entry.1 := by
  have hstart : (-1 : Int64) < t₀ := Int64.lt_of_lt_of_le (by decide) hpos
  obtain ⟨-, hstay⟩ | ⟨entry, hentry, t, ht, -, hend, hbound⟩ :=
    @foldl_visit filePrefix entries (none, -1)
  · exact absurd (hstay entry₀ hentry₀ t₀ ht₀) (Int64.not_le.mpr hstart)
  · exact ⟨entry, hentry, t, ht, hbound, by rw [latestSnapshot, hend]⟩

/-- **The latest snapshot is selected**, if no other file has its timestamp.
SOURCE: snapshotter.cc:28-51 -/
theorem latestSnapshot_eq {entry : Bytes × Node} {t : Int64} (hentry : entry ∈ entries)
    (ht : Snapshot filePrefix entry t) (hpos : 0 ≤ t)
    (hbound : ∀ entry' ∈ entries, ∀ t', Snapshot filePrefix entry' t' → t' ≤ t)
    (halone : ∀ entry' ∈ entries, Snapshot filePrefix entry' t → entry'.1 = entry.1) :
    latestSnapshot filePrefix entries = some entry.1 := by
  obtain ⟨entry', hentry', t', ht', hbound', hselected⟩ := latestSnapshot_greatest hentry ht hpos
  have heq : t' = t :=
    Int64.le_antisymm (hbound entry' hentry' t' ht') (hbound' entry hentry t ht)
  subst heq
  rw [hselected, halone entry' hentry' ht']

/-- Without a snapshot of a time since the epoch none is selected.
SOURCE: snapshotter.cc:28-51 -/
theorem latestSnapshot_none
    (h : ∀ entry ∈ entries, ∀ t, Snapshot filePrefix entry t → t < 0) :
    latestSnapshot filePrefix entries = none := by
  obtain ⟨hstay, -⟩ | ⟨entry, hentry, t, ht, hlt, -, -⟩ :=
    @foldl_visit filePrefix entries (none, -1)
  · rw [latestSnapshot, hstay]
  · have hneg := h entry hentry t ht
    rw [Int64.lt_iff_toInt_lt] at hneg hlt
    have h0 : (0 : Int64).toInt = 0 := rfl
    have h1 : ((none : Option Bytes), (-1 : Int64)).2.toInt = -1 := rfl
    omega

/-- What is selected is a snapshot of the directory.
SOURCE: snapshotter.cc:28-51 -/
theorem latestSnapshot_mem {name : Bytes} (h : latestSnapshot filePrefix entries = some name) :
    ∃ entry ∈ entries, ∃ t, Snapshot filePrefix entry t ∧ entry.1 = name := by
  rw [latestSnapshot] at h
  obtain ⟨hstay, -⟩ | ⟨entry, hentry, t, ht, -, hend, -⟩ :=
    @foldl_visit filePrefix entries (none, -1)
  · rw [hstay] at h
    cases h
  · rw [hend] at h
    exact ⟨entry, hentry, t, ht, Option.some.inj h⟩

/-- The files that are not named as snapshots do not count.
SOURCE: snapshotter.cc:28-51 -/
theorem latestSnapshot_filter_append {others : List (Bytes × Node)}
    (hothers : ∀ entry ∈ others, timestampOf filePrefix entry.1 = none) :
    latestSnapshot filePrefix
        (entries.filter (fun entry => (timestampOf filePrefix entry.1).isSome) ++ others) =
      latestSnapshot filePrefix entries := by
  have hpassed (best : Option Bytes × Int64) :
      others.foldl (visit filePrefix) best = best := by
    obtain ⟨hstay, -⟩ | ⟨entry, hentry, t, ht, -⟩ := @foldl_visit filePrefix others best
    · exact hstay
    · exact absurd ((hothers entry hentry).symm.trans ht.2) (Option.some_ne_none t).symm
  have hfilter : (fun best entry => if (timestampOf filePrefix (Prod.fst entry)).isSome = true then
      visit filePrefix best entry else best) = visit filePrefix := by
    funext best entry
    split_ifs with hsome
    · rfl
    · refine (visit_other (fun t ht => hsome ?_) best).symm
      rw [ht.2, Option.isSome_some]
  rw [latestSnapshot, List.foldl_append, hpassed, List.foldl_filter, hfilter, latestSnapshot]

/-- `Restore` loads what the selected file holds.
SOURCE: snapshotter.cc:127-150 -/
theorem restore_selected {files : Bytes → Option Node} {name : Bytes} {store : Store}
    {saved : List (Sigma fun _ : Bytes => Store.Entry)}
    (hselected : latestSnapshot filePrefix entries = some name)
    (hfile : files name = some (.file (Store.serialiseToJson saved)))
    (hsaved : store.Enumerates saved) :
    restore filePrefix files entries Store.empty = (true, store) := by
  simp only [restore, hselected, hfile, deserialiseFromJson_of_enumerates hsaved]

end Loop

end MyRedis.Analysis

import MyRedis.Analysis.LatestSnapshot
import MyRedis.Lib.MapHistory
import MyRedis.Lib.TransitionSystem
import MyRedis.Model.DurableWrite

/-!
# A crash while a snapshot is written

Whatever the outcomes of the system calls of `DurableWrite` and wherever it stops, the snapshots
that were there keep their links and their content on the disk, and the new name is as before or
links to a file that is complete and synchronised (`Sound`).  A name that `mkstemp` chooses is too
short to be a snapshot's (`not_snapshotName_temp`).  So a later `Restore` finds the latest of the
old snapshots or the new one in full (`crash_consistent`), and once `DurableWrite` has returned
it finds the new one (`restore_of_returned`).
-/

set_option autoImplicit false

namespace MyRedis.Analysis

open MyRedis.Model MyRedis.Model.Snapshotter MyRedis.Lib
open MyRedis.Model.DurableWrite (Temp Call Stage Outcome Possible afterCall loop)

/-! ## Every step keeps the snapshots -/

section Steps

variable (Kept : Bytes → Prop) (d₀ : Disk Bytes UInt8) (outputPath output : Bytes)

/-- The new name links to this inode. -/
def Renamed (inode : ℕ) (name : Bytes) (link : Option Link) : Prop :=
  name = outputPath ∧ link = some (.file inode)

/-- The file is complete and on the disk. -/
def Complete (d : Disk Bytes UInt8) (inode : ℕ) : Prop :=
  d.synced inode = true ∧ d.content inode = output

/-- The names are kept, but for the new one, which may link to the complete file. -/
def Sound (d : Disk Bytes UInt8) : Prop :=
  KeepsNames Kept d₀ (fun _ _ => False) d ∨
    ∃ inode, Complete output d inode ∧ KeepsNames Kept d₀ (Renamed outputPath inode) d

/-- Before the rename the names are kept and the temporary file is there. -/
def Prepared (temp : Temp) (d : Disk Bytes UInt8) : Prop :=
  KeepsNames Kept d₀ (fun _ _ => False) d ∧ d.dir temp.file = some (.file temp.inode)

/-- After the rename the new name links to the complete file. -/
def Landed (d : Disk Bytes UInt8) : Prop :=
  ∃ inode, d.dir outputPath = some (.file inode) ∧ Complete output d inode

/-- What holds before each call. -/
def AtCall (temp : Temp) (d : Disk Bytes UInt8) : Call → Prop
  | .write left => Prepared Kept d₀ temp d ∧ d.content temp.inode ++ left = output
  | .fsync => Prepared Kept d₀ temp d ∧ d.content temp.inode = output
  | .close | .rename => Prepared Kept d₀ temp d ∧ Complete output d temp.inode
  | .openDir | .fsyncDir => Sound Kept d₀ outputPath output d ∧ Landed outputPath output d
  | .closeDir =>
    Sound Kept d₀ outputPath output d ∧ Landed outputPath output d ∧ Settled (· = outputPath) d
  | .closeDirFailed | .closeTemp | .unlink => Sound Kept d₀ outputPath output d

/-- What holds at each stage. -/
def AtStage (s : DurableWrite.State) : Prop :=
  match s.stage with
  | .mkstemp => KeepsNames Kept d₀ (fun _ _ => False) s.disk
  | .opened temp call =>
    (¬ Kept temp.file ∧ ∀ name, Kept name → d₀.dir name ≠ some (.file temp.inode)) ∧
      AtCall Kept d₀ outputPath output temp s.disk call
  | .returned =>
    Sound Kept d₀ outputPath output s.disk ∧ Landed outputPath output s.disk ∧
      Settled (· = outputPath) s.disk
  | .threw => Sound Kept d₀ outputPath output s.disk

variable {Kept d₀ outputPath output}

/-- Before every call the disk is sound.
SOURCE: snapshotter.cc:53-111 -/
theorem AtCall.sound {temp : Temp} {d : Disk Bytes UInt8} {call : Call}
    (h : AtCall Kept d₀ outputPath output temp d call) : Sound Kept d₀ outputPath output d := by
  cases call with
  | write left => exact Or.inl h.1.1
  | fsync | close | rename => exact Or.inl h.1.1
  | openDir | fsyncDir | closeDir => exact h.1
  | closeDirFailed | closeTemp | unlink => exact h

/-- At every stage of `DurableWrite` the disk is sound.
SOURCE: snapshotter.cc:53-111 -/
theorem AtStage.sound {s : DurableWrite.State} (h : AtStage Kept d₀ outputPath output s) :
    Sound Kept d₀ outputPath output s.disk := by
  unfold AtStage at h
  split at h
  · exact Or.inl h
  · exact h.2.sound
  · exact h.1
  · exact h

/-- To unlink a name that is not kept does no harm.
SOURCE: snapshotter.cc:108 -/
theorem Sound.unlink {d : Disk Bytes UInt8} (h : Sound Kept d₀ outputPath output d) {name : Bytes}
    (hname : ¬ Kept name) : Sound Kept d₀ outputPath output (d.unlink name) := by
  have hkeeps {allowed : Bytes → Option Link → Prop} (h : KeepsNames Kept d₀ allowed d) :
      KeepsNames Kept d₀ allowed (d.unlink name) := by
    apply h.update
    intro name' link hmem hkept
    cases List.mem_singleton.mp hmem
    exact absurd hkept hname
  obtain h | ⟨inode, hcomplete, h⟩ := h
  · exact Or.inl (hkeeps h)
  · exact Or.inr ⟨inode, hcomplete, hkeeps h⟩

/-- To synchronise the directory does no harm.
SOURCE: snapshotter.cc:101 -/
theorem Sound.fsyncDir {d : Disk Bytes UInt8} (h : Sound Kept d₀ outputPath output d) :
    Sound Kept d₀ outputPath output d.fsyncDir := by
  obtain h | ⟨inode, hcomplete, h⟩ := h
  · exact Or.inl h.fsyncDir
  · exact Or.inr ⟨inode, hcomplete, h.fsyncDir⟩

/-- The rename.
SOURCE: snapshotter.cc:94 -/
theorem Prepared.rename {temp : Temp} {d : Disk Bytes UInt8} (h : Prepared Kept d₀ temp d)
    (htemp : ¬ Kept temp.file) (hcomplete : Complete output d temp.inode) :
    Sound Kept d₀ outputPath output (d.rename temp.file outputPath) ∧
      Landed outputPath output (d.rename temp.file outputPath) := by
  refine ⟨Or.inr ⟨temp.inode, hcomplete, ?_⟩, temp.inode, ?_, hcomplete⟩
  · apply (h.1.mono fun _ _ => False.elim).update
    intro name link hmem hkept
    obtain hsource | htarget := List.mem_cons.mp hmem
    · cases hsource
      exact absurd hkept htemp
    · cases List.mem_singleton.mp htarget
      exact ⟨rfl, h.2⟩
  · exact (Function.update_self _ _ _).trans h.2

/-- To write to the temporary file, or to synchronise it, leaves the names that are kept as they
are.
SOURCE: snapshotter.cc:73-83 -/
theorem Prepared.put {temp : Temp} {d : Disk Bytes UInt8} (h : Prepared Kept d₀ temp d)
    (hinode : ∀ name, Kept name → d₀.dir name ≠ some (.file temp.inode)) (bytes : Bytes)
    (durable : Bool) : Prepared Kept d₀ temp (d.put temp.inode bytes durable) :=
  ⟨h.1.put hinode bytes durable, h.2⟩

/-- What is written is what was left.
SOURCE: snapshotter.cc:72-80 -/
theorem atCall_loop {temp : Temp} {d : Disk Bytes UInt8} {left : Bytes}
    (h : Prepared Kept d₀ temp d) (hcontent : d.content temp.inode ++ left = output) :
    AtCall Kept d₀ outputPath output temp d (loop left) := by
  unfold loop
  split_ifs with hleft
  · rw [hleft, List.append_nil] at hcontent
    exact ⟨h, hcontent⟩
  · exact ⟨h, hcontent⟩

/-- Once the directory is synchronised the new name is on the disk.
SOURCE: snapshotter.cc:101 -/
theorem Landed.settled {d : Disk Bytes UInt8} (h : Landed outputPath output d) :
    Settled (· = outputPath) d.fsyncDir where
  dir _ _ := Or.inl rfl
  stable _ _ := Or.inl rfl
  pending u hu := by cases hu
  content name inode hname hlink := by
    obtain ⟨inode', hlink', hcomplete⟩ := h
    subst hname
    have heq := hlink'.symm.trans hlink
    cases heq
    exact ⟨hcomplete.1, rfl⟩

section Outcomes

variable {temp : Temp} {d : Disk Bytes UInt8} {call : Call} {s : DurableWrite.State}

/-- After a `write` that has taken some of the bytes.
SOURCE: snapshotter.cc:72-80 -/
theorem AtCall.wrote {left : Bytes} {count : ℕ}
    (h : AtCall Kept d₀ outputPath output temp d (.write left))
    (hown : ¬ Kept temp.file ∧ ∀ name, Kept name → d₀.dir name ≠ some (.file temp.inode))
    (hstep : afterCall outputPath d temp (.write left) (.wrote count) = some s) :
    AtStage Kept d₀ outputPath output s := by
  obtain ⟨hprepared, hcontent⟩ := h
  rw [afterCall] at hstep
  split_ifs at hstep
  cases hstep
  have hwritten : (d.append temp.inode (left.take count)).content temp.inode ++
      left.drop count = output := by
    rw [Disk.append, Disk.put_content, List.append_assoc, List.take_append_drop]
    exact hcontent
  exact ⟨hown, atCall_loop (hprepared.put hown.2 _ false) hwritten⟩

/-- After any other call that has succeeded.
SOURCE: snapshotter.cc:83-105 -/
theorem AtCall.succeeded (h : AtCall Kept d₀ outputPath output temp d call)
    (hown : ¬ Kept temp.file ∧ ∀ name, Kept name → d₀.dir name ≠ some (.file temp.inode))
    (hstep : afterCall outputPath d temp call .succeeded = some s) :
    AtStage Kept d₀ outputPath output s := by
  have hsound := h.sound
  cases call with
  | write left => cases hstep
  | fsync =>
    cases hstep
    exact ⟨hown, h.1.put hown.2 _ true, Disk.put_synced _ _ _ _,
      (Disk.put_content _ _ _ _).trans h.2⟩
  | close | openDir =>
    cases hstep
    exact ⟨hown, h⟩
  | rename =>
    cases hstep
    exact ⟨hown, h.1.rename hown.1 h.2⟩
  | fsyncDir =>
    cases hstep
    exact ⟨hown, hsound.fsyncDir, h.2, h.2.settled⟩
  | closeDir =>
    cases hstep
    exact h
  | closeDirFailed | closeTemp =>
    cases hstep
    exact ⟨hown, hsound⟩
  | unlink =>
    cases hstep
    exact hsound.unlink hown.1

/-- After a failed call only the names that are kept matter.
SOURCE: snapshotter.cc:106-110 -/
theorem AtCall.failed (h : AtCall Kept d₀ outputPath output temp d call)
    (hown : ¬ Kept temp.file ∧ ∀ name, Kept name → d₀.dir name ≠ some (.file temp.inode))
    (hstep : afterCall outputPath d temp call .failed = some s) :
    AtStage Kept d₀ outputPath output s := by
  have hsound := h.sound
  cases call with
  | write | fsync | close | rename | openDir | fsyncDir | closeDir | closeDirFailed | closeTemp =>
    cases hstep
    exact ⟨hown, hsound⟩
  | unlink =>
    cases hstep
    exact hsound

/-- **Every call, whatever its outcome.**
SOURCE: snapshotter.cc:53-111 -/
theorem AtCall.step {outcome : Outcome} (h : AtCall Kept d₀ outputPath output temp d call)
    (hown : ¬ Kept temp.file ∧ ∀ name, Kept name → d₀.dir name ≠ some (.file temp.inode))
    (hstep : afterCall outputPath d temp call outcome = some s) :
    AtStage Kept d₀ outputPath output s := by
  cases outcome with
  | succeeded => exact h.succeeded hown hstep
  | failed => exact h.failed hown hstep
  | wrote count =>
    cases call with
    | write left => exact h.wrote hown hstep
    | _ => cases hstep
  | interrupted =>
    cases call with
    | write left =>
      cases hstep
      exact ⟨hown, h⟩
    | _ => cases hstep
  | created => cases call <;> cases hstep

end Outcomes

/-- **Every stage**, `mkstemp` and the handler of the exceptions included.
SOURCE: snapshotter.cc:53-111 -/
theorem AtStage.step {s s' : DurableWrite.State} {outcome : Outcome}
    (h : AtStage Kept d₀ outputPath output s) (hpossible : Possible s outcome)
    (htemp : ∀ unique : Bytes, unique.length = 6 → ¬ Kept (ascii ".tmp-" ++ unique))
    (hstep : DurableWrite.step outputPath output s outcome = some s') :
    AtStage Kept d₀ outputPath output s' := by
  obtain ⟨d, stage⟩ := s
  cases stage with
  | mkstemp =>
    have hkeeps : KeepsNames Kept d₀ (fun _ _ => False) d := h
    cases outcome with
    | created file inode =>
      cases hstep
      obtain ⟨⟨unique, hlength, rfl⟩, -, hunused⟩ := hpossible
      have hfile : ¬ Kept (ascii ".tmp-" ++ unique) := htemp unique hlength
      have hinode : ∀ name, Kept name → d₀.dir name ≠ some (.file inode) := by
        intro name hname hlink
        obtain hsame | hfalse := hkeeps.dir name hname
        · exact hunused.1 name (hsame.trans hlink)
        · exact hfalse
      have hnew : KeepsNames Kept d₀ (fun _ _ => False)
          (d.update [(ascii ".tmp-" ++ unique, some (.file inode))]) := by
        apply hkeeps.update
        intro name link hmem hname
        cases List.mem_singleton.mp hmem
        exact hfile hname
      have hempty : (d.create (ascii ".tmp-" ++ unique) inode).content inode ++ output =
          output := by
        rw [Disk.create, Disk.put_content, List.nil_append]
      exact ⟨⟨hfile, hinode⟩,
        atCall_loop ⟨hnew.put hinode [] false, Function.update_self _ _ _⟩ hempty⟩
    | failed =>
      cases hstep
      exact Or.inl hkeeps
    | wrote | interrupted | succeeded => cases hstep
  | opened temp call => exact h.2.step h.1 hstep
  | returned | threw => cases hstep

/-- Some run of `DurableWrite` that starts on the disk `d₀` ends in `s`. -/
abbrev DurableRun (outputPath output : Bytes) (d₀ : Disk Bytes UInt8) (s : DurableWrite.State) :
    Prop :=
  Reaches (fun s o s' => DurableWrite.step outputPath output s o = some s') Possible
    ⟨d₀, .mkstemp⟩ s

/-- **Every run.**
SOURCE: snapshotter.cc:53-111 -/
theorem atStage_of_reaches (hsettled : Settled Kept d₀)
    (htemp : ∀ unique : Bytes, unique.length = 6 → ¬ Kept (ascii ".tmp-" ++ unique))
    {s : DurableWrite.State} (hrun : DurableRun outputPath output d₀ s) :
    AtStage Kept d₀ outputPath output s := by
  have hstart : AtStage Kept d₀ outputPath output ⟨d₀, .mkstemp⟩ := hsettled
  exact hrun.invariant hstart fun _ _ _ h hpossible hstep => h.step hpossible htemp hstep

/-- What a reader finds under a name that is kept.
SOURCE: snapshotter.cc:53-111 -/
theorem Sound.seen {d : Disk Bytes UInt8} (h : Sound Kept d₀ outputPath output d)
    {files : Bytes → Option Node} (hfiles : d.Seen files) {name : Bytes} (hname : Kept name) :
    files name = d₀.view name ∨ name = outputPath ∧ files name = some (.file output) := by
  obtain h | ⟨inode, hcomplete, h⟩ := h
  · obtain hold | ⟨_, hfalse, -⟩ := h.seen hfiles hname
    · exact Or.inl hold
    · exact hfalse.elim
  · obtain hold | ⟨link, ⟨hpath, hlink⟩, hnew⟩ := h.seen hfiles hname
    · exact Or.inl hold
    · refine Or.inr ⟨hpath, ?_⟩
      rw [hnew inode hlink hcomplete.1, hcomplete.2]

/-- The other names are as before.
SOURCE: snapshotter.cc:53-111 -/
theorem Sound.others {d : Disk Bytes UInt8} (h : Sound Kept d₀ outputPath output d)
    {files : Bytes → Option Node} (hfiles : d.Seen files) {name : Bytes} (hname : Kept name)
    (hne : name ≠ outputPath) : files name = d₀.view name := by
  obtain hold | ⟨hnew, -⟩ := h.seen hfiles hname
  · exact hold
  · exact absurd hnew hne

/-- What a reader finds under the new name when it is on the disk.
SOURCE: snapshotter.cc:53-111 -/
theorem Landed.seen {d : Disk Bytes UInt8} (h : Landed outputPath output d)
    (hsettled : Settled (· = outputPath) d) {files : Bytes → Option Node}
    (hfiles : d.Seen files) : files outputPath = some (.file output) := by
  obtain ⟨inode, hlink, hcomplete⟩ := h
  obtain hold | ⟨_, hfalse, -⟩ := hsettled.seen hfiles rfl
  · rw [hold, Disk.view, hlink, Option.map_some, Disk.node, hcomplete.2]
  · exact hfalse.elim

end Steps

/-! ## Restoring -/

section Restoring

variable {filePrefix : Bytes}

/-- The names that are read as those of snapshots. -/
def SnapshotName (filePrefix name : Bytes) : Prop := ∃ t, timestampOf filePrefix name = some t

/-- **What `mkstemp` creates is not taken for a snapshot.**
SOURCE: snapshotter.cc:37, 62 -/
theorem not_snapshotName_temp (unique : Bytes) (hlength : unique.length = 6) :
    ¬ SnapshotName filePrefix (ascii ".tmp-" ++ unique) := by
  rintro ⟨t, ht⟩
  have hsuffix : kSnapshotSuffix.isSuffixOf (ascii ".tmp-" ++ unique) = true := by
    unfold timestampOf at ht
    split_ifs at ht with hfits
    rw [Bool.and_eq_true] at hfits
    exact hfits.2
  have hle := (List.isSuffixOf_iff_suffix.mp hsuffix).length_le
  have hsuffixLength : kSnapshotSuffix.length = 14 := by decide
  have htempLength : (ascii ".tmp-").length = 5 := by decide
  rw [List.length_append, hlength, hsuffixLength, htempLength] at hle
  omega

/-- **Only the snapshots count**: a directory with the same snapshots is restored in the same
way, if it is listed in the same order.
SOURCE: snapshotter.cc:28-51, 127-150 -/
theorem restore_congr {files files₀ : Bytes → Option Node} {listing listing₀ : List (Bytes × Node)}
    (hlisting : Lists files listing) (hlisting₀ : Lists files₀ listing₀)
    (hagree : ∀ name, SnapshotName filePrefix name → files name = files₀ name) (store : Store) :
    ∃ old, Lists files₀ old ∧
      restore filePrefix files listing store = restore filePrefix files₀ old store := by
  have hnamed (name : Bytes) (h : (timestampOf filePrefix name).isSome = true) :
      files name = files₀ name := hagree name (Option.isSome_iff_exists.mp h)
  have hspliced := hlisting.splice hlisting₀
    (fun name => (timestampOf filePrefix name).isSome) hnamed
  refine ⟨_, hspliced, ?_⟩
  have hothers : ∀ entry ∈ listing₀.filter
      (fun entry => !(timestampOf filePrefix entry.1).isSome),
      timestampOf filePrefix entry.1 = none := by
    intro entry hentry
    simpa using (List.mem_filter.mp hentry).2
  unfold restore
  rw [latestSnapshot_filter_append hothers]
  cases hselected : latestSnapshot filePrefix listing with
  | none => rfl
  | some name =>
    obtain ⟨entry, -, t, ht, rfl⟩ := latestSnapshot_mem hselected
    dsimp only
    rw [hagree entry.1 ⟨t, ht.2⟩]

/-- The snapshots in a directory are all older than the new one. -/
def OlderThan (filePrefix : Bytes) (t : Int64) (files : Bytes → Option Node) : Prop :=
  ∀ name content t', files name = some (.file content) → timestampOf filePrefix name = some t' →
    t' < t

variable {files files₀ : Bytes → Option Node} {listing : List (Bytes × Node)} {t : Int64}
  {output : Bytes}

/-- With the new snapshot in place every other one is older.
SOURCE: snapshotter.cc:53-111 -/
theorem snapshot_cases (holder : OlderThan filePrefix t files₀)
    (hothers : ∀ name, SnapshotName filePrefix name → name ≠ fileName filePrefix t →
      files name = files₀ name)
    (hlisting : Lists files listing) {entry : Bytes × Node} {t' : Int64} (hentry : entry ∈ listing)
    (h : Snapshot filePrefix entry t') : entry.1 = fileName filePrefix t ∧ t' = t ∨ t' < t := by
  obtain ⟨⟨content, hcontent⟩, ht'⟩ := h
  by_cases hname : entry.1 = fileName filePrefix t
  · rw [hname, timestampOf_fileName] at ht'
    exact Or.inl ⟨hname, (Option.some.inj ht').symm⟩
  · have hfile : files entry.1 = some (.file content) := by
      rw [← hcontent]
      exact (hlisting.2 entry.1 entry.2).mp hentry
    rw [hothers entry.1 ⟨t', ht'⟩ hname] at hfile
    exact Or.inr (holder entry.1 content t' hfile ht')

/-- The new snapshot is the latest one as soon as it is in the directory.
SOURCE: snapshotter.cc:28-51 -/
theorem latestSnapshot_new (holder : OlderThan filePrefix t files₀)
    (hothers : ∀ name, SnapshotName filePrefix name → name ≠ fileName filePrefix t →
      files name = files₀ name)
    (hlisting : Lists files listing) (hfile : files (fileName filePrefix t) = some (.file output))
    (hpos : 0 ≤ t) : latestSnapshot filePrefix listing = some (fileName filePrefix t) := by
  refine latestSnapshot_eq ((hlisting.2 _ _).mpr hfile)
    ⟨⟨output, rfl⟩, timestampOf_fileName _ _⟩ hpos ?_ ?_
  · intro entry hentry t' ht'
    obtain ⟨-, rfl⟩ | hlt := snapshot_cases holder hothers hlisting hentry ht'
    · exact Int64.le_refl _
    · exact Int64.le_of_lt hlt
  · intro entry hentry ht
    obtain ⟨hname, -⟩ | hlt := snapshot_cases holder hothers hlisting hentry ht
    · exact hname
    · exact absurd hlt (Int64.lt_irrefl)

/-- Before the epoch nothing is restored.
SOURCE: snapshotter.cc:31, 45 -/
theorem restore_beforeEpoch (holder : OlderThan filePrefix t files₀)
    (hothers : ∀ name, SnapshotName filePrefix name → name ≠ fileName filePrefix t →
      files name = files₀ name)
    (hlisting : Lists files listing) (hneg : t < 0) (store : Store) :
    restore filePrefix files listing store = (true, store) := by
  have hnone : latestSnapshot filePrefix listing = none := by
    apply latestSnapshot_none
    intro entry hentry t' ht'
    obtain ⟨-, rfl⟩ | hlt := snapshot_cases holder hothers hlisting hentry ht'
    · exact hneg
    · exact Int64.lt_trans hlt hneg
  rw [restore, hnone]

end Restoring

/-! ## The whole of `DurableWrite` -/

/-- **Crash consistency.**  Wherever `DurableWrite` of a snapshot of `store` stops, for a reader
then or after a crash: the snapshots that were there are unchanged, the new one is there in full
or its name is as before, and `Restore` does what it did before or loads `store`.
SOURCE: snapshotter.cc:28-150 -/
theorem crash_consistent (filePrefix : Bytes) {store : Store}
    {entries : List (Sigma fun _ : Bytes => Store.Entry)} (hstore : store.Enumerates entries)
    {t : Int64} {d₀ : Disk Bytes UInt8} {listing₀ : List (Bytes × Node)}
    (hlisting₀ : Lists d₀.view listing₀) (hsettled : Settled (SnapshotName filePrefix) d₀)
    (holder : OlderThan filePrefix t d₀.view) {s : DurableWrite.State}
    (hrun : DurableRun (fileName filePrefix t) (Store.serialiseToJson entries) d₀ s)
    {files : Bytes → Option Node} (hfiles : s.disk.Seen files) :
    (∀ name, SnapshotName filePrefix name → name ≠ fileName filePrefix t →
      files name = d₀.view name) ∧
    (files (fileName filePrefix t) = d₀.view (fileName filePrefix t) ∨
      files (fileName filePrefix t) = some (.file (Store.serialiseToJson entries))) ∧
    ∀ listing, Lists files listing →
      (∃ old, Lists d₀.view old ∧ restore filePrefix files listing Store.empty =
        restore filePrefix d₀.view old Store.empty) ∨
      restore filePrefix files listing Store.empty = (true, store) := by
  have hsound := (atStage_of_reaches hsettled not_snapshotName_temp hrun).sound
  have hothers : ∀ name, SnapshotName filePrefix name → name ≠ fileName filePrefix t →
      files name = d₀.view name := fun name hname hne => hsound.others hfiles hname hne
  have hnew := (hsound.seen hfiles ⟨t, timestampOf_fileName filePrefix t⟩).imp_right And.right
  refine ⟨hothers, hnew, fun listing hlisting => ?_⟩
  obtain hold | hfile := hnew
  · left
    apply restore_congr hlisting hlisting₀
    intro name hname
    by_cases hne : name = fileName filePrefix t
    · rw [hne]
      exact hold
    · exact hothers name hname hne
  · by_cases hpos : 0 ≤ t
    · right
      exact restore_selected (latestSnapshot_new holder hothers hlisting hfile hpos) hfile hstore
    · left
      have hneg : t < 0 := Int64.not_le.mp hpos
      refine ⟨listing₀, hlisting₀, ?_⟩
      rw [restore_beforeEpoch holder hothers hlisting hneg,
        restore_beforeEpoch holder (fun _ _ _ => rfl) hlisting₀ hneg]

/-- An empty directory. -/
def emptyDisk : Disk Bytes UInt8 := ⟨fun _ => none, fun _ => none, [], fun _ => [], fun _ => false⟩

/-- An empty disk has nothing that could be lost. -/
theorem settled_emptyDisk (Kept : Bytes → Prop) : Settled Kept emptyDisk where
  dir _ _ := Or.inl rfl
  stable _ _ := Or.inl rfl
  pending _ hu := absurd hu List.not_mem_nil
  content _ _ _ hlink := absurd hlink.symm (Option.some_ne_none _)

/-- `mkstemp` can succeed on it.
SOURCE: snapshotter.cc:64 -/
theorem possible_emptyDisk :
    Possible ⟨emptyDisk, .mkstemp⟩ (.created (ascii ".tmp-a1B2c3") 0) := by
  refine ⟨⟨ascii "a1B2c3", rfl, rfl⟩, rfl, ?_, ?_, ?_⟩
  · exact fun _ hlink => Option.some_ne_none _ hlink.symm
  · exact fun _ hlink => Option.some_ne_none _ hlink.symm
  · exact fun _ hu => absurd hu List.not_mem_nil

/-- The entries of a store with one key. -/
def oneEntry : List (Sigma fun _ : Bytes => Store.Entry) :=
  [⟨ascii "k", ⟨Store.noExpiry, some (ascii "v")⟩⟩]

/-- What is left when a write is partial, one is interrupted and the directory is not synchronised:
the snapshot is there, and the disk does not have its name. -/
def unsyncedDisk : Disk Bytes UInt8 :=
  ((((emptyDisk.create (ascii ".tmp-a1B2c3") 0).append 0
    ((Store.serialiseToJson oneEntry).take 1)).append 0
    ((Store.serialiseToJson oneEntry).drop 1)).fsync 0).rename (ascii ".tmp-a1B2c3")
    (fileName (ascii "dump-") 7)

/-- `DurableWrite` leaves it so when `fsync` of the directory fails.  There is no temporary file any
more for `unlink` to find.
SOURCE: snapshotter.cc:94-110 -/
theorem durableRun_fsyncDirFailed :
    DurableRun (fileName (ascii "dump-") 7) (Store.serialiseToJson oneEntry) emptyDisk
      ⟨unsyncedDisk, .threw⟩ := by
  have hstart : DurableRun (fileName (ascii "dump-") 7) (Store.serialiseToJson oneEntry) emptyDisk
    ⟨emptyDisk, .mkstemp⟩ := .refl
  have hcreated := hstart.tail possible_emptyDisk rfl
  have hpartial := hcreated.tail (a := Outcome.wrote 1) trivial rfl
  have hinterrupted := hpartial.tail (a := Outcome.interrupted) trivial rfl
  have hwritten := hinterrupted.tail (a := Outcome.wrote 30) trivial rfl
  have hsynced := hwritten.tail (a := Outcome.succeeded) trivial rfl
  have hclosed := hsynced.tail (a := Outcome.succeeded) trivial rfl
  have hrenamed := hclosed.tail (a := Outcome.succeeded) trivial rfl
  have hopened := hrenamed.tail (a := Outcome.succeeded) trivial rfl
  have hfailed := hopened.tail (a := Outcome.failed) trivial rfl
  have hclosedDir := hfailed.tail (a := Outcome.succeeded) trivial rfl
  have hthrew := hclosedDir.tail (a := Outcome.failed) trivial rfl
  exact hthrew

/-- The run whose last `fsync` fails: the new name may be on the disk after the crash or not.
SOURCE: snapshotter.cc:53-111 -/
theorem crash_consistent_fsyncDirFailed :
    ∃ s, DurableRun (fileName (ascii "dump-") 7) (Store.serialiseToJson oneEntry) emptyDisk s ∧
      s.stage = .threw ∧ s.disk.pending.length = 2 ∧
      ∀ files, s.disk.Seen files → ∀ listing, Lists files listing →
        (∃ old, Lists emptyDisk.view old ∧
          restore (ascii "dump-") files listing Store.empty =
            restore (ascii "dump-") emptyDisk.view old Store.empty) ∨
        restore (ascii "dump-") files listing Store.empty =
          (true, Store.empty.set (ascii "k") (some (ascii "v"))) := by
  refine ⟨_, durableRun_fsyncDirFailed, rfl, rfl, fun files hfiles => ?_⟩
  have hstore : (Store.empty.set (ascii "k") (some (ascii "v"))).Enumerates oneEntry := rfl
  have holder : OlderThan (ascii "dump-") 7 emptyDisk.view := fun _ _ _ hfile =>
    absurd hfile.symm (Option.some_ne_none _)
  exact (crash_consistent (ascii "dump-") hstore Lists.nil (settled_emptyDisk _) holder
    durableRun_fsyncDirFailed hfiles).2.2

/-! ## A snapshot whose name is not on the disk -/

/-- The only name in the directory is that of the snapshot.
SOURCE: snapshotter.cc:53-111 -/
theorem unsyncedDisk_dir (name : Bytes) : unsyncedDisk.dir name =
    if name = fileName (ascii "dump-") 7 then some (.file 0) else none := by
  split_ifs with hname
  · rw [hname]
    rfl
  · by_cases htemp : name = ascii ".tmp-a1B2c3"
    · rw [htemp]
      rfl
    · exact (Function.update_of_ne hname _ _).trans ((Function.update_of_ne htemp _ _).trans
        (Function.update_of_ne htemp _ _))

/-- Before the next snapshot `Restore` loads this one.
SOURCE: snapshotter.cc:127-150 -/
theorem restore_unsyncedDisk {listing : List (Bytes × Node)}
    (hlisting : Lists unsyncedDisk.view listing) :
    restore (ascii "dump-") unsyncedDisk.view listing Store.empty =
      (true, Store.empty.set (ascii "k") (some (ascii "v"))) := by
  have hfile : unsyncedDisk.view (fileName (ascii "dump-") 7) =
      some (.file (Store.serialiseToJson oneEntry)) := rfl
  have hothers : ∀ name, SnapshotName (ascii "dump-") name → name ≠ fileName (ascii "dump-") 7 →
      unsyncedDisk.view name = none := by
    intro name _ hne
    rw [Disk.view, unsyncedDisk_dir, if_neg hne, Option.map_none]
  have holder : OlderThan (ascii "dump-") 7 fun _ => none := fun _ _ _ hfile => by cases hfile
  exact restore_selected (latestSnapshot_new holder hothers hlisting hfile (by decide)) hfile rfl

/-- The next snapshot has another value for the key. -/
def nextEntry : List (Sigma fun _ : Bytes => Store.Entry) :=
  [⟨ascii "k", ⟨Store.noExpiry, some (ascii "w")⟩⟩]

/-- Its `DurableWrite` has begun. -/
def nextDisk : Disk Bytes UInt8 :=
  (unsyncedDisk.create (ascii ".tmp-d4E5f6") 1).append 1
    ((Store.serialiseToJson nextEntry).take 1)

/-- It has written one byte into its temporary file.
SOURCE: snapshotter.cc:56-82 -/
theorem durableRun_next : DurableRun (fileName (ascii "dump-") 8) (Store.serialiseToJson nextEntry)
    unsyncedDisk ⟨nextDisk, .opened ⟨ascii ".tmp-d4E5f6", 1⟩
      (.write ((Store.serialiseToJson nextEntry).drop 1))⟩ := by
  have hstart : DurableRun (fileName (ascii "dump-") 8) (Store.serialiseToJson nextEntry)
    unsyncedDisk ⟨unsyncedDisk, .mkstemp⟩ := .refl
  have hunused : unsyncedDisk.Unused 1 := by
    refine ⟨fun name hlink => ?_, fun name hlink => ?_, fun u hu name hname => ?_⟩
    · rw [unsyncedDisk_dir] at hlink
      split_ifs at hlink
      cases hlink
    · exact absurd hlink.symm (Option.some_ne_none _)
    · obtain rfl | hu := List.mem_cons.mp hu
      · cases List.mem_singleton.mp hname
      · rw [List.mem_singleton.mp hu] at hname
        obtain hname | hname := List.mem_cons.mp hname
        · cases hname
        · cases List.mem_singleton.mp hname
  have hpossible : Possible ⟨unsyncedDisk, .mkstemp⟩ (.created (ascii ".tmp-d4E5f6") 1) := by
    refine ⟨⟨ascii "d4E5f6", rfl, rfl⟩, ?_, hunused⟩
    exact (unsyncedDisk_dir _).trans (if_neg (by decide +kernel))
  have hcreated := hstart.tail hpossible rfl
  have hpartial := hcreated.tail (a := Outcome.wrote 1) trivial rfl
  exact hpartial

/-- **A snapshot that could be restored is lost**, and so is its file: `fsync` of the directory has
failed for it, and the system crashes while the next one is written.  `Restore` then loads neither
of them.
SOURCE: snapshotter.cc:92-110 -/
theorem unsettled_snapshot_lost :
    DurableRun (fileName (ascii "dump-") 7) (Store.serialiseToJson oneEntry) emptyDisk
        ⟨unsyncedDisk, .threw⟩ ∧
      OlderThan (ascii "dump-") 8 unsyncedDisk.view ∧
      (∀ old, Lists unsyncedDisk.view old → restore (ascii "dump-") unsyncedDisk.view old
        Store.empty = (true, Store.empty.set (ascii "k") (some (ascii "v")))) ∧
      (Store.empty.set (ascii "k") (some (ascii "w"))).Enumerates nextEntry ∧
      ∃ s files listing, DurableRun (fileName (ascii "dump-") 8) (Store.serialiseToJson nextEntry)
          unsyncedDisk s ∧
        s.disk.Seen files ∧ Lists files listing ∧
        files (fileName (ascii "dump-") 7) ≠ unsyncedDisk.view (fileName (ascii "dump-") 7) ∧
        restore (ascii "dump-") files listing Store.empty = (true, Store.empty) ∧
        Store.empty ≠ Store.empty.set (ascii "k") (some (ascii "v")) ∧
        Store.empty ≠ Store.empty.set (ascii "k") (some (ascii "w")) := by
  have holder : OlderThan (ascii "dump-") 8 unsyncedDisk.view := by
    intro name content t hfile ht
    rw [Disk.view, unsyncedDisk_dir] at hfile
    split_ifs at hfile with hname
    · rw [hname, timestampOf_fileName] at ht
      cases ht
      decide
    · cases hfile
  have hne (value : Bytes) : Store.empty ≠ Store.empty.set (ascii "k") (some value) := by
    intro heq
    have hlookUp := congrArg (fun store => Store.lookUp store (ascii "k")) heq
    simp only [Store.set, Store.lookUp_insert, Store.lookUp_empty, if_true] at hlookUp
    cases hlookUp
  -- of the changes of the directory none is on the disk
  have hcrash : nextDisk.Crash { nextDisk with dir := fun _ => none } :=
    ⟨⟨[], List.nil_sublist _, rfl⟩, fun _ _ => rfl⟩
  refine ⟨durableRun_fsyncDirFailed, holder, fun old hold => restore_unsyncedDisk hold, rfl,
    _, fun _ => none, [], durableRun_next, Or.inr ⟨_, hcrash, rfl⟩, Lists.nil, ?_, rfl,
    hne _, hne _⟩
  exact fun heq => Option.some_ne_none _ heq.symm

/-- **Durability**: once `DurableWrite` has returned, `Restore` loads the store, after a crash as
well.
SOURCE: snapshotter.cc:53-111, 127-150 -/
theorem restore_of_returned (filePrefix : Bytes) {store : Store}
    {entries : List (Sigma fun _ : Bytes => Store.Entry)} (hstore : store.Enumerates entries)
    {t : Int64} (hpos : 0 ≤ t) {d₀ : Disk Bytes UInt8}
    (hsettled : Settled (SnapshotName filePrefix) d₀) (holder : OlderThan filePrefix t d₀.view)
    {d : Disk Bytes UInt8}
    (hrun : DurableRun (fileName filePrefix t) (Store.serialiseToJson entries) d₀ ⟨d, .returned⟩)
    {files : Bytes → Option Node} (hfiles : d.Seen files) {listing : List (Bytes × Node)}
    (hlisting : Lists files listing) :
    restore filePrefix files listing Store.empty = (true, store) := by
  obtain ⟨hsound, hlanded, hdurable⟩ := atStage_of_reaches hsettled not_snapshotName_temp hrun
  have hfile := hlanded.seen hdurable hfiles
  have hothers : ∀ name, SnapshotName filePrefix name → name ≠ fileName filePrefix t →
      files name = d₀.view name := fun name hname hne => hsound.others hfiles hname hne
  exact restore_selected (latestSnapshot_new holder hothers hlisting hfile hpos) hfile hstore

end MyRedis.Analysis

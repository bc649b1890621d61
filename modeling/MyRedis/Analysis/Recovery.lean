import MyRedis.Analysis.CrashConsistency
import MyRedis.Analysis.SnapshotOrder
import MyRedis.Model.SnapshotProcesses

/-!
# What a restart finds

Any number of snapshot children write into one directory, each is killed or fails wherever it
likes, the server is restarted and the machine crashes, as often as they like.  In every state
that is reached, every link of a snapshot's name, now or after a crash, leads to a complete file
that holds a store some child was forked with and that has the timestamp of the name
(`Faithful`), and a snapshot whose `DurableWrite` has returned stays (`Durable`).  A child's
calls touch only its own temporary file and its own name (`Effect`), which is why they keep what
holds of the others.

So `Restore` never fails on what the server has left behind, and never finds less than what a
child has completed (`restart_recovers`).
-/

set_option autoImplicit false

namespace MyRedis.Analysis

open MyRedis.Model MyRedis.Model.Snapshotter MyRedis.Lib
open MyRedis.Model.DurableWrite (Temp Call Stage Outcome afterCall loop)
open MyRedis.Model.SnapshotProcesses (Phase Child State Action)

variable {filePrefix : Bytes} {stamped : List (Int64 × Store)} {d d' : Disk Bytes UInt8}
  {t : Int64} {temp other : Temp}

/-! ## Links -/

/-- A snapshot's name leads to no file but a complete one, of a store with that timestamp. -/
def Faithful (filePrefix : Bytes) (stamped : List (Int64 × Store)) (d : Disk Bytes UInt8)
    (name : Bytes) (link : Option Link) : Prop :=
  ∀ t inode, timestampOf filePrefix name = some t → link = some (.file inode) →
    d.synced inode = true ∧ ∃ store, (t, store) ∈ stamped ∧ Serialises (d.content inode) store

def IsFile (link : Option Link) : Prop := ∃ inode, link = some (.file inode)

/-- The snapshot is there, and is there after any crash. -/
def Durable (filePrefix : Bytes) (d : Disk Bytes UInt8) (t : Int64) : Prop :=
  d.AllLinks fun name link => name = fileName filePrefix t → IsFile link

/-- Only the temporary name leads to the temporary file. -/
abbrev OnlyTemp (temp : Temp) (d : Disk Bytes UInt8) : Prop :=
  d.AllLinks fun name link => link = some (.file temp.inode) → name = temp.file

/-- The temporary file is there, and no other name leads to it. -/
def Private (temp : Temp) (d : Disk Bytes UInt8) : Prop :=
  d.dir temp.file = some (.file temp.inode) ∧ OnlyTemp temp d

/-- The temporary file has another name than the snapshot.
SOURCE: snapshotter.cc:62, 121-123 -/
theorem ne_fileName (h : ¬ SnapshotName filePrefix temp.file) : temp.file ≠ fileName filePrefix t :=
  fun heq => h ⟨t, heq ▸ timestampOf_fileName filePrefix t⟩

/-- Nothing is asked of a file that is not a snapshot.
SOURCE: server.cc:160-163, 248-253, snapshotter.cc:53-150 -/
theorem faithful_of_not_snapshotName {name : Bytes} (h : ¬ SnapshotName filePrefix name)
    (link : Option Link) : Faithful filePrefix stamped d name link :=
  fun t _ ht => absurd ⟨t, ht⟩ h

/-- More snapshots may have been taken.
SOURCE: server.cc:160-163, 248-253, snapshotter.cc:53-150 -/
theorem Faithful.mono {stamped' : List (Int64 × Store)} {name : Bytes} {link : Option Link}
    (h : Faithful filePrefix stamped d name link) (hsub : stamped ⊆ stamped') :
    Faithful filePrefix stamped' d name link := by
  intro t inode ht hlink
  obtain ⟨hsynced, store, hmem, hsaved⟩ := h t inode ht hlink
  exact ⟨hsynced, store, hsub hmem, hsaved⟩

/-- Writing to a temporary file, or synchronising it, changes no snapshot.
SOURCE: snapshotter.cc:73-83 -/
theorem faithful_put (h : d.AllLinks (Faithful filePrefix stamped d)) (honly : OnlyTemp temp d)
    (htemp : ¬ SnapshotName filePrefix temp.file) (bytes : Bytes) (durable : Bool) :
    (d.put temp.inode bytes durable).AllLinks
      (Faithful filePrefix stamped (d.put temp.inode bytes durable)) := by
  refine ((h.and honly).put temp.inode bytes durable).mono ?_
  rintro name link ⟨hfaithful, htempName⟩ t inode ht hlink
  have hne : inode ≠ temp.inode := by
    rintro rfl
    exact htemp (htempName hlink ▸ ⟨t, ht⟩)
  simp only [Disk.put, Function.update_of_ne hne]
  exact hfaithful t inode ht hlink

/-! ## What a call does to the disk -/

/-- What a call of the child with this temporary file and timestamp may do to the disk. -/
inductive Effect (filePrefix : Bytes) (stamped : List (Int64 × Store)) (t : Int64) (temp : Temp)
    (d : Disk Bytes UInt8) : Disk Bytes UInt8 → Prop where
  | same : Effect filePrefix stamped t temp d d
  | create : d.dir temp.file = none → d.Unused temp.inode →
      Effect filePrefix stamped t temp d (d.create temp.file temp.inode)
  | put (bytes : Bytes) (durable : Bool) : Private temp d →
      Effect filePrefix stamped t temp d (d.put temp.inode bytes durable)
  | rename : Private temp d → d.synced temp.inode = true →
      (∃ store, (t, store) ∈ stamped ∧ Serialises (d.content temp.inode) store) →
      Effect filePrefix stamped t temp d (d.rename temp.file (fileName filePrefix t))
  | unlink : Effect filePrefix stamped t temp d (d.unlink temp.file)
  | fsyncDir : Effect filePrefix stamped t temp d d.fsyncDir

/-- The file that `mkstemp` creates belongs to its child.
SOURCE: snapshotter.cc:64 -/
theorem private_create (hunused : d.Unused temp.inode) :
    Private temp (d.create temp.file temp.inode) := by
  refine ⟨Function.update_self _ _ _, ?_⟩
  have hnone := Disk.AllLinks.of_unused hunused
  exact (hnone.mono fun _ _ hne hlink => absurd hlink hne).create fun _ => rfl

namespace Effect

/-- **The snapshots stay faithful.**
SOURCE: snapshotter.cc:53-111 -/
theorem faithful (he : Effect filePrefix stamped t temp d d')
    (htemp : ¬ SnapshotName filePrefix temp.file)
    (h : d.AllLinks (Faithful filePrefix stamped d)) :
    d'.AllLinks (Faithful filePrefix stamped d') := by
  cases he with
  | same => exact h
  | create hnone hunused =>
    have hlinks : (d.update [(temp.file, some (.file temp.inode))]).AllLinks
        (Faithful filePrefix stamped (d.update [(temp.file, some (.file temp.inode))])) := by
      refine h.update fun name link hmem => ?_
      cases List.mem_singleton.mp hmem
      exact faithful_of_not_snapshotName htemp _
    -- writing the content does not change the links
    have honly : OnlyTemp temp (d.update [(temp.file, some (.file temp.inode))]) := by
      obtain ⟨-, honly⟩ := private_create hunused
      exact ⟨honly.dir, honly.stable, honly.pending⟩
    exact faithful_put hlinks honly htemp [] false
  | put bytes durable hprivate => exact faithful_put h hprivate.2 htemp bytes durable
  | rename hprivate hsynced hsaved =>
    refine h.rename (faithful_of_not_snapshotName htemp _) ?_
    intro t' inode ht' hlink
    rw [timestampOf_fileName] at ht'
    cases ht'
    rw [hprivate.1] at hlink
    cases hlink
    exact ⟨hsynced, hsaved⟩
  | unlink => exact h.unlink (faithful_of_not_snapshotName htemp _)
  | fsyncDir => exact h.fsyncDir

/-- **A snapshot that is durable stays.**
SOURCE: snapshotter.cc:53-111 -/
theorem durable (he : Effect filePrefix stamped t temp d d')
    (htemp : ¬ SnapshotName filePrefix temp.file) {t' : Int64} (h : Durable filePrefix d t') :
    Durable filePrefix d' t' := by
  cases he with
  | same => exact h
  | create => exact h.create fun hname => absurd hname (ne_fileName htemp)
  | put bytes durable => exact h.put _ _ _
  | rename hprivate =>
    exact h.rename (fun hname => absurd hname (ne_fileName htemp)) fun _ => ⟨_, hprivate.1⟩
  | unlink => exact h.unlink fun hname => absurd hname (ne_fileName htemp)
  | fsyncDir => exact h.fsyncDir

/-- A snapshot stays in the directory.
SOURCE: snapshotter.cc:53-111 -/
theorem isFile (he : Effect filePrefix stamped t temp d d')
    (htemp : ¬ SnapshotName filePrefix temp.file) {t' : Int64}
    (h : IsFile (d.dir (fileName filePrefix t'))) : IsFile (d'.dir (fileName filePrefix t')) := by
  have hne : fileName filePrefix t' ≠ temp.file := (ne_fileName htemp).symm
  obtain ⟨inode, hlink⟩ := h
  cases he with
  | same | put | fsyncDir => exact ⟨inode, hlink⟩
  | create | unlink => exact ⟨inode, (Function.update_of_ne hne _ _).trans hlink⟩
  | rename hprivate =>
    by_cases hname : fileName filePrefix t' = fileName filePrefix t
    · rw [hname]
      exact ⟨temp.inode, (Function.update_self _ _ _).trans hprivate.1⟩
    · have hsame : (d.rename temp.file (fileName filePrefix t)).dir (fileName filePrefix t') =
          d.dir (fileName filePrefix t') :=
        (Function.update_of_ne hname _ _).trans (Function.update_of_ne hne _ _)
      exact ⟨inode, hsame.trans hlink⟩

/-- **Another child's temporary file** stays as it is.
SOURCE: snapshotter.cc:53-111 -/
theorem others (he : Effect filePrefix stamped t temp d d')
    (hother : ¬ SnapshotName filePrefix other.file) (hne : other.file ≠ temp.file)
    (h : Private other d) :
    Private other d' ∧ d'.content other.inode = d.content other.inode ∧
      d'.synced other.inode = d.synced other.inode := by
  obtain ⟨hdir, honly⟩ := h
  have hinode (hprivate : Private temp d) : other.inode ≠ temp.inode := fun heq =>
    hne (hprivate.2.dir other.file (heq ▸ hdir))
  cases he with
  | same => exact ⟨⟨hdir, honly⟩, rfl, rfl⟩
  | create hnone hunused =>
    have hinode : other.inode ≠ temp.inode := fun heq => hunused.1 other.file (heq ▸ hdir)
    refine ⟨⟨(Function.update_of_ne hne _ _).trans hdir, honly.create fun hlink => ?_⟩,
      Function.update_of_ne hinode _ _, Function.update_of_ne hinode _ _⟩
    exact absurd (Link.file.inj (Option.some.inj hlink)).symm hinode
  | put bytes durable hprivate =>
    exact ⟨⟨hdir, honly.put _ _ _⟩, Function.update_of_ne (hinode hprivate) _ _,
      Function.update_of_ne (hinode hprivate) _ _⟩
  | rename hprivate =>
    have hsame : (d.rename temp.file (fileName filePrefix t)).dir other.file =
        d.dir other.file :=
      (Function.update_of_ne (ne_fileName hother) _ _).trans (Function.update_of_ne hne _ _)
    refine ⟨⟨hsame.trans hdir, honly.rename (fun hlink => ?_) fun hlink => ?_⟩, rfl, rfl⟩
    · exact absurd hlink.symm (Option.some_ne_none _)
    · rw [hprivate.1] at hlink
      exact absurd (Link.file.inj (Option.some.inj hlink)).symm (hinode hprivate)
  | unlink =>
    refine ⟨⟨(Function.update_of_ne hne _ _).trans hdir, honly.unlink fun hlink => ?_⟩, rfl, rfl⟩
    exact absurd hlink.symm (Option.some_ne_none _)
  | fsyncDir => exact ⟨⟨hdir, honly.fsyncDir⟩, rfl, rfl⟩

end Effect

/-! ## The children -/

section Children

variable {output : Bytes} {call : Call} {stage : Stage}

/-- What holds before each call of a child that writes `output`. -/
def Progress (filePrefix : Bytes) (t : Int64) (output : Bytes) (temp : Temp)
    (d : Disk Bytes UInt8) : Call → Prop
  | .write left => Private temp d ∧ d.content temp.inode ++ left = output
  | .fsync => Private temp d ∧ d.content temp.inode = output
  | .close | .rename => Private temp d ∧ Complete output d temp.inode
  | .openDir | .fsyncDir => IsFile (d.dir (fileName filePrefix t))
  | .closeDir => Durable filePrefix d t
  | .closeDirFailed | .closeTemp | .unlink => True

/-- What holds at each stage of a child that writes `output`. -/
def InStage (filePrefix : Bytes) (t : Int64) (output : Bytes) (d : Disk Bytes UInt8) :
    Stage → Prop
  | .opened temp call => ¬ SnapshotName filePrefix temp.file ∧
      Progress filePrefix t output temp d call
  | .returned => Durable filePrefix d t
  | .mkstemp | .threw => True

/-- What holds after a call of a child that has this temporary file. -/
def NextStage (filePrefix : Bytes) (t : Int64) (output : Bytes) (temp : Temp)
    (d : Disk Bytes UInt8) : Stage → Prop
  | .opened temp' call => temp' = temp ∧ Progress filePrefix t output temp d call
  | .returned => Durable filePrefix d t
  | .threw => True
  | .mkstemp => False

/-- The calls of another child change nothing of it.
SOURCE: server.cc:160-163, 248-253, snapshotter.cc:53-150 -/
theorem Progress.frame {t' : Int64} (he : Effect filePrefix stamped t' other d d')
    (hother : ¬ SnapshotName filePrefix other.file) (htemp : ¬ SnapshotName filePrefix temp.file)
    (hne : temp.file ≠ other.file) (h : Progress filePrefix t output temp d call) :
    Progress filePrefix t output temp d' call := by
  cases call with
  | write left =>
    obtain ⟨hprivate, hcontent, -⟩ := he.others htemp hne h.1
    exact ⟨hprivate, hcontent ▸ h.2⟩
  | fsync =>
    obtain ⟨hprivate, hcontent, -⟩ := he.others htemp hne h.1
    exact ⟨hprivate, hcontent ▸ h.2⟩
  | close | rename =>
    obtain ⟨hprivate, hcontent, hsynced⟩ := he.others htemp hne h.1
    exact ⟨hprivate, hsynced.trans h.2.1, hcontent.trans h.2.2⟩
  | openDir | fsyncDir => exact he.isFile hother h
  | closeDir => exact he.durable hother h
  | closeDirFailed | closeTemp | unlink => trivial

/-- The calls of another child do not move a child to another stage.
SOURCE: snapshotter.cc:53-111 -/
theorem InStage.frame {t' : Int64} (he : Effect filePrefix stamped t' other d d')
    (hother : ¬ SnapshotName filePrefix other.file)
    (hne : ∀ temp call, stage = .opened temp call → temp.file ≠ other.file)
    (h : InStage filePrefix t output d stage) : InStage filePrefix t output d' stage := by
  cases stage with
  | opened temp call => exact ⟨h.1, h.2.frame he hother h.1 (hne temp call rfl)⟩
  | returned => exact he.durable hother h
  | mkstemp | threw => trivial

/-- The loop goes on with what is left, or is done.
SOURCE: snapshotter.cc:72-80 -/
theorem progress_loop {left : Bytes} (hprivate : Private temp d)
    (hcontent : d.content temp.inode ++ left = output) :
    Progress filePrefix t output temp d (loop left) := by
  unfold loop
  split_ifs with hleft
  · rw [hleft, List.append_nil] at hcontent
    exact ⟨hprivate, hcontent⟩
  · exact ⟨hprivate, hcontent⟩

section Calls

variable {s : DurableWrite.State} {store : Store}

/-- The file stays the child's own.
SOURCE: snapshotter.cc:73-83 -/
theorem Private.put (h : Private temp d) (bytes : Bytes) (durable : Bool) :
    Private temp (d.put temp.inode bytes durable) :=
  ⟨h.1, h.2.put _ _ _⟩

/-- A `write` that has taken some of the bytes.
SOURCE: snapshotter.cc:72-80 -/
theorem Progress.wrote {left : Bytes} {count : ℕ}
    (h : Progress filePrefix t output temp d (.write left))
    (hstep : afterCall (fileName filePrefix t) d temp (.write left) (.wrote count) = some s) :
    Effect filePrefix stamped t temp d s.disk ∧
      NextStage filePrefix t output temp s.disk s.stage := by
  rw [afterCall] at hstep
  split_ifs at hstep
  cases hstep
  have hwritten : (d.append temp.inode (left.take count)).content temp.inode ++
      left.drop count = output := by
    rw [Disk.append, Disk.put_content, List.append_assoc, List.take_append_drop]
    exact h.2
  exact ⟨.put _ _ h.1, rfl, progress_loop (h.1.put _ _) hwritten⟩

/-- Any other call that has succeeded.
SOURCE: snapshotter.cc:83-105 -/
theorem Progress.succeeded (hstamped : (t, store) ∈ stamped) (hsaved : Serialises output store)
    (h : Progress filePrefix t output temp d call)
    (hstep : afterCall (fileName filePrefix t) d temp call .succeeded = some s) :
    Effect filePrefix stamped t temp d s.disk ∧
      NextStage filePrefix t output temp s.disk s.stage := by
  cases call with
  | write left => cases hstep
  | fsync =>
    cases hstep
    exact ⟨.put _ _ h.1, rfl, h.1.put _ _, Disk.put_synced _ _ _ _,
      (Disk.put_content _ _ _ _).trans h.2⟩
  | close | openDir =>
    cases hstep
    exact ⟨.same, rfl, h⟩
  | rename =>
    cases hstep
    have hcomplete : Serialises (d.content temp.inode) store := by
      rw [h.2.2]
      exact hsaved
    exact ⟨.rename h.1 h.2.1 ⟨store, hstamped, hcomplete⟩, rfl, temp.inode,
      (Function.update_self _ _ _).trans h.1.1⟩
  | fsyncDir =>
    cases hstep
    -- what the directory links to is now on the disk
    have hfile : ∀ name, name = fileName filePrefix t → IsFile (d.dir name) := by
      rintro name rfl
      exact h
    exact ⟨.fsyncDir, rfl, hfile, hfile, fun u hu => absurd hu List.not_mem_nil⟩
  | closeDir =>
    cases hstep
    exact ⟨.same, h⟩
  | closeDirFailed | closeTemp =>
    cases hstep
    exact ⟨.same, rfl, trivial⟩
  | unlink =>
    cases hstep
    exact ⟨.unlink, trivial⟩

/-- A call that has failed: `DurableWrite` throws.
SOURCE: snapshotter.cc:106-110 -/
theorem Progress.failed
    (hstep : afterCall (fileName filePrefix t) d temp call .failed = some s) :
    Effect filePrefix stamped t temp d s.disk ∧
      NextStage filePrefix t output temp s.disk s.stage := by
  cases call with
  | unlink =>
    cases hstep
    exact ⟨.same, trivial⟩
  | write | fsync | close | rename | openDir | fsyncDir | closeDir | closeDirFailed | closeTemp =>
    cases hstep
    exact ⟨.same, rfl, trivial⟩

/-- **A call**: what it does to the disk, and what holds before the next one.
SOURCE: snapshotter.cc:53-111 -/
theorem Progress.step {outcome : Outcome} (hstamped : (t, store) ∈ stamped)
    (hsaved : Serialises output store)
    (h : Progress filePrefix t output temp d call)
    (hstep : afterCall (fileName filePrefix t) d temp call outcome = some s) :
    Effect filePrefix stamped t temp d s.disk ∧
      NextStage filePrefix t output temp s.disk s.stage := by
  cases outcome with
  | succeeded => exact h.succeeded hstamped hsaved hstep
  | failed => exact Progress.failed hstep
  | wrote count =>
    cases call with
    | write left => exact h.wrote hstep
    | _ => cases hstep
  | interrupted =>
    cases call with
    | write left =>
      cases hstep
      exact ⟨.same, rfl, h⟩
    | _ => cases hstep
  | created => cases call <;> cases hstep

end Calls

/-- The temporary file that the call is about: the one that is open, or the new one. -/
def Concerns (temp : Temp) (stage : Stage) (outcome : Outcome) : Prop :=
  (∃ call, stage = .opened temp call) ∨ outcome = .created temp.file temp.inode

/-- What a call leaves is what the next one needs.
SOURCE: snapshotter.cc:53-111 -/
theorem NextStage.inStage (htemp : ¬ SnapshotName filePrefix temp.file)
    (h : NextStage filePrefix t output temp d stage) : InStage filePrefix t output d stage := by
  cases stage with
  | opened temp' call =>
    obtain ⟨rfl, h⟩ := h
    exact ⟨htemp, h⟩
  | returned => exact h
  | mkstemp | threw => trivial

/-- **A step of `DurableWrite`** ends it, or is about one temporary file.
SOURCE: snapshotter.cc:53-111 -/
theorem InStage.step {outcome : Outcome} {store : Store} {s : DurableWrite.State}
    (hstamped : (t, store) ∈ stamped) (hsaved : Serialises output store)
    (h : InStage filePrefix t output d stage) (hpossible : DurableWrite.Possible ⟨d, stage⟩ outcome)
    (hstep : DurableWrite.step (fileName filePrefix t) output ⟨d, stage⟩ outcome = some s) :
    s = ⟨d, .threw⟩ ∨ ∃ temp, ¬ SnapshotName filePrefix temp.file ∧ Concerns temp stage outcome ∧
      Effect filePrefix stamped t temp d s.disk ∧
      NextStage filePrefix t output temp s.disk s.stage := by
  cases stage with
  | mkstemp =>
    cases outcome with
    | created file inode =>
      cases hstep
      obtain ⟨⟨unique, hlength, rfl⟩, hnone, hunused⟩ := hpossible
      have hempty : (d.create (ascii ".tmp-" ++ unique) inode).content inode ++ output =
          output := by
        rw [Disk.create, Disk.put_content, List.nil_append]
      exact Or.inr ⟨⟨ascii ".tmp-" ++ unique, inode⟩, not_snapshotName_temp unique hlength,
        Or.inr rfl, .create hnone hunused, rfl, progress_loop (private_create hunused) hempty⟩
    | failed =>
      cases hstep
      exact Or.inl rfl
    | wrote | interrupted | succeeded => cases hstep
  | opened temp call =>
    obtain ⟨heffect, hnext⟩ := h.2.step hstamped hsaved hstep
    exact Or.inr ⟨temp, h.1, Or.inl ⟨call, rfl⟩, heffect, hnext⟩
  | returned | threw => cases hstep

end Children

/-! ## Every state that is reached -/

/-- What holds of a child. -/
def InPhase (filePrefix : Bytes) (stamped : List (Int64 × Store)) (d : Disk Bytes UInt8)
    (child : Child) : Prop :=
  match child.phase with
  | .serialised storeJson => Serialises storeJson child.store
  | .writing storeJson t stage => (t, child.store) ∈ stamped ∧ Serialises storeJson child.store ∧
      InStage filePrefix t storeJson d stage
  | .forked | .killed => True

/-- The two have not got the same temporary file. -/
def Apart (child child' : Child) : Prop :=
  ∀ temp temp', child.temp = some temp → child'.temp = some temp' → temp.file ≠ temp'.file

/-- What holds in every state. -/
structure Recoverable (filePrefix : Bytes) (s : State) : Prop where
  links : s.disk.AllLinks (Faithful filePrefix s.stamped s.disk)
  inPhase : ∀ child ∈ s.children, InPhase filePrefix s.stamped s.disk child
  apart : ∀ (i j : ℕ) child child', i ≠ j → s.children[i]? = some child →
    s.children[j]? = some child' → Apart child child'
  durable : ∀ t ∈ s.completed, Durable filePrefix s.disk t
  had : s.store ∈ s.had
  forked : ∀ child ∈ s.children, child.store ∈ s.had
  stamped : ∀ t store, (t, store) ∈ s.stamped → store ∈ s.had

section Steps

variable {s s' : State} {i : ℕ} {child child' : Child}

/-- More snapshots may have been taken.
SOURCE: server.cc:160-163, 248-253, snapshotter.cc:53-150 -/
theorem InPhase.mono {stamped' : List (Int64 × Store)} (hsub : stamped ⊆ stamped')
    (h : InPhase filePrefix stamped d child) : InPhase filePrefix stamped' d child := by
  obtain ⟨store, phase⟩ := child
  cases phase with
  | writing storeJson t stage => exact ⟨hsub h.1, h.2⟩
  | serialised storeJson => exact h
  | forked | killed => trivial

/-- Two children have different temporary files, whichever is named first.
SOURCE: server.cc:160-163, 248-253, snapshotter.cc:53-150 -/
theorem Apart.symm (h : Apart child child') : Apart child' child :=
  fun temp temp' htemp htemp' => (h temp' temp htemp' htemp).symm

/-- A child without a temporary file is apart from all others.
SOURCE: server.cc:160-163, 248-253, snapshotter.cc:53-150 -/
theorem Apart.of_none (h : child'.temp = none) : Apart child child' :=
  fun _ temp' _ htemp' => absurd (h.symm.trans htemp') (Option.some_ne_none temp').symm

/-- The calls of another child change nothing of it.
SOURCE: server.cc:160-163, 248-253, snapshotter.cc:53-150 -/
theorem InPhase.frame {t' : Int64} (he : Effect filePrefix stamped t' other d d')
    (hother : ¬ SnapshotName filePrefix other.file)
    (hne : ∀ temp, child.temp = some temp → temp.file ≠ other.file)
    (h : InPhase filePrefix stamped d child) : InPhase filePrefix stamped d' child := by
  obtain ⟨store, phase⟩ := child
  cases phase with
  | writing storeJson t stage =>
    refine ⟨h.1, h.2.1, h.2.2.frame he hother ?_⟩
    rintro temp call rfl
    exact hne temp rfl
  | serialised storeJson => exact h
  | forked | killed => trivial

namespace Recoverable

/-- One child changes.
SOURCE: server.cc:160-163, 248-253, snapshotter.cc:53-150 -/
theorem update (h : Recoverable filePrefix s) (hchild : s.children[i]? = some child)
    (hchildren : s'.children = s.children.set i child') (hstore : child'.store = child.store)
    (hserver : s'.store = s.store) (hhad : s'.had = s.had)
    (hlinks : s'.disk.AllLinks (Faithful filePrefix s'.stamped s'.disk))
    (hothers : ∀ (j : ℕ) other, j ≠ i → s.children[j]? = some other →
      InPhase filePrefix s'.stamped s'.disk other ∧ Apart other child')
    (hnew : InPhase filePrefix s'.stamped s'.disk child')
    (hdurable : ∀ t ∈ s'.completed, Durable filePrefix s'.disk t)
    (hstamped : ∀ t store, (t, store) ∈ s'.stamped → store ∈ s.had) :
    Recoverable filePrefix s' where
  links := hlinks
  inPhase after hafter := by
    rw [hchildren] at hafter
    obtain ⟨j, hj⟩ := List.mem_iff_getElem?.mp hafter
    rw [List.getElem?_set] at hj
    split_ifs at hj with hi hlt
    · cases hj
      exact hnew
    · exact (hothers j after (Ne.symm hi) hj).1
  apart j k first second hjk hfirst hsecond := by
    rw [hchildren, List.getElem?_set] at hfirst hsecond
    by_cases hj : i = j
    · subst hj
      rw [if_neg hjk] at hsecond
      rw [if_pos rfl] at hfirst
      split_ifs at hfirst
      cases hfirst
      exact (hothers k second (Ne.symm hjk) hsecond).2.symm
    · rw [if_neg hj] at hfirst
      by_cases hk : i = k
      · subst hk
        rw [if_pos rfl] at hsecond
        split_ifs at hsecond
        cases hsecond
        exact (hothers j first hjk hfirst).2
      · rw [if_neg hk] at hsecond
        exact h.apart j k first second hjk hfirst hsecond
  durable := hdurable
  had := by
    rw [hserver, hhad]
    exact h.had
  forked after hafter := by
    rw [hchildren] at hafter
    rw [hhad]
    obtain hold | rfl := List.mem_or_eq_of_mem_set hafter
    · exact h.forked after hold
    · rw [hstore]
      exact h.forked child (List.mem_of_getElem? hchild)
  stamped t store hmem := by
    rw [hhad]
    exact hstamped t store hmem

/-- One child moves on, without a call.
SOURCE: snapshotter.cc:114-125 -/
theorem moveTo (h : Recoverable filePrefix s) (hchild : s.children[i]? = some child)
    {phase : Phase} {stamped : List (Int64 × Store)} (hsub : s.stamped ⊆ stamped)
    (htemp : Child.temp ⟨child.store, phase⟩ = none)
    (hnew : InPhase filePrefix stamped s.disk ⟨child.store, phase⟩)
    (hstamped : ∀ t store, (t, store) ∈ stamped → store ∈ s.had) :
    Recoverable filePrefix { s.moveTo i child phase with stamped } := by
  refine h.update hchild rfl rfl rfl rfl (h.links.mono fun _ _ hlink => hlink.mono hsub) ?_ hnew
    h.durable hstamped
  intro j other _ hother
  exact ⟨(h.inPhase other (List.mem_of_getElem? hother)).mono hsub, Apart.of_none htemp⟩

/-- **A system call of a child.**
SOURCE: snapshotter.cc:53-111 -/
theorem call (h : Recoverable filePrefix s) {outcome : Outcome}
    (hpossible : s.Possible (.call i outcome))
    (hstep : s.step filePrefix (.call i outcome) = some s') : Recoverable filePrefix s' := by
  rw [State.step] at hstep
  obtain ⟨child, hchild, hstep⟩ := Option.bind_eq_some_iff.mp hstep
  have hphase := h.inPhase child (List.mem_of_getElem? hchild)
  obtain ⟨store, phase⟩ := child
  cases phase with
  | forked | serialised | killed => cases hstep
  | writing storeJson t stage =>
    obtain ⟨after, hafter, hstep⟩ := Option.bind_eq_some_iff.mp hstep
    cases hstep
    obtain ⟨hstamped, hsaved, hstage⟩ := hphase
    obtain ⟨hallowed, hfresh⟩ := hpossible _ storeJson t stage hchild rfl
    obtain rfl | ⟨temp, htemp, hconcerns, heffect, hnext⟩ :=
      hstage.step hstamped hsaved hallowed hafter
    · exact h.moveTo hchild (List.Subset.refl _) rfl ⟨hstamped, hsaved, trivial⟩ h.stamped
    · -- the other children have other temporary files
      have hapart : ∀ (j : ℕ) other, j ≠ i → s.children[j]? = some other →
          ∀ temp', other.temp = some temp' → temp'.file ≠ temp.file := by
        intro j other hj hother temp' htemp'
        obtain ⟨call, rfl⟩ | rfl := hconcerns
        · exact h.apart j i other _ hj hother hchild temp' temp htemp' rfl
        · exact hfresh temp.file temp.inode rfl other (List.mem_of_getElem? hother) temp' htemp'
      refine h.update hchild rfl rfl rfl rfl (heffect.faithful htemp h.links) ?_
        ⟨hstamped, hsaved, hnext.inStage htemp⟩ ?_ h.stamped
      · intro j other hj hother
        refine ⟨(h.inPhase other (List.mem_of_getElem? hother)).frame heffect htemp
          (hapart j other hj hother), ?_⟩
        intro temp' next htemp' hopened
        obtain ⟨disk, stage'⟩ := after
        cases stage' with
        | opened opened call =>
          cases hopened
          rw [hnext.1]
          exact hapart j other hj hother temp' htemp'
        | mkstemp | returned | threw => cases hopened
      · intro t' ht'
        dsimp only at ht'
        split_ifs at ht' with hreturned
        · obtain hold | hnew := List.mem_append.mp ht'
          · exact heffect.durable htemp (h.durable t' hold)
          · cases List.mem_singleton.mp hnew
            rw [hreturned] at hnext
            exact hnext
        · exact heffect.durable htemp (h.durable t' ht')

end Recoverable

end Steps

/-! ## Restoring -/

/-- None is selected, or one that no other is later than.
SOURCE: snapshotter.cc:28-51 -/
theorem latestSnapshot_cases (filePrefix : Bytes) (entries : List (Bytes × Node)) :
    (latestSnapshot filePrefix entries = none ∧
      ∀ entry ∈ entries, ∀ t, Snapshot filePrefix entry t → t < 0) ∨
    ∃ entry ∈ entries, ∃ t, Snapshot filePrefix entry t ∧ 0 ≤ t ∧
      latestSnapshot filePrefix entries = some entry.1 ∧
      ∀ entry' ∈ entries, ∀ t', Snapshot filePrefix entry' t' → t' ≤ t := by
  have hneg {t : Int64} : t ≤ -1 ↔ t < 0 := by
    rw [Int64.le_iff_toInt_le, Int64.lt_iff_toInt_lt]
    exact Int.lt_add_one_iff.symm
  obtain ⟨hstay, hbound⟩ | ⟨entry, hentry, t, ht, hlt, hend, hbound⟩ :=
    @foldl_visit filePrefix entries (none, -1)
  · refine Or.inl ⟨by rw [latestSnapshot, hstay], fun entry hentry t ht => ?_⟩
    exact hneg.mp (hbound entry hentry t ht)
  · refine Or.inr ⟨entry, hentry, t, ht, ?_, by rw [latestSnapshot, hend], hbound⟩
    exact Int64.not_lt.mp fun h => Int64.not_lt.mpr (hneg.mpr h) hlt

section Restoring

variable {files : Bytes → Option Node} {listing : List (Bytes × Node)}

/-- What a reader finds in a snapshot is what was serialised for it.
SOURCE: snapshotter.cc:53-111 -/
theorem seen_faithful (hlinks : d.AllLinks (Faithful filePrefix stamped d))
    (hfiles : d.Seen files) {name content : Bytes} (ht : timestampOf filePrefix name = some t)
    (hfile : files name = some (.file content)) :
    ∃ store, (t, store) ∈ stamped ∧ Serialises content store := by
  obtain ⟨d', hview, hfaithful, hcontent⟩ := hlinks.seen hfiles name
  rw [hview, Disk.view] at hfile
  cases hlink : d'.dir name with
  | none =>
    rw [hlink] at hfile
    cases hfile
  | some link =>
    rw [hlink] at hfile hfaithful
    cases link with
    | other => cases hfile
    | file inode =>
      obtain ⟨hsynced, store, hmem, hsaved⟩ := hfaithful t inode ht rfl
      cases hfile
      rw [hcontent inode hsynced]
      exact ⟨store, hmem, hsaved⟩

/-- A durable snapshot is found after a crash.
SOURCE: snapshotter.cc:53-111 -/
theorem seen_durable (h : Durable filePrefix d t) (hfiles : d.Seen files) :
    ∃ content, files (fileName filePrefix t) = some (.file content) := by
  obtain ⟨d', hview, hfile, -⟩ := Disk.AllLinks.seen h hfiles (fileName filePrefix t)
  obtain ⟨inode, hlink⟩ := hfile rfl
  exact ⟨d'.content inode, by rw [hview, Disk.view, hlink]; rfl⟩

/-- **`Restore` does not fail**, and finds nothing older than what is durable.
SOURCE: snapshotter.cc:127-150 -/
theorem restore_of_faithful {completed : List Int64}
    (hlinks : d.AllLinks (Faithful filePrefix stamped d))
    (hdurable : ∀ t ∈ completed, Durable filePrefix d t) (hfiles : d.Seen files)
    (hlisting : Lists files listing) :
    ∃ store, restore filePrefix files listing Store.empty = (true, store) ∧
      (store = Store.empty ∧ (∀ t ∈ completed, t < 0) ∨
        ∃ t, (t, store) ∈ stamped ∧ 0 ≤ t ∧ ∀ t' ∈ completed, t' ≤ t) := by
  have hlisted : ∀ t ∈ completed, ∃ entry ∈ listing, Snapshot filePrefix entry t := by
    intro t ht
    obtain ⟨content, hfile⟩ := seen_durable (hdurable t ht) hfiles
    exact ⟨_, (hlisting.2 _ _).mpr hfile, ⟨content, rfl⟩, timestampOf_fileName filePrefix t⟩
  obtain ⟨hnone, hbound⟩ | ⟨entry, hentry, t, ht, hpos, hselected, hbound⟩ :=
    latestSnapshot_cases filePrefix listing
  · refine ⟨Store.empty, by rw [restore, hnone], Or.inl ⟨rfl, fun t ht => ?_⟩⟩
    obtain ⟨entry, hentry, hsnapshot⟩ := hlisted t ht
    exact hbound entry hentry t hsnapshot
  · obtain ⟨⟨content, hnode⟩, hstamp⟩ := ht
    have hfile : files entry.1 = some (.file content) := by
      rw [← hnode]
      exact (hlisting.2 entry.1 entry.2).mp hentry
    obtain ⟨store, hmem, entries, henumerates, rfl⟩ := seen_faithful hlinks hfiles hstamp hfile
    refine ⟨store, restore_selected hselected hfile henumerates, Or.inr ⟨t, hmem, hpos, ?_⟩⟩
    intro t' ht'
    obtain ⟨entry', hentry', hsnapshot⟩ := hlisted t' ht'
    exact hbound entry' hentry' t' hsnapshot

end Restoring

/-! ## Runs -/

section Runs

variable {s s' s₀ : State}

namespace Recoverable

/-- The store is replaced by another one.
SOURCE: server.cc:160-163, 248-253, snapshotter.cc:53-150 -/
theorem replace (h : Recoverable filePrefix s) (store : Store) :
    Recoverable filePrefix { s with store, had := s.had ++ [store] } where
  links := h.links
  inPhase := h.inPhase
  apart := h.apart
  durable := h.durable
  had := List.mem_append_right _ (List.mem_singleton_self store)
  forked child hchild := List.mem_append_left _ (h.forked child hchild)
  stamped t store' hmem := List.mem_append_left _ (h.stamped t store' hmem)

/-- A child is forked, with the store as it is.
SOURCE: server.cc:249-253 -/
theorem fork (h : Recoverable filePrefix s) :
    Recoverable filePrefix { s with children := s.children ++ [⟨s.store, .forked⟩] } where
  links := h.links
  inPhase child hchild := by
    obtain hold | hnew := List.mem_append.mp hchild
    · exact h.inPhase child hold
    · cases List.mem_singleton.mp hnew
      trivial
  apart i j child child' hne hchild hchild' := by
    have hold {k : ℕ} {c : Child} (hget : (s.children ++ [⟨s.store, .forked⟩])[k]? = some c) :
        s.children[k]? = some c ∨ c.temp = none := by
      rw [List.getElem?_append] at hget
      split_ifs at hget
      · exact Or.inl hget
      · cases List.mem_singleton.mp (List.mem_of_getElem? hget)
        exact Or.inr rfl
    obtain hi | hnone := hold hchild
    · obtain hj | hnone := hold hchild'
      · exact h.apart i j child child' hne hi hj
      · exact Apart.of_none hnone
    · exact (Apart.of_none hnone).symm
  durable := h.durable
  had := h.had
  forked child hchild := by
    obtain hold | hnew := List.mem_append.mp hchild
    · exact h.forked child hold
    · cases List.mem_singleton.mp hnew
      exact h.had
  stamped := h.stamped

/-- The server starts again and restores the store.
SOURCE: server.cc:160-163 -/
theorem run (h : Recoverable filePrefix s) {listing : List (Bytes × Node)}
    (hrun : s.run filePrefix listing = some s') : Recoverable filePrefix s' := by
  rw [State.run] at hrun
  split at hrun
  · cases hrun
    exact h.replace _
  · cases hrun

/-- **A crash of the machine.**
SOURCE: server.cc:160-163, 248-253, snapshotter.cc:53-150 -/
theorem reboot (h : Recoverable filePrefix s) {disk : Disk Bytes UInt8}
    (hreboot : s.disk.Reboot disk) : Recoverable filePrefix { s with children := [], disk } where
  links := by
    refine (h.links.mono fun name link hfaithful t inode ht hlink => ?_).reboot hreboot
    obtain ⟨hsynced, store, hmem, hsaved⟩ := hfaithful t inode ht hlink
    refine ⟨hreboot.2.2.2 inode, store, hmem, ?_⟩
    rw [hreboot.1.2 inode hsynced]
    exact hsaved
  inPhase child hchild := absurd hchild List.not_mem_nil
  apart i j child child' _ hchild := by simp at hchild
  durable t ht := (h.durable t ht).reboot hreboot
  had := h.had
  forked child hchild := absurd hchild List.not_mem_nil
  stamped := h.stamped

/-- **Every step keeps it.**
SOURCE: server.cc:160-163, 248-253, snapshotter.cc:53-150 -/
theorem step {a : Action} (h : Recoverable filePrefix s) (hpossible : s.Possible a)
    (hstep : s.step filePrefix a = some s') : Recoverable filePrefix s' := by
  cases a with
  | execute request =>
    rw [State.step] at hstep
    split at hstep
    · cases hstep
      exact h.replace _
    · cases hstep
  | tick now =>
    cases hstep
    exact ⟨h.links, h.inPhase, h.apart, h.durable, h.had, h.forked, h.stamped⟩
  | fork =>
    cases hstep
    exact h.fork
  | serialise i entries =>
    rw [State.step] at hstep
    obtain ⟨child, hchild, hstep⟩ := Option.bind_eq_some_iff.mp hstep
    split_ifs at hstep with hready
    cases hstep
    exact h.moveTo hchild (List.Subset.refl _) rfl ⟨entries, hready.2, rfl⟩ h.stamped
  | readClock i =>
    rw [State.step] at hstep
    obtain ⟨child, hchild, hstep⟩ := Option.bind_eq_some_iff.mp hstep
    have hmem := List.mem_of_getElem? hchild
    have hphase := h.inPhase child hmem
    have hhad := h.forked child hmem
    obtain ⟨store, phase⟩ := child
    cases phase with
    | serialised storeJson =>
      cases hstep
      refine h.moveTo hchild (List.subset_append_left _ _) rfl
        ⟨List.mem_append_right _ (List.mem_singleton_self _), hphase, trivial⟩ ?_
      intro t store' hstamped
      obtain hold | hnew := List.mem_append.mp hstamped
      · exact h.stamped t store' hold
      · cases List.mem_singleton.mp hnew
        exact hhad
    | forked | writing | killed => cases hstep
  | call i outcome => exact h.call hpossible hstep
  | kill i =>
    rw [State.step] at hstep
    obtain ⟨child, hchild, hstep⟩ := Option.bind_eq_some_iff.mp hstep
    cases hstep
    exact h.moveTo hchild (List.Subset.refl _) rfl trivial h.stamped
  | restart listing => exact h.run hstep
  | reboot disk listing => exact (h.reboot hpossible.1).run hstep

end Recoverable

/-- The server is started for the first time: there are no snapshots. -/
structure FirstStart (filePrefix : Bytes) (s : State) : Prop where
  children : s.children = []
  had : s.had = [s.store]
  completed : s.completed = []
  stamped : s.stamped = []
  links : s.disk.AllLinks fun name link => SnapshotName filePrefix name → link = none

/-- A first start has no snapshots.
SOURCE: server.cc:160-163, 248-253, snapshotter.cc:53-150 -/
theorem FirstStart.recoverable (h : FirstStart filePrefix s) : Recoverable filePrefix s where
  links := h.links.mono fun name link hnone t inode ht hlink =>
    absurd ((hnone ⟨t, ht⟩).symm.trans hlink).symm (Option.some_ne_none _)
  inPhase child hchild := by simp [h.children] at hchild
  apart i j child child' _ hchild := by simp [h.children] at hchild
  durable t ht := by simp [h.completed] at ht
  had := by simp [h.had]
  forked child hchild := by simp [h.children] at hchild
  stamped t store hmem := by simp [h.stamped] at hmem

/-- **What a restart finds.**  Whatever the children, the server and the machine have gone
through, and whether the machine crashes once more: `Restore` succeeds, and loads a store the
server had, as some child has taken it and with a timestamp that no completed snapshot exceeds;
or the directory has no snapshot since the epoch, and nothing since then was completed.
SOURCE: snapshotter.cc:28-150, server.cc:150-166, 248-253 -/
theorem restart_recovers (filePrefix : Bytes) (hstart : FirstStart filePrefix s₀)
    (hrun : Reaches (fun s a s' => s.step filePrefix a = some s') State.Possible s₀ s)
    {files : Bytes → Option Node} (hfiles : s.disk.Seen files) {listing : List (Bytes × Node)}
    (hlisting : Lists files listing) :
    ∃ store, restore filePrefix files listing Store.empty = (true, store) ∧
      (store = Store.empty ∧ (∀ t ∈ s.completed, t < 0) ∨
        ∃ t, (t, store) ∈ s.stamped ∧ store ∈ s.had ∧ 0 ≤ t ∧ ∀ t' ∈ s.completed, t' ≤ t) := by
  have h : Recoverable filePrefix s :=
    hrun.invariant hstart.recoverable fun _ _ _ h hpossible hstep => h.step hpossible hstep
  obtain ⟨store, hrestore, hcases⟩ := restore_of_faithful h.links h.durable hfiles hlisting
  refine ⟨store, hrestore, hcases.imp_right ?_⟩
  rintro ⟨t, hmem, hpos, hbound⟩
  exact ⟨t, hmem, h.stamped t store hmem, hpos, hbound⟩

/-- A server on an empty directory, at time 7. -/
def firstStart : State := ⟨7, Store.empty, [], emptyDisk, [Store.empty], [], []⟩

/-- An empty directory is one.
SOURCE: server.cc:160-163, 248-253, snapshotter.cc:53-150 -/
theorem firstStart_firstStart (filePrefix : Bytes) : FirstStart filePrefix firstStart where
  children := rfl
  had := rfl
  completed := rfl
  stamped := rfl
  links := ⟨fun _ _ => rfl, fun _ _ => rfl, fun _ hu => absurd hu List.not_mem_nil⟩

/-- A call other than `mkstemp` is always possible.
SOURCE: server.cc:160-163, 248-253, snapshotter.cc:53-150 -/
theorem possible_call {i : ℕ} {outcome : Outcome}
    (h : ∀ file inode, outcome ≠ .created file inode) : s.Possible (.call i outcome) := by
  intro child storeJson t stage _ _
  refine ⟨?_, fun file inode heq => absurd heq (h file inode)⟩
  cases outcome with
  | created file inode => exact absurd rfl (h file inode)
  | wrote | interrupted | succeeded | failed => trivial

/-- A key is set and a child writes its snapshot, while another one is killed.
SOURCE: server.cc:160-163, 248-253, snapshotter.cc:53-150 -/
theorem reaches_completed :
    ∃ s, Reaches (fun s a s' => s.step (ascii "dump-") a = some s') State.Possible firstStart s ∧
      s.completed = [7] ∧ s.stamped = [(7, afterSet)] := by
  have hstart : Reaches (fun s a s' => State.step (ascii "dump-") s a = some s') State.Possible
    firstStart firstStart := .refl
  have hforked0 := hstart.tail (a := Action.fork) trivial rfl
  have hset := hforked0.tail (a := Action.execute setRequest) trivial rfl
  have hforked1 := hset.tail (a := Action.fork) trivial rfl
  have hserialised := hforked1.tail (a := Action.serialise 1 setEntries) trivial rfl
  have hstamped := hserialised.tail (a := Action.readClock 1) trivial rfl
  have hcreated := hstamped.tail (a := Action.call 1 (.created (ascii ".tmp-a1B2c3") 0)) (by
    intro child storeJson t stage hchild hphase
    cases hchild
    cases hphase
    refine ⟨possible_emptyDisk, ?_⟩
    intro file inode _ other hother temp htemp
    obtain rfl | hother := List.mem_cons.mp hother
    · cases htemp
    · obtain rfl := List.mem_singleton.mp hother
      cases htemp) rfl
  have hkilled := hcreated.tail (a := Action.kill 0) trivial rfl
  have hwritten := hkilled.tail (a := Action.call 1 (.wrote 31)) (possible_call (by simp)) rfl
  have hsynced := hwritten.tail (a := Action.call 1 .succeeded) (possible_call (by simp)) rfl
  have hclosed := hsynced.tail (a := Action.call 1 .succeeded) (possible_call (by simp)) rfl
  have hrenamed := hclosed.tail (a := Action.call 1 .succeeded) (possible_call (by simp)) rfl
  have hopened := hrenamed.tail (a := Action.call 1 .succeeded) (possible_call (by simp)) rfl
  have hsyncedDir := hopened.tail (a := Action.call 1 .succeeded) (possible_call (by simp)) rfl
  have hreturned := hsyncedDir.tail (a := Action.call 1 .succeeded) (possible_call (by simp)) rfl
  exact ⟨_, hreturned, rfl, rfl⟩

/-- After a crash the key is there again.
SOURCE: server.cc:160-163, 248-253, snapshotter.cc:53-150 -/
theorem restart_recovers_completed :
    ∃ s, Reaches (fun s a s' => s.step (ascii "dump-") a = some s') State.Possible firstStart s ∧
      s.completed = [7] ∧
      ∀ files, s.disk.Seen files → ∀ listing, Lists files listing →
        restore (ascii "dump-") files listing Store.empty = (true, afterSet) := by
  obtain ⟨s, hrun, hcompleted, hstamped⟩ := reaches_completed
  refine ⟨s, hrun, hcompleted, fun files hfiles listing hlisting => ?_⟩
  obtain ⟨store, hrestore, ⟨-, hnone⟩ | ⟨t, hmem, -⟩⟩ :=
    restart_recovers (ascii "dump-") (firstStart_firstStart _) hrun hfiles hlisting
  · rw [hcompleted] at hnone
    exact absurd (hnone 7 (List.mem_singleton_self 7)) (by decide)
  · rw [hstamped] at hmem
    cases List.mem_singleton.mp hmem
    exact hrestore

end Runs

end MyRedis.Analysis

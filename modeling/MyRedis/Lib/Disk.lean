import Mathlib.Data.List.Basic
import Mathlib.Logic.Function.Basic

/-!
# A directory on a disk that may crash

Names link to files by their inodes.  Content that has not been synchronised is lost in a crash
or replaced by anything, and of the changes of the directory since it was synchronised any
selection survives, each as a whole (`Crash`).

`KeepsNames` says what the names of a set have gone through: each still has its old link, whose
content is the old one and synchronised, or one that is `allowed`, now and after any crash.
The operations keep this (`KeepsNames.update`, `KeepsNames.put`, `KeepsNames.fsyncDir`), and what a
reader finds follows from it (`KeepsNames.seen`).

`AllLinks` says that every link satisfies a property, wherever it stands: in the directory, on the
disk or in a change that may survive a crash.  It is kept by any number of writers that each add
only such links, through crashes as well (`AllLinks.reboot`).
-/

set_option autoImplicit false

namespace MyRedis.Lib

/-- What a name in a directory stands for: a regular file with its content, or something else. -/
inductive FileNode (Byte : Type) where
  | file (content : List Byte)
  | other
  deriving DecidableEq

/-- What a name in a directory links to. -/
inductive Link where
  | file (inode : ℕ)
  | other
  deriving DecidableEq

/-- A change of a directory: the names it assigns, all at once. -/
abbrev DirUpdate (Name : Type) := List (Name × Option Link)

/-- A directory and the files it links to, as the system sees them and as they are on the disk. -/
structure Disk (Name Byte : Type) where
  dir : Name → Option Link
  stableDir : Name → Option Link
  pending : List (DirUpdate Name)
  content : ℕ → List Byte
  synced : ℕ → Bool

section Operations

variable {Name Byte : Type} [DecidableEq Name]

/-- A directory after an update. -/
def assign (dir : Name → Option Link) (u : DirUpdate Name) : Name → Option Link :=
  u.foldl (fun dir change => Function.update dir change.1 change.2) dir

namespace Disk

/-- The directory changes; the disk does not have the change yet. -/
def update (d : Disk Name Byte) (u : DirUpdate Name) : Disk Name Byte :=
  { d with dir := assign d.dir u, pending := d.pending ++ [u] }

/-- The content of a file changes, and with it whether the disk has it. -/
def put (d : Disk Name Byte) (inode : ℕ) (bytes : List Byte) (durable : Bool) : Disk Name Byte :=
  { d with
    content := Function.update d.content inode bytes
    synced := Function.update d.synced inode durable }

/-- A new, empty file. -/
def create (d : Disk Name Byte) (name : Name) (inode : ℕ) : Disk Name Byte :=
  (d.update [(name, some (.file inode))]).put inode [] false

def append (d : Disk Name Byte) (inode : ℕ) (bytes : List Byte) : Disk Name Byte :=
  d.put inode (d.content inode ++ bytes) false

def fsync (d : Disk Name Byte) (inode : ℕ) : Disk Name Byte := d.put inode (d.content inode) true

/-- The target is replaced at the same moment as the source disappears. -/
def rename (d : Disk Name Byte) (source target : Name) : Disk Name Byte :=
  d.update [(source, none), (target, d.dir source)]

def unlink (d : Disk Name Byte) (name : Name) : Disk Name Byte := d.update [(name, none)]

def fsyncDir (d : Disk Name Byte) : Disk Name Byte :=
  { d with stableDir := d.dir, pending := [] }

/-- No name links to the inode, now or after a crash. -/
def Unused (d : Disk Name Byte) (inode : ℕ) : Prop :=
  (∀ name, d.dir name ≠ some (.file inode)) ∧ (∀ name, d.stableDir name ≠ some (.file inode)) ∧
    ∀ u ∈ d.pending, ∀ name, (name, some (.file inode)) ∉ u

/-- What a reader finds under a link. -/
def node (d : Disk Name Byte) : Link → FileNode Byte
  | .file inode => .file (d.content inode)
  | .other => .other

/-- What a reader finds in the directory. -/
def view (d : Disk Name Byte) (name : Name) : Option (FileNode Byte) := (d.dir name).map d.node

/-- The disk after a crash. -/
def Crash (d d' : Disk Name Byte) : Prop :=
  (∃ kept : List (DirUpdate Name), kept.Sublist d.pending ∧
    d'.dir = kept.foldl assign d.stableDir) ∧
    ∀ inode, d.synced inode = true → d'.content inode = d.content inode

/-- The disk when the system is up again: all that is left is on the disk. -/
def Reboot (d d' : Disk Name Byte) : Prop :=
  Crash d d' ∧ d'.stableDir = d'.dir ∧ d'.pending = [] ∧ ∀ inode, d'.synced inode = true

/-- What a reader may find from now on: the directory as it is, or after a crash. -/
def Seen (d : Disk Name Byte) (files : Name → Option (FileNode Byte)) : Prop :=
  files = d.view ∨ ∃ d', Crash d d' ∧ files = d'.view

end Disk

end Operations

section Assign

variable {Name : Type} [DecidableEq Name]

/-- Where the link of a name comes from. -/
theorem assign_cases (dir : Name → Option Link) (u : DirUpdate Name) (name : Name) :
    assign dir u name = dir name ∨ (name, assign dir u name) ∈ u := by
  induction u generalizing dir with
  | nil => exact Or.inl rfl
  | cons change u ih =>
    have hcons : assign dir (change :: u) =
        assign (Function.update dir change.1 change.2) u := rfl
    rw [hcons]
    obtain hkept | hchanged := ih (Function.update dir change.1 change.2)
    · by_cases hname : name = change.1
      · right
        rw [hkept, hname, Function.update_self]
        exact List.mem_cons_self
      · left
        rw [hkept, Function.update_of_ne hname]
    · exact Or.inr (List.mem_cons_of_mem _ hchanged)

/-- Where the link of a name comes from, after several updates. -/
theorem foldl_assign_cases (dir : Name → Option Link) (us : List (DirUpdate Name)) (name : Name) :
    us.foldl assign dir name = dir name ∨ ∃ u ∈ us, (name, us.foldl assign dir name) ∈ u := by
  induction us generalizing dir with
  | nil => exact Or.inl rfl
  | cons u us ih =>
    rw [List.foldl_cons]
    obtain hkept | ⟨u', hu', hchanged⟩ := ih (assign dir u)
    · rw [hkept]
      obtain hkept | hchanged := assign_cases dir u name
      · exact Or.inl hkept
      · exact Or.inr ⟨u, List.mem_cons_self, hchanged⟩
    · exact Or.inr ⟨u', List.mem_cons_of_mem _ hu', hchanged⟩

namespace Disk

variable {Byte : Type} (d : Disk Name Byte)

/-- An update is applied to the directory at once. -/
@[simp] theorem update_dir (u : DirUpdate Name) : (d.update u).dir = assign d.dir u := rfl

/-- An update leaves the content of the files as it is. -/
@[simp] theorem update_content (u : DirUpdate Name) : (d.update u).content = d.content := rfl

/-- An update does not change which files are synchronised. -/
@[simp] theorem update_synced (u : DirUpdate Name) : (d.update u).synced = d.synced := rfl

end Disk

end Assign

namespace Disk

variable {Name Byte : Type} (d : Disk Name Byte) (inode : ℕ) (bytes : List Byte) (durable : Bool)

/-- Writing to a file leaves the directory as it is. -/
@[simp] theorem put_dir : (d.put inode bytes durable).dir = d.dir := rfl

/-- Writing to a file replaces its content. -/
@[simp] theorem put_content : (d.put inode bytes durable).content inode = bytes :=
  Function.update_self _ _ _

/-- Writing to a file says whether it is synchronised. -/
@[simp] theorem put_synced : (d.put inode bytes durable).synced inode = durable :=
  Function.update_self _ _ _

end Disk

/-! ## What is kept -/

section KeepsNames

variable {Name Byte : Type}

/-- The names of a set have their old links, with the old content, or links that are allowed. -/
structure KeepsNames (Kept : Name → Prop) (d₀ : Disk Name Byte)
    (allowed : Name → Option Link → Prop) (d : Disk Name Byte) : Prop where
  dir : ∀ name, Kept name → d.dir name = d₀.dir name ∨ allowed name (d.dir name)
  stable : ∀ name, Kept name → d.stableDir name = d₀.dir name ∨ allowed name (d.stableDir name)
  pending : ∀ u ∈ d.pending, ∀ name link, (name, link) ∈ u → Kept name → allowed name link
  content : ∀ name inode, Kept name → d₀.dir name = some (.file inode) →
    d.synced inode = true ∧ d.content inode = d₀.content inode

/-- The names of a set are on the disk as they are in the system. -/
def Settled (Kept : Name → Prop) (d : Disk Name Byte) : Prop :=
  KeepsNames Kept d (fun _ _ => False) d

variable {Kept : Name → Prop} {d₀ d : Disk Name Byte} {allowed allowed' : Name → Option Link → Prop}

namespace KeepsNames

/-- The names keep what they have when more links are allowed. -/
theorem mono (h : KeepsNames Kept d₀ allowed d)
    (hmono : ∀ name link, allowed name link → allowed' name link) :
    KeepsNames Kept d₀ allowed' d where
  dir name hname := (h.dir name hname).imp_right (hmono _ _)
  stable name hname := (h.stable name hname).imp_right (hmono _ _)
  pending u hu name link hmem hname := hmono _ _ (h.pending u hu name link hmem hname)
  content := h.content

/-- The content of a file that no name of the set had may change. -/
theorem put (h : KeepsNames Kept d₀ allowed d) {inode : ℕ}
    (hother : ∀ name, Kept name → d₀.dir name ≠ some (.file inode)) (bytes : List Byte)
    (durable : Bool) : KeepsNames Kept d₀ allowed (d.put inode bytes durable) where
  dir := h.dir
  stable := h.stable
  pending := h.pending
  content name inode' hname hlink := by
    have hne : inode' ≠ inode := by
      rintro rfl
      exact hother name hname hlink
    simp only [Disk.put, Function.update_of_ne hne]
    exact h.content name inode' hname hlink

/-- To synchronise the directory changes no link. -/
theorem fsyncDir (h : KeepsNames Kept d₀ allowed d) : KeepsNames Kept d₀ allowed d.fsyncDir where
  dir := h.dir
  stable := h.dir
  pending u hu := by cases hu
  content := h.content

variable [DecidableEq Name]

/-- An update of the directory keeps the names if what it assigns to them is allowed. -/
theorem update (h : KeepsNames Kept d₀ allowed d) {u : DirUpdate Name}
    (hu : ∀ name link, (name, link) ∈ u → Kept name → allowed name link) :
    KeepsNames Kept d₀ allowed (d.update u) where
  dir name hname := by
    rw [Disk.update_dir]
    obtain hkept | hchanged := assign_cases d.dir u name
    · rw [hkept]
      exact h.dir name hname
    · exact Or.inr (hu _ _ hchanged hname)
  stable := h.stable
  pending u' hu' name link hmem hname := by
    obtain hold | hnew := List.mem_append.mp hu'
    · exact h.pending u' hold name link hmem hname
    · rw [List.mem_singleton.mp hnew] at hmem
      exact hu name link hmem hname
  content := h.content

/-- The link a name of the set has after a crash. -/
theorem crash_dir {d' : Disk Name Byte} (h : KeepsNames Kept d₀ allowed d) (hcrash : d.Crash d')
    {name : Name} (hname : Kept name) : d'.dir name = d₀.dir name ∨ allowed name (d'.dir name) := by
  obtain ⟨⟨kept, hkept, hdir⟩, -⟩ := hcrash
  rw [hdir]
  obtain hstable | ⟨u, hu, hchanged⟩ := foldl_assign_cases d.stableDir kept name
  · rw [hstable]
    exact h.stable name hname
  · exact Or.inr (h.pending u (hkept.subset hu) name _ hchanged hname)

/-- **What a reader finds** under a name of the set: what was there before, or an allowed link. -/
theorem seen (h : KeepsNames Kept d₀ allowed d) {files : Name → Option (FileNode Byte)}
    (hfiles : d.Seen files) {name : Name} (hname : Kept name) :
    files name = d₀.view name ∨ ∃ link, allowed name link ∧ ∀ inode, link = some (.file inode) →
      d.synced inode = true → files name = some (.file (d.content inode)) := by
  -- the disk that is read: its links, and the content of what `d` has synchronised
  have hread : ∃ d' : Disk Name Byte, files = d'.view ∧
      (d'.dir name = d₀.dir name ∨ allowed name (d'.dir name)) ∧
      ∀ inode, d.synced inode = true → d'.content inode = d.content inode := by
    obtain hnow | ⟨d', hcrash, hlater⟩ := hfiles
    · exact ⟨d, hnow, h.dir name hname, fun _ _ => rfl⟩
    · exact ⟨d', hlater, h.crash_dir hcrash hname, hcrash.2⟩
  obtain ⟨d', rfl, hdir, hcontent⟩ := hread
  obtain hold | hnew := hdir
  · left
    rw [Disk.view, Disk.view, hold]
    cases hlink : d₀.dir name with
    | none => rfl
    | some link =>
      cases link with
      | other => rfl
      | file inode =>
        obtain ⟨hsynced, hsame⟩ := h.content name inode hname hlink
        simp only [Option.map_some, Disk.node, hcontent inode hsynced, hsame]
  · refine Or.inr ⟨d'.dir name, hnew, fun inode hlink hsynced => ?_⟩
    rw [Disk.view, hlink, Option.map_some, Disk.node, hcontent inode hsynced]

end KeepsNames

end KeepsNames

/-! ## A property of every link -/

section AllLinks

variable {Name Byte : Type}

/-- Every link that a name has, or has after some crash, satisfies a property. -/
structure Disk.AllLinks (P : Name → Option Link → Prop) (d : Disk Name Byte) : Prop where
  dir : ∀ name, P name (d.dir name)
  stable : ∀ name, P name (d.stableDir name)
  pending : ∀ u ∈ d.pending, ∀ name link, (name, link) ∈ u → P name link

namespace Disk.AllLinks

variable {P Q : Name → Option Link → Prop} {d d' : Disk Name Byte}

/-- A weaker property of the links. -/
theorem mono (h : d.AllLinks P) (hmono : ∀ name link, P name link → Q name link) :
    d.AllLinks Q where
  dir name := hmono _ _ (h.dir name)
  stable name := hmono _ _ (h.stable name)
  pending u hu name link hmem := hmono _ _ (h.pending u hu name link hmem)

/-- Two properties of the links at once. -/
theorem and (h : d.AllLinks P) (h' : d.AllLinks Q) :
    d.AllLinks fun name link => P name link ∧ Q name link where
  dir name := ⟨h.dir name, h'.dir name⟩
  stable name := ⟨h.stable name, h'.stable name⟩
  pending u hu name link hmem :=
    ⟨h.pending u hu name link hmem, h'.pending u hu name link hmem⟩

/-- The content of a file is not part of a link. -/
theorem put (h : d.AllLinks P) (inode : ℕ) (bytes : List Byte) (durable : Bool) :
    (d.put inode bytes durable).AllLinks P :=
  ⟨h.dir, h.stable, h.pending⟩

/-- To synchronise the directory makes links stable that are there already. -/
theorem fsyncDir (h : d.AllLinks P) : d.fsyncDir.AllLinks P where
  dir := h.dir
  stable := h.dir
  pending u hu := by cases hu

/-- No link leads to an inode that is not used. -/
theorem of_unused {inode : ℕ} (h : d.Unused inode) :
    d.AllLinks fun _ link => link ≠ some (.file inode) :=
  ⟨h.1, h.2.1, fun u hu name _ hmem hlink => h.2.2 u hu name (hlink ▸ hmem)⟩

variable [DecidableEq Name]

/-- An update that assigns only links with the property keeps it. -/
theorem update (h : d.AllLinks P) {u : DirUpdate Name}
    (hu : ∀ name link, (name, link) ∈ u → P name link) : (d.update u).AllLinks P where
  dir name := by
    rw [Disk.update_dir]
    obtain hkept | hchanged := assign_cases d.dir u name
    · rw [hkept]
      exact h.dir name
    · exact hu _ _ hchanged
  stable := h.stable
  pending u' hu' name link hmem := by
    obtain hold | hnew := List.mem_append.mp hu'
    · exact h.pending u' hold name link hmem
    · rw [List.mem_singleton.mp hnew] at hmem
      exact hu name link hmem

/-- A new name is one of the links. -/
theorem create (h : d.AllLinks P) {name : Name} {inode : ℕ} (hnew : P name (some (.file inode))) :
    (d.create name inode).AllLinks P := by
  refine (h.update fun name' link hmem => ?_).put inode [] false
  cases List.mem_singleton.mp hmem
  exact hnew

/-- After a rename the target has the link of the source, and the source has none. -/
theorem rename (h : d.AllLinks P) {source target : Name} (hsource : P source none)
    (htarget : P target (d.dir source)) : (d.rename source target).AllLinks P := by
  apply h.update
  intro name link hmem
  obtain hfirst | hsecond := List.mem_cons.mp hmem
  · cases hfirst
    exact hsource
  · cases List.mem_singleton.mp hsecond
    exact htarget

/-- A name that is removed has no link. -/
theorem unlink (h : d.AllLinks P) {name : Name} (hname : P name none) :
    (d.unlink name).AllLinks P := by
  apply h.update
  intro name' link hmem
  cases List.mem_singleton.mp hmem
  exact hname

/-- After a crash the links are among those that were there before. -/
theorem crash_dir (h : d.AllLinks P) (hcrash : d.Crash d') (name : Name) :
    P name (d'.dir name) := by
  obtain ⟨⟨kept, hkept, hdir⟩, -⟩ := hcrash
  rw [hdir]
  obtain hstable | ⟨u, hu, hchanged⟩ := foldl_assign_cases d.stableDir kept name
  · rw [hstable]
    exact h.stable name
  · exact h.pending u (hkept.subset hu) name _ hchanged

/-- **Crashes keep it.** -/
theorem reboot (h : d.AllLinks P) (hreboot : d.Reboot d') : d'.AllLinks P := by
  obtain ⟨hcrash, hstable, hpending, -⟩ := hreboot
  refine ⟨h.crash_dir hcrash, ?_, ?_⟩
  · rw [hstable]
    exact h.crash_dir hcrash
  · rw [hpending]
    exact fun u hu => absurd hu List.not_mem_nil

/-- **What a reader finds** comes from such a link, and is the content if that is synchronised. -/
theorem seen (h : d.AllLinks P) {files : Name → Option (FileNode Byte)} (hfiles : d.Seen files)
    (name : Name) : ∃ d' : Disk Name Byte, files name = d'.view name ∧ P name (d'.dir name) ∧
      ∀ inode, d.synced inode = true → d'.content inode = d.content inode := by
  obtain rfl | ⟨d', hcrash, rfl⟩ := hfiles
  · exact ⟨d, rfl, h.dir name, fun _ _ => rfl⟩
  · exact ⟨d', rfl, h.crash_dir hcrash name, hcrash.2⟩

end Disk.AllLinks

end AllLinks

end MyRedis.Lib

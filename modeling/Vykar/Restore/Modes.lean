import Vykar.Lib.ModeTree
import Vykar.Restore.Links

/-!
A restore by an ordinary user, with the mode bits of everything that is created
(`restore_with_filter`, `stream_and_plan`, `write_buf`).

The mode of a directory is set as soon as the directory has been created, that of a file only
after everything has been moved to the destination.  All calls succeed but for what mode bits
forbid, so the contents of files are left out, and so are the checks that a path stays inside the
destination: with the parents of all entries being directories no path leads through a link.
`alike_of_reaches` says that the files planned and the directories verified are the same as in
`Vykar.Restore.Model`.

Paths are relative to the destination.
-/

namespace Vykar.Restore

open Snapshot

structure ModeItem extends Item where
  mode : Nat

/-- What a restore of all items is given. -/
structure ModeInput where
  items : List ModeItem
  tempName : Name
  destMode : Nat
  /-- The modes of new directories and files; the umask leaves the bits of the owner. -/
  newDirMode : Nat
  newFileMode : Nat
  newDir_owner : ownerRead newDirMode = true ∧ ownerWrite newDirMode = true ∧
    ownerExec newDirMode = true
  newFile_owner : ownerRead newFileMode = true ∧ ownerWrite newFileMode = true
  /-- The name is drawn at random. -/
  temp_fresh : ∀ entry ∈ items, ∀ path, entry.normalPath = some path →
    path.head? ≠ some tempName

structure ModeFile where
  relPath : Path
  totalSize : Nat
  mode : Nat

structure ModeState where
  tree : ModeTree Name
  verifiedDirs : List Path
  planned : List ModeFile

namespace ModeInput

variable (input : ModeInput)

/-- `ensure_parent_exists_within_root`, unless the parent is a verified directory. -/
def prepareParent (tree : ModeTree Name) (verifiedDirs : List Path) (parent : Path) :
    Option (ModeTree Name) :=
  if parent ∈ verifiedDirs then some tree else tree.createDirAll input.newDirMode parent

/-- One item of `stream_and_plan`. -/
def restoreItem (state : ModeState) (entry : ModeItem) : Option ModeState :=
  match entry.entryType, entry.linkTarget, sanitizeItemPath entry.path with
  | .symlink, none, _ => some state
  | _, _, .error _ => none
  | .directory, _, .ok relPath => do
      let target := input.tempName :: relPath
      let tree ← state.tree.createDirAll input.newDirMode target
      some { state with
        tree := tree.chmod target entry.mode
        verifiedDirs := target :: state.verifiedDirs }
  | .symlink, some _, .ok relPath => do
      let target := input.tempName :: relPath
      let tree ← input.prepareParent state.tree state.verifiedDirs target.dropLast
      let tree ← ((tree.removeFile target).create ⟨.symlink, 0o777⟩ target).toOption
      some { state with tree }
  | .regularFile, _, .ok relPath =>
    some { state with
      planned := state.planned ++
        [⟨relPath, (entry.chunks.map ChunkRef.size).sum, entry.mode⟩] }

/-- One planned file of phase 3. -/
def prepareFile (verifiedDirs : List Path) (tree : ModeTree Name) (file : ModeFile) :
    Option (ModeTree Name) := do
  let target := input.tempName :: file.relPath
  let tree ← input.prepareParent tree verifiedDirs target.dropLast
  if file.totalSize = 0 then (tree.openWrite input.newFileMode target).toOption else some tree

/-- `write_buf` opens a file. -/
def openFile (tree : ModeTree Name) (file : ModeFile) : Option (ModeTree Name) :=
  (tree.openWrite input.newFileMode (input.tempName :: file.relPath)).toOption

/-- One entry of phase 5a. -/
def moveEntry (tree : ModeTree Name) (name : Name) : Option (ModeTree Name) :=
  (tree.rename [input.tempName, name] [name]).toOption

/-- The mode of one file in phase 5b, through a descriptor if the file can be opened. -/
def applyFileMode (tree : ModeTree Name) (file : ModeFile) : ModeTree Name :=
  if tree.canRead file.relPath then
    Function.update tree file.relPath
      ((tree file.relPath).map fun node => ⟨node.kind, permissionBits file.mode⟩)
  else tree.chmod file.relPath file.mode

def emptyDestination : ModeTree Name :=
  fun path => if path = [] then some ⟨.dir, input.destMode⟩ else none

/-- The state before the first item: the destination was listed and the temporary directory
created in it. -/
def start : Option ModeState := do
  let tree ← if ownerRead input.destMode then
      input.emptyDestination.createDirAll input.newDirMode [input.tempName]
    else none
  some ⟨tree, [[input.tempName]], []⟩

/-- A restore in which the threads open the given files in this order, and the entries of the
temporary directory are listed in the given order. -/
def restore (opens : List ModeFile) (names : List Name) : Option (ModeTree Name) := do
  let state ← input.start
  let state ← input.items.foldlM input.restoreItem state
  let tree ← state.planned.foldlM (input.prepareFile state.verifiedDirs) state.tree
  let tree ← opens.foldlM input.openFile tree
  let tree ← names.foldlM input.moveEntry tree
  -- the temporary directory is empty now and is removed
  let tree := Function.update tree [input.tempName] none
  some (state.planned.foldl applyFileMode tree)

end ModeInput

/-- The file that is planned for an item. -/
def ModeItem.file? (entry : ModeItem) : Option ModeFile :=
  if entry.entryType = .regularFile then
    entry.normalPath.map fun relPath =>
      ⟨relPath, (entry.chunks.map ChunkRef.size).sum, entry.mode⟩
  else none

/-- What all item streams of backups have in common: every directory comes before its entries, and
links have a target and the mode that links have. -/
structure BackupStream (items : List ModeItem) : Prop where
  parents : ∀ done entry rest, items = done ++ entry :: rest → ∀ path,
    entry.normalPath = some path → path.dropLast = [] ∨
      ∃ parent ∈ done, parent.entryType = .directory ∧ parent.normalPath = some path.dropLast
  links : ∀ entry ∈ items, entry.entryType = .symlink →
    entry.linkTarget.isSome = true ∧ permissionBits entry.mode = 0o777

/-- A restore refuses none of the paths. -/
def PathsAccepted (items : List ModeItem) : Prop :=
  ∀ entry ∈ items, entry.normalPath.isSome = true

def PathsDistinct (items : List ModeItem) : Prop :=
  items.Pairwise fun first second =>
    ∀ path, first.normalPath = some path → second.normalPath ≠ some path

/-- A stream with paths that are accepted and different. -/
structure PlainStream (items : List ModeItem) : Prop extends BackupStream items where
  accepted : PathsAccepted items
  distinct : PathsDistinct items

/-- The threads open the files that are not empty, each at least once, and the listing has each
entry of the temporary directory once. -/
structure ModeSchedule (items : List ModeItem) (opens : List ModeFile) (names : List Name) :
    Prop where
  opened : ∀ file, file ∈ opens ↔ file ∈ items.filterMap ModeItem.file? ∧ file.totalSize ≠ 0
  listed : ∀ name, name ∈ names ↔ ∃ entry ∈ items, entry.normalPath = some [name]
  once : names.Nodup

def ModeItem.node (entry : ModeItem) : ModeNode :=
  match entry.entryType with
  | .directory => ⟨.dir, permissionBits entry.mode⟩
  | .regularFile => ⟨.file, permissionBits entry.mode⟩
  | .symlink => ⟨.symlink, permissionBits entry.mode⟩

/-- The owner can use the destination, can change every directory that has entries, and can write
to every directory at the top. -/
structure ModesAllow (input : ModeInput) : Prop where
  dest : ownerRead input.destMode = true ∧ ownerWrite input.destMode = true ∧
    ownerExec input.destMode = true
  parents : ∀ parent ∈ input.items, parent.entryType = .directory → ∀ child ∈ input.items,
    ∀ path, child.normalPath = some path → parent.normalPath = some path.dropLast →
      ownerWrite parent.mode = true ∧ ownerExec parent.mode = true
  top : ∀ entry ∈ input.items, entry.entryType = .directory → ∀ name,
    entry.normalPath = some [name] → ownerWrite entry.mode = true

theorem restoreStep_streaming {includePath : List Char → Bool} {destination : Destination}
    {state next : RestoreState} {event : RestoreEvent} {rest : List Item}
    (stepped : restoreStep includePath destination state event = some next)
    (streaming : next.phase = .streaming rest) :
    ∃ item, state.phase = .streaming (item :: rest) ∧
      (state.restoreItem includePath destination.root item).phase ≠ .failed ∧
      next = { state.restoreItem includePath destination.root item with
        phase := .streaming rest } := by
  cases event with
  | error =>
    cases stepped
    cases streaming
  | _ =>
    simp only [restoreStep] at stepped
    split at stepped <;> grind [RestoreState.fail, RestoreState.afterCreating]

section Planning

variable {input : ModeInput} {dest : Path} {modes next : ModeState} {state : RestoreState}

def ModeFile.plain (file : ModeFile) : PlannedFile := ⟨file.relPath, file.totalSize⟩

/-- The files planned and the directories verified so far are those of `Vykar.Restore.Model`. -/
structure Alike (dest : Path) (modes : ModeState) (state : RestoreState) : Prop where
  planned : state.planned = modes.planned.map ModeFile.plain
  verified : state.verifiedDirs = modes.verifiedDirs.map (dest ++ ·)

theorem Alike.restoreItem (alike : Alike dest modes state) {entry : ModeItem}
    (accepted : input.restoreItem modes entry = some next)
    (restored : (state.restoreItem (fun _ => true) (dest ++ [input.tempName])
      entry.toItem).phase ≠ .failed) :
    Alike dest next
      (state.restoreItem (fun _ => true) (dest ++ [input.tempName]) entry.toItem) := by
  obtain ⟨planned, verified⟩ := alike
  unfold ModeInput.restoreItem at accepted
  unfold RestoreState.restoreItem at restored ⊢
  rw [if_pos rfl] at restored ⊢
  split at accepted
  · cases accepted
    rename_i isLink noTarget
    simpa only [isLink, noTarget] using Alike.mk planned verified
  · cases accepted
  · rename_i relPath isDirectory normal
    obtain ⟨tree, -, made⟩ := Option.bind_eq_some_iff.mp accepted
    cases made
    simp only [isDirectory, normal, RestoreState.restoreDirectory] at restored ⊢
    split at restored
    · rename_i created
      rw [if_pos created]
      exact ⟨planned, by simp [RestoreState.afterCreating, verified]⟩
    · exact absurd rfl restored
  · rename_i link relPath isLink isTarget normal
    obtain ⟨tree, -, rest⟩ := Option.bind_eq_some_iff.mp accepted
    obtain ⟨linked, -, made⟩ := Option.bind_eq_some_iff.mp rest
    cases made
    obtain ⟨samePlanned, sameVerified⟩ := state.restoreSymlink_fixed (dest ++ [input.tempName])
      (dest ++ [input.tempName] ++ relPath.dropLast) (relPath.getLastD []) link
    constructor
    · simpa only [isLink, isTarget, normal] using samePlanned.trans planned
    · simpa only [isLink, isTarget, normal] using sameVerified.trans verified
  · rename_i relPath isFile normal
    cases accepted
    simp only [isFile, normal, RestoreState.planFile] at restored ⊢
    split at restored
    · exact ⟨by simp [planned, ModeFile.plain], verified⟩
    · exact absurd rfl restored

/-- The two models plan the same files and verify the same directories, item by item, as long as
both go on. -/
theorem alike_of_reaches {allowed : RestoreState → RestoreEvent → Prop}
    (reached : (restoreSystem (fun _ => true) ⟨dest, input.tempName⟩
      (input.items.map ModeItem.toItem)).Reaches allowed state)
    {rest : List Item} (streaming : state.phase = .streaming rest) :
    ∃ done later, input.items = done ++ later ∧ rest = later.map ModeItem.toItem ∧
      ∀ first, input.start = some first → ∀ modes,
        done.foldlM input.restoreItem first = some modes → Alike dest modes state := by
  induction reached generalizing rest with
  | initial initially =>
    obtain ⟨-, -, verified, planned, -, phase, -⟩ := initially
    cases phase.symm.trans streaming
    refine ⟨[], input.items, rfl, rfl, fun first started modes folded => ?_⟩
    cases folded
    unfold ModeInput.start at started
    split at started
    · obtain ⟨tree, -, made⟩ := Option.bind_eq_some_iff.mp started
      cases made
      exact ⟨planned, verified⟩
    · cases started
  | step _ _ stepped ih =>
    obtain ⟨item, phase, restored, rfl⟩ := restoreStep_streaming stepped streaming
    obtain ⟨done, later, split, same, alike⟩ := ih phase
    cases later with
    | nil => cases same
    | cons entry later =>
      cases same
      refine ⟨done ++ [entry], later, by simp [split], rfl, fun first started modes folded => ?_⟩
      rw [List.foldlM_append] at folded
      obtain ⟨before, earlier, last⟩ := Option.bind_eq_some_iff.mp folded
      have accepted : input.restoreItem before entry = some modes := by simpa using last
      obtain ⟨planned, verified⟩ := (alike first started before earlier).restoreItem accepted restored
      exact ⟨planned, verified⟩

end Planning

end Vykar.Restore

import Vykar.Lib.SymlinkTree
import Vykar.Lib.TransitionSystem
import Vykar.Snapshot.Object

/-!
Restoring the items of a snapshot (`commands/restore.rs`).

Directories and symlinks are created while the items are decoded, files are planned and
opened later.  Everything happens in a temporary directory inside the destination, whose
entries are moved up at the end.  Modes, times and extended attributes are left out, and
so are the contents of files.
-/

namespace Vykar.Restore

open Index Snapshot

abbrev Name := List Char

abbrev Path := List Name

instance : LawfulBEq Name := inferInstance

instance : LawfulBEq Path := inferInstance

/-- `Path::components` of a relative path without its `.` components. -/
def pathComponents (raw : List Char) : List Name :=
  (raw.splitOn '/').filter fun component => component ≠ [] ∧ component ≠ ['.']

/-- `sanitize_item_path_into` -/
def sanitizeItemPath (raw : List Char) : Except VykarError Path :=
  if raw.head? = some '/' then
    .error (.invalidFormat ("refusing to restore absolute path: " ++ String.ofList raw))
  else if ['.', '.'] ∈ pathComponents raw then
    .error (.invalidFormat ("refusing to restore unsafe path: " ++ String.ofList raw))
  else if pathComponents raw = [] then
    .error (.invalidFormat ("refusing to restore empty path: " ++ String.ofList raw))
  else .ok (pathComponents raw)

/-- How the operating system reads the text of a link. -/
def readLink (text : List Char) : LinkTarget Name where
  absolute := text.head? = some '/'
  components := (text.splitOn '/').map fun component =>
    if component = [] ∨ component = ['.'] then .here
    else if component = ['.', '.'] then .up
    else .name component

/-- Text with a NUL cannot be passed to the operating system. -/
def hasNul (text : List Char) : Bool := text.contains (Char.ofNat 0)

/-- The number of links the operating system follows in one path. -/
def maxLinks : Nat := 40

abbrev FileSystem := SymlinkTree Name

def ensurePathWithinRoot (tree : FileSystem) (path root : Path) : Bool :=
  root.isPrefixOf (tree.nearestRev maxLinks path.reverse)

/-- Check, create with all parents and check again, as for directory items and as
`ensure_parent_exists_within_root` does for parents. -/
def createDirWithinRoot (tree : FileSystem) (path root : Path) : FileSystem × List Path × Bool :=
  if path.any hasNul then (tree, [], false)
  else if ensurePathWithinRoot tree path root then
    let (next, made, created) := tree.createDirAllRev maxLinks path.reverse
    (next, made, created && ensurePathWithinRoot next path root)
  else (tree, [], false)

structure PlannedFile where
  relPath : Path
  totalSize : Nat

inductive Phase where
  | streaming (items : List Item)
  | preparing (files : List PlannedFile)
  | writing
  | moving
  | failed

structure RestoreState where
  tree : FileSystem
  verifiedDirs : List Path
  planned : List PlannedFile
  /-- `expected_size` of the chunks planned so far. -/
  chunkSizes : Dict ChunkId Nat
  phase : Phase
  /-- Open files: the index of the planned file and the file that was opened. -/
  handles : List (Nat × Path)
  /-- The physical paths created, truncated or written so far. -/
  written : List Path

namespace RestoreState

def fail (state : RestoreState) : RestoreState := { state with phase := .failed }

def afterCreating (state : RestoreState) (tree : FileSystem) (made : List Path) : RestoreState :=
  { state with tree, written := state.written ++ made }

def restoreDirectory (state : RestoreState) (root target : Path) : RestoreState :=
  let (tree, made, created) := createDirWithinRoot state.tree target root
  let state := state.afterCreating tree made
  if created then { state with verifiedDirs := target :: state.verifiedDirs } else state.fail

/-- `ensure_parent_exists_within_root`, unless the parent is a verified directory. -/
def prepareParent (state : RestoreState) (root parent : Path) : RestoreState × Bool :=
  if parent ∈ state.verifiedDirs then (state, true)
  else
    let (tree, made, created) := createDirWithinRoot state.tree parent root
    (state.afterCreating tree made, created)

def restoreSymlink (state : RestoreState) (root parent : Path) (name : Name)
    (link : List Char) : RestoreState :=
  let (state, prepared) := state.prepareParent root parent
  if prepared && !(parent.any hasNul || hasNul name) then
    let tree := state.tree.unlink maxLinks parent name
    if link = [] ∨ hasNul link then { state with tree }.fail
    else
      match tree.symlink maxLinks parent name (readLink link) with
      | some (next, made) => state.afterCreating next [made]
      | none => { state with tree }.fail
  else state.fail

/-- Plan the chunks of a file; a chunk must have the same size wherever it occurs. -/
def planChunks (chunkSizes : Dict ChunkId Nat) : List ChunkRef → Option (Dict ChunkId Nat)
  | [] => some chunkSizes
  | chunk :: chunks =>
    if (chunkSizes.get? chunk.id).getD chunk.size = chunk.size then
      planChunks (chunkSizes.set chunk.id chunk.size) chunks
    else none

def planFile (state : RestoreState) (relPath : Path) (chunks : List ChunkRef) : RestoreState :=
  match planChunks state.chunkSizes chunks with
  | some chunkSizes =>
    { state with
      chunkSizes
      planned := state.planned ++ [⟨relPath, (chunks.map ChunkRef.size).sum⟩] }
  | none => state.fail

/-- One item of `stream_and_plan`. -/
def restoreItem (includePath : List Char → Bool) (root : Path) (state : RestoreState)
    (item : Item) : RestoreState :=
  if includePath item.path then
    match item.entryType, item.linkTarget, sanitizeItemPath item.path with
    -- a symlink without a target is skipped before its path is looked at
    | .symlink, none, _ => state
    | _, _, .error _ => state.fail
    | .directory, _, .ok relPath => state.restoreDirectory root (root ++ relPath)
    | .symlink, some link, .ok relPath =>
      state.restoreSymlink root (root ++ relPath.dropLast) (relPath.getLastD []) link
    | .regularFile, _, .ok relPath => state.planFile relPath item.chunks
  else state

def openPlanned (state : RestoreState) (root relPath : Path) : Option (FileSystem × Path) :=
  if relPath.any hasNul then none
  else state.tree.openCreate maxLinks (root ++ relPath.dropLast ++ [relPath.getLastD []])

/-- One planned file of phase 3: prepare its parent, and create it if it is empty. -/
def prepareFile (root : Path) (state : RestoreState) (file : PlannedFile) : RestoreState :=
  let (state, prepared) := state.prepareParent root (root ++ file.relPath.dropLast)
  if prepared then
    if file.totalSize = 0 then
      match state.openPlanned root file.relPath with
      | some (tree, opened) => state.afterCreating tree [opened]
      | none => state.fail
    else state
  else state.fail

end RestoreState

inductive RestoreEvent where
  | item
  | planned
  | prepare
  | prepared
  /-- A worker opens a planned file (`write_buf`). -/
  | openFile (index : Nat)
  | writeFile (index : Nat) (opened : Path)
  | finishWriting
  | move (name : Name)
  /-- A chunk is missing or unreadable, or a system call fails for another reason. -/
  | error

structure Destination where
  dest : Path
  tempName : Name

/-- `temp_root` -/
def Destination.root (destination : Destination) : Path :=
  destination.dest ++ [destination.tempName]

variable (includePath : List Char → Bool) (destination : Destination)

def restoreStep (state : RestoreState) : RestoreEvent → Option RestoreState
  | .item =>
    match state.phase with
    | .streaming (item :: items) =>
      let next := state.restoreItem includePath destination.root item
      match next.phase with
      | .failed => some next
      | _ => some { next with phase := .streaming items }
    | _ => none
  | .planned =>
    match state.phase with
    | .streaming [] => some { state with phase := .preparing state.planned }
    | _ => none
  | .prepare =>
    match state.phase with
    | .preparing (file :: files) =>
      let next := state.prepareFile destination.root file
      match next.phase with
      | .failed => some next
      | _ => some { next with phase := .preparing files }
    | _ => none
  | .prepared =>
    match state.phase with
    | .preparing [] => some { state with phase := .writing }
    | _ => none
  | .openFile index =>
    match state.phase, state.planned[index]? with
    | .writing, some file =>
      if file.totalSize = 0 then none
      else
        match state.openPlanned destination.root file.relPath with
        | some (tree, opened) =>
          some { state.afterCreating tree [opened] with
            handles := (index, opened) :: state.handles }
        | none => some state.fail
    | _, _ => none
  | .writeFile index opened =>
    match state.phase with
    | .writing =>
      if (index, opened) ∈ state.handles then
        some { state with written := state.written ++ [opened] }
      else none
    | _ => none
  | .finishWriting =>
    match state.phase with
    | .writing => some { state with phase := .moving }
    | _ => none
  | .move name =>
    match state.phase with
    | .moving =>
      if canMove : state.tree.CanMove (destination.root ++ [name])
          (destination.dest ++ [name]) then
        some { state with
          tree := state.tree.rename _ _ canMove
          written := state.written ++ [destination.dest ++ [name]] }
      else some state.fail
    | _ => none
  | .error => some state.fail

/-- The temporary directory has just been created in the empty destination. -/
def restoreSystem (items : List Item) : TransitionSystem RestoreState RestoreEvent where
  initial state :=
    state.tree.node destination.root = some .dir ∧
    (∀ path, destination.dest <+: path → path ≠ destination.dest → path ≠ destination.root →
      state.tree.node path = none) ∧
    state.verifiedDirs = [destination.root] ∧ state.planned = [] ∧ state.chunkSizes = ∅ ∧
    state.phase = .streaming items ∧ state.handles = [] ∧ state.written = [destination.root]
  step := restoreStep includePath destination

end Vykar.Restore

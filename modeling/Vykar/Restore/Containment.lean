import Vykar.Restore.Model

/-!
Where a restore writes.

The check before a directory is created keeps every new directory below the temporary
root, however links were placed before.  Files and symlinks are created in parents that were
checked, so they stay inside as well, provided that no file is opened through a link and
that a parent taken from the verified directories is still free of links.
-/

namespace Vykar.Restore

open Snapshot SymlinkTree

variable {includePath : List Char → Bool} {destination : Destination} {tree next : FileSystem}
  {root parent path : Path} {name : Name} {state : RestoreState}

def EntryPlain (tree : FileSystem) (parent : Path) (name : Name) : Prop :=
  ∀ dir, tree.lookup maxLinks parent = .found dir →
    ∀ target, tree.node (dir ++ [name]) ≠ some (.symlink target)

def ParentSafe (root : Path) (tree : FileSystem) (parent : Path) : Prop :=
  (∃ dir, tree.lookup maxLinks parent = .found dir ∧ root <+: dir) ∨
    tree.Unlinked parent ∧ root <+: parent

theorem ParentSafe.grows (safe : ParentSafe root tree parent) (grows : tree.Grows next) :
    ParentSafe root next parent := by
  rcases safe with ⟨dir, found, inside⟩ | ⟨unlinked, inside⟩
  · exact Or.inl ⟨dir, lookup_extends grows.keeps found, inside⟩
  · exact Or.inr ⟨unlinked.grows grows, inside⟩

theorem ParentSafe.inside {dir : Path} (safe : ParentSafe root tree parent)
    (found : tree.lookup maxLinks parent = .found dir) : root <+: dir := by
  rcases safe with ⟨other, otherFound, inside⟩ | ⟨unlinked, inside⟩
  · exact Lookup.found.inj (otherFound.symm.trans found) ▸ inside
  · exact (lookup_unlinked unlinked found).symm ▸ inside

theorem inside_of_ensured {dir : Path} (ensured : ensurePathWithinRoot tree path root = true)
    (found : tree.lookup maxLinks path = .found dir) : root <+: dir := by
  have nearest : tree.nearestRev maxLinks path.reverse = dir :=
    nearestRev_of_found (by rwa [List.reverse_reverse])
  rw [ensurePathWithinRoot, nearest] at ensured
  exact List.isPrefixOf_iff_prefix.mp ensured

structure CreatesInside (root path : Path) (tree : FileSystem)
    (result : FileSystem × List Path × Bool) : Prop where
  inside : ∀ made ∈ result.2.1, root <+: made
  grows : tree.Grows result.1
  safe : result.2.2 = true → ParentSafe root result.1 path
  plain : result.2.2 = true → ∀ name, EntryPlain tree path name → EntryPlain result.1 path name

theorem createDirWithinRoot_inside (tree : FileSystem) (path root : Path) :
    CreatesInside root path tree (createDirWithinRoot tree path root) := by
  have refused : CreatesInside root path tree (tree, [], false) :=
    ⟨by simp, .refl tree, by simp, by simp⟩
  unfold createDirWithinRoot
  split
  · exact refused
  · split
    · rename_i ensured
      have creates := createsBelow maxLinks tree path.reverse
      generalize tree.createDirAllRev maxLinks path.reverse = result at creates
      obtain ⟨next, made, created⟩ := result
      rw [ensurePathWithinRoot] at ensured
      have below := List.isPrefixOf_iff_prefix.mp ensured
      simp only
      refine ⟨fun path listed => below.trans (creates.below path listed), creates.grows,
        fun done => ?_, fun done name plain => ?_⟩
      · rw [Bool.and_eq_true] at done
        obtain ⟨dir, found, -⟩ := found_of_isDirAt (creates.isDir done.1)
        rw [List.reverse_reverse] at found
        exact Or.inl ⟨dir, found, inside_of_ensured done.2 found⟩
      · rw [Bool.and_eq_true] at done
        intro dir found target linked
        by_cases existed : ∃ before, tree.lookup maxLinks path = .found before
        · obtain ⟨before, foundBefore⟩ := existed
          have same := lookup_extends creates.grows.keeps foundBefore
          obtain rfl := Lookup.found.inj (same.symm.trans found)
          exact plain before foundBefore target (creates.grows.unlinked _ target linked)
        · -- the directory is new and has no entries
          have fresh := creates.fresh done.1
          rw [List.reverse_reverse] at fresh
          obtain ⟨new, newFound, -, -, empty⟩ := fresh fun physical reached =>
            existed ⟨physical, reached⟩
          obtain rfl := Lookup.found.inj (newFound.symm.trans found)
          rw [empty name] at linked
          cases linked
    · exact refused

/-- A parent that is taken from the verified directories has no link on its way. -/
def VerifiedUnlinked (state : RestoreState) (parent : Path) : Prop :=
  parent ∈ state.verifiedDirs → state.tree.Unlinked parent

structure PreparesParent (root parent : Path) (state : RestoreState)
    (result : RestoreState × Bool) : Prop where
  same : result.1 = { state with tree := result.1.tree, written := result.1.written }
  inside : ∀ path ∈ result.1.written, path ∈ state.written ∨ root <+: path
  grows : state.tree.Grows result.1.tree
  safe : result.2 = true → ParentSafe root result.1.tree parent
  plain : result.2 = true → ∀ name, EntryPlain state.tree parent name →
    EntryPlain result.1.tree parent name

theorem prepareParent_prepares (below : root <+: parent)
    (unlinked : VerifiedUnlinked state parent) :
    PreparesParent root parent state (state.prepareParent root parent) := by
  unfold RestoreState.prepareParent
  split
  · rename_i verified
    exact ⟨rfl, fun path listed => Or.inl listed, .refl _,
      fun _ => Or.inr ⟨unlinked verified, below⟩, fun _ _ plain => plain⟩
  · have creates := createDirWithinRoot_inside state.tree parent root
    generalize createDirWithinRoot state.tree parent root = result at creates
    obtain ⟨tree, made, created⟩ := result
    refine ⟨rfl, fun path listed => ?_, creates.grows, creates.safe, creates.plain⟩
    exact (List.mem_append.mp listed).imp_right (creates.inside path)

/-- The steps that do not open a file through a link and do not trust a verified directory with
a link on its way. -/
def FollowsNoLink (includePath : List Char → Bool) (destination : Destination)
    (state : RestoreState) (event : RestoreEvent) : Prop :=
  match event, state.phase with
  | .item, .streaming (item :: _) =>
    ∀ relPath, includePath item.path = true → item.entryType = .symlink →
      sanitizeItemPath item.path = .ok relPath →
      VerifiedUnlinked state (destination.root ++ relPath.dropLast)
  | .prepare, .preparing (file :: _) =>
    VerifiedUnlinked state (destination.root ++ file.relPath.dropLast) ∧
      (file.totalSize = 0 → EntryPlain state.tree (destination.root ++ file.relPath.dropLast)
        (file.relPath.getLastD []))
  | .openFile index, .writing =>
    ∀ file, state.planned[index]? = some file →
      EntryPlain state.tree (destination.root ++ file.relPath.dropLast)
        (file.relPath.getLastD [])
  | _, _ => True

def Prepared (root : Path) (state : RestoreState) : Prop :=
  match state.phase with
  | .preparing files => ∃ done, state.planned = done ++ files ∧
      ∀ file ∈ done, ParentSafe root state.tree (root ++ file.relPath.dropLast)
  | .writing => ∀ file ∈ state.planned, ParentSafe root state.tree (root ++ file.relPath.dropLast)
  | .streaming _ | .moving | .failed => True

structure Contained (destination : Destination) (state : RestoreState) : Prop where
  written : ∀ path ∈ state.written, destination.dest <+: path
  handles : ∀ handle ∈ state.handles, destination.dest <+: handle.2
  prepared : Prepared destination.root state

theorem Destination.inside_of_root (below : destination.root <+: path) :
    destination.dest <+: path :=
  (List.prefix_append destination.dest [destination.tempName]).trans below

/-- A file opened through no link is in the directory of its parent. -/
theorem openPlanned_inside {relPath opened : Path}
    (isOpen : state.openPlanned root relPath = some (next, opened))
    (safe : ParentSafe root state.tree (root ++ relPath.dropLast))
    (plain : EntryPlain state.tree (root ++ relPath.dropLast) (relPath.getLastD [])) :
    state.tree.Grows next ∧ root <+: opened := by
  unfold RestoreState.openPlanned at isOpen
  split at isOpen
  · cases isOpen
  · obtain ⟨grows, -, dir, found, rfl⟩ := openCreate_entry isOpen plain
    exact ⟨grows, (safe.inside found).trans (List.prefix_append dir _)⟩

structure WritesInside (root : Path) (state next : RestoreState) : Prop where
  handles : next.handles = state.handles
  inside : ∀ path ∈ next.written, path ∈ state.written ∨ root <+: path

theorem WritesInside.contained {state next : RestoreState} (contained : Contained destination state)
    (writes : WritesInside destination.root state next)
    (prepared : Prepared destination.root next) : Contained destination next where
  written path listed := by
    rcases writes.inside path listed with before | below
    · exact contained.written path before
    · exact Destination.inside_of_root below
  handles handle listed := contained.handles handle (writes.handles ▸ listed)
  prepared := prepared

theorem WritesInside.of_prepares {result : RestoreState × Bool}
    (prepares : PreparesParent root parent state result) : WritesInside root state result.1 :=
  ⟨by rw [prepares.same], prepares.inside⟩

theorem restoreDirectory_inside (state : RestoreState) (root target : Path) :
    WritesInside root state (state.restoreDirectory root target) := by
  have creates := createDirWithinRoot_inside state.tree target root
  unfold RestoreState.restoreDirectory
  generalize createDirWithinRoot state.tree target root = result at creates
  obtain ⟨tree, made, created⟩ := result
  simp only
  split <;>
    exact ⟨rfl, fun path listed => (List.mem_append.mp listed).imp_right (creates.inside path)⟩

theorem restoreSymlink_inside (below : root <+: parent) (unlinked : VerifiedUnlinked state parent)
    (name : Name) (link : List Char) :
    WritesInside root state (state.restoreSymlink root parent name link) := by
  have prepares := prepareParent_prepares below unlinked
  have before := WritesInside.of_prepares prepares
  unfold RestoreState.restoreSymlink
  generalize state.prepareParent root parent = result at prepares before
  obtain ⟨middle, prepared⟩ := result
  simp only
  split
  · rename_i ready
    have safe := prepares.safe (Bool.and_eq_true_iff.mp ready).1
    split
    · exact ⟨before.handles, before.inside⟩
    · split
      · rename_i next made created
        obtain ⟨dir, found, rfl, -⟩ := symlink_entry created
        -- removing the old entry cannot make the parent lead elsewhere
        have foundBefore := lookup_extends (unlink_extends maxLinks middle.tree parent name) found
        refine ⟨before.handles, fun path listed => ?_⟩
        rcases List.mem_append.mp listed with earlier | isNew
        · exact before.inside path earlier
        · obtain rfl := List.mem_singleton.mp isNew
          exact Or.inr ((safe.inside foundBefore).trans (List.prefix_append dir _))
      · exact ⟨before.handles, before.inside⟩
  · exact ⟨before.handles, before.inside⟩

theorem planFile_inside (state : RestoreState) (root relPath : Path) (chunks : List ChunkRef) :
    WritesInside root state (state.planFile relPath chunks) := by
  unfold RestoreState.planFile
  split <;> exact ⟨rfl, fun path listed => Or.inl listed⟩

theorem restoreItem_inside {item : Item}
    (unlinked : ∀ relPath, includePath item.path = true → item.entryType = .symlink →
      sanitizeItemPath item.path = .ok relPath →
        VerifiedUnlinked state (root ++ relPath.dropLast)) :
    WritesInside root state (state.restoreItem includePath root item) := by
  have unchanged {next : RestoreState} (sameHandles : next.handles = state.handles)
      (sameWritten : next.written = state.written) : WritesInside root state next :=
    ⟨sameHandles, fun path listed => Or.inl (sameWritten ▸ listed)⟩
  unfold RestoreState.restoreItem
  split
  · rename_i included
    split
    · exact unchanged rfl rfl
    · exact unchanged rfl rfl
    · exact restoreDirectory_inside _ _ _
    · rename_i isSymlink _ sanitized
      exact restoreSymlink_inside (List.prefix_append root _)
        (unlinked _ included isSymlink sanitized) _ _
    · exact planFile_inside _ _ _ _
  · exact unchanged rfl rfl

theorem prepareFile_inside {file : PlannedFile}
    (unlinked : VerifiedUnlinked state (root ++ file.relPath.dropLast))
    (plain : file.totalSize = 0 → EntryPlain state.tree (root ++ file.relPath.dropLast)
      (file.relPath.getLastD [])) :
    WritesInside root state (state.prepareFile root file) ∧
    (state.prepareFile root file).planned = state.planned ∧
    state.tree.Grows (state.prepareFile root file).tree ∧
    ((state.prepareFile root file).phase = .failed ∨
      ParentSafe root (state.prepareFile root file).tree (root ++ file.relPath.dropLast)) := by
  have prepares := prepareParent_prepares (List.prefix_append root _) unlinked
  have before := WritesInside.of_prepares prepares
  have samePlanned := congrArg RestoreState.planned prepares.same
  unfold RestoreState.prepareFile
  generalize state.prepareParent root (root ++ file.relPath.dropLast) = result
    at prepares before samePlanned
  obtain ⟨middle, prepared⟩ := result
  simp only at *
  split
  · rename_i isPrepared
    split
    · rename_i isEmpty
      split
      · rename_i tree opened isOpen
        obtain ⟨growsOpen, inside⟩ := openPlanned_inside isOpen (prepares.safe isPrepared)
          (prepares.plain isPrepared _ (plain isEmpty))
        refine ⟨⟨before.handles, fun path listed => ?_⟩, samePlanned,
          prepares.grows.trans growsOpen, Or.inr ((prepares.safe isPrepared).grows growsOpen)⟩
        rcases List.mem_append.mp listed with earlier | isNew
        · exact before.inside path earlier
        · exact Or.inr (List.mem_singleton.mp isNew ▸ inside)
      · exact ⟨⟨before.handles, before.inside⟩, samePlanned, prepares.grows, Or.inl rfl⟩
    · exact ⟨before, samePlanned, prepares.grows, Or.inr (prepares.safe isPrepared)⟩
  · exact ⟨⟨before.handles, before.inside⟩, samePlanned, prepares.grows, Or.inl rfl⟩

theorem Prepared.of_failed (failed : state.phase = .failed) : Prepared root state := by
  simp only [Prepared, failed]

section

variable (contained : Contained destination state)

include contained

theorem Contained.item {next : RestoreState} {item : Item} {items : List Item}
    (phase : state.phase = .streaming (item :: items))
    (follows : FollowsNoLink includePath destination state .item)
    (stepped : restoreStep includePath destination state .item = some next) :
    Contained destination next := by
  simp only [FollowsNoLink, phase] at follows
  have writes := @restoreItem_inside includePath destination.root state item follows
  simp only [restoreStep, phase] at stepped
  split at stepped
  · rename_i failed
    cases stepped
    exact writes.contained contained (.of_failed failed)
  · cases stepped
    exact WritesInside.contained contained ⟨writes.handles, writes.inside⟩ trivial

theorem Contained.prepare {next : RestoreState} {file : PlannedFile} {files : List PlannedFile}
    (phase : state.phase = .preparing (file :: files))
    (follows : FollowsNoLink includePath destination state .prepare)
    (stepped : restoreStep includePath destination state .prepare = some next) :
    Contained destination next := by
  simp only [FollowsNoLink, phase] at follows
  obtain ⟨writes, samePlanned, grows, safe⟩ := prepareFile_inside follows.1 follows.2
  have before := contained.prepared
  simp only [Prepared, phase] at before
  obtain ⟨done, planned, doneSafe⟩ := before
  simp only [restoreStep, phase] at stepped
  split at stepped
  · rename_i failed
    cases stepped
    exact writes.contained contained (.of_failed failed)
  · rename_i notFailed
    cases stepped
    refine WritesInside.contained contained ⟨writes.handles, writes.inside⟩ ?_
    refine ⟨done ++ [file], ?_, fun other listed => ?_⟩
    · rw [List.append_assoc, List.singleton_append, ← planned]
      exact samePlanned
    · rcases List.mem_append.mp listed with earlier | last
      · exact (doneSafe other earlier).grows grows
      · obtain rfl := List.mem_singleton.mp last
        exact safe.resolve_left fun failed => notFailed failed

theorem Contained.openFile {next : RestoreState} {index : Nat} (phase : state.phase = .writing)
    (follows : FollowsNoLink includePath destination state (.openFile index))
    (stepped : restoreStep includePath destination state (.openFile index) = some next) :
    Contained destination next := by
  have safe := contained.prepared
  simp only [FollowsNoLink, phase] at follows
  simp only [Prepared, phase] at safe
  simp only [restoreStep, phase] at stepped
  split at stepped
  · rename_i file _ found
    split at stepped
    · cases stepped
    · split at stepped
      · rename_i tree opened isOpen
        cases stepped
        obtain ⟨grows, below⟩ := openPlanned_inside isOpen
          (safe file (List.mem_of_getElem? found)) (follows file found)
        have inside := Destination.inside_of_root below
        refine ⟨fun path listed => ?_, fun handle listed => ?_, ?_⟩
        · rcases List.mem_append.mp listed with earlier | isNew
          · exact contained.written path earlier
          · exact List.mem_singleton.mp isNew ▸ inside
        · rcases List.mem_cons.mp listed with rfl | earlier
          · exact inside
          · exact contained.handles handle earlier
        · simp only [Prepared, RestoreState.afterCreating, phase]
          exact fun other listed => (safe other listed).grows grows
      · cases stepped
        exact ⟨contained.written, contained.handles, trivial⟩
  · cases stepped

theorem Contained.step {next : RestoreState} {event : RestoreEvent}
    (follows : FollowsNoLink includePath destination state event)
    (stepped : restoreStep includePath destination state event = some next) :
    Contained destination next := by
  cases event with
  | item =>
    cases phase : state.phase with
    | streaming items =>
      cases items with
      | nil => simp [restoreStep, phase] at stepped
      | cons item items => exact contained.item phase follows stepped
    | preparing | writing | moving | failed => simp [restoreStep, phase] at stepped
  | prepare =>
    cases phase : state.phase with
    | preparing files =>
      cases files with
      | nil => simp [restoreStep, phase] at stepped
      | cons file files => exact contained.prepare phase follows stepped
    | streaming | writing | moving | failed => simp [restoreStep, phase] at stepped
  | openFile index =>
    cases phase : state.phase with
    | writing => exact contained.openFile phase follows stepped
    | streaming | preparing | moving | failed => simp [restoreStep, phase] at stepped
  | planned =>
    simp only [restoreStep] at stepped
    split at stepped
    · cases stepped
      exact ⟨contained.written, contained.handles, [], rfl, by simp⟩
    · cases stepped
  | prepared =>
    simp only [restoreStep] at stepped
    split at stepped
    · rename_i phase
      cases stepped
      have done := contained.prepared
      simp only [Prepared, phase, List.append_nil] at done
      obtain ⟨files, planned, safe⟩ := done
      exact ⟨contained.written, contained.handles, planned ▸ safe⟩
    · cases stepped
  | writeFile index opened =>
    simp only [restoreStep] at stepped
    split at stepped
    · rename_i phase
      split at stepped
      · rename_i isOpen
        cases stepped
        refine ⟨fun path listed => ?_, contained.handles, contained.prepared⟩
        rcases List.mem_append.mp listed with earlier | isNew
        · exact contained.written path earlier
        · exact List.mem_singleton.mp isNew ▸ contained.handles _ isOpen
      · cases stepped
    · cases stepped
  | finishWriting =>
    simp only [restoreStep] at stepped
    split at stepped
    · cases stepped
      exact ⟨contained.written, contained.handles, trivial⟩
    · cases stepped
  | move name =>
    simp only [restoreStep] at stepped
    split at stepped
    · rename_i phase
      split at stepped
      · cases stepped
        refine ⟨fun path listed => ?_, contained.handles, ?_⟩
        · rcases List.mem_append.mp listed with earlier | isNew
          · exact contained.written path earlier
          · exact List.mem_singleton.mp isNew ▸ List.prefix_append _ _
        · simp only [Prepared, phase]
      · cases stepped
        exact ⟨contained.written, contained.handles, trivial⟩
    · cases stepped
  | error =>
    cases stepped
    exact ⟨contained.written, contained.handles, trivial⟩

end

theorem restore_writes_inside {items : List Item}
    (reached : (restoreSystem includePath destination items).Reaches
      (FollowsNoLink includePath destination) state) :
    ∀ path ∈ state.written, destination.dest <+: path := by
  have contained : Contained destination state := by
    refine reached.invariant _ (fun start initial => ?_)
      fun _ _ _ contained follows stepped => contained.step follows stepped
    obtain ⟨-, -, -, -, -, phase, handles, written⟩ := initial
    refine ⟨?_, by simp [handles], by simp only [Prepared, phase]⟩
    rw [written]
    intro path listed
    rw [List.mem_singleton.mp listed]
    exact List.prefix_append _ _
  exact contained.written

/-- The destination `/d` with its temporary directory, a directory `/o` and a file `/s`. -/
def smallTree : FileSystem where
  node path :=
    if path ∈ [[], [['d']], [['d'], ['t']], [['o']]] then some .dir
    else if path = [['s']] then some .file
    else none
  root := rfl
  closed path name occupied := by
    have split (front : Path) (last : Name) (same : path ++ [name] = front ++ [last]) :
        path = front := List.append_inj_left' same rfl
    by_cases isDir : path ++ [name] ∈ ([[], [['d']], [['d'], ['t']], [['o']]] : List Path)
    · simp only [List.mem_cons, List.not_mem_nil, or_false, List.append_eq_nil_iff,
        List.cons_ne_nil, and_false, false_or] at isDir
      rcases isDir with same | same | same
      · rw [split [] ['d'] same]
        rfl
      · rw [split [['d']] ['t'] same]
        rfl
      · rw [split [] ['o'] same]
        rfl
    · rw [if_neg isDir] at occupied
      split at occupied
      · rename_i same
        rw [split [] ['s'] same]
        rfl
      · cases occupied

def smallDestination : Destination := ⟨[['d']], ['t']⟩

def smallStart (items : List Item) : RestoreState :=
  ⟨smallTree, [smallDestination.root], [], ∅, .streaming items, [], [smallDestination.root]⟩

theorem smallStart_initial (items : List Item) :
    (restoreSystem includePath smallDestination items).initial (smallStart items) := by
  refine ⟨rfl, fun path inside notDest notRoot => ?_, rfl, rfl, rfl, rfl, rfl, rfl⟩
  obtain ⟨rest, rfl⟩ := inside
  have notDir : [['d']] ++ rest ∉ ([[], [['d']], [['d'], ['t']], [['o']]] : List Path) := by
    simp only [List.mem_cons, List.not_mem_nil, or_false, not_or]
    exact ⟨by simp, notDest, notRoot, by simp⟩
  have notFile : [['d']] ++ rest ≠ [['s']] := by simp
  exact (if_neg notDir).trans (if_neg notFile)

section Deciding

variable (tree : FileSystem) (path : Path) (name : Name)

instance decidablePlain : Decidable (∀ target, tree.node path ≠ some (.symlink target)) :=
  match tree.node path with
  | some (.symlink target) => isFalse fun plain => plain target rfl
  | some .dir | some .file | none => isTrue fun _ => nofun

instance decidableUnlinked : Decidable (tree.Unlinked path) :=
  decidable_of_iff (∀ before ∈ path.inits, ∀ target, tree.node before ≠ some (.symlink target))
    (by simp only [List.mem_inits, SymlinkTree.Unlinked])

instance decidableEntryPlain : Decidable (EntryPlain tree path name) :=
  match found : tree.lookup maxLinks path with
  | .found dir =>
    decidable_of_iff (∀ target, tree.node (dir ++ [name]) ≠ some (.symlink target))
      ⟨fun plain _ same => Lookup.found.inj (found.symm.trans same) ▸ plain,
        fun plain => plain dir found⟩
  | .missing _ | .notFound | .failed => isTrue fun _ same => by cases found.symm.trans same

end Deciding

/-- A directory with an empty file, and a link to the directory. -/
def linkedItems : List Item :=
  [⟨['a'], .directory, none, []⟩, ⟨['l'], .symlink, some ['a'], []⟩,
    ⟨['a', '/', 'f'], .regularFile, none, []⟩]

theorem restore_writes_inside_linked :
    ∃ state ∈ (restoreSystem (fun _ => true) smallDestination linkedItems).run
      (smallStart linkedItems) [.item, .item, .item, .planned, .prepare],
      [['d'], ['t'], ['l']] ∈ state.written ∧ [['d'], ['t'], ['a'], ['f']] ∈ state.written ∧
        ∀ path ∈ state.written, [['d']] <+: path := by
  have runs : ∃ state ∈ (restoreSystem (fun _ => true) smallDestination linkedItems).run
      (smallStart linkedItems) [.item, .item, .item, .planned, .prepare],
      [['d'], ['t'], ['l']] ∈ state.written ∧
        [['d'], ['t'], ['a'], ['f']] ∈ state.written := by decide +kernel
  have follows : (restoreSystem (fun _ => true) smallDestination linkedItems).RunAllowed
      (FollowsNoLink (fun _ => true) smallDestination) (smallStart linkedItems)
      [.item, .item, .item, .planned, .prepare] := by
    refine ⟨fun _ _ isLink => (by cases isLink), fun first stepped => ?_⟩
    cases stepped
    refine ⟨fun relPath _ _ accepted => ?_, fun second stepped => ?_⟩
    · cases accepted
      exact fun _ => by decide +kernel
    cases stepped
    refine ⟨fun _ _ isLink => (by cases isLink), fun third stepped => ?_⟩
    cases stepped
    refine ⟨trivial, fun fourth stepped => ?_⟩
    cases stepped
    exact ⟨⟨fun _ => by decide +kernel, fun _ => by decide +kernel⟩, fun _ _ => trivial⟩
  obtain ⟨state, ran, linked, created⟩ := runs
  exact ⟨state, ran, linked, created,
    restore_writes_inside (.run (.initial (smallStart_initial _)) follows ran)⟩

/-- A file is opened through a symlink that was restored in its place, and a file is created
through a verified directory that was a symlink and has been replaced by another one. -/
theorem restore_writes_outside :
    (∃ state, (restoreSystem (fun _ => true) smallDestination
        [⟨['x'], .symlink, some ['/', 's'], []⟩, ⟨['x'], .regularFile, none, []⟩]).Reaches
        (fun _ _ => True) state ∧
      [['s']] ∈ state.written ∧ ¬ smallDestination.dest <+: [['s']]) ∧
    ∃ state, (restoreSystem (fun _ => true) smallDestination
        [⟨['b'], .directory, none, []⟩, ⟨['a'], .symlink, some ['b'], []⟩,
          ⟨['a'], .directory, none, []⟩, ⟨['a'], .symlink, some ['/', 'o'], []⟩,
          ⟨['a', '/', 'f'], .regularFile, none, []⟩]).Reaches (fun _ _ => True) state ∧
      [['o'], ['f']] ∈ state.written ∧ ¬ smallDestination.dest <+: [['o'], ['f']] := by
  constructor
  · refine TransitionSystem.Reaches.exists_of_run (.initial (smallStart_initial _))
      [.item, .item, .planned, .prepare] (TransitionSystem.runAllowed_of_forall ?_) ?_
    · simp
    · decide +kernel
  · refine TransitionSystem.Reaches.exists_of_run (.initial (smallStart_initial _))
      [.item, .item, .item, .item, .item, .planned, .prepare]
      (TransitionSystem.runAllowed_of_forall ?_) ?_
    · simp
    · decide +kernel

end Vykar.Restore

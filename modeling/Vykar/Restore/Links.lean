import Vykar.Restore.Containment
import Vykar.Restore.Workers

/-!
The tree that a restore builds for separate items.

If the items have different paths and no file or symlink lies above another item, links are only
where items say so.  No path to a file then leads through a link: a planned file is opened at its
own path in the temporary directory.
-/

def Vykar.Snapshot.Item.normalPath (item : Item) : Option Restore.Path :=
  (Restore.sanitizeItemPath item.path).toOption

namespace Vykar.Restore

open Snapshot SymlinkTree

/-- The items have distinct paths, and no file or symlink is above another item. -/
structure Separate (items : List Item) : Prop where
  distinct : items.Pairwise fun first second =>
    ∀ path, first.normalPath = some path → second.normalPath ≠ some path
  apart : ∀ item ∈ items, item.entryType ≠ .directory → ∀ other ∈ items, ∀ path longer,
    item.normalPath = some path → other.normalPath = some longer → path <+: longer →
      path = longer

/-- The temporary directory is there, and the links in it belong to symlink items. -/
structure Placed (root : Path) (items : List Item) (tree : FileSystem) : Prop where
  isDir : tree.node root = some .dir
  links : ∀ path target, tree.node (root ++ path) = some (.symlink target) →
    ∃ item ∈ items, item.entryType = .symlink ∧ item.normalPath = some path

variable {includePath : List Char → Bool} {root path relPath : Path} {items : List Item}
  {item : Item} {tree next : FileSystem} {state : RestoreState}

theorem normalPath_of_ok (normal : sanitizeItemPath item.path = .ok relPath) :
    item.normalPath = some relPath := by
  rw [Item.normalPath, normal]
  rfl

theorem normalPath_ne_nil (normal : item.normalPath = some relPath) : relPath ≠ [] := by
  unfold Item.normalPath sanitizeItemPath at normal
  split at normal
  · cases normal
  · split at normal
    · cases normal
    · split at normal
      · cases normal
      · rename_i nonempty
        cases normal
        exact nonempty

theorem singleton_prefix_cons {name other : Name} {rest : Path} :
    [name] <+: other :: rest ↔ name = other := by
  rw [List.cons_prefix_cons, and_iff_left List.nil_prefix]

theorem dropLast_append_last (nonempty : relPath ≠ []) :
    relPath.dropLast ++ [relPath.getLastD []] = relPath := by
  rw [List.getLastD_eq_getLast?, List.getLast?_eq_some_getLast nonempty, Option.getD_some,
    List.dropLast_append_getLast]

theorem Separate.unique (separate : Separate items) {other : Item} (listed : item ∈ items)
    (listedOther : other ∈ items) (normal : item.normalPath = some path)
    (normalOther : other.normalPath = some path) : item = other := by
  by_contra differ
  have symmetric : Std.Symm fun first second : Item =>
      ∀ path, first.normalPath = some path → second.normalPath ≠ some path :=
    ⟨fun first second disjoint path isSecond isFirst => disjoint path isFirst isSecond⟩
  exact separate.distinct.forall listed listedOther differ path normal normalOther

theorem Placed.grows (placed : Placed root items tree) (grows : tree.Grows next) :
    Placed root items next :=
  ⟨grows.keeps _ _ placed.isDir, fun path target linked =>
    placed.links path target (grows.unlinked _ target linked)⟩

theorem Placed.unlink (placed : Placed root items tree) (parent : Path) (name : Name) :
    Placed root items (tree.unlink maxLinks parent name) :=
  ⟨unlink_dir placed.isDir parent name, fun path target linked =>
    placed.links path target (unlink_extends maxLinks tree parent name _ _ linked)⟩

section

variable (separate : Separate items) (listed : item ∈ items)
  (normal : item.normalPath = some relPath)

include separate listed normal

/-- No link is on the way to an item, nor at it if it is no symlink. -/
theorem Placed.unlinked (placed : Placed root items tree) (above : path <+: relPath)
    (noLink : path ≠ relPath ∨ item.entryType ≠ .symlink) : tree.Unlinked (root ++ path) := by
  intro before isPrefix target linked
  rcases List.prefix_or_prefix_of_prefix isPrefix (List.prefix_append root path) with
    outside | inside
  · obtain ⟨rest, rfl⟩ := outside
    have isDir : tree.node before = some .dir := by
      by_cases empty : rest = []
      · have here := placed.isDir
        rwa [empty, List.append_nil] at here
      · exact dir_above empty (by rw [placed.isDir]; rfl)
    rw [isDir] at linked
    cases linked
  · obtain ⟨rest, rfl⟩ := inside
    have restAbove : rest <+: path := (List.prefix_append_right_inj root).mp isPrefix
    obtain ⟨link, linkListed, isLink, linkNormal⟩ := placed.links rest target linked
    obtain rfl := separate.apart link linkListed (by rw [isLink]; nofun) item listed _ _
      linkNormal normal (restAbove.trans above)
    have here : path = rest := above.eq_of_length_le restAbove.length_le
    obtain rfl := separate.unique listed linkListed normal linkNormal
    exact noLink.elim (fun differs => differs here) fun notLink => notLink isLink

theorem Placed.parent_unlinked (placed : Placed root items tree) :
    tree.Unlinked (root ++ relPath.dropLast) := by
  refine placed.unlinked separate listed normal (List.dropLast_prefix relPath)
    (Or.inl fun same => ?_)
  have length := congrArg List.length same
  have some := List.length_pos_of_ne_nil (normalPath_ne_nil normal)
  rw [List.length_dropLast] at length
  omega

theorem Placed.openPlanned (placed : Placed root items state.tree)
    (isFile : item.entryType = .regularFile) {opened : Path}
    (isOpen : state.openPlanned root relPath = some (next, opened)) :
    opened = root ++ relPath ∧ state.tree.Grows next ∧ next.node opened = some .file := by
  have nonempty := normalPath_ne_nil normal
  have parent := placed.parent_unlinked separate listed normal
  have here := placed.unlinked separate listed normal (List.prefix_refl relPath)
    (Or.inr (by rw [isFile]; nofun))
  have whole : root ++ relPath.dropLast ++ [relPath.getLastD []] = root ++ relPath := by
    rw [List.append_assoc, dropLast_append_last nonempty]
  unfold RestoreState.openPlanned at isOpen
  split at isOpen
  · cases isOpen
  · obtain ⟨grows, isFileAfter, dir, found, rfl⟩ := openCreate_entry isOpen
      fun dir found target linked => by
        rw [lookup_unlinked parent found, whole] at linked
        exact here _ (List.prefix_refl _) target linked
    refine ⟨?_, grows, isFileAfter⟩
    rw [lookup_unlinked parent found, whole]

theorem Placed.prepareFile (placed : Placed root items state.tree)
    (isFile : item.entryType = .regularFile) (totalSize : Nat) :
    (state.prepareFile root ⟨relPath, totalSize⟩).phase = .failed ∨
      state.tree.Grows (state.prepareFile root ⟨relPath, totalSize⟩).tree ∧
      (state.prepareFile root ⟨relPath, totalSize⟩).planned = state.planned ∧
      (totalSize = 0 →
        (state.prepareFile root ⟨relPath, totalSize⟩).tree.node (root ++ relPath) =
          some .file) := by
  have prepares := prepareParent_prepares (List.prefix_append root relPath.dropLast)
    fun _ => placed.parent_unlinked separate listed normal
  have samePlanned := congrArg RestoreState.planned prepares.same
  unfold RestoreState.prepareFile
  generalize state.prepareParent root (root ++ relPath.dropLast) = result at prepares samePlanned
  obtain ⟨middle, prepared⟩ := result
  simp only
  split
  · split
    · split
      · rename_i tree opened isOpen
        obtain ⟨rfl, grows, isFileAfter⟩ :=
          (placed.grows prepares.grows).openPlanned separate listed
          normal isFile isOpen
        exact Or.inr ⟨prepares.grows.trans grows, samePlanned, fun _ => isFileAfter⟩
      · exact Or.inl rfl
    · rename_i nonempty
      exact Or.inr ⟨prepares.grows, samePlanned, fun empty => absurd empty nonempty⟩
  · exact Or.inl rfl

theorem Placed.restoreSymlink (placed : Placed root items state.tree)
    (isLink : item.entryType = .symlink) (link : List Char) :
    Placed root items (state.restoreSymlink root (root ++ relPath.dropLast)
      (relPath.getLastD []) link).tree := by
  have prepares := prepareParent_prepares (List.prefix_append root relPath.dropLast)
    fun _ => placed.parent_unlinked separate listed normal
  unfold RestoreState.restoreSymlink
  generalize state.prepareParent root (root ++ relPath.dropLast) = result at prepares
  obtain ⟨middle, prepared⟩ := result
  have placedMiddle := placed.grows prepares.grows
  have removed := placedMiddle.unlink (root ++ relPath.dropLast) (relPath.getLastD [])
  simp only
  split
  · split
    · exact removed
    · split
      · rename_i next made created
        obtain ⟨dir, found, rfl, nodes⟩ := symlink_entry created
        have same := lookup_unlinked (removed.parent_unlinked separate listed normal) found
        have whole : dir ++ [relPath.getLastD []] = root ++ relPath := by
          rw [same, List.append_assoc, dropLast_append_last (normalPath_ne_nil normal)]
        rw [whole] at nodes
        refine ⟨?_, fun path target linked => ?_⟩
        · simp only [RestoreState.afterCreating, nodes]
          rw [if_neg, removed.isDir]
          simpa using normalPath_ne_nil normal
        · simp only [RestoreState.afterCreating, nodes] at linked
          split at linked
          · rename_i here
            exact ⟨item, listed, isLink, List.append_cancel_left here ▸ normal⟩
          · exact removed.links path target linked
      · exact removed
  · exact placedMiddle

end

theorem Placed.restoreItem (placed : Placed root items state.tree) (separate : Separate items)
    (listed : item ∈ items) :
    Placed root items (state.restoreItem includePath root item).tree := by
  unfold RestoreState.restoreItem
  split
  · split
    · exact placed
    · exact placed
    · rename_i relPath _ _
      have creates := createDirWithinRoot_inside state.tree (root ++ relPath) root
      unfold RestoreState.restoreDirectory
      generalize createDirWithinRoot state.tree (root ++ relPath) root = result at creates
      simp only
      split <;> exact placed.grows creates.grows
    · rename_i isLink _ normal
      exact placed.restoreSymlink separate listed (normalPath_of_ok normal) isLink _
    · unfold RestoreState.planFile
      split <;> exact placed
  · exact placed

def plannedFiles (files : List (Path × List ChunkRef)) : List PlannedFile :=
  files.map fun file => ⟨file.1, (file.2.map ChunkRef.size).sum⟩

theorem RestoreState.restoreSymlink_fixed (state : RestoreState) (root parent : Path) (name : Name)
    (link : List Char) :
    (state.restoreSymlink root parent name link).planned = state.planned ∧
      (state.restoreSymlink root parent name link).verifiedDirs = state.verifiedDirs := by
  have prepared : (state.prepareParent root parent).1.planned = state.planned ∧
      (state.prepareParent root parent).1.verifiedDirs = state.verifiedDirs := by
    unfold prepareParent
    split <;> exact ⟨rfl, rfl⟩
  unfold restoreSymlink
  simp only
  split
  · split
    · exact prepared
    · split <;> exact prepared
  · exact prepared

theorem restoreItem_planned (includePath : List Char → Bool) (root : Path) (state : RestoreState)
    (item : Item) :
    (state.restoreItem includePath root item).phase = .failed ∨
      (state.restoreItem includePath root item).planned =
        state.planned ++ plannedFiles (regularFiles includePath [item]) := by
  unfold RestoreState.restoreItem
  split
  · rename_i included
    split
    · rename_i isLink _
      exact Or.inr (by simp [regularFiles, plannedFiles, isLink])
    · exact Or.inl rfl
    · rename_i relPath isDirectory _
      right
      have none : regularFiles includePath [item] = [] := by simp [regularFiles, isDirectory]
      rw [none]
      unfold RestoreState.restoreDirectory
      simp only
      split <;> simp [RestoreState.afterCreating, RestoreState.fail, plannedFiles]
    · rename_i link relPath isLink _ _
      right
      have none : regularFiles includePath [item] = [] := by simp [regularFiles, isLink]
      rw [none, (state.restoreSymlink_fixed _ _ _ _).1]
      exact (List.append_nil _).symm
    · rename_i relPath isFile normal
      have one : regularFiles includePath [item] = [(relPath, item.chunks)] := by
        simp [regularFiles, included, isFile, normal, Except.toOption]
      rw [one]
      unfold RestoreState.planFile
      split
      · exact Or.inr rfl
      · exact Or.inl rfl
  · rename_i excluded
    exact Or.inr (by simp [regularFiles, plannedFiles, excluded])

theorem mem_regularFiles {file : Path × List ChunkRef}
    (listed : file ∈ regularFiles includePath items) :
    ∃ item ∈ items, item.entryType = .regularFile ∧ item.normalPath = some file.1 ∧
      item.chunks = file.2 := by
  obtain ⟨item, among, same⟩ := List.mem_filterMap.mp listed
  split at same
  · rename_i wanted
    obtain ⟨relPath, normal, rfl⟩ := Option.map_eq_some_iff.mp same
    exact ⟨item, among, wanted.2, normal, rfl⟩
  · cases same

theorem Separate.regularFiles_nodup (separate : Separate items) :
    ((regularFiles includePath items).map Prod.fst).Nodup := by
  rw [List.Nodup, List.pairwise_map]
  refine List.Pairwise.filterMap _ (fun first second disjoint file isFile other isOther same => ?_)
    separate.distinct
  have normal {item : Item} {file : Path × List ChunkRef}
      (planned : (if includePath item.path ∧ item.entryType = .regularFile then
        (sanitizeItemPath item.path).toOption.map fun relPath => (relPath, item.chunks)
        else none) = some file) : item.normalPath = some file.1 := by
    split at planned
    · obtain ⟨relPath, normal, rfl⟩ := Option.map_eq_some_iff.mp planned
      exact normal
    · cases planned
  exact disjoint file.1 (normal isFile) (same ▸ normal isOther)

end Vykar.Restore

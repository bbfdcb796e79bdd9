import Vykar.Lib.Dict

/-!
A tree of directories and files without links.

Paths are lists of names below a root directory that always exists.  Each
operation returns the tree afterwards, or `none` when the call fails, and comes
with a lemma that says what it does to the files.
-/

universe u v

inductive FileNode (Content : Type v) where
  | dir
  | file (content : Content)
  deriving DecidableEq

/-- A map from paths to nodes; the root is not listed. -/
abbrev FileTree (Name : Type u) (Content : Type v) := Dict (List Name) (FileNode Content)

namespace FileTree

variable {Name : Type u} {Content : Type v} [DecidableEq Name]

def isDir (tree : FileTree Name Content) (path : List Name) : Bool :=
  path.isEmpty || match tree.get? path with
    | some .dir => true
    | _ => false

def writable (tree : FileTree Name Content) (path : List Name) : Bool :=
  !path.isEmpty && tree.isDir path.dropLast && !tree.isDir path

def ensureDir (tree : FileTree Name Content) (path : List Name) : Option (FileTree Name Content) :=
  if path.isEmpty then some tree
  else match tree.get? path with
    | some .dir => some tree
    | some (.file _) => none
    | none => some (tree.set path .dir)

def createDirAll (tree : FileTree Name Content) (path : List Name) :
    Option (FileTree Name Content) :=
  path.inits.foldlM ensureDir tree

def write (tree : FileTree Name Content) (path : List Name) (content : Content) :
    Option (FileTree Name Content) :=
  if tree.writable path then some (tree.set path (.file content)) else none

def FileNode.map (change : Content → Content) : FileNode Content → FileNode Content
  | .dir => .dir
  | .file content => .file (change content)

def mapFiles (tree : FileTree Name Content) (change : Content → Content) : FileTree Name Content :=
  Dict.retain tree fun _ node => some (FileNode.map change node)

def rename (tree : FileTree Name Content) (source target : List Name) :
    Option (FileTree Name Content) :=
  match tree.get? source with
  | some (.file content) =>
    if tree.writable target then some ((tree.remove source).set target (.file content)) else none
  | _ => none

def removeFile (tree : FileTree Name Content) (path : List Name) :
    Option (FileTree Name Content) :=
  match tree.get? path with
  | some (.file _) => some (tree.remove path)
  | _ => none

def removeDir (tree : FileTree Name Content) (path : List Name) :
    Option (FileTree Name Content) :=
  match tree.get? path with
  | some .dir =>
    if tree.keysList.all fun other => other.dropLast ≠ path then some (tree.remove path) else none
  | _ => none

def fileAt (tree : FileTree Name Content) (path : List Name) : Option Content :=
  match tree.get? path with
  | some (.file content) => some content
  | _ => none

variable {tree next : FileTree Name Content} {path source target : List Name} {content : Content}

theorem fileAt_eq_some :
    tree.fileAt path = some content ↔ tree.get? path = some (.file content) := by
  unfold fileAt
  split <;> simp_all

theorem fileAt_set_dir (missing : tree.get? path = none) (other : List Name) :
    fileAt (tree.set path .dir) other = tree.fileAt other := by
  unfold fileAt
  rw [Dict.get?_set]
  by_cases same : other = path
  · simp [same, missing]
  · rw [if_neg same]

theorem fileAt_ensureDir (ensured : tree.ensureDir path = some next) (other : List Name) :
    next.fileAt other = tree.fileAt other := by
  unfold ensureDir at ensured
  split at ensured
  · cases ensured
    rfl
  · split at ensured
    · cases ensured
      rfl
    · cases ensured
    · rename_i missing
      cases ensured
      exact fileAt_set_dir missing other

theorem fileAt_createDirAll (created : tree.createDirAll path = some next) (other : List Name) :
    next.fileAt other = tree.fileAt other := by
  unfold createDirAll at created
  generalize path.inits = levels at created
  induction levels generalizing tree with
  | nil =>
    cases created
    rfl
  | cons level levels ih =>
    rw [List.foldlM_cons] at created
    obtain ⟨middle, ensured, later⟩ := Option.bind_eq_some_iff.mp created
    rw [ih later, fileAt_ensureDir ensured]

theorem fileAt_write (written : tree.write path content = some next) (other : List Name) :
    next.fileAt other = if other = path then some content else tree.fileAt other := by
  unfold write at written
  split at written
  · cases written
    unfold fileAt
    rw [Dict.get?_set]
    by_cases same : other = path
    · simp [same]
    · rw [if_neg same, if_neg same]
  · cases written

theorem fileAt_mapFiles (tree : FileTree Name Content) (change : Content → Content)
    (other : List Name) : (tree.mapFiles change).fileAt other = (tree.fileAt other).map change := by
  unfold fileAt mapFiles
  rw [Dict.get?_retain]
  cases tree.get? other with
  | none => rfl
  | some node => cases node <;> rfl

theorem rename_eq_some (renamed : tree.rename source target = some next) :
    ∃ content, tree.fileAt source = some content ∧
      ∀ other, next.fileAt other = if other = target then some content
        else if other = source then none else tree.fileAt other := by
  unfold rename at renamed
  split at renamed
  · rename_i content found
    split at renamed
    · cases renamed
      refine ⟨content, fileAt_eq_some.mpr found, fun other => ?_⟩
      unfold fileAt
      rw [Dict.get?_set, Dict.get?_remove]
      by_cases isTarget : other = target
      · simp [isTarget]
      · by_cases isSource : other = source
        · simp only [if_neg isTarget, if_pos isSource]
        · simp only [if_neg isTarget, if_neg isSource]
    · cases renamed
  · cases renamed

theorem fileAt_remove (tree : FileTree Name Content) (path other : List Name) :
    fileAt (tree.remove path) other = if other = path then none else tree.fileAt other := by
  unfold fileAt
  rw [Dict.get?_remove]
  by_cases same : other = path
  · simp [same]
  · rw [if_neg same, if_neg same]

theorem fileAt_removeFile (removed : tree.removeFile path = some next) (other : List Name) :
    next.fileAt other = if other = path then none else tree.fileAt other := by
  unfold removeFile at removed
  split at removed
  · cases removed
    exact fileAt_remove tree path other
  · cases removed

theorem fileAt_removeDir (removed : tree.removeDir path = some next) (other : List Name) :
    next.fileAt other = tree.fileAt other := by
  unfold removeDir at removed
  split at removed
  · rename_i isDir
    split at removed
    · cases removed
      rw [fileAt_remove]
      split
      · rename_i same
        simp [same, fileAt, isDir]
      · rfl
    · cases removed
  · cases removed

theorem get?_createDirAll (created : tree.createDirAll path = some next) (other : List Name) :
    next.get? other = if other ≠ [] ∧ other <+: path then some .dir else tree.get? other := by
  unfold createDirAll at created
  simp only [← List.mem_inits]
  generalize path.inits = levels at created
  induction levels generalizing tree with
  | nil =>
    cases created
    simp
  | cons level levels ih =>
    rw [List.foldlM_cons] at created
    obtain ⟨middle, ensured, later⟩ := Option.bind_eq_some_iff.mp created
    have first : middle.get? other =
        if other ≠ [] ∧ other = level then some .dir else tree.get? other := by
      unfold ensureDir at ensured
      split at ensured
      · rename_i isRoot
        cases ensured
        rw [if_neg]
        rintro ⟨notRoot, rfl⟩
        exact notRoot (List.isEmpty_iff.mp isRoot)
      · rename_i notRoot
        have levelPresent : level ≠ [] := fun isRoot => notRoot (List.isEmpty_iff.mpr isRoot)
        split at ensured
        · rename_i isDir
          cases ensured
          split
          · rename_i same
            rw [same.2, isDir]
          · rfl
        · cases ensured
        · cases ensured
          rw [Dict.get?_set]
          by_cases same : other = level
          · rw [if_pos same, if_pos ⟨same ▸ levelPresent, same⟩]
          · rw [if_neg same, if_neg fun both => same both.2]
    rw [ih later, first]
    by_cases listed : other ∈ levels
    · by_cases isRoot : other = []
      · simp [isRoot]
      · rw [if_pos ⟨isRoot, listed⟩, if_pos ⟨isRoot, List.mem_cons_of_mem level listed⟩]
    · simp [listed]

theorem createDirAll_isSome_iff :
    (tree.createDirAll path).isSome = true ↔
      ∀ dir, dir ≠ [] → dir <+: path → tree.fileAt dir = none := by
  unfold createDirAll
  simp only [← List.mem_inits]
  generalize path.inits = levels
  induction levels generalizing tree with
  | nil => simp
  | cons level levels ih =>
    rw [List.foldlM_cons]
    cases ensured : tree.ensureDir level with
    | some middle =>
      have clear : level ≠ [] → tree.fileAt level = none := by
        intro notRoot
        unfold ensureDir at ensured
        rw [if_neg (by simpa using notRoot)] at ensured
        unfold fileAt
        split at ensured <;> simp_all
      refine ih.trans ?_
      simp only [fileAt_ensureDir ensured, List.mem_cons]
      constructor
      · rintro free dir notRoot (rfl | listed)
        · exact clear notRoot
        · exact free dir notRoot listed
      · intro free dir notRoot listed
        exact free dir notRoot (Or.inr listed)
    | none =>
      refine iff_of_false Bool.false_ne_true fun free => ?_
      unfold ensureDir at ensured
      split at ensured
      · cases ensured
      · rename_i notRoot
        split at ensured
        · cases ensured
        · rename_i content found
          have missing := free level (fun isRoot => notRoot (List.isEmpty_iff.mpr isRoot))
            List.mem_cons_self
          rw [fileAt_eq_some.mpr found] at missing
          cases missing
        · cases ensured

theorem isDir_createDirAll_iff (created : tree.createDirAll path = some next) (other : List Name) :
    next.isDir other = true ↔ tree.isDir other = true ∨ other <+: path := by
  unfold isDir
  rw [get?_createDirAll created]
  by_cases isRoot : other = []
  · simp [isRoot]
  · by_cases above : other <+: path
    · simp [isRoot, above]
    · simp [isRoot, above]

theorem isDir_createDirAll (created : tree.createDirAll path = some next)
    (wasDir : tree.isDir source = true) : next.isDir source = true :=
  (isDir_createDirAll_iff created source).mpr (Or.inl wasDir)

theorem isDir_write (written : tree.write path content = some next) (other : List Name) :
    next.isDir other = tree.isDir other := by
  unfold write at written
  split at written
  · rename_i writable
    cases written
    simp only [FileTree.writable, Bool.and_eq_true, Bool.not_eq_true'] at writable
    unfold isDir at writable ⊢
    rw [Dict.get?_set]
    by_cases same : other = path
    · rw [if_pos same, same, writable.2, writable.1.1]
      rfl
    · rw [if_neg same]
  · cases written

theorem isDir_mapFiles (tree : FileTree Name Content) (change : Content → Content)
    (other : List Name) : (tree.mapFiles change).isDir other = tree.isDir other := by
  unfold isDir mapFiles
  rw [Dict.get?_retain]
  cases tree.get? other with
  | none => rfl
  | some node => cases node <;> rfl

theorem not_isDir_of_writable (writable : tree.writable path = true) : tree.isDir path = false := by
  unfold FileTree.writable at writable
  simp only [Bool.and_eq_true, Bool.not_eq_true'] at writable
  exact writable.2

theorem not_isDir_of_rename (renamed : tree.rename source target = some next) :
    tree.isDir target = false := by
  unfold rename at renamed
  split at renamed
  · split at renamed
    · exact not_isDir_of_writable ‹_›
    · cases renamed
  · cases renamed

theorem isDir_rename (renamed : tree.rename source target = some next) (other : List Name) :
    next.isDir other = tree.isDir other := by
  have notDir := not_isDir_of_rename renamed
  unfold rename at renamed
  split at renamed
  · rename_i content found
    split at renamed
    · cases renamed
      unfold isDir at notDir ⊢
      rw [Dict.get?_set, Dict.get?_remove]
      by_cases isTarget : other = target
      · simp_all
      · by_cases isSource : other = source
        · rw [if_neg isTarget, if_pos isSource, isSource, found]
        · rw [if_neg isTarget, if_neg isSource]
    · cases renamed
  · cases renamed

theorem not_isDir_of_fileAt (present : path ≠ []) (found : tree.fileAt path = some content) :
    tree.isDir path = false := by
  rw [isDir, fileAt_eq_some.mp found]
  simpa using present

theorem removeFile_eq_some (removed : tree.removeFile path = some next) :
    ∃ content, tree.fileAt path = some content := by
  unfold removeFile at removed
  split at removed
  · rename_i content found
    exact ⟨content, fileAt_eq_some.mpr found⟩
  · cases removed

section Weight

variable (measure : List Name → Content → Nat)

def weightAt (tree : FileTree Name Content) (path : List Name) : Nat :=
  (tree.fileAt path).elim 0 (measure path)

def weight (tree : FileTree Name Content) : Nat :=
  tree.total fun path node =>
    match node with
    | .dir => 0
    | .file content => measure path content

theorem weight_eq_sum (paths : Finset (List Name))
    (covers : ∀ path ∈ tree.keysList, path ∈ paths) :
    tree.weight measure = ∑ path ∈ paths, tree.weightAt measure path := by
  rw [weight, Dict.total_eq_sum covers]
  refine Finset.sum_congr rfl fun path _ => ?_
  unfold weightAt fileAt
  cases tree.get? path with
  | none => rfl
  | some node => cases node <;> rfl

variable {measure}

theorem weight_update (path : List Name)
    (same : ∀ other, other ≠ path → next.weightAt measure other = tree.weightAt measure other) :
    next.weight measure + tree.weightAt measure path =
      tree.weight measure + next.weightAt measure path := by
  let paths := insert path (next.keysList.toFinset ∪ tree.keysList.toFinset)
  have listed : path ∈ paths := Finset.mem_insert_self _ _
  have others : ∑ other ∈ paths.erase path, next.weightAt measure other =
      ∑ other ∈ paths.erase path, tree.weightAt measure other :=
    Finset.sum_congr rfl fun other inside => same other (Finset.ne_of_mem_erase inside)
  rw [weight_eq_sum measure paths, weight_eq_sum measure paths,
    ← Finset.add_sum_erase paths _ listed, ← Finset.add_sum_erase paths _ listed, others]
  · omega
  · intro other inside
    simp [paths, inside]
  · intro other inside
    simp [paths, inside]

theorem weight_congr
    (same : ∀ path, next.weightAt measure path = tree.weightAt measure path) :
    next.weight measure = tree.weight measure := by
  have updated := weight_update [] fun other _ => same other
  rw [same []] at updated
  exact Nat.add_right_cancel updated

end Weight

end FileTree

import Mathlib

/-!
A file system with mode bits, as seen by the owner of everything in it.

A tree says what is at each path below a top directory.  Every call first enters the directories
on the way, which must be searchable; creating, moving and removing an entry needs a writable
directory, and a directory that is moved elsewhere must itself be writable, since its entry for
the parent changes.  Links are entries that are not followed.
-/

universe u

inductive NodeKind where
  | dir
  | file
  | symlink
  deriving DecidableEq

structure ModeNode where
  kind : NodeKind
  mode : Nat
  deriving DecidableEq

inductive Errno where
  | noEntry
  | notDir
  | denied
  | entryExists
  deriving DecidableEq

def ownerRead (mode : Nat) : Bool := mode.testBit 8

def ownerWrite (mode : Nat) : Bool := mode.testBit 7

def ownerExec (mode : Nat) : Bool := mode.testBit 6

/-- The bits of a mode that `chmod` sets. -/
def permissionBits (mode : Nat) : Nat := mode % 2 ^ 12

theorem ownerWrite_permissionBits (mode : Nat) :
    ownerWrite (permissionBits mode) = ownerWrite mode := by
  rw [ownerWrite, ownerWrite, permissionBits, Nat.testBit_mod_two_pow]
  rfl

theorem ownerExec_permissionBits (mode : Nat) :
    ownerExec (permissionBits mode) = ownerExec mode := by
  rw [ownerExec, ownerExec, permissionBits, Nat.testBit_mod_two_pow]
  rfl

/-- What is at each path; the empty path is the top directory. -/
abbrev ModeTree (Name : Type u) := List Name → Option ModeNode

namespace ModeTree

variable {Name : Type u} {tree next : ModeTree Name} {current path names : List Name}
  {node : ModeNode}

def enter (tree : ModeTree Name) : List Name → List Name → Except Errno Unit
  | _, [] => .ok ()
  | current, name :: names =>
    match tree current with
    | none => .error .noEntry
    | some ⟨.dir, mode⟩ =>
      if ownerExec mode then enter tree (current ++ [name]) names else .error .denied
    | some _ => .error .notDir

variable [DecidableEq Name]

def create (tree : ModeTree Name) (node : ModeNode) (path : List Name) :
    Except Errno (ModeTree Name) :=
  match tree.enter [] path, tree path, tree path.dropLast with
  | .error errno, _, _ => .error errno
  | .ok _, some _, _ => .error .entryExists
  | .ok _, none, none => .error .noEntry
  | .ok _, none, some parent =>
    if parent.kind = .dir ∧ ownerWrite parent.mode then
      .ok (Function.update tree path (some node))
    else .error .denied

omit [DecidableEq Name] in
/-- Entering a path reads the directories above it only. -/
theorem enter_congr (same : ∀ before, before <+: names → before ≠ names →
      tree (current ++ before) = next (current ++ before)) :
    tree.enter current names = next.enter current names := by
  induction names generalizing current with
  | nil => rfl
  | cons name names ih =>
    have here := same [] List.nil_prefix (by simp)
    rw [List.append_nil] at here
    have deeper : tree.enter (current ++ [name]) names = next.enter (current ++ [name]) names :=
      ih fun before isPrefix differs => by
        rw [List.append_assoc, List.singleton_append]
        exact same (name :: before) (List.cons_prefix_cons.mpr ⟨rfl, isPrefix⟩)
          fun equal => differs (List.cons.inj equal).2
    rw [enter, enter, here, deeper]

theorem enter_update (tree : ModeTree Name) (path : List Name) (value : Option ModeNode) :
    enter (Function.update tree path value) [] path = tree.enter [] path := by
  apply enter_congr
  intro before _ differs
  rw [List.nil_append, Function.update_of_ne differs]

omit [DecidableEq Name] in
theorem enter_concat (tree : ModeTree Name) (current names : List Name) (name : Name) {mode : Nat}
    (entered : tree.enter current names = .ok ())
    (isDir : tree (current ++ names) = some ⟨.dir, mode⟩) :
    tree.enter current (names ++ [name]) =
      if ownerExec mode then .ok () else .error .denied := by
  induction names generalizing current with
  | nil =>
    rw [List.append_nil] at isDir
    simp only [List.nil_append, enter, isDir]
  | cons first names ih =>
    rw [enter] at entered
    rw [List.cons_append, enter]
    split at entered
    · cases entered
    · rename_i found
      split at entered
      · rename_i exec
        rw [← List.singleton_append, ← List.append_assoc] at isDir
        simp only [exec, if_true]
        exact ih _ entered isDir
      · cases entered
    · cases entered

omit [DecidableEq Name] in
theorem enter_of_parent {mode : Nat} (nonempty : path ≠ [])
    (entered : tree.enter [] path.dropLast = .ok ())
    (isDir : tree path.dropLast = some ⟨.dir, mode⟩) :
    tree.enter [] path = if ownerExec mode then .ok () else .error .denied := by
  have split := List.dropLast_append_getLast nonempty
  conv_lhs => rw [← split]
  exact enter_concat tree [] path.dropLast _ entered isDir

theorem create_of_parent {mode : Nat} (nonempty : path ≠ [])
    (entered : tree.enter [] path.dropLast = .ok ())
    (isDir : tree path.dropLast = some ⟨.dir, mode⟩) (absent : tree path = none)
    (node : ModeNode) :
    tree.create node path = if ownerExec mode ∧ ownerWrite mode then
      .ok (Function.update tree path (some node)) else .error .denied := by
  unfold create
  rw [enter_of_parent nonempty entered isDir, absent, isDir]
  by_cases exec : ownerExec mode = true
  · by_cases write : ownerWrite mode = true <;> simp [exec, write]
  · simp [exec]

def isDir (tree : ModeTree Name) (path : List Name) : Bool :=
  match tree.enter [] path, tree path with
  | .ok _, some ⟨.dir, _⟩ => true
  | _, _ => false

/-- Create a directory and its missing parents; the path is given last component first. -/
def createDirAllRev (mode : Nat) (tree : ModeTree Name) : List Name → Option (ModeTree Name)
  | [] => some tree
  | name :: parent =>
    let path := (name :: parent).reverse
    match tree.create ⟨.dir, mode⟩ path with
    | .ok next => some next
    | .error .noEntry => do
        let middle ← createDirAllRev mode tree parent
        match middle.create ⟨.dir, mode⟩ path with
        | .ok next => some next
        | .error _ => if middle.isDir path then some middle else none
    | .error _ => if tree.isDir path then some tree else none

def createDirAll (mode : Nat) (tree : ModeTree Name) (path : List Name) :
    Option (ModeTree Name) :=
  createDirAllRev mode tree path.reverse

theorem createDirAll_of_parent {mode parentMode : Nat} (nonempty : path ≠ [])
    (entered : tree.enter [] path.dropLast = .ok ())
    (isDir : tree path.dropLast = some ⟨.dir, parentMode⟩) (absent : tree path = none) :
    tree.createDirAll mode path = if ownerExec parentMode ∧ ownerWrite parentMode then
      some (Function.update tree path (some ⟨.dir, mode⟩)) else none := by
  obtain ⟨name, parent, reversed⟩ := List.exists_cons_of_ne_nil
    (fun none => nonempty (List.reverse_eq_nil_iff.mp none) : path.reverse ≠ [])
  have isPath : (name :: parent).reverse = path := by rw [← reversed, List.reverse_reverse]
  have notDir : tree.isDir path = false := by
    unfold ModeTree.isDir
    rw [absent]
    split
    · rename_i impossible
      cases impossible
    · rfl
  rw [createDirAll, reversed, createDirAllRev, isPath,
    create_of_parent nonempty entered isDir absent]
  by_cases allowed : ownerExec parentMode = true ∧ ownerWrite parentMode = true
  · simp only [if_pos allowed]
  · simp [if_neg allowed, notDir]

def chmod (tree : ModeTree Name) (path : List Name) (mode : Nat) : ModeTree Name :=
  match tree.enter [] path, tree path with
  | .ok _, some node => Function.update tree path (some ⟨node.kind, permissionBits mode⟩)
  | _, _ => tree

theorem chmod_update (entered : tree.enter [] path = .ok ()) (node : ModeNode) (mode : Nat) :
    chmod (Function.update tree path (some node)) path mode =
      Function.update tree path (some ⟨node.kind, permissionBits mode⟩) := by
  simp only [chmod, enter_update, entered, Function.update_self, Function.update_idem]

def removeFile (tree : ModeTree Name) (path : List Name) : ModeTree Name :=
  match tree.enter [] path, tree path, tree path.dropLast with
  | .ok _, some node, some parent =>
    if node.kind ≠ .dir ∧ ownerWrite parent.mode then Function.update tree path none else tree
  | _, _, _ => tree

theorem removeFile_absent (absent : tree path = none) : tree.removeFile path = tree := by
  unfold removeFile
  rw [absent]
  split
  · rename_i impossible _
    cases impossible
  · rfl

def openWrite (mode : Nat) (tree : ModeTree Name) (path : List Name) :
    Except Errno (ModeTree Name) :=
  match tree.enter [] path, tree path with
  | .ok _, some node =>
    if node.kind = .file ∧ ownerWrite node.mode then .ok tree else .error .denied
  | _, _ => tree.create ⟨.file, mode⟩ path

def canRead (tree : ModeTree Name) (path : List Name) : Bool :=
  match tree.enter [] path, tree path with
  | .ok _, some node => ownerRead node.mode
  | _, _ => false

/-- Move an entry, with everything below it, to where nothing is. -/
def rename (tree : ModeTree Name) (source target : List Name) : Except Errno (ModeTree Name) :=
  match tree.enter [] source, tree.enter [] target, tree source, tree target,
    tree source.dropLast, tree target.dropLast with
  | .ok _, .ok _, some node, none, some sourceParent, some targetParent =>
    if ownerWrite sourceParent.mode ∧ ownerWrite targetParent.mode ∧
        (node.kind = .dir → ownerWrite node.mode) then
      .ok fun path =>
        if target <+: path then tree (source ++ path.drop target.length)
        else if source <+: path then none
        else tree path
    else .error .denied
  | .error errno, _, _, _, _, _ | _, .error errno, _, _, _, _ => .error errno
  | _, _, _, some _, _, _ => .error .entryExists
  | _, _, _, _, _, _ => .error .noEntry

end ModeTree

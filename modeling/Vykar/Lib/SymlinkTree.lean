import Mathlib

/-!
A file system with symbolic links.

A tree says what is at each physical path.  `resolve` follows a path as an operating
system does: every component must be looked up in a directory, a link is replaced by its
target, and after a bounded number of links the call gives up.  Calls on the last
component itself (`mkdir`, `unlink`, `symlink`) resolve only the parent; `openCreate`
follows a link in the last place, too.
-/

universe u

inductive PathComponent (Name : Type u) where
  | name (name : Name)
  | up
  | here
  deriving DecidableEq

structure LinkTarget (Name : Type u) where
  absolute : Bool
  components : List (PathComponent Name)
  deriving DecidableEq

inductive TreeNode (Name : Type u) where
  | dir
  | file
  | symlink (target : LinkTarget Name)
  deriving DecidableEq

/-- What is at each physical path; everything but the root lies in a directory. -/
structure SymlinkTree (Name : Type u) where
  node : List Name → Option (TreeNode Name)
  root : node [] = some .dir
  closed : ∀ path name, (node (path ++ [name])).isSome = true → node path = some .dir

/-- What a path leads to.  `missing` is a path whose last component alone does not exist. -/
inductive Lookup (Name : Type u) where
  | found (path : List Name)
  | missing (path : List Name)
  | notFound
  | failed
  deriving DecidableEq

namespace SymlinkTree

variable {Name : Type u} [DecidableEq Name] {tree next : SymlinkTree Name} {links : Nat}
  {current path : List Name} {components : List (PathComponent Name)}
  {dir base physical : List Name} {name : Name} {more rest : List (PathComponent Name)}
  {result : Lookup Name}

/-- Follow components up to the end or the first link; behind a link the rest of the path is
still to be followed. -/
def advance (tree : SymlinkTree Name) : List Name → List (PathComponent Name) →
    Lookup Name ⊕ (List Name × List (PathComponent Name))
  | current, [] => .inl (.found current)
  | current, component :: rest =>
    if tree.node current = some .dir then
      match component with
      | .here => advance tree current rest
      | .up => advance tree current.dropLast rest
      | .name name =>
        match tree.node (current ++ [name]) with
        | none => .inl (if rest.isEmpty then .missing (current ++ [name]) else .notFound)
        | some (.symlink target) =>
          .inr (if target.absolute then [] else current, target.components ++ rest)
        | some .dir | some .file => advance tree (current ++ [name]) rest
    else .inl .failed

def resolve (tree : SymlinkTree Name) : (links : Nat) → List Name → List (PathComponent Name) →
    Lookup Name
  | 0, current, components =>
    match tree.advance current components with
    | .inl result => result
    | .inr _ => .failed
  | links + 1, current, components =>
    match tree.advance current components with
    | .inl result => result
    | .inr (base, rest) => resolve tree links base rest

def lookup (links : Nat) (tree : SymlinkTree Name) (path : List Name) : Lookup Name :=
  tree.resolve links [] (path.map .name)

def isDirAt (links : Nat) (tree : SymlinkTree Name) (path : List Name) : Bool :=
  match tree.lookup links path with
  | .found physical => tree.node physical = some .dir
  | _ => false

/-- Replace what is at a path, unless that is a directory or the path is not in one. -/
def put (tree : SymlinkTree Name) (path : List Name) (value : Option (TreeNode Name)) :
    SymlinkTree Name where
  node other :=
    if other = path ∧ path ≠ [] ∧ tree.node path.dropLast = some .dir ∧
      tree.node path ≠ some .dir then value else tree.node other
  root := by
    split
    · rename_i isPath
      exact absurd isPath.1.symm isPath.2.1
    · exact tree.root
  closed parent name occupied := by
    have differs : parent ≠ parent ++ [name] := by simp
    by_cases replaced : parent ++ [name] = path ∧ path ≠ [] ∧
        tree.node path.dropLast = some .dir ∧ tree.node path ≠ some .dir
    · obtain ⟨rfl, -, inDir, -⟩ := replaced
      rw [if_neg fun same => differs same.1]
      simpa using inDir
    · rw [if_neg replaced] at occupied
      have isDir := tree.closed parent name occupied
      rw [if_neg fun same => same.2.2.2 (same.1 ▸ isDir)]
      exact isDir

/-- Whether `rename` can move what is at one physical path to another: the target is in a
directory, is not itself one, and neither path lies below the other. -/
def CanMove (tree : SymlinkTree Name) (source target : List Name) : Prop :=
  target ≠ [] ∧ tree.node target.dropLast = some .dir ∧ tree.node target ≠ some .dir ∧
    (tree.node source = some .dir → tree.node target = none) ∧
    (tree.node source).isSome = true ∧ ¬ source <+: target ∧ ¬ target <+: source

instance (tree : SymlinkTree Name) (source target : List Name) :
    Decidable (tree.CanMove source target) :=
  inferInstanceAs (Decidable (_ ∧ _))

def rename (tree : SymlinkTree Name) (source target : List Name)
    (canMove : tree.CanMove source target) : SymlinkTree Name where
  node path :=
    if target <+: path then tree.node (source ++ path.drop target.length)
    else if source <+: path then none
    else tree.node path
  root := by
    obtain ⟨nonempty, -, -, -, -, notBelow, -⟩ := canMove
    have outside : ¬ source <+: [] := fun isPrefix => notBelow <| by
      rw [List.prefix_nil.mp isPrefix]
      exact List.nil_prefix
    rw [if_neg fun isPrefix => nonempty (List.prefix_nil.mp isPrefix), if_neg outside]
    exact tree.root
  closed path name occupied := by
    obtain ⟨nonempty, inDir, -, -, -, notBelow, -⟩ := canMove
    have kept {start : List Name} (outside : ¬ start <+: path ++ [name]) : ¬ start <+: path :=
      fun isPrefix => outside (isPrefix.trans (List.prefix_append path [name]))
    by_cases moved : target <+: path ++ [name]
    · rw [if_pos moved] at occupied
      rcases List.prefix_concat_iff.mp moved with same | below
      · have parent : target.dropLast = path := by rw [same, List.dropLast_concat]
        have outside : ¬ source <+: path := fun isPrefix =>
          notBelow (same ▸ isPrefix.trans (List.prefix_append path [name]))
        rw [if_neg, if_neg outside, ← parent]
        · exact inDir
        · intro isPrefix
          have length := isPrefix.length_le
          rw [same, List.length_append, List.length_singleton] at length
          omega
      · rw [if_pos below]
        rw [List.drop_append_of_le_length below.length_le, ← List.append_assoc] at occupied
        exact tree.closed _ name occupied
    · rw [if_neg moved] at occupied
      by_cases removed : source <+: path ++ [name]
      · rw [if_pos removed] at occupied
        cases occupied
      · rw [if_neg removed] at occupied
        rw [if_neg (kept moved), if_neg (kept removed)]
        exact tree.closed path name occupied

inductive MkdirResult (Name : Type u) where
  | created (tree : SymlinkTree Name) (path : List Name)
  | noEntry
  | refused

def mkdir (links : Nat) (tree : SymlinkTree Name) (parent : List Name) (name : Name) :
    MkdirResult Name :=
  match tree.lookup links parent with
  | .found dir =>
    if tree.node dir = some .dir ∧ tree.node (dir ++ [name]) = none then
      .created (tree.put (dir ++ [name]) (some .dir)) (dir ++ [name])
    else .refused
  | .missing _ | .notFound => .noEntry
  | .failed => .refused

/-- Create a directory and its missing parents; the path is given last component first.  The
directories made so far stay when the call fails. -/
def createDirAllRev (links : Nat) (tree : SymlinkTree Name) :
    List Name → SymlinkTree Name × List (List Name) × Bool
  | [] => (tree, [], true)
  | name :: parent =>
    match tree.mkdir links parent.reverse name with
    | .created next path => (next, [path], true)
    | .noEntry =>
      let (middle, made, made?) := createDirAllRev links tree parent
      if made? then
        match middle.mkdir links parent.reverse name with
        | .created next path => (next, made ++ [path], true)
        | .noEntry | .refused =>
          (middle, made, middle.isDirAt links (parent.reverse ++ [name]))
      else (middle, made, false)
    | .refused => (tree, [], tree.isDirAt links (parent.reverse ++ [name]))

/-- Remove the last component itself, if it is not a directory. -/
def unlink (links : Nat) (tree : SymlinkTree Name) (parent : List Name) (name : Name) :
    SymlinkTree Name :=
  match tree.lookup links parent with
  | .found dir => tree.put (dir ++ [name]) none
  | _ => tree

def symlink (links : Nat) (tree : SymlinkTree Name) (parent : List Name) (name : Name)
    (target : LinkTarget Name) : Option (SymlinkTree Name × List Name) :=
  match tree.lookup links parent with
  | .found dir =>
    if tree.node dir = some .dir ∧ tree.node (dir ++ [name]) = none then
      some (tree.put (dir ++ [name]) (some (.symlink target)), dir ++ [name])
    else none
  | _ => none

/-- Open a file for writing, creating it if need be; also tells which file was opened. -/
def openCreate (links : Nat) (tree : SymlinkTree Name) (path : List Name) :
    Option (SymlinkTree Name × List Name) :=
  match tree.lookup links path with
  | .found physical =>
    if tree.node physical = some .dir then none else some (tree, physical)
  | .missing physical => some (tree.put physical (some .file), physical)
  | .notFound | .failed => none

/-- The canonical path of the nearest ancestor that exists; the path is given last component
first. -/
def nearestRev (links : Nat) (tree : SymlinkTree Name) : List Name → List Name
  | [] => []
  | name :: parent =>
    match tree.lookup links (parent.reverse ++ [name]) with
    | .found physical => physical
    | _ => nearestRev links tree parent

theorem put_node (isDir : tree.node dir = some .dir)
    (notDir : tree.node (dir ++ [name]) ≠ some .dir) (value : Option (TreeNode Name))
    (other : List Name) :
    (tree.put (dir ++ [name]) value).node other =
      if other = dir ++ [name] then value else tree.node other := by
  simp [put, isDir, notDir]

theorem put_node_absent (isDir : tree.node dir = some .dir)
    (absent : tree.node (dir ++ [name]) = none) (value : Option (TreeNode Name))
    (other : List Name) :
    (tree.put (dir ++ [name]) value).node other =
      if other = dir ++ [name] then value else tree.node other :=
  put_node isDir (by simp [absent]) value other

theorem advance_append (tree : SymlinkTree Name) (current : List Name)
    (components : List (PathComponent Name)) (nonempty : more ≠ []) :
    tree.advance current (components ++ more) =
      match tree.advance current components with
      | .inl (.found dir) => tree.advance dir more
      | .inl (.missing _) | .inl .notFound => .inl .notFound
      | .inl .failed => .inl .failed
      | .inr (base, rest) => .inr (base, rest ++ more) := by
  induction components generalizing current with
  | nil => rfl
  | cons component rest ih =>
    simp only [List.cons_append, advance]
    split
    · cases component with
      | here => exact ih current
      | up => exact ih current.dropLast
      | name name =>
        cases occupied : tree.node (current ++ [name]) with
        | none => cases rest <;> simp [nonempty, occupied]
        | some value =>
          cases value with
          | dir | file =>
            simp only [occupied]
            exact ih (current ++ [name])
          | symlink target => simp [occupied]
    · rfl

theorem resolve_succ_of_link (linked : tree.advance current components = .inr (base, rest)) :
    tree.resolve (links + 1) current components = tree.resolve links base rest := by
  simp only [resolve, linked]

theorem resolve_of_result (ended : tree.advance current components = .inl result) :
    tree.resolve links current components = result := by
  cases links <;> simp only [resolve, ended]

theorem advance_append_link (linked : tree.advance current components = .inr (base, rest))
    (more : List (PathComponent Name)) :
    tree.advance current (components ++ more) = .inr (base, rest ++ more) := by
  by_cases empty : more = []
  · simp [empty, linked]
  · rw [advance_append tree current components empty, linked]

/-- What follows a path that leads to a directory is followed from there, with the links that
are left. -/
theorem resolve_append_of_found (followed : tree.advance current components = .inl (.found dir))
    (more : List (PathComponent Name)) : tree.resolve links current (components ++ more) =
      tree.resolve links dir more := by
  by_cases empty : more = []
  · rw [empty, List.append_nil, resolve_of_result followed]
    cases links <;> rfl
  · cases links <;> simp only [resolve, advance_append tree current components empty, followed]

theorem resolve_append (found : tree.resolve links current components = .found dir) :
    ∃ left, ∀ more, tree.resolve links current (components ++ more) =
      tree.resolve left dir more := by
  induction links generalizing current components with
  | zero =>
    cases followed : tree.advance current components with
    | inl result =>
      rw [resolve_of_result followed] at found
      exact ⟨_, resolve_append_of_found (found ▸ followed)⟩
    | inr link =>
      simp only [resolve, followed] at found
      cases found
  | succ links ih =>
    cases followed : tree.advance current components with
    | inl result =>
      rw [resolve_of_result followed] at found
      exact ⟨_, resolve_append_of_found (found ▸ followed)⟩
    | inr link =>
      rw [resolve_succ_of_link followed] at found
      obtain ⟨left, same⟩ := ih found
      refine ⟨left, fun more => ?_⟩
      rw [resolve_succ_of_link (advance_append_link followed more), same]

theorem resolve_append_of_result (nonempty : more ≠ [])
    (followed : tree.advance current components = .inl result)
    (notDir : ∀ dir, result ≠ .found dir) :
    tree.resolve links current (components ++ more) = .notFound ∨
      tree.resolve links current (components ++ more) = .failed := by
  have appended := advance_append tree current components nonempty
  rw [followed] at appended
  cases result with
  | found dir => exact absurd rfl (notDir dir)
  | missing | notFound => exact Or.inl (resolve_of_result appended)
  | failed => exact Or.inr (resolve_of_result appended)

theorem resolve_append_stuck (nonempty : more ≠ [])
    (stuck : ∀ dir, tree.resolve links current components ≠ .found dir) :
    tree.resolve links current (components ++ more) = .notFound ∨
      tree.resolve links current (components ++ more) = .failed := by
  induction links generalizing current components with
  | zero =>
    cases followed : tree.advance current components with
    | inl result =>
      rw [resolve_of_result followed] at stuck
      exact resolve_append_of_result nonempty followed stuck
    | inr link =>
      right
      simp only [resolve, advance_append_link followed more]
  | succ links ih =>
    cases followed : tree.advance current components with
    | inl result =>
      rw [resolve_of_result followed] at stuck
      exact resolve_append_of_result nonempty followed stuck
    | inr link =>
      rw [resolve_succ_of_link followed] at stuck
      rw [resolve_succ_of_link (advance_append_link followed more)]
      exact ih stuck

def Extends (tree next : SymlinkTree Name) : Prop :=
  ∀ path value, tree.node path = some value → next.node path = some value

theorem advance_extends (grows : tree.Extends next) :
    (∀ physical, tree.advance current components = .inl (.found physical) →
      next.advance current components = .inl (.found physical)) ∧
    ∀ link, tree.advance current components = .inr link →
      next.advance current components = .inr link := by
  induction components generalizing current with
  | nil => exact ⟨fun _ followed => followed, fun _ followed => followed⟩
  | cons component rest ih =>
    by_cases isDir : tree.node current = some .dir
    · simp only [advance, isDir, grows _ _ isDir, if_true]
      cases component with
      | here => exact ih
      | up => exact ih
      | name name =>
        cases occupied : tree.node (current ++ [name]) with
        | none =>
          simp only [occupied]
          constructor
          · intro physical followed
            split at followed <;> cases followed
          · intro link followed
            cases followed
        | some value =>
          cases value with
          | dir | file =>
            simp only [occupied, grows _ _ occupied]
            exact ih
          | symlink target =>
            simp only [occupied, grows _ _ occupied]
            exact ⟨fun _ followed => followed, fun _ followed => followed⟩
    · simp only [advance, isDir, if_false]
      constructor
      · intro physical followed
        cases followed
      · intro link followed
        cases followed

/-- What is found stays found at the same place when the tree grows. -/
theorem resolve_extends (grows : tree.Extends next)
    (found : tree.resolve links current components = .found physical) :
    next.resolve links current components = .found physical := by
  induction links generalizing current components with
  | zero =>
    cases followed : tree.advance current components with
    | inl result =>
      rw [resolve_of_result followed] at found
      exact resolve_of_result ((advance_extends grows).1 _ (found ▸ followed))
    | inr link =>
      simp only [resolve, followed] at found
      cases found
  | succ links ih =>
    cases followed : tree.advance current components with
    | inl result =>
      rw [resolve_of_result followed] at found
      exact resolve_of_result ((advance_extends grows).1 _ (found ▸ followed))
    | inr link =>
      rw [resolve_succ_of_link followed] at found
      rw [resolve_succ_of_link ((advance_extends grows).2 _ followed)]
      exact ih found

theorem lookup_extends (grows : tree.Extends next)
    (found : tree.lookup links path = .found physical) :
    next.lookup links path = .found physical :=
  resolve_extends grows found

def Unlinked (tree : SymlinkTree Name) (path : List Name) : Prop :=
  ∀ before, before <+: path → ∀ target, tree.node before ≠ some (.symlink target)

theorem advance_unlinked {names : List Name}
    (unlinked : ∀ before, before <+: names → before ≠ [] → ∀ target,
      tree.node (current ++ before) ≠ some (.symlink target)) :
    ∃ result, tree.advance current (names.map .name) = .inl result ∧
      ∀ physical, result = .found physical → physical = current ++ names := by
  induction names generalizing current with
  | nil =>
    refine ⟨_, rfl, fun physical same => ?_⟩
    rw [List.append_nil]
    exact (Lookup.found.inj same).symm
  | cons name names ih =>
    have plain := unlinked [name] (List.prefix_append [name] names) (by simp)
    have continued := @ih (current ++ [name]) fun before isPrefix _ => by
      have longer := unlinked (name :: before) (List.cons_prefix_cons.mpr ⟨rfl, isPrefix⟩) (by simp)
      simpa using longer
    rw [List.append_assoc, List.singleton_append] at continued
    simp only [List.map_cons, advance]
    split
    · cases occupied : tree.node (current ++ [name]) with
      | none =>
        refine ⟨_, rfl, fun physical same => ?_⟩
        split at same <;> cases same
      | some value =>
        cases value with
        | dir | file => exact continued
        | symlink target => exact absurd occupied (plain target)
    · exact ⟨_, rfl, fun physical same => by cases same⟩

theorem lookup_unlinked (unlinked : tree.Unlinked path)
    (found : tree.lookup links path = .found physical) : physical = path := by
  obtain ⟨result, followed, same⟩ := @advance_unlinked _ _ tree [] path
    fun before isPrefix _ => unlinked before isPrefix
  rw [lookup, resolve_of_result followed] at found
  exact same physical found

section Entry

variable {parent : List Name} {value : TreeNode Name} {made rev : List Name}

theorem exists_parent
    (reached : tree.lookup links (parent ++ [name]) = .found physical ∨
      tree.lookup links (parent ++ [name]) = .missing physical) :
    ∃ dir, tree.lookup links parent = .found dir := by
  by_contra stuck
  have ended := @resolve_append_stuck _ _ tree links [] (parent.map .name) [.name name] (by simp)
    fun dir found => stuck ⟨dir, found⟩
  rw [lookup, List.map_append, List.map_singleton] at reached
  rcases ended with ended | ended <;> rw [ended] at reached <;> simp at reached

section

variable (found : tree.lookup links parent = .found dir)

include found

theorem lookup_entry (name : Name) :
    ∃ left, tree.lookup links (parent ++ [name]) = tree.resolve left dir [.name name] := by
  obtain ⟨left, same⟩ := resolve_append found
  refine ⟨left, ?_⟩
  rw [lookup, List.map_append, List.map_singleton]
  exact same [.name name]

theorem lookup_entry_absent (isDir : tree.node dir = some .dir)
    (absent : tree.node (dir ++ [name]) = none) :
    tree.lookup links (parent ++ [name]) = .missing (dir ++ [name]) := by
  obtain ⟨left, same⟩ := lookup_entry found name
  rw [same]
  exact resolve_of_result (by simp [advance, isDir, absent])

theorem lookup_entry_plain (isDir : tree.node dir = some .dir)
    (occupied : tree.node (dir ++ [name]) = some value)
    (plain : ∀ target, value ≠ .symlink target) :
    tree.lookup links (parent ++ [name]) = .found (dir ++ [name]) := by
  obtain ⟨left, same⟩ := lookup_entry found name
  rw [same]
  refine resolve_of_result ?_
  cases value with
  | dir | file => simp [advance, isDir, occupied]
  | symlink target => exact absurd rfl (plain target)

theorem lookup_entry_notDir (notDir : tree.node dir ≠ some .dir) :
    tree.lookup links (parent ++ [name]) = .failed := by
  obtain ⟨left, same⟩ := lookup_entry found name
  rw [same]
  exact resolve_of_result (by simp [advance, notDir])

end

structure Grows (tree next : SymlinkTree Name) : Prop where
  keeps : tree.Extends next
  unlinked : ∀ path target, next.node path = some (.symlink target) →
    tree.node path = some (.symlink target)

omit [DecidableEq Name] in
theorem Grows.refl (tree : SymlinkTree Name) : tree.Grows tree :=
  ⟨fun _ _ same => same, fun _ _ same => same⟩

omit [DecidableEq Name] in
theorem Grows.trans {last : SymlinkTree Name} (first : tree.Grows next)
    (second : next.Grows last) : tree.Grows last :=
  ⟨fun path value occupied => second.keeps path value (first.keeps path value occupied),
    fun path target linked => first.unlinked path target (second.unlinked path target linked)⟩

omit [DecidableEq Name] in
theorem Unlinked.grows (unlinked : tree.Unlinked path) (grows : tree.Grows next) :
    next.Unlinked path :=
  fun before isPrefix target linked =>
    unlinked before isPrefix target (grows.unlinked before target linked)

theorem grows_put (isDir : tree.node dir = some .dir) (absent : tree.node (dir ++ [name]) = none)
    (plain : ∀ target, value ≠ .symlink target) :
    tree.Grows (tree.put (dir ++ [name]) (some value)) := by
  have lookup := put_node_absent isDir absent (some value)
  refine ⟨fun path old occupied => ?_, fun path target linked => ?_⟩
  · rw [lookup, if_neg, occupied]
    rintro rfl
    rw [absent] at occupied
    cases occupied
  · rw [lookup] at linked
    split at linked
    · exact absurd (Option.some.inj linked) (plain target)
    · exact linked

theorem mkdir_created (created : tree.mkdir links parent name = .created next made) :
    ∃ dir, tree.lookup links parent = .found dir ∧ tree.node dir = some .dir ∧
      tree.node (dir ++ [name]) = none ∧ made = dir ++ [name] ∧
      next = tree.put (dir ++ [name]) (some .dir) := by
  unfold mkdir at created
  split at created
  · rename_i dir found
    split at created
    · rename_i free
      obtain ⟨rfl, rfl⟩ := MkdirResult.created.inj created
      exact ⟨dir, found, free.1, free.2, rfl, rfl⟩
    · cases created
  · cases created
  · cases created
  · cases created

theorem mkdir_of_absent (found : tree.lookup links parent = .found dir)
    (isDir : tree.node dir = some .dir) (absent : tree.node (dir ++ [name]) = none) :
    tree.mkdir links parent name =
      .created (tree.put (dir ++ [name]) (some .dir)) (dir ++ [name]) := by
  simp only [mkdir, found, isDir, absent, and_self, if_true]

theorem put_dir (found : tree.lookup links parent = .found dir)
    (isDir : tree.node dir = some .dir) (absent : tree.node (dir ++ [name]) = none) :
    tree.Grows (tree.put (dir ++ [name]) (some .dir)) ∧
    (tree.put (dir ++ [name]) (some .dir)).lookup links (parent ++ [name]) =
      .found (dir ++ [name]) ∧
    (tree.put (dir ++ [name]) (some .dir)).node (dir ++ [name]) = some .dir ∧
    ∀ child, (tree.put (dir ++ [name]) (some .dir)).node (dir ++ [name] ++ [child]) = none := by
  have grows : tree.Grows (tree.put (dir ++ [name]) (some .dir)) :=
    grows_put isDir absent (by simp)
  have lookup := put_node_absent isDir absent (some .dir)
  have isDirAfter : (tree.put (dir ++ [name]) (some .dir)).node (dir ++ [name]) = some .dir := by
    rw [lookup, if_pos rfl]
  refine ⟨grows, ?_, isDirAfter, fun child => ?_⟩
  · exact lookup_entry_plain (lookup_extends grows.keeps found) (grows.keeps _ _ isDir)
      isDirAfter (by simp)
  · rw [lookup, if_neg (by simp)]
    by_contra occupied
    have impossible := tree.closed (dir ++ [name]) child (Option.isSome_iff_ne_none.mpr occupied)
    rw [absent] at impossible
    cases impossible

structure CreatesBelow (links : Nat) (tree : SymlinkTree Name) (rev : List Name)
    (result : SymlinkTree Name × List (List Name) × Bool) : Prop where
  below : ∀ made ∈ result.2.1, tree.nearestRev links rev <+: made
  grows : tree.Grows result.1
  isDir : result.2.2 = true → result.1.isDirAt links rev.reverse = true
  fresh : result.2.2 = true → (∀ physical, tree.lookup links rev.reverse ≠ .found physical) →
    ∃ dir, result.1.lookup links rev.reverse = .found dir ∧ result.1.node dir = some .dir ∧
      tree.nearestRev links rev <+: dir ∧ ∀ child, result.1.node (dir ++ [child]) = none

theorem isDirAt_of_found (found : tree.lookup links path = .found dir)
    (isDir : tree.node dir = some .dir) : tree.isDirAt links path = true := by
  simp [isDirAt, found, isDir]

theorem nearestRev_of_found (found : tree.lookup links rev.reverse = .found physical) :
    tree.nearestRev links rev = physical := by
  cases rev with
  | nil =>
    have empty : tree.lookup links [] = .found [] := resolve_of_result rfl
    exact Lookup.found.inj (empty.symm.trans found)
  | cons name parent =>
    rw [List.reverse_cons] at found
    simp only [nearestRev, found]

theorem nearestRev_of_not_found
    (stuck : ∀ physical, tree.lookup links (rev.reverse ++ [name]) ≠ .found physical) :
    tree.nearestRev links (name :: rev) = tree.nearestRev links rev := by
  simp only [nearestRev]

theorem found_of_isDirAt (isDir : tree.isDirAt links path = true) :
    ∃ dir, tree.lookup links path = .found dir ∧ tree.node dir = some .dir := by
  unfold isDirAt at isDir
  split at isDir
  · rename_i dir found
    exact ⟨dir, found, of_decide_eq_true isDir⟩
  · cases isDir

theorem mkdir_noEntry (missing : tree.mkdir links parent name = .noEntry) :
    ∀ dir, tree.lookup links parent ≠ .found dir := by
  intro dir found
  simp only [mkdir, found] at missing
  split at missing <;> cases missing

theorem CreatesBelow.put {middle : SymlinkTree Name} {made : List (List Name)}
    (grows : tree.Grows middle) (below : ∀ path ∈ made, tree.nearestRev links rev <+: path)
    (stuck : ∀ physical, tree.lookup links (rev.reverse ++ [name]) ≠ .found physical)
    (found : middle.lookup links rev.reverse = .found dir) (isDir : middle.node dir = some .dir)
    (absent : middle.node (dir ++ [name]) = none) (under : tree.nearestRev links rev <+: dir) :
    CreatesBelow links tree (name :: rev)
      (middle.put (dir ++ [name]) (some .dir), made ++ [dir ++ [name]], true) := by
  obtain ⟨growsLast, foundLast, isDirLast, empty⟩ := put_dir found isDir absent
  have underLast : tree.nearestRev links (name :: rev) <+: dir ++ [name] := by
    rw [nearestRev_of_not_found stuck]
    exact under.trans (List.prefix_append dir [name])
  rw [← List.reverse_cons] at foundLast
  refine ⟨fun path listed => ?_, grows.trans growsLast,
    fun _ => isDirAt_of_found foundLast isDirLast,
    fun _ _ => ⟨_, foundLast, isDirLast, underLast, empty⟩⟩
  rcases List.mem_append.mp listed with before | last
  · rw [nearestRev_of_not_found stuck]
    exact below path before
  · exact List.mem_singleton.mp last ▸ underLast

theorem createsBelow (links : Nat) (tree : SymlinkTree Name) (rev : List Name) :
    CreatesBelow links tree rev (tree.createDirAllRev links rev) := by
  induction rev with
  | nil =>
    have empty : tree.lookup links [] = .found [] := resolve_of_result rfl
    exact ⟨by simp [createDirAllRev], .refl tree, fun _ => isDirAt_of_found empty tree.root,
      fun _ stuck => absurd empty (stuck [])⟩
  | cons name parent ih =>
    simp only [createDirAllRev]
    cases attempt : tree.mkdir links parent.reverse name with
    | created next made =>
      obtain ⟨dir, found, isDir, absent, rfl, rfl⟩ := mkdir_created attempt
      have missing := lookup_entry_absent found isDir absent
      have below : ∀ path ∈ ([] : List (List Name)), tree.nearestRev links parent <+: path := by
        simp
      exact CreatesBelow.put (.refl tree) below (by simp [missing]) found isDir absent
        (by rw [nearestRev_of_found found])
    | noEntry =>
      have stuckParent := mkdir_noEntry attempt
      have stuck : ∀ physical, tree.lookup links (parent.reverse ++ [name]) ≠
          .found physical := by
        intro physical reached
        obtain ⟨dir, found⟩ := exists_parent (Or.inl reached)
        exact stuckParent dir found
      revert ih
      rcases tree.createDirAllRev links parent with ⟨middle, made, isMade⟩
      intro ih
      cases isMade with
      | false =>
        refine ⟨?_, ih.grows, by simp, by simp⟩
        rw [nearestRev_of_not_found stuck]
        exact ih.below
      | true =>
        obtain ⟨dir, found, isDir, under, empty⟩ := ih.fresh rfl stuckParent
        simp only [if_true, mkdir_of_absent found isDir (empty name)]
        exact CreatesBelow.put ih.grows ih.below stuck
          found isDir (empty name) under
    | refused =>
      refine ⟨by simp, .refl tree, ?_, fun isDir stuck => ?_⟩
      · rw [List.reverse_cons]
        exact fun isDir => isDir
      · rw [List.reverse_cons] at stuck
        obtain ⟨dir, found, -⟩ := found_of_isDirAt isDir
        exact absurd found (stuck dir)

/-- Opening a file whose last component is no link opens the entry of its directory. -/
theorem openCreate_entry {opened : List Name}
    (isOpen : tree.openCreate links (parent ++ [name]) = some (next, opened))
    (plain : ∀ dir, tree.lookup links parent = .found dir →
      ∀ target, tree.node (dir ++ [name]) ≠ some (.symlink target)) :
    tree.Grows next ∧ next.node opened = some .file ∧
      ∃ dir, tree.lookup links parent = .found dir ∧ opened = dir ++ [name] := by
  have entry {physical : List Name}
      (reached : tree.lookup links (parent ++ [name]) = .found physical ∨
        tree.lookup links (parent ++ [name]) = .missing physical) :
      ∃ dir, tree.lookup links parent = .found dir ∧ tree.node dir = some .dir ∧
        physical = dir ++ [name] := by
    obtain ⟨dir, found⟩ := exists_parent reached
    by_cases isDir : tree.node dir = some .dir
    · refine ⟨dir, found, isDir, ?_⟩
      cases occupied : tree.node (dir ++ [name]) with
      | none => simpa [lookup_entry_absent found isDir occupied, eq_comm] using reached
      | some value =>
        have isPlain : ∀ target, value ≠ .symlink target :=
          fun target same => plain dir found target (same ▸ occupied)
        simpa [lookup_entry_plain found isDir occupied isPlain, eq_comm] using reached
    · simp [lookup_entry_notDir found isDir] at reached
  unfold openCreate at isOpen
  split at isOpen
  · rename_i physical reached
    split at isOpen
    · cases isOpen
    · rename_i notDir
      obtain ⟨rfl, rfl⟩ := Prod.mk.inj (Option.some.inj isOpen)
      obtain ⟨dir, found, isDir, rfl⟩ := entry (Or.inl reached)
      refine ⟨.refl tree, ?_, dir, found, rfl⟩
      cases occupied : tree.node (dir ++ [name]) with
      | none =>
        rw [lookup_entry_absent found isDir occupied] at reached
        cases reached
      | some value =>
        cases value with
        | file => rfl
        | dir => exact absurd occupied notDir
        | symlink target => exact absurd occupied (plain dir found target)
  · rename_i physical reached
    obtain ⟨rfl, rfl⟩ := Prod.mk.inj (Option.some.inj isOpen)
    obtain ⟨dir, found, isDir, rfl⟩ := entry (Or.inr reached)
    have absent : tree.node (dir ++ [name]) = none := by
      by_contra occupied
      obtain ⟨value, some⟩ := Option.ne_none_iff_exists'.mp occupied
      have isPlain : ∀ target, value ≠ .symlink target :=
        fun target same => plain dir found target (same ▸ some)
      rw [lookup_entry_plain found isDir some isPlain] at reached
      cases reached
    refine ⟨grows_put isDir absent (by simp), ?_, dir, found, rfl⟩
    rw [put_node_absent isDir absent, if_pos rfl]
  · cases isOpen
  · cases isOpen

theorem unlink_extends (links : Nat) (tree : SymlinkTree Name) (parent : List Name)
    (name : Name) : (tree.unlink links parent name).Extends tree := by
  intro path value occupied
  unfold unlink at occupied
  split at occupied
  · simp only [put] at occupied
    split at occupied
    · cases occupied
    · exact occupied
  · exact occupied

theorem unlink_dir (isDir : tree.node path = some .dir) (parent : List Name) (name : Name) :
    (tree.unlink links parent name).node path = some .dir := by
  unfold unlink
  split
  · rename_i dir _
    simp only [put]
    rw [if_neg, isDir]
    rintro ⟨rfl, -, -, notDir⟩
    exact notDir isDir
  · exact isDir

theorem symlink_entry {target : LinkTarget Name}
    (created : tree.symlink links parent name target = some (next, made)) :
    ∃ dir, tree.lookup links parent = .found dir ∧ made = dir ++ [name] ∧
      ∀ other, next.node other = if other = made then some (.symlink target)
        else tree.node other := by
  unfold symlink at created
  split at created
  · rename_i dir found
    split at created
    · rename_i free
      obtain ⟨rfl, rfl⟩ := Prod.mk.inj (Option.some.inj created)
      exact ⟨dir, found, rfl, put_node_absent free.1 free.2 _⟩
    · cases created
  · cases created

omit [DecidableEq Name] in
theorem dir_above {rest : List Name} (nonempty : rest ≠ [])
    (occupied : (tree.node (path ++ rest)).isSome = true) : tree.node path = some .dir := by
  induction rest using List.reverseRecOn with
  | nil => exact absurd rfl nonempty
  | append_singleton front last ih =>
    rw [← List.append_assoc] at occupied
    have above := tree.closed _ last occupied
    by_cases empty : front = []
    · rwa [empty, List.append_nil] at above
    · exact ih empty (by rw [above]; rfl)

end Entry

end SymlinkTree

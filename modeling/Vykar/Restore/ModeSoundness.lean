import Vykar.Restore.Modes

/-!
When the modes of the items let a restore succeed.

Each step is described by the whole tree it leaves.  While items are streamed the tree has the
directories and links of the items so far, each directory with its recorded mode; creating an
entry succeeds if the recorded mode of its directory allows it.
-/

namespace Vykar.Restore

open ModeTree Snapshot

namespace ModeInput

variable (input : ModeInput)

def layout (present : ModeTree Name) : ModeTree Name
  | [] => some ⟨.dir, input.destMode⟩
  | name :: rest =>
    if name = input.tempName then
      if rest = [] then some ⟨.dir, input.newDirMode⟩ else present rest
    else none

variable {input} {present : ModeTree Name} {path : Path}

theorem layout_temp (nonempty : path ≠ []) :
    input.layout present (input.tempName :: path) = present path := by
  simp [layout, nonempty]

theorem layout_root : input.layout present [input.tempName] = some ⟨.dir, input.newDirMode⟩ := by
  simp [layout]

theorem layout_update (nonempty : path ≠ []) (value : Option ModeNode) :
    Function.update (input.layout present) (input.tempName :: path) value =
      input.layout (Function.update present path value) := by
  funext other
  cases other with
  | nil => rfl
  | cons name rest =>
    by_cases same : name = input.tempName
    · subst same
      by_cases here : rest = path
      · subst here
        rw [Function.update_self, layout_temp nonempty, Function.update_self]
      · rw [Function.update_of_ne (by simpa using here)]
        by_cases empty : rest = []
        · subst empty
          rw [layout_root, layout_root]
        · rw [layout_temp empty, layout_temp empty, Function.update_of_ne here]
    · rw [Function.update_of_ne (by simp [same])]
      simp [layout, same]

theorem dropLast_temp (nonempty : path ≠ []) :
    (input.tempName :: path).dropLast = input.tempName :: path.dropLast :=
  List.dropLast_cons_of_ne_nil nonempty

theorem enter_temp (exec : ownerExec input.destMode = true) :
    (input.layout present).enter [] [input.tempName] = .ok () := by
  simp [enter, layout, exec]

end ModeInput

def ParentOpen (items : List ModeItem) (path : Path) : Prop :=
  path.dropLast = [] ∨ ∃ parent ∈ items, parent.entryType = .directory ∧
    parent.normalPath = some path.dropLast ∧
    ownerExec parent.mode = true ∧ ownerWrite parent.mode = true

def ParentListed (items : List ModeItem) (path : Path) : Prop :=
  path.dropLast = [] ∨ ∃ parent ∈ items, parent.entryType = .directory ∧
    parent.normalPath = some path.dropLast

def HasDirs (items : List ModeItem) (present : ModeTree Name) : Prop :=
  ∀ entry ∈ items, entry.entryType = .directory → ∀ path, entry.normalPath = some path →
    present path = some ⟨.dir, permissionBits entry.mode⟩

def OpenFor (items : List ModeItem) (kinds : Snapshot.ItemType → Prop) : Prop :=
  ∀ entry ∈ items, kinds entry.entryType → ∀ path, entry.normalPath = some path →
    ParentOpen items path

variable {input : ModeInput} {items : List ModeItem} {present : ModeTree Name} {path : Path}

theorem item_unique (distinct : PathsDistinct items) {first second : ModeItem}
    (listed : first ∈ items) (listedSecond : second ∈ items)
    (normal : first.normalPath = some path) (same : second.normalPath = some path) :
    first = second := by
  have symmetric : Std.Symm fun first second : ModeItem =>
      ∀ path, first.normalPath = some path → second.normalPath ≠ some path :=
    ⟨fun _ _ differ path second first => differ path first second⟩
  by_contra differ
  exact distinct.forall listed listedSecond differ path normal same

/-- Below a directory that can be entered, so can the entries in directories that are open. -/
theorem OpenFor.entered {kinds : Snapshot.ItemType → Prop} {tree : ModeTree Name} {root : Path}
    {mode : Nat} (isOpen : OpenFor items kinds) (dirsToo : kinds .directory)
    (atRoot : tree.enter [] root = .ok ()) (isRoot : tree root = some ⟨.dir, mode⟩)
    (exec : ownerExec mode = true) (dirs : HasDirs items fun path => tree (root ++ path))
    {entry : ModeItem} (listed : entry ∈ items) (kind : kinds entry.entryType)
    (normal : entry.normalPath = some path) : tree.enter [] (root ++ path) = .ok () := by
  -- by induction on the length of the path, from the top down
  induction length : path.length using Nat.strong_induction_on generalizing entry path with
  | _ bound ih =>
    have nonempty := normalPath_ne_nil normal
    have whole : root ++ path ≠ [] := by simp [nonempty]
    have parentPath : (root ++ path).dropLast = root ++ path.dropLast :=
      List.dropLast_append_of_ne_nil nonempty
    rcases isOpen entry listed kind path normal with top | ⟨parent, among, parentDir,
      parentNormal, parentExec, -⟩
    · rw [top, List.append_nil] at parentPath
      rw [enter_of_parent whole (by rw [parentPath]; exact atRoot)
        (by rw [parentPath]; exact isRoot), exec]
      rfl
    · have shorter : path.dropLast.length < bound := by
        have some := List.length_pos_of_ne_nil nonempty
        rw [List.length_dropLast]
        omega
      have entered := ih _ shorter among (parentDir ▸ dirsToo) parentNormal rfl
      rw [enter_of_parent whole (by rw [parentPath]; exact entered)
        (by rw [parentPath]; exact dirs parent among parentDir _ parentNormal),
        ownerExec_permissionBits, parentExec]
      rfl

theorem entered_of_open (exec : ownerExec input.destMode = true) (dirs : HasDirs items present)
    (isOpen : OpenFor items (· = .directory)) {entry : ModeItem} (listed : entry ∈ items)
    (isDir : entry.entryType = .directory) (normal : entry.normalPath = some path) :
    (input.layout present).enter [] (input.tempName :: path) = .ok () :=
  isOpen.entered rfl (ModeInput.enter_temp exec) ModeInput.layout_root input.newDir_owner.2.2
    (fun parent among parentDir path parentNormal =>
      (ModeInput.layout_temp (normalPath_ne_nil parentNormal)).trans
        (dirs parent among parentDir path parentNormal)) listed isDir normal

theorem parent_entered (exec : ownerExec input.destMode = true) (dirs : HasDirs items present)
    (distinct : PathsDistinct items)
    (isOpen : OpenFor items (· = .directory)) (nonempty : path ≠ [])
    (parents : ParentListed items path) :
    ∃ mode, (input.layout present).enter [] (input.tempName :: path).dropLast = .ok () ∧
      input.layout present (input.tempName :: path).dropLast = some ⟨.dir, mode⟩ ∧
      (ownerExec mode = true ∧ ownerWrite mode = true ↔ ParentOpen items path) := by
  rw [ModeInput.dropLast_temp nonempty]
  rcases parents with top | ⟨parent, among, isDir, normal⟩
  · refine ⟨input.newDirMode, ?_, ?_, ?_⟩
    · rw [top]
      exact ModeInput.enter_temp exec
    · rw [top]
      exact ModeInput.layout_root
    · exact ⟨fun _ => Or.inl top, fun _ => ⟨input.newDir_owner.2.2, input.newDir_owner.2.1⟩⟩
  · refine ⟨permissionBits parent.mode, entered_of_open exec dirs isOpen among isDir normal, ?_, ?_⟩
    · rw [ModeInput.layout_temp (normalPath_ne_nil normal)]
      exact dirs parent among isDir _ normal
    · rw [ownerExec_permissionBits, ownerWrite_permissionBits]
      refine ⟨fun bits => Or.inr ⟨parent, among, isDir, normal, bits⟩, fun allowed => ?_⟩
      rcases allowed with top | ⟨other, otherAmong, -, otherNormal, bits⟩
      · exact absurd top (normalPath_ne_nil normal)
      · exact item_unique distinct otherAmong among otherNormal normal ▸ bits

section Streaming

def streamNode (done : List ModeItem) : ModeTree Name := fun path =>
  (done.find? fun entry =>
    entry.normalPath = some path ∧ entry.entryType ≠ .regularFile).map ModeItem.node

variable {done : List ModeItem} {entry : ModeItem}

theorem streamNode_of_absent
    (absent : ∀ entry ∈ done, entry.normalPath = some path → entry.entryType = .regularFile) :
    streamNode done path = none := by
  rw [streamNode, Option.map_eq_none_iff, List.find?_eq_none]
  intro entry listed
  simpa using absent entry listed

theorem streamNode_of_mem
    (distinct : PathsDistinct done)
    (listed : entry ∈ done) (notFile : entry.entryType ≠ .regularFile)
    (normal : entry.normalPath = some path) : streamNode done path = some entry.node := by
  cases found : done.find? fun entry =>
      decide (entry.normalPath = some path ∧ entry.entryType ≠ .regularFile) with
  | none =>
    have missing := List.find?_eq_none.mp found entry listed
    simp [normal, notFile] at missing
  | some other =>
    have isOther := List.find?_some found
    have same := item_unique distinct (List.mem_of_find?_eq_some found) listed
      (of_decide_eq_true isOther).1 normal
    rw [streamNode, found, Option.map_some, same]

theorem streamNode_append (normal : entry.normalPath = some path)
    (fresh : ∀ other ∈ done, other.normalPath ≠ some path) :
    streamNode (done ++ [entry]) = if entry.entryType = .regularFile then streamNode done
      else Function.update (streamNode done) path (some entry.node) := by
  have nothing : done.find? (fun other =>
      decide (other.normalPath = some path ∧ other.entryType ≠ .regularFile)) = none := by
    rw [List.find?_eq_none]
    intro other listed
    simp [fresh other listed]
  split
  · rename_i isFile
    funext other
    simp [streamNode, List.find?_append, isFile]
  · rename_i notFile
    funext other
    by_cases here : other = path
    · subst here
      rw [Function.update_self, streamNode, List.find?_append, nothing]
      simp [normal, notFile]
    · rw [Function.update_of_ne here]
      have differs : some path ≠ some other := fun same => here (Option.some.inj same).symm
      simp [streamNode, List.find?_append, normal, differs]

theorem streamNode_hasDirs
    (distinct : PathsDistinct done) :
    HasDirs done (streamNode done) := by
  intro entry listed isDir path normal
  rw [streamNode_of_mem distinct listed (by rw [isDir]; nofun) normal, ModeItem.node, isDir]

def ModeInput.dirPath? (input : ModeInput) (entry : ModeItem) : Option Path :=
  if entry.entryType = .directory then entry.normalPath.map (input.tempName :: ·) else none

def streamState (input : ModeInput) (done : List ModeItem) : ModeState where
  tree := input.layout (streamNode done)
  verifiedDirs := (done.filterMap input.dirPath?).reverse ++ [[input.tempName]]
  planned := done.filterMap ModeItem.file?

theorem verified_of_listed (nonempty : path ≠ []) (parents : ParentListed done path) :
    (input.tempName :: path).dropLast ∈ (streamState input done).verifiedDirs := by
  rw [ModeInput.dropLast_temp nonempty]
  rcases parents with top | ⟨parent, among, isDir, normal⟩
  · rw [top]
    exact List.mem_append_right _ (List.mem_singleton.mpr rfl)
  · refine List.mem_append_left _
      (List.mem_reverse.mpr (List.mem_filterMap.mpr ⟨parent, among, ?_⟩))
    simp [ModeInput.dirPath?, isDir, normal]

theorem sanitized_of_normal (normal : entry.normalPath = some path) :
    sanitizeItemPath entry.path = .ok path := by
  unfold Item.normalPath at normal
  cases result : sanitizeItemPath entry.path with
  | error message =>
    rw [result] at normal
    cases normal
  | ok other =>
    rw [result] at normal
    cases normal
    rfl

structure NextItem (input : ModeInput) (done : List ModeItem) (entry : ModeItem) (path : Path) :
    Prop where
  exec : ownerExec input.destMode = true
  distinct : PathsDistinct done
  isOpen : OpenFor done (· = .directory)
  normal : entry.normalPath = some path
  fresh : ∀ other ∈ done, other.normalPath ≠ some path
  parents : ParentListed done path
  link : entry.entryType = .symlink →
    entry.linkTarget.isSome = true ∧ permissionBits entry.mode = 0o777

section

variable (next : NextItem input done entry path)

include next

theorem NextItem.absent :
    input.layout (streamNode done) (input.tempName :: path) = none := by
  rw [ModeInput.layout_temp (normalPath_ne_nil next.normal)]
  exact streamNode_of_absent fun other listed same => absurd same (next.fresh other listed)

theorem NextItem.parent :
    ∃ mode, (input.layout (streamNode done)).enter [] (input.tempName :: path).dropLast = .ok () ∧
      input.layout (streamNode done) (input.tempName :: path).dropLast = some ⟨.dir, mode⟩ ∧
      (ownerExec mode = true ∧ ownerWrite mode = true ↔ ParentOpen done path) :=
  parent_entered next.exec (streamNode_hasDirs next.distinct) next.distinct next.isOpen
    (normalPath_ne_nil next.normal) next.parents

theorem NextItem.file (kind : entry.entryType = .regularFile) :
    input.restoreItem (streamState input done) entry =
      some (streamState input (done ++ [entry])) := by
  have appended := streamNode_append next.normal next.fresh
  rw [if_pos kind] at appended
  unfold ModeInput.restoreItem
  simp only [kind, sanitized_of_normal next.normal]
  simp [streamState, appended, ModeItem.file?, ModeInput.dirPath?, kind, next.normal]

theorem NextItem.added (notFile : entry.entryType ≠ .regularFile) :
    streamState input (done ++ [entry]) = { streamState input done with
      tree := Function.update (input.layout (streamNode done)) (input.tempName :: path)
        (some entry.node)
      verifiedDirs := (input.dirPath? entry).toList ++ (streamState input done).verifiedDirs } := by
  have appended := streamNode_append next.normal next.fresh
  rw [if_neg notFile] at appended
  rw [ModeInput.layout_update (normalPath_ne_nil next.normal)]
  cases isDir : input.dirPath? entry <;>
    simp [streamState, appended, ModeItem.file?, notFile, isDir]

theorem NextItem.directory (kind : entry.entryType = .directory) (state : ModeState) :
    input.restoreItem (streamState input done) entry = some state ↔
      ParentOpen done path ∧ state = streamState input (done ++ [entry]) := by
  have whole : input.tempName :: path ≠ [] := by simp
  obtain ⟨mode, entered, isDir, allowed⟩ := next.parent
  have created := @createDirAll_of_parent _ _ _ _ input.newDirMode mode whole entered isDir
    next.absent
  have verified : input.dirPath? entry = some (input.tempName :: path) := by
    simp [ModeInput.dirPath?, kind, next.normal]
  unfold ModeInput.restoreItem
  rw [next.added (by simp [kind])]
  simp only [kind, sanitized_of_normal next.normal, streamState, created, ModeItem.node, verified]
  by_cases bits : ownerExec mode = true ∧ ownerWrite mode = true
  · have enteredHere := enter_of_parent whole entered isDir
    rw [if_pos bits.1] at enteredHere
    simp only [if_pos bits, allowed.mp bits, Option.bind_eq_bind, Option.bind_some,
      chmod_update enteredHere, Option.some.injEq, true_and]
    exact eq_comm
  · simp [if_neg bits, mt allowed.mpr bits]

theorem NextItem.symlink (kind : entry.entryType = .symlink) (state : ModeState) :
    input.restoreItem (streamState input done) entry = some state ↔
      ParentOpen done path ∧ state = streamState input (done ++ [entry]) := by
  have whole : input.tempName :: path ≠ [] := by simp
  obtain ⟨mode, entered, isDir, allowed⟩ := next.parent
  obtain ⟨hasTarget, linkMode⟩ := next.link kind
  obtain ⟨target, isTarget⟩ := Option.isSome_iff_exists.mp hasTarget
  have unverified : input.dirPath? entry = none := by simp [ModeInput.dirPath?, kind]
  have prepared : input.prepareParent (streamState input done).tree
      (streamState input done).verifiedDirs (input.tempName :: path).dropLast =
        some (streamState input done).tree :=
    if_pos (verified_of_listed (normalPath_ne_nil next.normal) next.parents)
  have created := create_of_parent whole entered isDir next.absent ⟨.symlink, 0o777⟩
  unfold ModeInput.restoreItem
  rw [next.added (by simp [kind])]
  simp only [kind, isTarget, sanitized_of_normal next.normal, prepared, Option.bind_eq_bind,
    Option.bind_some, ModeItem.node, linkMode, unverified]
  simp only [streamState, removeFile_absent next.absent, created]
  by_cases bits : ownerExec mode = true ∧ ownerWrite mode = true
  · simp only [if_pos bits, allowed.mp bits, Except.toOption, Option.bind_some,
      Option.some.injEq, true_and]
    exact eq_comm
  · simp [if_neg bits, mt allowed.mpr bits, Except.toOption]

/-- One item: it is restored if it is a file, or if its directory can be changed. -/
theorem NextItem.restoreItem (state : ModeState) :
    input.restoreItem (streamState input done) entry = some state ↔
      (entry.entryType ≠ .regularFile → ParentOpen done path) ∧
        state = streamState input (done ++ [entry]) := by
  cases kind : entry.entryType with
  | regularFile =>
    rw [next.file kind, Option.some.injEq]
    simp [eq_comm]
  | directory => simpa using next.directory kind state
  | symlink => simpa using next.symlink kind state

end

theorem ParentOpen.mono {more : List ModeItem} (allowed : ParentOpen done path)
    (sublist : ∀ entry ∈ done, entry ∈ more) : ParentOpen more path :=
  allowed.imp_right fun ⟨parent, among, rest⟩ => ⟨parent, sublist parent among, rest⟩

theorem ParentOpen.restrict {more : List ModeItem}
    (distinct : PathsDistinct more)
    (sublist : ∀ entry ∈ done, entry ∈ more) (parents : ParentListed done path)
    (allowed : ParentOpen more path) : ParentOpen done path := by
  rcases parents with top | ⟨parent, among, isDir, normal⟩
  · exact Or.inl top
  · rcases allowed with top | ⟨other, otherAmong, -, otherNormal, bits⟩
    · exact absurd top (normalPath_ne_nil normal)
    · have same := item_unique distinct otherAmong (sublist parent among) otherNormal
        normal
      exact Or.inr ⟨parent, among, isDir, normal, same ▸ bits⟩

theorem stream_eq (exec : ownerExec input.destMode = true) (stream : PlainStream items)
    {rest : List ModeItem} (split : items = done ++ rest) (state : ModeState) :
    done.foldlM input.restoreItem (streamState input []) = some state ↔
      OpenFor done (· ≠ .regularFile) ∧ state = streamState input done := by
  induction done using List.reverseRecOn generalizing rest state with
  | nil =>
    simp only [List.foldlM_nil, Option.pure_def, Option.some.injEq]
    exact ⟨fun same => ⟨nofun, same.symm⟩, fun same => same.2.symm⟩
  | append_singleton done entry ih =>
    rw [List.append_assoc, List.singleton_append] at split
    obtain ⟨path, normal⟩ := Option.isSome_iff_exists.mp
      (stream.accepted entry (by simp [split]))
    have distinct := stream.distinct
    rw [split, PathsDistinct, List.pairwise_append] at distinct
    have fresh : ∀ other ∈ done, other.normalPath ≠ some path := fun other listed same =>
      distinct.2.2 other listed entry List.mem_cons_self path same normal
    have wholeDistinct : PathsDistinct (done ++ [entry]) := by
      refine List.pairwise_append.mpr ⟨distinct.1, List.pairwise_singleton _ _, ?_⟩
      intro first listed second isEntry otherPath isFirst isSecond
      rw [List.mem_singleton.mp isEntry, normal] at isSecond
      exact fresh first listed (isFirst.trans isSecond.symm)
    have inWhole : ∀ other ∈ done, other ∈ done ++ [entry] := fun other listed =>
      List.mem_append_left _ listed
    have parents := stream.parents done entry rest split path normal
    have earlier {other : ModeItem} {otherPath : Path} (listed : other ∈ done)
        (otherNormal : other.normalPath = some otherPath) : ParentListed done otherPath := by
      obtain ⟨front, back, middle⟩ := List.append_of_mem listed
      refine (stream.parents front other (back ++ entry :: rest) ?_ otherPath otherNormal).imp_right
        fun ⟨parent, among, found⟩ => ⟨parent, ?_, found⟩
      · rw [split, middle, List.append_assoc, List.cons_append]
      · rw [middle]
        exact List.mem_append_left _ among
    have next (isOpen : OpenFor done (· ≠ .regularFile)) : NextItem input done entry path :=
      ⟨exec, distinct.1, fun other listed isDir => isOpen other listed (by rw [isDir]; nofun),
        normal, fresh, parents, stream.links entry (by simp [split])⟩
    rw [List.foldlM_append, Option.bind_eq_bind, Option.bind_eq_some_iff]
    simp only [List.foldlM_cons, List.foldlM_nil, Option.pure_def, Option.bind_eq_bind,
      Option.bind_fun_some]
    constructor
    · rintro ⟨middle, reached, stepped⟩
      obtain ⟨isOpen, rfl⟩ := (ih split middle).mp reached
      obtain ⟨allowed, rfl⟩ := ((next isOpen).restoreItem state).mp stepped
      refine ⟨fun other listed notFile otherPath otherNormal => ?_, rfl⟩
      rcases List.mem_append.mp listed with before | last
      · exact (isOpen other before notFile otherPath otherNormal).mono inWhole
      · obtain rfl := List.mem_singleton.mp last
        cases normal.symm.trans otherNormal
        exact (allowed notFile).mono inWhole
    · rintro ⟨isOpen, rfl⟩
      have openBefore : OpenFor done (· ≠ .regularFile) :=
        fun other listed notFile otherPath otherNormal =>
          (isOpen other (inWhole other listed) notFile otherPath otherNormal).restrict
            wholeDistinct inWhole (earlier listed otherNormal)
      refine ⟨_, (ih split _).mpr ⟨openBefore, rfl⟩, ?_⟩
      refine ((next openBefore).restoreItem _).mpr ⟨fun notFile => ?_, rfl⟩
      exact (isOpen entry (by simp) notFile path normal).restrict wholeDistinct inWhole parents

end Streaming

end Vykar.Restore

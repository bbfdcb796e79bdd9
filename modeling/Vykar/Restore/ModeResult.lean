import Vykar.Restore.ModeSoundness

/-!
The result of a restore with modes.

The files are created in directories that already have their final modes; then the entries are
moved up, for which the directories at the top must be writable, and the modes of the files are
set.
-/

namespace Vykar.Restore

open ModeTree Snapshot

variable {input : ModeInput} {items : List ModeItem} {path : Path} {tree : ModeTree Name}
  {file : ModeFile} {entry : ModeItem} {files : List ModeFile}

theorem PlainStream.parentListed (stream : PlainStream items) (listed : entry ∈ items)
    (normal : entry.normalPath = some path) : ParentListed items path := by
  obtain ⟨front, back, split⟩ := List.append_of_mem listed
  refine (stream.parents front entry back split path normal).imp_right
    fun ⟨parent, among, found⟩ => ⟨parent, ?_, found⟩
  rw [split]
  exact List.mem_append_left _ among

theorem mem_files (listed : file ∈ items.filterMap ModeItem.file?) :
    ∃ entry ∈ items, entry.entryType = .regularFile ∧ entry.normalPath = some file.relPath ∧
      entry.mode = file.mode := by
  obtain ⟨entry, among, isFile⟩ := List.mem_filterMap.mp listed
  unfold ModeItem.file? at isFile
  split at isFile
  · rename_i kind
    obtain ⟨path, normal, rfl⟩ := Option.map_eq_some_iff.mp isFile
    exact ⟨entry, among, kind, normal, rfl⟩
  · cases isFile

theorem file_listed (listed : entry ∈ items) (isFile : entry.entryType = .regularFile)
    (normal : entry.normalPath = some path) :
    ∃ file ∈ items.filterMap ModeItem.file?, file.relPath = path :=
  ⟨⟨path, (entry.chunks.map ChunkRef.size).sum, entry.mode⟩,
    List.mem_filterMap.mpr ⟨entry, listed, by simp [ModeItem.file?, isFile, normal]⟩, rfl⟩

section Files

def filled (input : ModeInput) (items : List ModeItem) (created : List Path) : ModeTree Name :=
  fun path => if path ∈ created then some ⟨.file, input.newFileMode⟩ else streamNode items path

structure FileStage (input : ModeInput) (created : List Path) : Prop where
  exec : ownerExec input.destMode = true
  stream : PlainStream input.items
  isOpen : OpenFor input.items (· ≠ .regularFile)
  created : ∀ path ∈ created, ParentOpen input.items path ∧
    ∃ file ∈ input.items.filterMap ModeItem.file?, file.relPath = path

variable {created : List Path}

section

variable (stage : FileStage input created)

include stage

theorem FileStage.not_created (listed : entry ∈ input.items)
    (notFile : entry.entryType ≠ .regularFile) (normal : entry.normalPath = some path) :
    path ∉ created := by
  intro isCreated
  obtain ⟨-, file, planned, rfl⟩ := stage.created path isCreated
  obtain ⟨other, among, isFile, otherNormal, -⟩ := mem_files planned
  exact notFile (item_unique stage.stream.distinct listed among normal otherNormal ▸
    isFile)

theorem FileStage.hasDirs :
    HasDirs input.items (filled input input.items created) := by
  intro entry listed isDir path normal
  rw [filled, if_neg (stage.not_created listed (by rw [isDir]; nofun) normal)]
  exact streamNode_hasDirs stage.stream.distinct entry listed isDir path normal

theorem FileStage.parent (listed : entry ∈ input.items) (normal : entry.normalPath = some path) :
    ∃ mode, (input.layout (filled input input.items created)).enter []
        (input.tempName :: path).dropLast = .ok () ∧
      input.layout (filled input input.items created) (input.tempName :: path).dropLast =
        some ⟨.dir, mode⟩ ∧
      (ownerExec mode = true ∧ ownerWrite mode = true ↔ ParentOpen input.items path) :=
  parent_entered stage.exec stage.hasDirs stage.stream.distinct
    (fun other among isDir => stage.isOpen other among (by rw [isDir]; nofun))
    (normalPath_ne_nil normal) (stage.stream.parentListed listed normal)

theorem FileStage.openFile (planned : file ∈ input.items.filterMap ModeItem.file?) :
    input.openFile (input.layout (filled input input.items created)) file = some tree ↔
      ParentOpen input.items file.relPath ∧
        tree = input.layout (filled input input.items (created ++ [file.relPath])) := by
  obtain ⟨entry, listed, isFile, normal, -⟩ := mem_files planned
  have nonempty := normalPath_ne_nil normal
  have whole : input.tempName :: file.relPath ≠ [] := by simp
  obtain ⟨mode, entered, isDir, allowed⟩ := stage.parent listed normal
  have enteredHere := enter_of_parent whole entered isDir
  unfold ModeInput.openFile openWrite
  rw [ModeInput.layout_temp nonempty]
  by_cases isCreated : file.relPath ∈ created
  · -- the file exists, with the mode of new files
    have isOpen := (stage.created _ isCreated).1
    have same : filled input input.items (created ++ [file.relPath]) =
        filled input input.items created := by
      funext other
      by_cases here : other = file.relPath
      · simp [filled, here, isCreated]
      · simp [filled, here]
    rw [if_pos (allowed.mpr isOpen).1] at enteredHere
    rw [enteredHere, filled, if_pos isCreated, same]
    simp only [input.newFile_owner.2, and_self, if_true, Except.toOption, Option.some.injEq, isOpen,
      true_and]
    exact eq_comm
  · have nothing : filled input input.items created file.relPath = none := by
      rw [filled, if_neg isCreated]
      refine streamNode_of_absent fun other among same => ?_
      rw [item_unique stage.stream.distinct among listed same normal]
      exact isFile
    have absent : input.layout (filled input input.items created)
        (input.tempName :: file.relPath) = none := by
      rw [ModeInput.layout_temp nonempty, nothing]
    have same : Function.update (input.layout (filled input input.items created))
        (input.tempName :: file.relPath) (some ⟨.file, input.newFileMode⟩) =
        input.layout (filled input input.items (created ++ [file.relPath])) := by
      rw [ModeInput.layout_update nonempty]
      congr 1
      funext other
      by_cases here : other = file.relPath
      · simp [filled, here]
      · rw [Function.update_of_ne here]
        simp [filled, here]
    rw [nothing, create_of_parent whole entered isDir absent, same]
    by_cases bits : ownerExec mode = true ∧ ownerWrite mode = true
    · rw [enteredHere, if_pos bits.1, if_pos bits]
      simp only [Except.toOption, Option.some.injEq, allowed.mp bits, true_and]
      exact eq_comm
    · rw [if_neg bits]
      simp only [mt allowed.mpr bits, false_and, iff_false]
      split <;> simp [Except.toOption] at *

theorem FileStage.next (planned : file ∈ input.items.filterMap ModeItem.file?)
    (allowed : ParentOpen input.items file.relPath) :
    FileStage input (created ++ [file.relPath]) :=
  { stage with
    created path listed := by
      rcases List.mem_append.mp listed with before | last
      · exact stage.created path before
      · obtain rfl := List.mem_singleton.mp last
        exact ⟨allowed, file, planned, rfl⟩ }

theorem FileStage.openFiles
    (planned : ∀ file ∈ files, file ∈ input.items.filterMap ModeItem.file?) :
    files.foldlM input.openFile (input.layout (filled input input.items created)) = some tree ↔
      (∀ file ∈ files, ParentOpen input.items file.relPath) ∧
        tree = input.layout (filled input input.items
          (created ++ files.map ModeFile.relPath)) := by
  induction files generalizing created with
  | nil =>
    simp only [List.foldlM_nil, Option.pure_def, Option.some.injEq, List.map_nil, List.append_nil]
    exact ⟨fun same => ⟨nofun, same.symm⟩, fun same => same.2.symm⟩
  | cons file files ih =>
    obtain ⟨first, rest⟩ := List.forall_mem_cons.mp planned
    rw [List.foldlM_cons, Option.bind_eq_bind, Option.bind_eq_some_iff]
    constructor
    · rintro ⟨middle, opened, later⟩
      obtain ⟨allowed, rfl⟩ := (stage.openFile first).mp opened
      obtain ⟨others, rfl⟩ := (ih (stage.next first allowed) rest).mp later
      refine ⟨?_, by rw [List.map_cons, List.append_assoc, List.singleton_append]⟩
      exact List.forall_mem_cons.mpr ⟨allowed, others⟩
    · rintro ⟨all, rfl⟩
      obtain ⟨allowed, others⟩ := List.forall_mem_cons.mp all
      refine ⟨_, (stage.openFile first).mpr ⟨allowed, rfl⟩, ?_⟩
      refine (ih (stage.next first allowed) rest).mpr ⟨others, ?_⟩
      rw [List.map_cons, List.append_assoc, List.singleton_append]

end

theorem prepareFiles_eq (stream : PlainStream input.items)
    (planned : ∀ file ∈ files, file ∈ input.items.filterMap ModeItem.file?) (tree : ModeTree Name) :
    files.foldlM (input.prepareFile (streamState input input.items).verifiedDirs) tree =
      (files.filter fun file => file.totalSize = 0).foldlM input.openFile tree := by
  induction files generalizing tree with
  | nil => rfl
  | cons file files ih =>
    obtain ⟨first, planned⟩ := List.forall_mem_cons.mp planned
    obtain ⟨entry, listed, -, normal, -⟩ := mem_files first
    have verified := @verified_of_listed input _ _ (normalPath_ne_nil normal)
      (stream.parentListed listed normal)
    have rest := ih planned
    have prepared : input.prepareFile (streamState input input.items).verifiedDirs tree file =
        if file.totalSize = 0 then input.openFile tree file else some tree := by
      simp only [ModeInput.prepareFile, ModeInput.prepareParent, if_pos verified,
        Option.bind_eq_bind, Option.bind_some]
      rfl
    rw [List.foldlM_cons, prepared]
    by_cases isEmpty : file.totalSize = 0
    · rw [if_pos isEmpty, List.filter_cons_of_pos (by simpa using isEmpty), List.foldlM_cons]
      simp only [rest]
    · rw [if_neg isEmpty, List.filter_cons_of_neg (by simpa using isEmpty)]
      exact rest tree

end Files

section Moves

def movedTree (input : ModeInput) (present : ModeTree Name) (moved : List Name) : ModeTree Name
  | [] => some ⟨.dir, input.destMode⟩
  | name :: rest =>
    if name = input.tempName then
      match rest with
      | [] => some ⟨.dir, input.newDirMode⟩
      | first :: _ => if first ∈ moved then none else present rest
    else if name ∈ moved then present (name :: rest)
    else none

variable {present : ModeTree Name} {moved : List Name} {name : Name}

theorem movedTree_nil : movedTree input present [] = input.layout present := by
  funext path
  cases path with
  | nil => rfl
  | cons name rest =>
    cases rest <;> simp [movedTree, ModeInput.layout]

theorem movedTree_move (fresh : name ≠ input.tempName) (notMoved : name ∉ moved) :
    (fun path =>
      if [name] <+: path then movedTree input present moved
        ([input.tempName, name] ++ path.drop [name].length)
      else if [input.tempName, name] <+: path then none
      else movedTree input present moved path) = movedTree input present (moved ++ [name]) := by
  funext path
  cases path with
  | nil => simp [movedTree]
  | cons first rest =>
    by_cases isName : name = first
    · subst isName
      rw [if_pos (singleton_prefix_cons.mpr rfl)]
      simp [movedTree, fresh, notMoved]
    · rw [if_neg (fun isPrefix => isName (singleton_prefix_cons.mp isPrefix))]
      by_cases isTemp : first = input.tempName
      · subst isTemp
        cases rest with
        | nil => simp [movedTree]
        | cons second rest =>
          by_cases isSecond : second = name
          · subst isSecond
            simp [movedTree, List.cons_prefix_cons]
          · have differs : ¬ name = second := fun same => isSecond same.symm
            simp [movedTree, List.cons_prefix_cons, isSecond, differs]
      · have notTemp : ¬ input.tempName = first := fun same => isTemp same.symm
        have notName : ¬ first = name := fun same => isName same.symm
        simp [movedTree, List.cons_prefix_cons, isTemp, notTemp, notName]

theorem moveEntry_eq (exec : ownerExec input.destMode = true)
    (write : ownerWrite input.destMode = true) (fresh : name ≠ input.tempName)
    (notMoved : name ∉ moved) {node : ModeNode} (found : present [name] = some node) :
    input.moveEntry (movedTree input present moved) name =
      if node.kind = .dir → ownerWrite node.mode = true then
        some (movedTree input present (moved ++ [name]))
      else none := by
  have enterSource : (movedTree input present moved).enter [] [input.tempName, name] = .ok () := by
    simp [enter, movedTree, exec, input.newDir_owner.2.2]
  have enterTarget : (movedTree input present moved).enter [] [name] = .ok () := by
    simp [enter, movedTree, exec]
  have source : movedTree input present moved [input.tempName, name] = some node := by
    simp [movedTree, notMoved, found]
  have target : movedTree input present moved [name] = none := by
    simp [movedTree, fresh, notMoved]
  have sourceParent : movedTree input present moved [input.tempName, name].dropLast =
      some ⟨.dir, input.newDirMode⟩ := by simp [movedTree]
  have targetParent : movedTree input present moved [name].dropLast =
      some ⟨.dir, input.destMode⟩ := rfl
  unfold ModeInput.moveEntry rename
  rw [enterSource, enterTarget, source, target, sourceParent, targetParent]
  simp only [input.newDir_owner.2.1, write, true_and, movedTree_move fresh notMoved]
  split <;> rfl

theorem moveEntries_eq (exec : ownerExec input.destMode = true)
    (write : ownerWrite input.destMode = true) {names : List Name}
    (fresh : ∀ name ∈ names, name ≠ input.tempName) (once : (moved ++ names).Nodup)
    (found : ∀ name ∈ names, (present [name]).isSome = true) :
    names.foldlM input.moveEntry (movedTree input present moved) = some tree ↔
      (∀ name ∈ names, ∀ node, present [name] = some node → node.kind = .dir →
        ownerWrite node.mode = true) ∧
        tree = movedTree input present (moved ++ names) := by
  induction names generalizing moved with
  | nil =>
    simp only [List.foldlM_nil, Option.pure_def, Option.some.injEq, List.append_nil]
    exact ⟨fun same => ⟨nofun, same.symm⟩, fun same => same.2.symm⟩
  | cons name names ih =>
    obtain ⟨isFresh, fresh⟩ := List.forall_mem_cons.mp fresh
    obtain ⟨isFound, found⟩ := List.forall_mem_cons.mp found
    obtain ⟨node, isNode⟩ := Option.isSome_iff_exists.mp isFound
    have split : moved ++ name :: names = moved ++ [name] ++ names := by simp
    have notMoved : name ∉ moved := fun listed =>
      (List.nodup_append.mp once).2.2 name listed name List.mem_cons_self rfl
    have rest := @ih (moved ++ [name]) fresh (split ▸ once) found
    rw [List.foldlM_cons, moveEntry_eq exec write isFresh notMoved isNode]
    by_cases allowed : node.kind = .dir → ownerWrite node.mode = true
    · rw [if_pos allowed, Option.bind_eq_bind, Option.bind_some, rest, split]
      refine and_congr_left fun _ => ⟨fun others => ?_, fun all => ?_⟩
      · refine List.forall_mem_cons.mpr ⟨fun other isOther => ?_, others⟩
        cases isNode.symm.trans isOther
        exact allowed
      · exact (List.forall_mem_cons.mp all).2
    · rw [if_neg allowed]
      simp only [Option.bind_eq_bind, Option.bind_none, reduceCtorEq, false_iff]
      exact fun all => allowed (all.1 name List.mem_cons_self node isNode)

end Moves

section FileModes

/-- The entries are at the destination, and the given files have their modes. -/
structure AtDestination (input : ModeInput) (applied : List ModeFile) (tree : ModeTree Name) :
    Prop where
  dest : tree [] = some ⟨.dir, input.destMode⟩
  nodes : ∀ entry ∈ input.items, ∀ path, entry.normalPath = some path →
    tree path = some (if entry.entryType = .regularFile ∧ path ∉ applied.map ModeFile.relPath then
      ⟨.file, input.newFileMode⟩ else entry.node)

variable {applied : List ModeFile}

section

variable (arrived : AtDestination input applied tree)

include arrived

theorem AtDestination.enter (exec : ownerExec input.destMode = true)
    (isOpen : OpenFor input.items fun _ => True) (listed : entry ∈ input.items)
    (normal : entry.normalPath = some path) :
    tree.enter [] path = .ok () := by
  have dirs : HasDirs input.items tree := by
    intro parent among parentDir _ parentNormal
    rw [arrived.nodes parent among _ parentNormal, parentDir, ModeItem.node, parentDir]
    simp
  exact isOpen.entered trivial rfl arrived.dest exec dirs listed trivial normal

theorem AtDestination.applyFileMode (stream : PlainStream input.items)
    (exec : ownerExec input.destMode = true) (isOpen : OpenFor input.items fun _ => True)
    (planned : file ∈ input.items.filterMap ModeItem.file?) :
    AtDestination input (applied ++ [file]) (ModeInput.applyFileMode tree file) := by
  obtain ⟨own, listed, isFile, normal, sameMode⟩ := mem_files planned
  have entered := arrived.enter exec isOpen listed normal
  have found := arrived.nodes own listed _ normal
  have kind : ∀ node, tree file.relPath = some node → node.kind = .file := by
    intro node isNode
    cases found.symm.trans isNode
    split
    · rfl
    · simp [ModeItem.node, isFile]
  obtain ⟨node, isNode⟩ : ∃ node, tree file.relPath = some node := ⟨_, found⟩
  have changed : ModeInput.applyFileMode tree file =
      Function.update tree file.relPath (some ⟨.file, permissionBits file.mode⟩) := by
    unfold ModeInput.applyFileMode
    split
    · rw [isNode, Option.map_some, kind node isNode]
    · rw [chmod, entered, isNode]
      simp only [kind node isNode]
  rw [changed]
  refine ⟨?_, fun entry among path entryNormal => ?_⟩
  · rw [Function.update_of_ne (normalPath_ne_nil normal).symm]
    exact arrived.dest
  · by_cases here : path = file.relPath
    · subst here
      obtain rfl := item_unique stream.distinct among listed entryNormal normal
      rw [Function.update_self, if_neg (by simp)]
      simp [ModeItem.node, isFile, sameMode]
    · rw [Function.update_of_ne here, arrived.nodes entry among path entryNormal]
      simp [here]

theorem AtDestination.applyFileModes (stream : PlainStream input.items)
    (exec : ownerExec input.destMode = true) (isOpen : OpenFor input.items fun _ => True)
    (planned : ∀ file ∈ files, file ∈ input.items.filterMap ModeItem.file?) :
    AtDestination input (applied ++ files) (files.foldl ModeInput.applyFileMode tree) := by
  induction files generalizing applied tree with
  | nil => rwa [List.append_nil]
  | cons file files ih =>
    obtain ⟨first, planned⟩ := List.forall_mem_cons.mp planned
    have rest := ih (arrived.applyFileMode stream exec isOpen first) planned
    rwa [List.append_assoc, List.singleton_append] at rest

end

end FileModes

section Result

theorem start_eq (input : ModeInput) (state : ModeState) :
    input.start = some state ↔
      (ownerRead input.destMode = true ∧ ownerWrite input.destMode = true ∧
        ownerExec input.destMode = true) ∧ state = streamState input [] := by
  have created := @createDirAll_of_parent _ input.emptyDestination [input.tempName] _
    input.newDirMode input.destMode (by simp) rfl rfl rfl
  have same : Function.update input.emptyDestination [input.tempName]
      (some ⟨.dir, input.newDirMode⟩) = input.layout (streamNode []) := by
    funext path
    cases path with
    | nil => rfl
    | cons name rest =>
      by_cases isTemp : name :: rest = [input.tempName]
      · rw [isTemp, Function.update_self, ModeInput.layout_root]
      · rw [Function.update_of_ne isTemp]
        by_cases isName : name = input.tempName
        · have some : rest ≠ [] := fun none => isTemp (by rw [isName, none])
          simp [ModeInput.emptyDestination, ModeInput.layout, isName, some, streamNode]
        · simp [ModeInput.emptyDestination, ModeInput.layout, isName]
  unfold ModeInput.start
  rw [created, same]
  by_cases read : ownerRead input.destMode = true
  · by_cases bits : ownerExec input.destMode = true ∧ ownerWrite input.destMode = true
    · simp only [read, if_true, bits, Option.bind_eq_bind, Option.bind_some, Option.some.injEq,
        and_self, true_and]
      exact eq_comm
    · simp only [read, if_true, if_neg bits, Option.bind_eq_bind, Option.bind_none, reduceCtorEq,
        true_and, false_iff]
      exact fun all => bits ⟨all.1.2, all.1.1⟩
  · simp [read]

theorem openFor_all_iff (stream : PlainStream items) :
    (OpenFor items fun _ => True) ↔
      ∀ parent ∈ items, parent.entryType = .directory → ∀ child ∈ items, ∀ path,
        child.normalPath = some path → parent.normalPath = some path.dropLast →
          ownerWrite parent.mode = true ∧ ownerExec parent.mode = true := by
  constructor
  · intro isOpen parent among _ child listed path normal parentNormal
    rcases isOpen child listed trivial path normal with top | ⟨other, otherAmong, -, otherNormal,
      exec, write⟩
    · exact absurd top (normalPath_ne_nil parentNormal)
    · obtain rfl := item_unique stream.distinct otherAmong among otherNormal parentNormal
      exact ⟨write, exec⟩
  · intro bits entry listed _ path normal
    refine (stream.parentListed listed normal).imp_right fun ⟨parent, among, isDir, same⟩ => ?_
    obtain ⟨write, exec⟩ := bits parent among isDir entry listed path normal same
    exact ⟨parent, among, isDir, same, exec, write⟩

theorem top_listed (stream : PlainStream items) (listed : entry ∈ items)
    (normal : entry.normalPath = some path) :
    ∃ name rest, path = name :: rest ∧ ∃ top ∈ items, top.normalPath = some [name] := by
  induction length : path.length using Nat.strong_induction_on generalizing entry path with
  | _ bound ih =>
    have nonempty := normalPath_ne_nil normal
    obtain ⟨name, rest, rfl⟩ := List.exists_cons_of_ne_nil nonempty
    rcases stream.parentListed listed normal with top | ⟨parent, among, -, parentNormal⟩
    · cases rest with
      | nil => exact ⟨name, [], rfl, entry, listed, normal⟩
      | cons second rest => simp at top
    · have shorter : (name :: rest).dropLast.length < bound := by
        rw [List.length_dropLast, ← length, List.length_cons]
        omega
      obtain ⟨first, others, split, found⟩ := ih _ shorter among parentNormal rfl
      refine ⟨name, rest, rfl, ?_⟩
      cases rest with
      | nil => simp at split
      | cons second rest =>
        obtain ⟨rfl, -⟩ := List.cons.inj split
        exact found

theorem filled_node (stream : PlainStream input.items) {created : List Path}
    (all : ∀ path, path ∈ created ↔
      ∃ file ∈ input.items.filterMap ModeItem.file?, file.relPath = path)
    (listed : entry ∈ input.items) (normal : entry.normalPath = some path) :
    filled input input.items created path =
      some (if entry.entryType = .regularFile then ⟨.file, input.newFileMode⟩ else entry.node) := by
  by_cases isFile : entry.entryType = .regularFile
  · have isCreated := (all path).mpr (file_listed listed isFile normal)
    rw [filled, if_pos isCreated, if_pos isFile]
  · have notCreated : path ∉ created := by
      intro isCreated
      obtain ⟨file, planned, rfl⟩ := (all path).mp isCreated
      obtain ⟨other, among, otherFile, otherNormal, -⟩ := mem_files planned
      exact isFile (item_unique stream.distinct listed among normal otherNormal ▸
        otherFile)
    rw [filled, if_neg notCreated, if_neg isFile]
    exact streamNode_of_mem stream.distinct listed isFile normal

variable {opens : List ModeFile} {names : List Name}

def createdPaths (input : ModeInput) (opens : List ModeFile) : List Path :=
  ((input.items.filterMap ModeItem.file?).filter fun file => file.totalSize = 0).map
    ModeFile.relPath ++ opens.map ModeFile.relPath

theorem mem_createdPaths (schedule : ModeSchedule input.items opens names) :
    path ∈ createdPaths input opens ↔
      ∃ file ∈ input.items.filterMap ModeItem.file?, file.relPath = path := by
  simp only [createdPaths, List.mem_append, List.mem_map, List.mem_filter, decide_eq_true_eq,
    schedule.opened]
  constructor
  · rintro (⟨file, ⟨planned, -⟩, same⟩ | ⟨file, ⟨planned, -⟩, same⟩)
    · exact ⟨file, planned, same⟩
    · exact ⟨file, planned, same⟩
  · rintro ⟨file, planned, same⟩
    by_cases isEmpty : file.totalSize = 0
    · exact Or.inl ⟨file, ⟨planned, isEmpty⟩, same⟩
    · exact Or.inr ⟨file, ⟨planned, isEmpty⟩, same⟩

def finalTree (input : ModeInput) (opens : List ModeFile) (names : List Name) : ModeTree Name :=
  (input.items.filterMap ModeItem.file?).foldl ModeInput.applyFileMode
    (Function.update (movedTree input (filled input input.items (createdPaths input opens)) names)
      [input.tempName] none)

section

variable (schedule : ModeSchedule input.items opens names)

include schedule

theorem openAll_eq (stage : FileStage input []) :
    ((input.items.filterMap ModeItem.file?).foldlM (input.prepareFile
      (streamState input input.items).verifiedDirs) (input.layout (streamNode input.items)) >>=
        fun tree => opens.foldlM input.openFile tree) = some tree ↔
      OpenFor input.items (· = .regularFile) ∧
        tree = input.layout (filled input input.items (createdPaths input opens)) := by
  have nothing : filled input input.items [] = streamNode input.items := by
    funext path
    simp [filled]
  have planned : ∀ file ∈ (input.items.filterMap ModeItem.file?).filter
      (fun file => decide (file.totalSize = 0)) ++ opens,
      file ∈ input.items.filterMap ModeItem.file? := by
    intro file listed
    rcases List.mem_append.mp listed with isEmpty | opened
    · exact (List.mem_filter.mp isEmpty).1
    · exact ((schedule.opened file).mp opened).1
  rw [prepareFiles_eq stage.stream (fun _ listed => listed), ← List.foldlM_append, ← nothing,
    stage.openFiles planned, List.nil_append, List.map_append]
  refine and_congr_left fun _ => ⟨fun all entry listed isFile path normal => ?_,
    fun isOpen file listed => ?_⟩
  · have created := (mem_createdPaths schedule).mpr (file_listed listed isFile normal)
    rw [createdPaths, ← List.map_append] at created
    obtain ⟨file, isListed, rfl⟩ := List.mem_map.mp created
    exact all file isListed
  · obtain ⟨entry, among, isFile, normal, -⟩ := mem_files (planned file listed)
    exact isOpen entry among isFile _ normal

variable (stream : PlainStream input.items)

include stream

theorem top_iff :
    (∀ name ∈ names, ∀ node, filled input input.items (createdPaths input opens) [name] =
        some node → node.kind = .dir → ownerWrite node.mode = true) ↔
      ∀ entry ∈ input.items, entry.entryType = .directory → ∀ name,
        entry.normalPath = some [name] → ownerWrite entry.mode = true := by
  have node {entry : ModeItem} (listed : entry ∈ input.items) {name : Name}
      (normal : entry.normalPath = some [name]) :=
    filled_node stream (fun _ => mem_createdPaths schedule) listed normal
  constructor
  · intro all entry listed isDir name normal
    have found := node listed normal
    rw [if_neg (by rw [isDir]; nofun), ModeItem.node, isDir] at found
    have write := all name ((schedule.listed name).mpr ⟨entry, listed, normal⟩) _ found rfl
    rwa [ownerWrite_permissionBits] at write
  · intro all name isName other found isDir
    obtain ⟨entry, listed, normal⟩ := (schedule.listed name).mp isName
    cases found.symm.trans (node listed normal)
    cases kind : entry.entryType with
    | directory =>
      simp only [kind, reduceCtorEq, if_false, ModeItem.node, ownerWrite_permissionBits]
      exact all entry listed kind name normal
    | regularFile => simp [kind] at isDir
    | symlink => simp [kind, ModeItem.node] at isDir

theorem moveAll_eq (exec : ownerExec input.destMode = true)
    (write : ownerWrite input.destMode = true) :
    names.foldlM input.moveEntry
      (input.layout (filled input input.items (createdPaths input opens))) = some tree ↔
      (∀ entry ∈ input.items, entry.entryType = .directory → ∀ name,
        entry.normalPath = some [name] → ownerWrite entry.mode = true) ∧
      tree = movedTree input (filled input input.items (createdPaths input opens)) names := by
  have fresh : ∀ name ∈ names, name ≠ input.tempName := by
    intro name isName same
    obtain ⟨entry, listed, normal⟩ := (schedule.listed name).mp isName
    exact input.temp_fresh entry listed _ normal (by simp [same])
  have found : ∀ name ∈ names,
      (filled input input.items (createdPaths input opens) [name]).isSome = true := by
    intro name isName
    obtain ⟨entry, listed, normal⟩ := (schedule.listed name).mp isName
    rw [filled_node stream (fun _ => mem_createdPaths schedule) listed normal]
    rfl
  have once : ([] ++ names).Nodup := schedule.once
  rw [← movedTree_nil, moveEntries_eq exec write fresh once found, List.nil_append,
    top_iff schedule stream]

theorem restore_eq :
    input.restore opens names = some tree ↔
      ModesAllow input ∧ tree = finalTree input opens names := by
  constructor
  · intro restored
    obtain ⟨first, started, restored⟩ := Option.bind_eq_some_iff.mp restored
    obtain ⟨dest, rfl⟩ := (start_eq input first).mp started
    obtain ⟨state, streamed, restored⟩ := Option.bind_eq_some_iff.mp restored
    obtain ⟨isOpen, rfl⟩ := (stream_eq dest.2.2 stream (List.append_nil _).symm state).mp streamed
    obtain ⟨prepared, isPrepared, restored⟩ := Option.bind_eq_some_iff.mp restored
    obtain ⟨opened, isOpened, restored⟩ := Option.bind_eq_some_iff.mp restored
    obtain ⟨moved, isMoved, restored⟩ := Option.bind_eq_some_iff.mp restored
    obtain ⟨files, rfl⟩ := (openAll_eq schedule ⟨dest.2.2, stream, isOpen, nofun⟩).mp
      (Option.bind_eq_some_iff.mpr ⟨prepared, isPrepared, isOpened⟩)
    obtain ⟨top, rfl⟩ := (moveAll_eq schedule stream dest.2.2 dest.2.1).mp isMoved
    have allOpen : OpenFor input.items fun _ => True := fun entry listed _ =>
      (em (entry.entryType = .regularFile)).elim (files entry listed) (isOpen entry listed)
    exact ⟨⟨dest, (openFor_all_iff stream).mp allOpen, top⟩, (Option.some.inj restored).symm⟩
  · rintro ⟨⟨dest, parents, top⟩, rfl⟩
    have allOpen := (openFor_all_iff stream).mpr parents
    have isOpen : OpenFor input.items (· ≠ .regularFile) :=
      fun entry listed _ => allOpen entry listed trivial
    have files : OpenFor input.items (· = .regularFile) :=
      fun entry listed _ => allOpen entry listed trivial
    obtain ⟨prepared, isPrepared, isOpened⟩ := Option.bind_eq_some_iff.mp
      ((openAll_eq schedule ⟨dest.2.2, stream, isOpen, nofun⟩).mpr ⟨files, rfl⟩)
    refine Option.bind_eq_some_iff.mpr ⟨_, (start_eq input _).mpr ⟨dest, rfl⟩, ?_⟩
    refine Option.bind_eq_some_iff.mpr ⟨_, (stream_eq dest.2.2 stream (List.append_nil _).symm
      _).mpr ⟨isOpen, rfl⟩, ?_⟩
    refine Option.bind_eq_some_iff.mpr ⟨prepared, isPrepared, ?_⟩
    refine Option.bind_eq_some_iff.mpr ⟨_, isOpened, ?_⟩
    exact Option.bind_eq_some_iff.mpr
      ⟨_, (moveAll_eq schedule stream dest.2.2 dest.2.1).mpr ⟨top, rfl⟩, rfl⟩

theorem finalTree_node (allow : ModesAllow input) (listed : entry ∈ input.items)
    (normal : entry.normalPath = some path) :
    finalTree input opens names path = some entry.node := by
  have allOpen := (openFor_all_iff stream).mpr allow.parents
  have arrived : AtDestination input [] (Function.update (movedTree input
      (filled input input.items (createdPaths input opens)) names) [input.tempName] none) := by
    refine ⟨rfl, fun other among otherPath otherNormal => ?_⟩
    obtain ⟨name, rest, rfl, top⟩ := top_listed stream among otherNormal
    have notTemp : name ≠ input.tempName := fun same =>
      input.temp_fresh other among _ otherNormal (by rw [same]; rfl)
    rw [Function.update_of_ne (by simp [notTemp])]
    simp only [movedTree, notTemp, if_false, (schedule.listed name).mpr top, if_true,
      filled_node stream (fun _ => mem_createdPaths schedule) among otherNormal, List.map_nil,
      List.not_mem_nil, not_false_eq_true, and_true]
  have planned : ∀ file ∈ input.items.filterMap ModeItem.file?,
      file ∈ input.items.filterMap ModeItem.file? := fun _ isListed => isListed
  have applied := arrived.applyFileModes stream allow.dest.2.2 allOpen planned
  rw [List.nil_append] at applied
  refine (applied.nodes entry listed path normal).trans ?_
  rw [if_neg]
  rintro ⟨isFile, notApplied⟩
  exact notApplied (List.mem_map.mpr (file_listed listed isFile normal))

end

theorem accepted_of_streamed {state final : ModeState}
    (links : ∀ entry ∈ items, entry.entryType = .symlink → entry.linkTarget.isSome = true)
    (streamed : items.foldlM input.restoreItem state = some final) : PathsAccepted items := by
  induction items generalizing state with
  | nil => exact nofun
  | cons entry items ih =>
    obtain ⟨first, links⟩ := List.forall_mem_cons.mp links
    rw [List.foldlM_cons, Option.bind_eq_bind, Option.bind_eq_some_iff] at streamed
    obtain ⟨middle, restored, streamed⟩ := streamed
    refine List.forall_mem_cons.mpr ⟨?_, ih links streamed⟩
    unfold Item.normalPath
    cases checked : sanitizeItemPath entry.path with
    | ok path => rfl
    | error message =>
      unfold ModeInput.restoreItem at restored
      rw [checked] at restored
      split at restored <;> simp_all

def sampleDir (mode : Nat) : ModeItem := ⟨⟨['a'], .directory, none, []⟩, mode⟩

def sampleFile : ModeItem := ⟨⟨['a', '/', 'f'], .regularFile, none, []⟩, 0o644⟩

theorem sampleDir_path (mode : Nat) : (sampleDir mode).normalPath = some [['a']] := by
  have path : sanitizeItemPath ['a'] = .ok [['a']] := by decide +kernel
  exact normalPath_of_ok path

theorem sampleFile_path : sampleFile.normalPath = some [['a'], ['f']] := by
  have path : sanitizeItemPath ['a', '/', 'f'] = .ok [['a'], ['f']] := by decide +kernel
  exact normalPath_of_ok path

def sampleInput (mode : Nat) : ModeInput where
  items := [sampleDir mode, sampleFile]
  tempName := ['t']
  destMode := 0o755
  newDirMode := 0o755
  newFileMode := 0o644
  newDir_owner := by decide
  newFile_owner := by decide
  temp_fresh := by simp [sampleDir_path, sampleFile_path]

theorem sampleInput_stream (mode : Nat) : BackupStream (sampleInput mode).items where
  parents done entry rest split path normal := by
    rcases done with _ | ⟨first, _ | ⟨second, done⟩⟩
    · obtain ⟨rfl, -⟩ := List.cons.inj split
      rw [sampleDir_path] at normal
      exact Or.inl (Option.some.inj normal ▸ rfl)
    · obtain ⟨rfl, others⟩ := List.cons.inj split
      obtain ⟨rfl, -⟩ := List.cons.inj others
      rw [sampleFile_path] at normal
      cases normal
      exact Or.inr ⟨_, List.mem_singleton.mpr rfl, rfl, sampleDir_path mode⟩
    · simp [sampleInput] at split
  links := by simp [sampleInput, sampleDir, sampleFile]

theorem sampleInput_distinct (mode : Nat) : PathsDistinct (sampleInput mode).items := by
  simp [PathsDistinct, sampleInput, sampleDir_path, sampleFile_path]

theorem sampleInput_schedule (mode : Nat) :
    ModeSchedule (sampleInput mode).items [] [['a']] where
  opened file := by
    have isPlanned : sampleFile.file? = some ⟨[['a'], ['f']], 0, 0o644⟩ := by
      have isFile : sampleFile.entryType = .regularFile := rfl
      rw [ModeItem.file?, if_pos isFile, sampleFile_path]
      rfl
    have notPlanned : (sampleDir mode).file? = none := rfl
    have planned : (sampleInput mode).items.filterMap ModeItem.file? =
        [⟨[['a'], ['f']], 0, 0o644⟩] := by
      simp [sampleInput, isPlanned, notPlanned]
    rw [planned, List.mem_singleton]
    refine ⟨fun opened => absurd opened List.not_mem_nil, ?_⟩
    rintro ⟨rfl, nonempty⟩
    exact absurd rfl nonempty
  listed name := by simp [sampleInput, sampleDir_path, sampleFile_path, eq_comm]
  once := by simp

end Result

end Vykar.Restore

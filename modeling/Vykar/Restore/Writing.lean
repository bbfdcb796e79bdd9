import Vykar.Restore.Links

/-!
The threads of a restore at work.

Whatever order the threads take their steps in, the bytes that a file does not have yet are in
writes that some thread still has to make, and every write that is still to come puts final
bytes.  A step of one thread changes one file and takes one write away.
-/

namespace Vykar.Restore

open Index Pack Snapshot PositionedWrite

variable (input : RestoreInput)

def RestoreInput.plain : ChunkRef → Bytes := plainData input.external input.packs input.index

def RestoreInput.goal (chunks : List ChunkRef) : Bytes := chunks.flatMap input.plain

def RestoreInput.totalSize : Nat :=
  (input.files.map fun file => (file.2.map ChunkRef.size).sum).sum

def Worker.pending (worker : Worker) : List WriteCall :=
  worker.calls ++ worker.groups.flatMap (groupPieces input.plain)

namespace RestoreRun

def pending (run : RestoreRun) : List WriteCall := run.workers.flatMap (Worker.pending input)

def groupsLeft (run : RestoreRun) : List ReadGroup := run.workers.flatMap Worker.groups

end RestoreRun

def OpenAt (tree : FileSystem) (fileIdx : Nat) (path : Path) : Prop :=
  ∃ file, input.files[fileIdx]? = some file ∧ path = input.destination.root ++ file.1 ∧
    tree.node path = some .file

def GroupPlaced (group : ReadGroup) : Prop :=
  ∀ blob ∈ group.blobs, group.readStart ≤ blob.packOffset ∧
    ∃ entry, input.index.get? blob.chunkId = some entry ∧ entry.packId = group.packId ∧
      entry.packOffset = blob.packOffset ∧ entry.storedSize = blob.storedSize

structure WorkerSound (tree : FileSystem) (worker : Worker) : Prop where
  handles : ∀ handle ∈ worker.handles, OpenAt input tree handle.1 handle.2
  opening : ∀ call ∈ worker.calls.head?, ∀ path,
    worker.opening = some (.opened path) ∨ worker.opening = some (.sizing path) →
      OpenAt input tree call.file path
  groups : ∀ group ∈ worker.groups, GroupPlaced input group

def Readable (groups : List ReadGroup) : Prop :=
  ∀ file ∈ input.files, ∀ chunk ∈ file.2,
    (plaintext input.external input.packs input.index chunk).isSome = true ∨
      ∃ group ∈ groups, ∃ blob ∈ group.blobs,
        blob.chunkId = chunk.id ∧ blob.expectedSize = chunk.size

def EachOnce (groups : List ReadGroup) : Prop :=
  ∀ file ∈ input.files, ∀ chunk ∈ file.2,
    ((groups.flatMap ReadGroup.blobs).map PlannedBlob.chunkId).count chunk.id = 1

structure Writing (run : RestoreRun) : Prop where
  placed : Placed input.destination.root input.items run.base.tree
  planned : run.base.planned = plannedFiles input.files
  empty : ∀ file ∈ input.files, (file.2.map ChunkRef.size).sum = 0 →
    run.base.tree.node (input.destination.root ++ file.1) = some .file
  workers : ∀ worker ∈ run.workers, WorkerSound input run.base.tree worker
  final : ∀ call ∈ run.pending input, ∀ position value, call.Puts call.file position value →
    ∃ file, input.files[call.file]? = some file ∧
      (input.goal file.2)[position]? = some value
  filling : ∀ fileIdx file, input.files[fileIdx]? = some file →
    Filling (input.goal file.2) (run.pending input) fileIdx
      (run.contents (input.destination.root ++ file.1))
  started : ∀ file ∈ input.files, run.contents (input.destination.root ++ file.1) ≠ [] →
    run.base.tree.node (input.destination.root ++ file.1) = some .file
  counted : run.bytesWritten + ((run.pending input).map fun call => call.data.length).sum =
    input.totalSize
  readable : Readable input run.groupsLeft
  once : EachOnce input run.groups

variable {input} {run : RestoreRun} {worker : Worker} {position : Nat} {tree next : FileSystem}
  {fileIdx : Nat} {path : Path} {call : WriteCall} {later : RestoreRun}

theorem plain_length (chunk : ChunkRef) : (input.plain chunk).length = chunk.size :=
  plainData_length chunk

theorem goal_length (chunks : List ChunkRef) :
    (input.goal chunks).length = (chunks.map ChunkRef.size).sum := by
  rw [RestoreInput.goal, List.length_flatMap]
  congr 1
  exact List.map_congr_left fun chunk _ => plain_length chunk

theorem flatMap_set_perm {Element Part : Type} {elements : List Element} {element : Element}
    (known : elements[position]? = some element) (parts : Element → List Part) :
    ∃ others, (elements.flatMap parts).Perm (parts element ++ others) ∧
      ∀ other, ((elements.set position other).flatMap parts).Perm (parts other ++ others) := by
  obtain ⟨inside, rfl⟩ := List.getElem?_eq_some_iff.mp known
  refine ⟨(elements.take position).flatMap parts ++ (elements.drop (position + 1)).flatMap parts,
    ?_, fun other => ?_⟩
  · have whole : elements = elements.take position ++
        elements[position] :: elements.drop (position + 1) := by
      rw [List.cons_getElem_drop_succ, List.take_append_drop]
    conv_lhs => rw [whole]
    rw [List.flatMap_append, List.flatMap_cons]
    exact List.perm_append_comm_assoc _ _ _
  · rw [List.set_eq_take_append_cons_drop, if_pos inside, List.flatMap_append, List.flatMap_cons]
    exact List.perm_append_comm_assoc _ _ _

theorem OpenAt.grows (isOpen : OpenAt input tree fileIdx path) (grows : tree.Grows next) :
    OpenAt input next fileIdx path := by
  obtain ⟨file, found, same, isFile⟩ := isOpen
  exact ⟨file, found, same, grows.keeps _ _ isFile⟩

theorem WorkerSound.grows (sound : WorkerSound input tree worker) (grows : tree.Grows next) :
    WorkerSound input next worker :=
  ⟨fun handle listed => (sound.handles handle listed).grows grows,
    fun call first path opened => (sound.opening call first path opened).grows grows, sound.groups⟩

theorem Writing.workers_set (writing : Writing input run) (worker : Worker)
    (grows : run.base.tree.Grows next) (sound : WorkerSound input next worker) :
    ∀ other ∈ run.workers.set position worker, WorkerSound input next other := by
  intro other listed
  rcases List.mem_or_eq_of_mem_set listed with before | rfl
  · exact (writing.workers other before).grows grows
  · exact sound

theorem index_unique (separate : Separate input.items) {first second : Nat}
    {file other : Path × List ChunkRef} (found : input.files[first]? = some file)
    (foundOther : input.files[second]? = some other) (same : file.1 = other.1) :
    first = second := by
  have distinct : (input.files.map Prod.fst).Nodup := separate.regularFiles_nodup
  have inside := (List.getElem?_eq_some_iff.mp found).1
  refine (List.getElem?_inj (by rwa [List.length_map]) distinct).mp ?_
  rw [List.getElem?_map, List.getElem?_map, found, foundOther, Option.map_some, Option.map_some,
    same]

section Handles

variable {handles later : LruHandles}

theorem LruHandles.get_some (found : handles.get fileIdx = some (path, later)) :
    (fileIdx, path) ∈ handles ∧ ∀ handle ∈ later, handle ∈ handles := by
  obtain ⟨entry, isEntry, same⟩ := Option.map_eq_some_iff.mp found
  cases same
  have listed := List.mem_of_find?_eq_some isEntry
  have isIdx : entry.1 = fileIdx := by simpa using List.find?_some isEntry
  refine ⟨isIdx ▸ listed, fun handle among => ?_⟩
  rcases List.mem_append.mp among with kept | last
  · exact List.mem_of_mem_eraseP kept
  · exact List.mem_singleton.mp last ▸ listed

theorem LruHandles.mem_insert {handle : Nat × Path}
    (listed : handle ∈ handles.insert fileIdx path) :
    handle ∈ handles ∨ handle = (fileIdx, path) := by
  rcases List.mem_append.mp listed with kept | last
  · split at kept
    · exact Or.inl (List.mem_of_mem_drop kept)
    · exact Or.inl kept
  · exact Or.inr (List.mem_singleton.mp last)

theorem WorkerSound.insert (sound : WorkerSound input tree worker)
    (first : call ∈ worker.calls.head?)
    (opened : worker.opening = some (.opened path) ∨ worker.opening = some (.sizing path)) :
    WorkerSound input tree { worker with
      handles := worker.handles.insert call.file path, opening := none } := by
  refine ⟨fun handle listed => ?_, fun _ _ _ none => ?_, sound.groups⟩
  · rcases LruHandles.mem_insert listed with before | rfl
    · exact sound.handles handle before
    · exact sound.opening call first path opened
  · rcases none with none | none <;> cases none

end Handles

theorem Writing.keep (writing : Writing input run) (grows : run.base.tree.Grows later.base.tree)
    (planned : later.base.planned = run.base.planned)
    (workers : ∀ worker ∈ later.workers, WorkerSound input later.base.tree worker)
    (effect : SameEffect (later.pending input) (run.pending input))
    (contents : later.contents = run.contents) (bytes : later.bytesWritten = run.bytesWritten)
    (readable : Readable input later.groupsLeft) (groups : later.groups = run.groups) :
    Writing input later where
  placed := writing.placed.grows grows
  planned := planned.trans writing.planned
  empty file listed isEmpty := grows.keeps _ _ (writing.empty file listed isEmpty)
  workers := workers
  final call listed position value puts := by
    obtain ⟨other, among, same⟩ := (effect.puts call.file position value).mp ⟨call, listed, puts⟩
    obtain ⟨file, found, isGoal⟩ := writing.final other among position value (same.1.symm ▸ same)
    exact ⟨file, same.1 ▸ found, isGoal⟩
  filling fileIdx file found := by
    rw [contents]
    exact (writing.filling fileIdx file found).mono fun position value =>
      (effect.puts fileIdx position value).mpr
  started file listed nonempty := by
    rw [contents] at nonempty
    exact grows.keeps _ _ (writing.started file listed nonempty)
  counted := by
    rw [bytes, effect.length]
    exact writing.counted
  readable := readable
  once := groups ▸ writing.once

theorem Writing.change (writing : Writing input run) (separate : Separate input.items)
    {content : Bytes} (isOpen : OpenAt input run.base.tree fileIdx path)
    (base : later.base = run.base)
    (workers : ∀ worker ∈ later.workers, WorkerSound input run.base.tree worker)
    (pending : ∀ call ∈ later.pending input, call ∈ run.pending input)
    (others : ∀ call ∈ run.pending input, call.file ≠ fileIdx → call ∈ later.pending input)
    (contents : later.contents = Function.update run.contents path content)
    (filling : ∀ file, input.files[fileIdx]? = some file →
      Filling (input.goal file.2) (later.pending input) fileIdx content)
    (counted : later.bytesWritten +
      ((later.pending input).map fun call => call.data.length).sum = input.totalSize)
    (left : later.groupsLeft.Perm run.groupsLeft) (groups : later.groups = run.groups) :
    Writing input later where
  placed := base ▸ writing.placed
  planned := base ▸ writing.planned
  empty := base ▸ writing.empty
  workers := base ▸ workers
  final call listed := writing.final call (pending call listed)
  filling other file found := by
    obtain ⟨own, foundOwn, rfl, -⟩ := isOpen
    by_cases same : file.1 = own.1
    · obtain rfl := index_unique separate found foundOwn same
      rw [contents, same, Function.update_self]
      exact filling file found
    · rw [contents, Function.update_of_ne fun equal => same (List.append_cancel_left equal)]
      refine (writing.filling other file found).mono fun position value ⟨call, listed, puts⟩ =>
        ⟨call, others call listed fun isOwn => ?_, puts⟩
      obtain rfl : other = fileIdx := puts.1.symm.trans isOwn
      exact same (congrArg Prod.fst (Option.some.inj (found.symm.trans foundOwn)))
  started file listed nonempty := by
    rw [base]
    obtain ⟨own, foundOwn, rfl, isFile⟩ := isOpen
    by_cases same : file.1 = own.1
    · rw [same]
      exact isFile
    · rw [contents, Function.update_of_ne fun equal => same (List.append_cancel_left equal)]
        at nonempty
      exact writing.started file listed nonempty
  counted := counted
  readable file listed chunk among := by
    refine (writing.readable file listed chunk among).imp_right fun ⟨group, inGroups, blob⟩ => ?_
    exact ⟨group, left.mem_iff.mpr inGroups, blob⟩
  once := groups ▸ writing.once

section Steps

variable {calls : List WriteCall} {file : PlannedFile}

theorem Writing.start (writing : Writing input run) {group : ReadGroup} {groups : List ReadGroup}
    (known : run.workers[position]? = some worker) (noCalls : worker.calls = [])
    (isGroup : worker.groups = group :: groups)
    (written : groupWrites input.external input.packs group = some calls) :
    Writing input (run.setWorker position ⟨groups, calls, [], none⟩) := by
  have sound := writing.workers worker (List.mem_of_getElem? known)
  have inWorker : group ∈ worker.groups := isGroup ▸ List.mem_cons_self
  obtain ⟨decoded, effect⟩ := groupWrites_effect (sound.groups group inWorker) written
  refine writing.keep (.refl _) rfl (writing.workers_set _ (.refl _) ⟨nofun, ?_, ?_⟩) ?_ rfl rfl
    ?_ rfl
  · intro call first path opened
    rcases opened with opened | opened <;> cases opened
  · exact fun other listed => sound.groups other (isGroup ▸ List.mem_cons_of_mem _ listed)
  · obtain ⟨others, before, after⟩ := flatMap_set_perm known (Worker.pending input)
    refine (SameEffect.of_perm (after _)).trans
      (SameEffect.trans ?_ (SameEffect.of_perm before.symm))
    refine SameEffect.append ?_ (.refl others)
    rw [Worker.pending, Worker.pending, noCalls, isGroup, List.nil_append, List.flatMap_cons]
    exact effect.append (.refl _)
  · obtain ⟨others, before, after⟩ := flatMap_set_perm known Worker.groups
    intro file listed chunk among
    rcases writing.readable file listed chunk among with isReadable | ⟨other, inGroups, found⟩
    · exact Or.inl isReadable
    · have parts := before.mem_iff.mp inGroups
      rw [isGroup, List.cons_append, List.mem_cons] at parts
      rcases parts with rfl | inRest
      · obtain ⟨blob, inBlobs, sameId, sameSize⟩ := found
        have isReadable := decoded blob inBlobs
        rw [sameId, sameSize] at isReadable
        exact Or.inl isReadable
      · exact Or.inr ⟨other, (after _).mem_iff.mpr inRest, found⟩

theorem pending_setWorker (known : run.workers[position]? = some worker)
    (handles : LruHandles) (opening : Option Opening) :
    ((run.setWorker position { worker with handles, opening }).pending input).Perm
      (run.pending input) ∧
    ((run.setWorker position { worker with handles, opening }).groupsLeft).Perm
      run.groupsLeft := by
  obtain ⟨others, before, after⟩ := flatMap_set_perm known (Worker.pending input)
  obtain ⟨otherGroups, groupsBefore, groupsAfter⟩ := flatMap_set_perm known Worker.groups
  exact ⟨(after _).trans before.symm, (groupsAfter _).trans groupsBefore.symm⟩

section

variable (writing : Writing input run)

include writing

theorem Writing.reworked (known : run.workers[position]? = some worker) {base : RestoreState}
    (created : List Nat) (handles : LruHandles) (opening : Option Opening)
    (grows : run.base.tree.Grows base.tree) (planned : base.planned = run.base.planned)
    (sound : WorkerSound input base.tree { worker with handles, opening }) :
    Writing input ({ run with base, created }.setWorker position
      { worker with handles, opening }) := by
  obtain ⟨pending, left⟩ := @pending_setWorker input run worker position known handles opening
  refine writing.keep grows planned (writing.workers_set _ grows sound) (SameEffect.of_perm pending)
    rfl rfl (fun file listed chunk among => ?_) rfl
  refine (writing.readable file listed chunk among).imp_right fun ⟨group, inGroups, blob⟩ => ?_
  exact ⟨group, left.mem_iff.mpr inGroups, blob⟩

theorem Writing.planned_file (found : run.base.planned[fileIdx]? = some file) :
    ∃ own, input.files[fileIdx]? = some own ∧ file.relPath = own.1 ∧
      file.totalSize = (input.goal own.2).length := by
  rw [writing.planned, plannedFiles, List.getElem?_map] at found
  obtain ⟨own, foundOwn, rfl⟩ := Option.map_eq_some_iff.mp found
  exact ⟨own, foundOwn, rfl, (goal_length _).symm⟩

variable (known : run.workers[position]? = some worker)

include known

section

variable (isCall : worker.calls = call :: calls)

include isCall

theorem Writing.openFile (separate : Separate input.items) {opened : Path}
    (found : run.base.planned[call.file]? = some file)
    (isOpen : run.base.openPlanned input.destination.root file.relPath = some (next, opened)) :
    Writing input ({ run with
      base := run.base.afterCreating next [opened]
      contents := if (run.base.tree.node opened).isSome then run.contents
        else Function.update run.contents opened [] }.setWorker position
          { worker with opening := some (.opened opened) }) := by
  obtain ⟨own, foundOwn, samePath, -⟩ := writing.planned_file found
  have listed := List.mem_of_getElem? foundOwn
  obtain ⟨item, among, isFile, normal, -⟩ := mem_regularFiles listed
  rw [samePath] at isOpen
  obtain ⟨rfl, grows, isFileAfter⟩ := writing.placed.openPlanned separate among normal isFile isOpen
  -- a file that was not there had no contents
  have contents : (if (run.base.tree.node (input.destination.root ++ own.1)).isSome = true then
      run.contents else Function.update run.contents (input.destination.root ++ own.1) []) =
      run.contents := by
    split
    · rfl
    · rename_i absent
      have nothing : run.contents (input.destination.root ++ own.1) = [] := by
        by_contra nonempty
        rw [writing.started own listed nonempty] at absent
        exact absent rfl
      exact Function.update_eq_self_iff.mpr nothing.symm
  rw [contents]
  have sound := writing.workers worker (List.mem_of_getElem? known)
  refine writing.reworked known run.created worker.handles (some (.opened _)) grows rfl
    ⟨(sound.grows grows).handles, fun other first path isOpening => ?_, sound.groups⟩
  have same : other = call := by simpa [isCall, eq_comm] using first
  rcases isOpening with isOpening | isOpening <;> cases isOpening
  exact ⟨own, same ▸ foundOwn, rfl, isFileAfter⟩

theorem Writing.swap (isOpening : worker.opening = some (.opened path)) :
    Writing input (run.setWorker position { worker with
      handles := worker.handles.insert call.file path, opening := none }) ∧
    Writing input ({ run with created := call.file :: run.created }.setWorker position
      { worker with opening := some (.sizing path) }) := by
  have sound := writing.workers worker (List.mem_of_getElem? known)
  have first : call ∈ worker.calls.head? := by rw [isCall]; rfl
  refine ⟨writing.reworked known run.created _ none (.refl _) rfl
    (sound.insert first (Or.inl isOpening)), ?_⟩
  refine writing.reworked known _ worker.handles (some (.sizing path)) (.refl _) rfl
    ⟨sound.handles, fun other isFirst otherPath sizing => ?_, sound.groups⟩
  rcases sizing with sizing | sizing <;> cases sizing
  exact sound.opening other isFirst path (Or.inl isOpening)

theorem Writing.setLen (separate : Separate input.items)
    (isOpening : worker.opening = some (.sizing path)) :
    Writing input ({ run with
      contents := Function.update run.contents path
        (setLength 0 (((run.base.planned[call.file]?).map PlannedFile.totalSize).getD 0)
          (run.contents path)) }.setWorker position { worker with
            handles := worker.handles.insert call.file path, opening := none }) := by
  have sound := writing.workers worker (List.mem_of_getElem? known)
  have first : call ∈ worker.calls.head? := by rw [isCall]; rfl
  have isOpen := sound.opening call first path (Or.inr isOpening)
  obtain ⟨pending, left⟩ := @pending_setWorker input run worker position known
    (worker.handles.insert call.file path) none
  refine writing.change separate isOpen rfl
    (writing.workers_set _ (.refl _) (sound.insert first (Or.inr isOpening)))
    (fun other listed => pending.mem_iff.mp listed)
    (fun other listed _ => pending.mem_iff.mpr listed) rfl (fun file found => ?_) ?_ left rfl
  · obtain ⟨own, foundOwn, rfl, -⟩ := isOpen
    cases found.symm.trans foundOwn
    have total : ((run.base.planned[call.file]?).map PlannedFile.totalSize).getD 0 =
        (input.goal file.2).length := by
      rw [writing.planned, plannedFiles, List.getElem?_map, found, goal_length]
      rfl
    rw [total]
    refine ((writing.filling call.file file found).mono fun position value put => ?_).setLength
    obtain ⟨other, listed, puts⟩ := put
    exact ⟨other, pending.mem_iff.mpr listed, puts⟩
  · exact (congrArg _ (pending.map _).sum_eq).trans writing.counted

theorem Writing.write (separate : Separate input.items) (noOpening : worker.opening = none)
    {handles : LruHandles}
    (found : worker.handles.get call.file = some (path, handles)) :
    Writing input ({ run with
      contents := Function.update run.contents path
        (writeAt 0 call.offset call.data (run.contents path))
      bytesWritten := run.bytesWritten + call.data.length }.setWorker position
        { worker with calls, handles }) := by
  have sound := writing.workers worker (List.mem_of_getElem? known)
  obtain ⟨isHandle, kept⟩ := LruHandles.get_some found
  have isOpen := sound.handles _ isHandle
  obtain ⟨others, before, after⟩ := flatMap_set_perm known (Worker.pending input)
  obtain ⟨otherGroups, groupsBefore, groupsAfter⟩ := flatMap_set_perm known Worker.groups
  -- the write leaves the pending ones
  have taken : (run.pending input).Perm (call ::
      (run.setWorker position { worker with calls, handles }).pending input) := by
    refine before.trans ?_
    rw [Worker.pending, isCall]
    exact ((after { worker with calls, handles }).symm.cons call)
  refine writing.change separate isOpen rfl
    (writing.workers_set _ (.refl _)
      ⟨fun handle listed => sound.handles handle (kept handle listed), ?_, sound.groups⟩)
    (fun other listed => taken.mem_iff.mpr (List.mem_cons_of_mem _ listed))
    (fun other listed differs => ?_) rfl (fun file isFile => ?_) ?_
    ((groupsAfter _).trans groupsBefore.symm) rfl
  · intro other first otherPath opening
    rw [noOpening] at opening
    rcases opening with opening | opening <;> cases opening
  · rcases List.mem_cons.mp (taken.mem_iff.mp listed) with rfl | later
    · exact absurd rfl differs
    · exact later
  · obtain ⟨own, foundOwn, rfl, -⟩ := isOpen
    cases isFile.symm.trans foundOwn
    refine Filling.write ((writing.filling call.file file isFile).mono
      fun position value ⟨other, listed, puts⟩ => ⟨other, taken.mem_iff.mp listed, puts⟩)
      fun position value puts => ?_
    obtain ⟨other, foundOther, isGoal⟩ := writing.final call
      (taken.mem_iff.mpr List.mem_cons_self) position value puts
    cases isFile.symm.trans foundOther
    exact isGoal
  · have counted := writing.counted
    rw [(taken.map _).sum_eq, List.map_cons, List.sum_cons] at counted
    rw [← counted, ← Nat.add_assoc]
    rfl

end

theorem Writing.workerStep (separate : Separate input.items) (event : WorkerEvent)
    (stepped : run.workerStep input position worker event = some later) :
    later = run.fail ∨ Writing input later ∧ later.base.phase = run.base.phase := by
  cases event with
  | start =>
    simp only [RestoreRun.workerStep] at stepped
    split at stepped
    · rename_i noCalls _ isGroup
      split at stepped
      · exact Or.inl (Option.some.inj stepped).symm
      · rename_i written
        cases stepped
        exact Or.inr ⟨writing.start known noCalls isGroup written, rfl⟩
    · cases stepped
  | openFile =>
    simp only [RestoreRun.workerStep] at stepped
    split at stepped
    · rename_i isCall _
      split at stepped
      · rename_i found
        split at stepped
        · exact Or.inl (Option.some.inj stepped).symm
        · rename_i isOpen
          cases stepped
          exact Or.inr ⟨writing.openFile known isCall separate found isOpen, rfl⟩
      · cases stepped
    · cases stepped
  | swap =>
    simp only [RestoreRun.workerStep] at stepped
    split at stepped
    · rename_i isCall isOpening
      obtain ⟨inserted, sizing⟩ := writing.swap known isCall isOpening
      split at stepped
      · cases stepped
        exact Or.inr ⟨inserted, rfl⟩
      · cases stepped
        exact Or.inr ⟨sizing, rfl⟩
    · cases stepped
  | setLen =>
    simp only [RestoreRun.workerStep] at stepped
    split at stepped
    · rename_i isCall isOpening
      cases stepped
      exact Or.inr ⟨writing.setLen known isCall separate isOpening, rfl⟩
    · cases stepped
  | write =>
    simp only [RestoreRun.workerStep] at stepped
    split at stepped
    · rename_i isCall noOpening
      split at stepped
      · cases stepped
      · rename_i found
        cases stepped
        exact Or.inr ⟨writing.write known isCall separate noOpening found, rfl⟩
    · cases stepped

end

end Steps

end Vykar.Restore

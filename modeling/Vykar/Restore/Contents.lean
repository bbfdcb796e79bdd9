import Vykar.Restore.Writing

/-!
What a successful restore leaves at the destination.

The invariant follows the phases: while items are streamed and files prepared nothing has been
written, then the threads fill the files, and at the end each file is either still in the
temporary directory or already where it belongs.
-/

namespace Vykar.Restore

open Index Pack Snapshot PositionedWrite SymlinkTree

variable {input : RestoreInput} {run : RestoreRun}

section Begin

variable {chunkTargets : Dict ChunkId ChunkTargets} {entries : List (ChunkId × ChunkTargets)}
  {built : List ReadGroup}

theorem sortGroups_perm (groups : List ReadGroup) : (sortGroups groups).Perm groups :=
  List.perm_insertionSort _ groups

theorem buckets_perm (threads_pos : 0 < input.threads) (groups : List ReadGroup) :
    (if groups = [] then [] else
      partitionGroups groups (min input.threads groups.length)).flatten.Perm groups := by
  split
  · rename_i none
    rw [none]
    exact List.Perm.refl _
  · rename_i some
    have positive := List.length_pos_of_ne_nil some
    exact partitionGroups_perm groups (by omega)

def RestoreInput.wholeWrites (input : RestoreInput) : List WriteCall :=
  ((input.files.map Prod.snd).zipIdx 0).map fun entry => ⟨entry.2, 0, entry.1.flatMap input.plain⟩

theorem puts_wholeWrites {fileIdx position : Nat} {value : UInt8} :
    (∃ call ∈ input.wholeWrites, call.Puts fileIdx position value) ↔
      ∃ file, input.files[fileIdx]? = some file ∧
        (input.goal file.2)[position]? = some value := by
  constructor
  · rintro ⟨call, listed, isFile, -, isValue⟩
    obtain ⟨⟨chunks, other⟩, among, rfl⟩ := List.mem_map.mp listed
    have found := List.mem_zipIdx_iff_getElem?.mp among
    obtain rfl : other = fileIdx := isFile
    rw [List.getElem?_map] at found
    obtain ⟨file, isFile, rfl⟩ := Option.map_eq_some_iff.mp found
    exact ⟨file, isFile, isValue⟩
  · rintro ⟨file, found, isValue⟩
    have inFiles : (file.2, fileIdx) ∈ (input.files.map Prod.snd).zipIdx 0 := by
      rw [List.mem_zipIdx_iff_getElem?, List.getElem?_map, found]
      rfl
    exact ⟨_, List.mem_map_of_mem inFiles, rfl, Nat.zero_le _, isValue⟩

theorem wholeWrites_length :
    (input.wholeWrites.map fun call => call.data.length).sum = input.totalSize := by
  have lengths : (input.wholeWrites.map fun call => call.data.length) =
      ((input.files.map Prod.snd).zipIdx 0).map
        ((fun chunks => (chunks.map ChunkRef.size).sum) ∘ Prod.fst) := by
    rw [RestoreInput.wholeWrites, List.map_map]
    exact List.map_congr_left fun entry _ => goal_length entry.1
  rw [lengths, ← List.map_map, List.zipIdx_map_fst, List.map_map]
  rfl

theorem groupPieces_effect
    (planned : planTargets 0 ∅ (input.files.map Prod.snd) = some chunkTargets)
    (permuted : entries.Perm chunkTargets.toList)
    (isBuilt : buildReadGroups input.index entries = some built) :
    SameEffect (built.flatMap (groupPieces input.plain)) input.wholeWrites := by
  obtain ⟨located, found, blobs, -⟩ := buildReadGroups_spec isBuilt
  have pieces : (located.map Prod.snd).flatMap (blobPieces input.plain) =
      entries.flatMap (entryWrites input.plain) := by
    rw [List.flatMap_def, List.flatMap_def, located_map (fun entry place isPlace => ?_) found]
    obtain ⟨known, -, rfl⟩ := locate_eq_some isPlace
    rfl
  have regrouped : (built.flatMap (groupPieces input.plain)).Perm
      (allWrites input.plain 0 (input.files.map Prod.snd)) := by
    calc built.flatMap (groupPieces input.plain)
      _ = (built.flatMap ReadGroup.blobs).flatMap (blobPieces input.plain) :=
          List.flatMap_assoc.symm
      List.Perm _ ((located.map Prod.snd).flatMap (blobPieces input.plain)) := blobs.flatMap_right _
      _ = entries.flatMap (entryWrites input.plain) := pieces
      List.Perm _ (chunkTargets.toList.flatMap (entryWrites input.plain)) :=
          permuted.flatMap_right _
      List.Perm _ (allWrites input.plain 0 (input.files.map Prod.snd)) :=
          planTargets_writes planned
  exact (SameEffect.of_perm regrouped).trans (allWrites_effect plain_length 0 _)

theorem blobs_of_plan
    (planned : planTargets 0 ∅ (input.files.map Prod.snd) = some chunkTargets)
    (permuted : entries.Perm chunkTargets.toList)
    (isBuilt : buildReadGroups input.index entries = some built) :
    EachOnce input built ∧ Readable input built ∧ ∀ group ∈ built, GroupPlaced input group := by
  obtain ⟨located, found, blobs, placed⟩ := buildReadGroups_spec isBuilt
  obtain ⟨-, listed, -⟩ := planTargets_get? planned
  have known {file : Path × List ChunkRef} (isFile : file ∈ input.files) {chunk : ChunkRef}
      (among : chunk ∈ file.2) : ∃ entry, (chunk.id, entry) ∈ entries ∧
        entry.expectedSize = chunk.size := by
    obtain ⟨entry, isEntry, size⟩ := listed file.2 (List.mem_map_of_mem isFile) chunk among
    exact ⟨entry, permuted.mem_iff.mpr (Dict.get?_eq_some_iff.mp isEntry), size⟩
  refine ⟨fun file isFile chunk among => ?_, fun file isFile chunk among => ?_,
    fun group inGroups blob inBlobs => ?_⟩
  · have ids : ((located.map Prod.snd).map PlannedBlob.chunkId) = entries.map Prod.fst :=
      located_map (fun entry place isPlace => by
        obtain ⟨known, -, rfl⟩ := locate_eq_some isPlace
        rfl) found
    have distinct : (entries.map Prod.fst).Nodup := by
      rw [(permuted.map Prod.fst).nodup_iff, Dict.toList_keys]
      exact Dict.keysList_nodup _
    obtain ⟨entry, isEntry, -⟩ := known isFile among
    rw [(blobs.map _).count_eq, ids]
    exact List.count_eq_one_of_mem distinct (List.mem_map.mpr ⟨_, isEntry, rfl⟩)
  · obtain ⟨entry, isEntry, size⟩ := known isFile among
    have pairs : ((located.map Prod.snd).map fun blob => (blob.chunkId, blob.expectedSize)) =
        entries.map fun entry => (entry.1, entry.2.expectedSize) :=
      located_map (fun entry place isPlace => by
        obtain ⟨known, -, rfl⟩ := locate_eq_some isPlace
        rfl) found
    have inPairs : (chunk.id, chunk.size) ∈
        (located.map Prod.snd).map fun blob => (blob.chunkId, blob.expectedSize) := by
      rw [pairs]
      exact List.mem_map.mpr ⟨_, isEntry, by rw [size]⟩
    obtain ⟨blob, isBlob, same⟩ := List.mem_map.mp inPairs
    obtain ⟨group, inGroups, inBlobs⟩ := List.mem_flatMap.mp (blobs.mem_iff.mpr isBlob)
    exact Or.inr ⟨group, inGroups, blob, inBlobs, congrArg Prod.fst same, congrArg Prod.snd same⟩
  · obtain ⟨isLocated, starts⟩ := placed group inGroups blob inBlobs
    obtain ⟨entry, -, isPlace⟩ := mem_located found isLocated
    obtain ⟨stored, isStored, same⟩ := locate_eq_some isPlace
    obtain ⟨samePack, rfl⟩ := Prod.mk.inj same
    exact ⟨starts, stored, isStored, samePack.symm, rfl, rfl⟩

structure Blank (input : RestoreInput) (run : RestoreRun) : Prop where
  contents : ∀ path, input.destination.root <+: path → run.contents path = []
  bytes : run.bytesWritten = 0

theorem Blank.created (blank : Blank input run) (path : Option Path) (other : Path)
    (inside : input.destination.root <+: other) :
    (match path with
      | some path => Function.update run.contents path []
      | none => run.contents) other = [] := by
  cases path with
  | none => exact blank.contents other inside
  | some path =>
    simp only [Function.update_apply]
    split
    · rfl
    · exact blank.contents other inside

def EmptyCreated (input : RestoreInput) (tree : FileSystem) (files : List PlannedFile) : Prop :=
  ∀ file ∈ files, file.totalSize = 0 →
    tree.node (input.destination.root ++ file.relPath) = some .file

theorem startWriting_eq (run : RestoreRun)
    (isBuilt : buildReadGroups input.index entries = some built) :
    ∃ buckets : List (List ReadGroup), buckets.flatten.Perm built ∧
      run.startWriting input entries =
        { run with
          base := { run.base with phase := .writing }
          groups := sortGroups built
          workers := buckets.map fun bucket => ⟨bucket, [], [], none⟩ } := by
  refine ⟨_, (buckets_perm input.threads_pos (sortGroups built)).trans (sortGroups_perm built), ?_⟩
  simp only [RestoreRun.startWriting, isBuilt]

theorem Writing.begin (placed : Placed input.destination.root input.items run.base.tree)
    (isPlanned : run.base.planned = plannedFiles input.files) (blank : Blank input run)
    (empty : EmptyCreated input run.base.tree run.base.planned)
    (planned : planTargets 0 ∅ (input.files.map Prod.snd) = some chunkTargets)
    (permuted : entries.Perm chunkTargets.toList)
    (isBuilt : buildReadGroups input.index entries = some built) :
    Writing input (run.startWriting input entries) := by
  obtain ⟨once, readable, groupsPlaced⟩ := blobs_of_plan planned permuted isBuilt
  obtain ⟨buckets, shared, started⟩ := startWriting_eq run isBuilt
  have left : (run.startWriting input entries).groupsLeft = buckets.flatten := by
    rw [started, RestoreRun.groupsLeft, List.flatMap_map]
    exact List.flatMap_id
  have effect : SameEffect ((run.startWriting input entries).pending input)
      input.wholeWrites := by
    refine SameEffect.trans (SameEffect.of_perm ?_) (groupPieces_effect planned permuted isBuilt)
    refine List.Perm.trans (List.Perm.of_eq ?_) (shared.flatMap_right (groupPieces input.plain))
    rw [started, ← List.flatMap_id, List.flatMap_assoc, RestoreRun.pending, List.flatMap_map]
    rfl
  have contents (file : Path × List ChunkRef) : (run.startWriting input entries).contents
      (input.destination.root ++ file.1) = [] := by
    rw [started]
    exact blank.contents _ (List.prefix_append _ _)
  refine ⟨started ▸ placed, started ▸ isPlanned, fun file listed isEmpty => ?_,
    fun worker listed => ?_, fun call listed position value isPut => ?_,
    fun fileIdx file found => ?_, fun file _ nonempty => absurd (contents file) nonempty, ?_,
    fun file listed chunk among => ?_, fun file listed chunk among => ?_⟩
  · rw [started]
    refine empty ⟨file.1, (file.2.map ChunkRef.size).sum⟩ ?_ isEmpty
    rw [isPlanned]
    exact List.mem_map.mpr ⟨file, listed, rfl⟩
  · rw [started] at listed
    obtain ⟨bucket, inBuckets, rfl⟩ := List.mem_map.mp listed
    refine ⟨nofun, nofun, fun group inBucket => groupsPlaced group ?_⟩
    exact shared.mem_iff.mp (List.mem_flatten.mpr ⟨bucket, inBuckets, inBucket⟩)
  · exact puts_wholeWrites.mp ((effect.puts _ position value).mp ⟨call, listed, isPut⟩)
  · rw [contents]
    exact ⟨Nat.zero_le _, fun position value wanted => Or.inr
      ((effect.puts fileIdx position value).mpr (puts_wholeWrites.mpr ⟨file, found, wanted⟩))⟩
  · have bytes : (run.startWriting input entries).bytesWritten = 0 := by
      rw [started]
      exact blank.bytes
    rw [bytes, effect.length, Nat.zero_add, wholeWrites_length]
  · refine (readable file listed chunk among).imp_right fun ⟨group, inGroups, blob⟩ => ?_
    exact ⟨group, left ▸ shared.mem_iff.mpr inGroups, blob⟩
  · have groups : (run.startWriting input entries).groups = sortGroups built := by rw [started]
    rw [groups, (((sortGroups_perm built).flatMap_right _).map _).count_eq]
    exact once file listed chunk among

end Begin

section Moves

def FileAt (input : RestoreInput) (run : RestoreRun) (dir : Path)
    (file : Path × List ChunkRef) : Prop :=
  run.base.tree.node (dir ++ file.1) = some .file ∧
    run.contents (dir ++ file.1) = input.goal file.2

def Moved (input : RestoreInput) (run : RestoreRun) (file : Path × List ChunkRef) : Prop :=
  FileAt input run input.destination.dest file ∧
    ∃ name rest, file.1 = name :: rest ∧ name ≠ input.destination.tempName ∧
      run.base.tree.node (input.destination.root ++ [name]) = none

structure Moving (input : RestoreInput) (run : RestoreRun) : Prop where
  files : ∀ file ∈ input.files, FileAt input run input.destination.root file ∨ Moved input run file
  bytes : run.bytesWritten = input.totalSize
  readable : Readable input []
  once : EachOnce input run.groups

theorem Writing.finish (writing : Writing input run)
    (finished : run.workers.all Worker.finished = true) :
    Moving input { run with base := { run.base with phase := .moving } } := by
  have each {worker : Worker} (listed : worker ∈ run.workers) :
      worker.groups = [] ∧ worker.calls = [] := by
    have done := List.all_eq_true.mp finished worker listed
    rw [Worker.finished, Bool.and_eq_true, List.isEmpty_iff, List.isEmpty_iff] at done
    exact done
  have nothing : run.pending input = [] := by
    rw [RestoreRun.pending, List.flatMap_eq_nil_iff]
    intro worker listed
    rw [Worker.pending, (each listed).1, (each listed).2]
    rfl
  have noGroups : run.groupsLeft = [] := by
    rw [RestoreRun.groupsLeft, List.flatMap_eq_nil_iff]
    exact fun worker listed => (each listed).1
  refine ⟨fun file listed => Or.inl ?_, ?_, noGroups ▸ writing.readable, writing.once⟩
  · obtain ⟨fileIdx, found⟩ := List.mem_iff_getElem?.mp listed
    have filling := writing.filling fileIdx file found
    rw [nothing] at filling
    have contents := filling.eq_goal
    refine ⟨?_, contents⟩
    by_cases isEmpty : (file.2.map ChunkRef.size).sum = 0
    · exact writing.empty file listed isEmpty
    · refine writing.started file listed fun none => isEmpty ?_
      rw [← goal_length, ← contents, none]
      rfl
  · have counted := writing.counted
    rwa [nothing] at counted

theorem Moving.move (moving : Moving input run) {name : Name}
    (canMove : run.base.tree.CanMove (input.destination.root ++ [name])
      (input.destination.dest ++ [name])) {base : RestoreState}
    (renamed : base.tree = run.base.tree.rename _ _ canMove) :
    Moving input { run with
      base
      contents := RestoreRun.moveContents run.contents (input.destination.root ++ [name])
        (input.destination.dest ++ [name]) } := by
  have occupied := canMove.2.2.2.2.1
  have rootEq (path : Path) : input.destination.root ++ path =
      input.destination.dest ++ input.destination.tempName :: path := by
    rw [Destination.root, List.append_assoc, List.singleton_append]
  -- nothing can be moved over the temporary directory
  have notTemp : name ≠ input.destination.tempName := fun same => canMove.2.2.2.2.2.2 <| by
    rw [rootEq, List.prefix_append_right_inj, singleton_prefix_cons, same]
  have below {first : Name} {rest : Path} (same : name = first) :
      input.destination.dest ++ [name] <+: input.destination.dest ++ first :: rest := by
    rw [List.prefix_append_right_inj, singleton_prefix_cons, same]
  have apart {first : Name} {rest : Path} (differ : name ≠ first) :
      ¬ input.destination.dest ++ [name] <+: input.destination.dest ++ first :: rest := by
    rw [List.prefix_append_right_inj, singleton_prefix_cons]
    exact differ
  have sourceApart {first : Name} {rest : Path} (differ : name ≠ first) :
      ¬ input.destination.root ++ [name] <+: input.destination.root ++ first :: rest := by
    rw [List.prefix_append_right_inj, singleton_prefix_cons]
    exact differ
  refine ⟨fun file listed => ?_, moving.bytes, moving.readable, moving.once⟩
  obtain ⟨item, -, -, normal, -⟩ := mem_regularFiles listed
  obtain ⟨first, rest, split⟩ := List.exists_cons_of_ne_nil (normalPath_ne_nil normal)
  rcases moving.files file listed with ⟨isFile, contents⟩ | ⟨⟨isFile, contents⟩, other, others,
    splitAgain, otherNotTemp, gone⟩
  · rw [split] at isFile contents
    by_cases same : name = first
    · -- the file is moved now
      have source : input.destination.root ++ [name] ++
          (input.destination.dest ++ first :: rest).drop
            (input.destination.dest ++ [name]).length = input.destination.root ++
              first :: rest := by
        rw [List.length_append, List.length_singleton, ← List.drop_drop, List.drop_left, same]
        simp
      refine Or.inr ⟨⟨?_, ?_⟩, first, rest, split, same ▸ notTemp, ?_⟩
      · simp only [renamed, rename, split]
        rw [if_pos (below same), source, isFile]
      · simp only [RestoreRun.moveContents, split]
        rw [if_pos (below same), source, contents]
      · simp only [renamed, rename]
        rw [if_neg, if_pos (same ▸ List.prefix_refl _)]
        rw [rootEq]
        exact apart notTemp
    · refine Or.inl ⟨?_, ?_⟩
      · simp only [renamed, rename, split]
        rw [if_neg (rootEq _ ▸ apart notTemp), if_neg (sourceApart same), isFile]
      · simp only [RestoreRun.moveContents, split]
        rw [if_neg (rootEq _ ▸ apart notTemp), contents]
  · rw [splitAgain] at isFile contents
    have differ : name ≠ other := by
      rintro rfl
      rw [gone] at occupied
      cases occupied
    have notSource : ¬ input.destination.root ++ [name] <+:
        input.destination.dest ++ other :: others := by
      rw [rootEq, List.prefix_append_right_inj, List.cons_prefix_cons]
      exact fun same => otherNotTemp same.1.symm
    refine Or.inr ⟨⟨?_, ?_⟩, other, others, splitAgain, otherNotTemp, ?_⟩
    · simp only [renamed, rename, splitAgain]
      rw [if_neg (apart differ), if_neg notSource, isFile]
    · simp only [RestoreRun.moveContents, splitAgain]
      rw [if_neg (apart differ), contents]
    · simp only [renamed, rename]
      rw [if_neg (rootEq _ ▸ apart notTemp), if_neg (sourceApart differ), gone]

theorem Moving.moved (moving : Moving input run)
    (empty : ∀ name, run.base.tree.node (input.destination.root ++ [name]) = none)
    {file : Path × List ChunkRef} (listed : file ∈ input.files) :
    FileAt input run input.destination.dest file := by
  rcases moving.files file listed with ⟨isFile, -⟩ | moved
  · obtain ⟨item, -, -, normal, -⟩ := mem_regularFiles listed
    obtain ⟨first, rest, split⟩ := List.exists_cons_of_ne_nil (normalPath_ne_nil normal)
    rw [split, ← List.singleton_append, ← List.append_assoc] at isFile
    have occupied : (run.base.tree.node (input.destination.root ++ [first])).isSome = true := by
      by_cases none : rest = []
      · rw [none, List.append_nil] at isFile
        rw [isFile]
        rfl
      · rw [dir_above none (by rw [isFile]; rfl)]
        rfl
    rw [empty first] at occupied
    cases occupied
  · exact moved.1

end Moves

/-- No wanted file among the items has a path that is refused. -/
def Accepted (input : RestoreInput) (items : List Item) : Prop :=
  ∀ item ∈ items, input.includePath item.path = true → item.entryType = .regularFile →
    item.normalPath.isSome = true

def PhaseSound (input : RestoreInput) (run : RestoreRun) : Prop :=
  match run.base.phase with
  | .streaming rest =>
    Placed input.destination.root input.items run.base.tree ∧ Blank input run ∧
      ∃ done, input.items = done ++ rest ∧ Accepted input done ∧
        run.base.planned = plannedFiles (regularFiles input.includePath done)
  | .preparing rest =>
    Placed input.destination.root input.items run.base.tree ∧ Blank input run ∧
      Accepted input input.items ∧ run.base.planned = plannedFiles input.files ∧
      ∃ done, run.base.planned = done ++ rest ∧ EmptyCreated input run.base.tree done
  | .writing => Accepted input input.items ∧ Writing input run
  | .moving => Accepted input input.items ∧ Moving input run
  | .failed => True

theorem PhaseSound.of_failed (failed : run.base.phase = .failed) : PhaseSound input run := by
  simp only [PhaseSound, failed]

variable {later : RestoreRun}

theorem PhaseSound.item (sound : PhaseSound input run) (separate : Separate input.items)
    {item : Item} {items : List Item} (phase : run.base.phase = .streaming (item :: items))
    (stepped : runStep input run .item = some later) : PhaseSound input later := by
  simp only [PhaseSound, phase] at sound
  obtain ⟨placed, blank, done, split, accepted, planned⟩ := sound
  have listed : item ∈ input.items := by
    rw [split]
    exact List.mem_append_right _ List.mem_cons_self
  obtain ⟨base, baseStep, rfl⟩ := Option.map_eq_some_iff.mp stepped
  simp only [restoreStep, phase] at baseStep
  split at baseStep
  · rename_i failed
    cases baseStep
    exact .of_failed failed
  · rename_i notFailed
    cases baseStep
    refine ⟨placed.restoreItem separate listed, ⟨blank.contents, blank.bytes⟩, done ++ [item], ?_,
      ?_, ?_⟩
    · rw [List.append_assoc, List.singleton_append]
      exact split
    · intro other among included isFile
      rcases List.mem_append.mp among with before | last
      · exact accepted other before included isFile
      · obtain rfl := List.mem_singleton.mp last
        -- a file with a refused path ends the restore
        cases normal : sanitizeItemPath other.path with
        | ok relPath =>
          rw [normalPath_of_ok normal]
          rfl
        | error message =>
          refine absurd ?_ notFailed
          simp [RestoreState.restoreItem, included, isFile, normal, RestoreState.fail]
    · have appended := (restoreItem_planned input.includePath input.destination.root run.base
        item).resolve_left notFailed
      rw [planned] at appended
      simp only [regularFiles, List.filterMap_append] at appended ⊢
      rw [plannedFiles, List.map_append]
      exact appended

theorem PhaseSound.prepare (sound : PhaseSound input run) (separate : Separate input.items)
    {file : PlannedFile} {files : List PlannedFile}
    (phase : run.base.phase = .preparing (file :: files))
    (stepped : runStep input run .prepare = some later) : PhaseSound input later := by
  simp only [PhaseSound, phase] at sound
  obtain ⟨placed, blank, accepted, planned, done, split, created⟩ := sound
  have inPlan : file ∈ plannedFiles input.files := by
    rw [← planned, split]
    exact List.mem_append_right _ List.mem_cons_self
  obtain ⟨own, listed, rfl⟩ := List.mem_map.mp inPlan
  obtain ⟨item, among, isFile, normal, -⟩ := mem_regularFiles listed
  have prepared := placed.prepareFile separate among normal isFile (own.2.map ChunkRef.size).sum
  obtain ⟨base, baseStep, rfl⟩ := Option.map_eq_some_iff.mp stepped
  simp only [restoreStep, phase] at baseStep
  split at baseStep
  · rename_i failed
    cases baseStep
    exact .of_failed failed
  · rename_i notFailed
    cases baseStep
    obtain ⟨grows, samePlanned, isCreated⟩ := prepared.resolve_left notFailed
    refine ⟨placed.grows grows, ⟨blank.created _, blank.bytes⟩, accepted, samePlanned.trans planned,
      done ++ [⟨own.1, (own.2.map ChunkRef.size).sum⟩], ?_, fun other inDone isEmpty => ?_⟩
    · rw [List.append_assoc, List.singleton_append, ← split]
      exact samePlanned
    · rcases List.mem_append.mp inDone with before | last
      · exact grows.keeps _ _ (created other before isEmpty)
      · obtain rfl := List.mem_singleton.mp last
        exact isCreated isEmpty

theorem PhaseSound.step (sound : PhaseSound input run) (separate : Separate input.items)
    (event : RunEvent) (stepped : runStep input run event = some later) :
    PhaseSound input later := by
  cases event with
  | item =>
    cases phase : run.base.phase with
    | streaming items =>
      cases items with
      | nil => simp [runStep, restoreStep, phase] at stepped
      | cons item items => exact sound.item separate phase stepped
    | preparing | writing | moving | failed => simp [runStep, restoreStep, phase] at stepped
  | planned =>
    obtain ⟨base, baseStep, rfl⟩ := Option.map_eq_some_iff.mp stepped
    simp only [restoreStep] at baseStep
    split at baseStep
    · rename_i phase
      cases baseStep
      simp only [PhaseSound, phase, List.append_nil] at sound
      obtain ⟨placed, blank, done, rfl, accepted, planned⟩ := sound
      exact ⟨placed, ⟨blank.contents, blank.bytes⟩, accepted, planned, [], rfl,
        fun _ inDone => absurd inDone List.not_mem_nil⟩
    · cases baseStep
  | prepare =>
    cases phase : run.base.phase with
    | preparing files =>
      cases files with
      | nil => simp [runStep, restoreStep, phase] at stepped
      | cons file files => exact sound.prepare separate phase stepped
    | streaming | writing | moving | failed => simp [runStep, restoreStep, phase] at stepped
  | startWriting entries =>
    simp only [runStep] at stepped
    split at stepped
    · rename_i phase planned
      split at stepped
      · rename_i permuted
        cases stepped
        simp only [PhaseSound, phase, List.append_nil] at sound
        obtain ⟨placed, blank, accepted, isPlanned, done, allDone, created⟩ := sound
        cases isBuilt : buildReadGroups input.index entries with
        | none => exact .of_failed (by simp [RestoreRun.startWriting, isBuilt, RestoreRun.fail,
            RestoreState.fail])
        | some built =>
          have writing := Writing.begin placed isPlanned blank (allDone ▸ created) planned
            (List.isPerm_iff.mp permuted) isBuilt
          obtain ⟨buckets, -, started⟩ := startWriting_eq run isBuilt
          have phaseAfter : (run.startWriting input entries).base.phase = .writing := by
            rw [started]
          simp only [PhaseSound, phaseAfter]
          exact ⟨accepted, writing⟩
      · cases stepped
    · cases stepped
  | worker position event =>
    simp only [runStep] at stepped
    split at stepped
    · rename_i worker phase known
      simp only [PhaseSound, phase] at sound
      rcases sound.2.workerStep known separate event stepped with rfl | ⟨writing, samePhase⟩
      · exact .of_failed rfl
      · simp only [PhaseSound, samePhase, phase]
        exact ⟨sound.1, writing⟩
    · cases stepped
  | finishWriting =>
    simp only [runStep] at stepped
    split at stepped
    · rename_i phase
      split at stepped
      · rename_i finished
        cases stepped
        simp only [PhaseSound, phase] at sound
        exact ⟨sound.1, sound.2.finish finished⟩
      · cases stepped
    · cases stepped
  | move name =>
    obtain ⟨base, baseStep, rfl⟩ := Option.map_eq_some_iff.mp stepped
    simp only [restoreStep] at baseStep
    split at baseStep
    · rename_i phase
      simp only [PhaseSound, phase] at sound
      split at baseStep
      · rename_i canMove
        cases baseStep
        simp only [PhaseSound, phase]
        exact ⟨sound.1, sound.2.move canMove rfl⟩
      · cases baseStep
        exact .of_failed rfl
    · cases baseStep
  | error =>
    cases stepped
    exact .of_failed rfl

theorem PhaseSound.reached (separate : Separate input.items)
    (reached : (runSystem input).Reaches (fun _ _ => True) run) : PhaseSound input run := by
  refine reached.invariant _ (fun start initial => ?_)
    fun _ event _ sound _ stepped => sound.step separate event stepped
  obtain ⟨⟨isDir, blank, -, planned, -, phase, -, -⟩, contents, -, -, -, bytes⟩ := initial
  simp only [PhaseSound, phase]
  refine ⟨⟨isDir, fun path target linked => ?_⟩, ⟨fun path inside => contents path
    (Destination.inside_of_root inside), bytes⟩, [], rfl, nofun, planned⟩
  -- the temporary directory is empty at first
  by_cases here : path = []
  · rw [here, List.append_nil, isDir] at linked
    cases linked
  · have absent := blank (input.destination.root ++ path)
      (Destination.inside_of_root (List.prefix_append _ _))
      (fun same => by simpa [Destination.root] using congrArg List.length same)
      (fun same => here (by simpa using same))
    rw [absent] at linked
    cases linked

theorem plaintexts_of_readable {chunks : List ChunkRef}
    (readable : ∀ chunk ∈ chunks,
      (plaintext input.external input.packs input.index chunk).isSome = true) :
    ∃ parts, List.Forall₂ (fun chunk part =>
      plaintext input.external input.packs input.index chunk = some part) chunks parts ∧
      input.goal chunks = parts.flatten := by
  induction chunks with
  | nil => exact ⟨[], .nil, rfl⟩
  | cons chunk chunks ih =>
    obtain ⟨part, found⟩ := Option.isSome_iff_exists.mp (readable chunk List.mem_cons_self)
    obtain ⟨parts, matched, same⟩ := ih fun other among =>
      readable other (List.mem_cons_of_mem _ among)
    refine ⟨part :: parts, .cons found matched, ?_⟩
    rw [RestoreInput.goal] at same ⊢
    rw [List.flatMap_cons, List.flatten_cons, same, RestoreInput.plain, plainData, found,
      Option.getD_some]

/-- A restore of separate items that succeeds, with any number of threads and any order of their
steps: each wanted file is at the destination and has the plaintexts of its chunks as contents,
the number of bytes written is the size of the files, and each chunk was in one read group. -/
theorem restore_contents (separate : Separate input.items)
    (reached : (runSystem input).Reaches (fun _ _ => True) run)
    (succeeded : run.Succeeded input) :
    (∀ item ∈ input.items, input.includePath item.path = true → item.entryType = .regularFile →
      ∃ path parts, item.normalPath = some path ∧
        run.base.tree.node (input.destination.dest ++ path) = some .file ∧
        List.Forall₂ (fun chunk part =>
          plaintext input.external input.packs input.index chunk = some part) item.chunks parts ∧
        run.contents (input.destination.dest ++ path) = parts.flatten) ∧
    run.bytesWritten = (input.files.map fun file =>
      (run.contents (input.destination.dest ++ file.1)).length).sum ∧
    ∀ file ∈ input.files, ∀ chunk ∈ file.2,
      ((run.groups.flatMap ReadGroup.blobs).map PlannedBlob.chunkId).count chunk.id = 1 := by
  have sound := PhaseSound.reached separate reached
  simp only [PhaseSound, succeeded.1] at sound
  obtain ⟨accepted, moving⟩ := sound
  have arrived {file : Path × List ChunkRef} (listed : file ∈ input.files) :=
    moving.moved succeeded.2 listed
  refine ⟨fun item listed included isFile => ?_, ?_, moving.once⟩
  · obtain ⟨path, normal⟩ := Option.isSome_iff_exists.mp (accepted item listed included isFile)
    have planned : (path, item.chunks) ∈ input.files := by
      refine List.mem_filterMap.mpr ⟨item, listed, ?_⟩
      rw [if_pos ⟨included, isFile⟩]
      exact Option.map_eq_some_iff.mpr ⟨path, normal, rfl⟩
    obtain ⟨parts, matched, same⟩ := plaintexts_of_readable fun chunk among =>
      (moving.readable _ planned chunk among).resolve_right (by simp)
    exact ⟨path, parts, normal, (arrived planned).1, matched, (arrived planned).2.trans same⟩
  · rw [moving.bytes, RestoreInput.totalSize]
    congr 1
    refine List.map_congr_left fun file listed => ?_
    rw [(arrived listed).2, goal_length]

def fileA : Item := ⟨['a'], .regularFile, none, [⟨1, 2⟩, ⟨2, 1⟩]⟩

def fileB : Item := ⟨['b'], .regularFile, none, [⟨2, 1⟩]⟩

def twoFiles : RestoreInput where
  includePath _ := true
  destination := smallDestination
  items := [fileA, fileB]
  index := Dict.ofList [(1, ⟨1, 4, 0, 0⟩), (2, ⟨1, 3, 1, 0⟩)]
  packs := Dict.ofList [(0, [3, 0, 7, 8]), (1, [3, 0, 9])]
  external := .bare
  threads := 2
  threads_pos := by decide

def twoFilesStart : RestoreRun := ⟨smallStart twoFiles.items, fun _ => [], [], [], [], 0⟩

/-- Both threads open the first file; the end is written before the length is set. -/
def twoFilesEvents : List RunEvent :=
  [.item, .item, .planned, .prepare, .prepare,
    .startWriting [(1, ⟨2, [⟨0, 0⟩]⟩), (2, ⟨1, [⟨0, 2⟩, ⟨1, 0⟩]⟩)],
    .worker 1 .start, .worker 0 .start, .worker 1 .openFile, .worker 0 .openFile, .worker 0 .swap,
    .worker 1 .swap, .worker 1 .write, .worker 0 .setLen, .worker 0 .write, .worker 1 .openFile,
    .worker 1 .swap, .worker 1 .setLen, .worker 1 .write, .finishWriting, .move ['a'], .move ['b']]

def twoFilesTree : FileSystem :=
  (smallTree.put [['d'], ['t'], ['a']] (some .file)).put [['d'], ['t'], ['b']] (some .file)

theorem twoFilesTree_movable :
    twoFilesTree.CanMove [['d'], ['t'], ['a']] [['d'], ['a']] := by decide +kernel

theorem twoFilesTree_movable_second :
    (twoFilesTree.rename _ _ twoFilesTree_movable).CanMove [['d'], ['t'], ['b']]
      [['d'], ['b']] := by decide +kernel

theorem twoFiles_succeeds :
    ∃ run ∈ (runSystem twoFiles).run twoFilesStart twoFilesEvents, run.Succeeded twoFiles := by
  refine ⟨_, rfl, rfl, fun name => ?_⟩
  change ((twoFilesTree.rename _ _ twoFilesTree_movable).rename _ _
    twoFilesTree_movable_second).node [['d'], ['t'], name] = none
  by_cases isFirst : name = ['a']
  · rw [isFirst]
    rfl
  · by_cases isSecond : name = ['b']
    · rw [isSecond]
      rfl
    · have notFirst : ['a'] ≠ name := Ne.symm isFirst
      have notSecond : ['b'] ≠ name := Ne.symm isSecond
      simp [SymlinkTree.rename, twoFilesTree, SymlinkTree.put, smallTree, isFirst, isSecond,
        notFirst, notSecond]

theorem twoFiles_separate : Separate twoFiles.items := by
  have pathA : fileA.normalPath = some [['a']] := by decide +kernel
  have pathB : fileB.normalPath = some [['b']] := by decide +kernel
  constructor
  · simp [twoFiles, pathA, pathB]
  · simp [twoFiles, pathA, pathB]

theorem restore_contents_two_files :
    Separate twoFiles.items ∧
    ∃ run ∈ (runSystem twoFiles).run twoFilesStart twoFilesEvents, run.Succeeded twoFiles ∧
      ∃ path parts, fileA.normalPath = some path ∧
        run.base.tree.node (smallDestination.dest ++ path) = some .file ∧
        List.Forall₂ (fun chunk part => plaintext .bare twoFiles.packs twoFiles.index
          chunk = some part) fileA.chunks parts ∧
        run.contents (smallDestination.dest ++ path) = parts.flatten := by
  obtain ⟨run, ran, succeeded⟩ := twoFiles_succeeds
  have initial : (runSystem twoFiles).initial twoFilesStart :=
    ⟨smallStart_initial _, fun _ _ => rfl, rfl, rfl, rfl, rfl⟩
  have reached : (runSystem twoFiles).Reaches (fun _ _ => True) run :=
    .run (.initial initial) (TransitionSystem.runAllowed_of_forall fun _ _ _ => trivial) ran
  exact ⟨twoFiles_separate, run, ran, succeeded,
    (restore_contents twoFiles_separate reached succeeded).1 fileA List.mem_cons_self rfl rfl⟩

end Vykar.Restore

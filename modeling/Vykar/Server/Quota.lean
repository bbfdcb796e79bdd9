import Vykar.Server.Uploads

/-!
The usage counter and the bytes stored.

The counter is changed beside the file system: an upload adds what it wrote and
takes off the size it read when it arrived, a repack adds the size of a new pack
and takes off the size of its source without looking at what the calls did.
`Phase.billed` says when such a change is right; temporary files are not objects
and are never counted.
-/

namespace Vykar.Server

open Vykar.Pack

/-- The name of a temporary file of an upload or of a repack operation. -/
def isTemporary (path : Path) : Bool :=
  isTempFile path || ".repack_tmp.".toList.isPrefixOf (path.getLast?.getD [])

def objectSize (path : Path) (file : StoredFile) : Nat :=
  if isTemporary path then 0 else file.bytes.length

namespace ServerState

def storedBytes (state : ServerState) : Nat := state.files.weight objectSize

def sizeAt (state : ServerState) (path : Path) : Nat := state.files.weightAt objectSize path

/-- The temporary file of an upload is the one that the upload opened. -/
def OwnsTemps (state : ServerState) : Prop :=
  ∀ id stream, state.Streams id stream →
    ∀ file, state.files.fileAt stream.temp = some file → file.inode = stream.inode

end ServerState

/-- A size is that of the object at a path; nothing replaces or removes a directory. -/
def ServerState.SizeKnown (state : ServerState) (path : Path) (size : Nat) : Prop :=
  isTemporary path = true ∨ state.files.isDir path = true ∨ size = state.sizeAt path

/-- The object that a request replaces or removes, with the size it has read. -/
def Phase.expects? : Phase → Option (Path × Nat)
  | .createParent upload | .createTemp upload => some (upload.path, upload.oldSize)
  | .receiving stream => some (stream.path, stream.oldSize)
  | .removing path oldSize _ => some (path, oldSize)
  | _ => none

/-- The size that a request has read is still right. -/
def Phase.Informed (state : ServerState) (phase : Phase) : Prop :=
  ∀ path size, phase.expects? = some (path, size) → state.SizeKnown path size

/-- What a request has not yet added to the counter. -/
def Phase.owed : Phase → Int
  | .counting stream => stream.received - stream.oldSize
  | .uncounting oldSize _ => -oldSize
  | _ => 0

def Outcome.owed : Outcome → Int
  | .running phase => phase.owed
  | .finished _ => 0

/-- The counter differs from the size of the objects by what is owed. -/
def ServerState.Balance (state : ServerState) (owed : Int) : Prop :=
  (state.storedBytes : Int) = state.quotaUsed + owed

/-- The next call of the request does to the files what it does to the counter. -/
def Phase.billed (blake2b : Bytes → BitVec 256) (state : ServerState) : Phase → Bool
  | .receiving stream => !isTemporary stream.path
  | .counting stream => state.quotaUsed + stream.received < 2 ^ 64
  | .removing path _ _ =>
    !(path.isEmpty || isTemporary path) || (state.files.fileAt path).isNone
  | .repacking (operation :: _) _ => !(operation.keepBlobs.isEmpty && operation.deleteAfter) ||
      (filePath operation.sourcePack).all fun source => !state.files.isDir source
  | .repackRename job => (state.files.fileAt (packPath (blake2b job.content))).isNone &&
      state.quotaUsed + job.content.length < 2 ^ 64
  | .repackDelete job => !state.files.isDir job.source
  | _ => true

/-- A call that fails without the request failing changes the counter by nothing. -/
def Phase.forgiven (config : Config) (state : ServerState) : Phase → Bool
  | .repacking (operation :: _) _ => !(operation.keepBlobs.isEmpty && operation.deleteAfter) ||
      (filePath operation.sourcePack).all fun source => (metadata config state.files source).isNone
  | .repackDelete job => (metadata config state.files job.source).isNone
  | _ => true

variable {path source gone : Path} {key : Text} {stream : Stream} {bytes : Bytes}

section Names

theorem isTemporary_dotted (temporary : isTemporary path = true) :
    ∃ name, path.getLast?.getD [] = '.' :: name := by
  unfold isTemporary isTempFile at temporary
  simp only [Bool.or_eq_true, List.isPrefixOf_iff_prefix] at temporary
  rcases temporary with ⟨tail, same⟩ | ⟨tail, same⟩
  · exact ⟨_, same.symm⟩
  · exact ⟨_, same.symm⟩

theorem not_isTemporary_pack {shard pack : Text} (hexPack : isHexText 64 pack = true) :
    isTemporary ["packs".toList, shard, pack] = false := by
  refine Bool.eq_false_iff.mpr fun temporary => ?_
  obtain ⟨name, dotted⟩ := isTemporary_dotted temporary
  have isDotted : pack = '.' :: name := dotted
  rw [isDotted, not_isHexText_dot] at hexPack
  cases hexPack

theorem isTemporary_temp (stream : Stream) : isTemporary stream.temp = true := by
  rw [isTemporary, Stream.temp, isTempFile_tempName, Bool.true_or]

theorem isTemporary_repackTemp (source : Path) (id : Nat) :
    isTemporary (withFileName source (repackTempName id)) = true := by
  have named : (withFileName source (repackTempName id)).getLast?.getD [] = repackTempName id := by
    rw [withFileName, List.getLast?_concat, Option.getD_some]
  rw [isTemporary, named, Bool.or_eq_true, List.isPrefixOf_iff_prefix]
  exact Or.inr (List.prefix_append _ _)

theorem not_isTemporary_packPath (digest : BitVec 256) : isTemporary (packPath digest) = false :=
  not_isTemporary_pack (isHexText_hexEncode digest)

theorem not_isTemporary_source (validKey : isValidPackKey key = true)
    (located : filePath key = some source) : isTemporary source = false := by
  obtain ⟨shard, pack, rfl⟩ := isValidPackKey_path validKey located
  rcases filePath_valid located with isRoot | valid
  · cases isRoot
  · have hexPack : isHexText 64 pack = true := by
      simp only [isValidParts, isValidPacksKey, flatDirs] at valid
      simpa using (by simpa using valid : _ ∧ _).2
    exact not_isTemporary_pack hexPack

end Names

section Sizes

variable {config : Config} {state next : ServerState} {target : Path} {file : StoredFile}

theorem sizeAt_temporary (state : ServerState) (temporary : isTemporary path = true) :
    state.sizeAt path = 0 := by
  unfold ServerState.sizeAt FileTree.weightAt
  cases state.files.fileAt path with
  | none => rfl
  | some file => simp [objectSize, temporary]

theorem sizeAt_absent (absent : state.files.fileAt path = none) : state.sizeAt path = 0 := by
  rw [ServerState.sizeAt, FileTree.weightAt, absent, Option.elim_none]

theorem sizeAt_object (found : state.files.fileAt path = some file)
    (plain : isTemporary path = false) : state.sizeAt path = file.bytes.length := by
  rw [ServerState.sizeAt, FileTree.weightAt, found, Option.elim_some, objectSize, plain]
  rfl

theorem sizeAt_congr (same : next.files.fileAt path = state.files.fileAt path) :
    next.sizeAt path = state.sizeAt path := by
  rw [ServerState.sizeAt, ServerState.sizeAt, FileTree.weightAt, FileTree.weightAt, same]

theorem storedBytes_update (path : Path)
    (same : ∀ other, other ≠ path → next.sizeAt other = state.sizeAt other) :
    next.storedBytes + state.sizeAt path = state.storedBytes + next.sizeAt path :=
  FileTree.weight_update path same

theorem storedBytes_congr (same : ∀ path, next.sizeAt path = state.sizeAt path) :
    next.storedBytes = state.storedBytes := FileTree.weight_congr same

theorem metadata_known (config : Config) (state : ServerState) (path : Path) :
    state.SizeKnown path ((metadata config state.files path).getD 0) := by
  unfold metadata
  split
  · exact Or.inr (Or.inl ‹_›)
  · cases temporary : isTemporary path with
    | true => exact Or.inl temporary
    | false =>
      refine Or.inr (Or.inr ?_)
      cases found : state.files.fileAt path with
      | none => rw [sizeAt_absent found, Option.map_none, Option.getD_none]
      | some file => rw [sizeAt_object found temporary, Option.map_some, Option.getD_some]

theorem Removed.storedBytes (removed : Removed state next gone) :
    next.storedBytes + state.sizeAt gone = state.storedBytes := by
  have updated : next.storedBytes + state.sizeAt gone = state.storedBytes + next.sizeAt gone :=
    storedBytes_update gone fun other different =>
      sizeAt_congr (by rw [removed.files, if_neg different])
  have absent : next.files.fileAt gone = none := by rw [removed.files, if_pos rfl]
  rwa [sizeAt_absent absent] at updated

theorem storedBytes_of_objects
    (same : ∀ path, isTemporary path = false → next.objectAt path = state.objectAt path) :
    next.storedBytes = state.storedBytes := by
  refine storedBytes_congr fun path => ?_
  cases temporary : isTemporary path with
  | true => rw [sizeAt_temporary next temporary, sizeAt_temporary state temporary]
  | false =>
    have sizes (state : ServerState) :
        state.sizeAt path = (state.objectAt path).elim 0 List.length := by
      unfold ServerState.sizeAt FileTree.weightAt ServerState.objectAt
      cases state.files.fileAt path with
      | none => rfl
      | some file => simp [objectSize, temporary]
    rw [sizes, sizes, same path temporary]

theorem storedBytes_of_plain
    (same : ∀ path, isTemporary path = false → next.files.fileAt path = state.files.fileAt path) :
    next.storedBytes = state.storedBytes :=
  storedBytes_of_objects fun path plain => congrArg (Option.map StoredFile.bytes) (same path plain)

theorem Moved.storedBytes (moved : Moved state next source target file)
    (temporary : isTemporary source = true) (plain : isTemporary target = false) :
    next.storedBytes + state.sizeAt target = state.storedBytes + file.bytes.length := by
  have updated : next.storedBytes + state.sizeAt target =
      state.storedBytes + next.sizeAt target := by
    refine storedBytes_update target fun other different => ?_
    by_cases isSource : other = source
    · rw [isSource, sizeAt_temporary next temporary, sizeAt_temporary state temporary]
    · exact sizeAt_congr (by rw [moved.files, if_neg different, if_neg isSource])
  have found : next.files.fileAt target = some file := by rw [moved.files, if_pos rfl]
  rwa [sizeAt_object found plain] at updated

theorem Appended.fileAt_plain (appended : Appended state next stream.inode bytes)
    (sound : stream.Sound state) (plain : isTemporary path = false) :
    next.files.fileAt path = state.files.fileAt path := by
  rw [appended.files]
  cases found : state.files.fileAt path with
  | none => rfl
  | some file =>
    have other : file.inode ≠ stream.inode := by
      intro isOpen
      rw [(sound.linked path file found isOpen).1, isTemporary_temp] at plain
      cases plain
    rw [Option.map_some, if_neg other]

theorem Created.fileAt_plain (created : Created state next target file)
    (temporary : isTemporary target = true) (plain : isTemporary path = false) :
    next.files.fileAt path = state.files.fileAt path := by
  have different : path ≠ target := by
    rintro rfl
    rw [temporary] at plain
    cases plain
  rw [created.files, if_neg different]

end Sizes

structure Quiet (state next : ServerState) : Prop where
  files : ∀ path, isTemporary path = false → next.files.fileAt path = state.files.fileAt path
  dirs : ∀ path, state.files.isDir path = true → next.files.isDir path = true
  used : next.quotaUsed = state.quotaUsed
  limit : next.quotaLimit = state.quotaLimit

section Quiet

variable {config : Config} {state next middle : ServerState} {temp dir : Path} {inode size : Nat}
  {owed : Int} {later : Phase}

theorem Quiet.refl (state : ServerState) : Quiet state state :=
  ⟨fun _ _ => rfl, fun _ isDir => isDir, rfl, rfl⟩

theorem Quiet.trans (first : Quiet state middle) (second : Quiet middle next) :
    Quiet state next where
  files path plain := (second.files path plain).trans (first.files path plain)
  dirs path isDir := second.dirs path (first.dirs path isDir)
  used := second.used.trans first.used
  limit := second.limit.trans first.limit

theorem Quiet.storedBytes (quiet : Quiet state next) : next.storedBytes = state.storedBytes :=
  storedBytes_of_plain quiet.files

theorem Quiet.balance (quiet : Quiet state next) (balance : state.Balance owed) :
    next.Balance owed := by
  unfold ServerState.Balance
  rw [quiet.storedBytes, quiet.used]
  exact balance

theorem ServerState.SizeKnown.transfer (known : state.SizeKnown path size)
    (dirs : state.files.isDir path = true → next.files.isDir path = true)
    (files : isTemporary path = false → next.files.fileAt path = state.files.fileAt path) :
    next.SizeKnown path size := by
  rcases known with temporary | isDir | same
  · exact Or.inl temporary
  · exact Or.inr (Or.inl (dirs isDir))
  · cases temporary : isTemporary path with
    | true => exact Or.inl temporary
    | false => exact Or.inr (Or.inr (same.trans (sizeAt_congr (files temporary)).symm))

theorem Quiet.known (quiet : Quiet state next) (known : state.SizeKnown path size) :
    next.SizeKnown path size :=
  known.transfer (quiet.dirs path) (quiet.files path)

theorem quiet_discard (state : ServerState) (temporary : isTemporary temp = true) :
    Quiet state (state.discard temp) where
  files path plain := by
    have different : path ≠ temp := by
      rintro rfl
      cases temporary.symm.trans plain
    rw [(removed_discard state temp).files, if_neg different]
  dirs path isDir := (discard_isDir state temp path).trans isDir
  used := rfl
  limit := rfl

theorem quiet_create (made : state.create temp bytes = some (next, inode))
    (temporary : isTemporary temp = true) : Quiet state next := by
  have created := created_create made
  unfold ServerState.create at made
  obtain ⟨files, written, same⟩ := Option.map_eq_some_iff.mp made
  cases same
  exact ⟨fun path plain => created.fileAt_plain temporary plain,
    fun path isDir => (FileTree.isDir_write written path).trans isDir, rfl, rfl⟩

theorem quiet_createUpload (upload : Upload) : Quiet state (createUpload state upload).1 := by
  unfold createUpload
  simp only
  split
  · exact ⟨fun _ _ => rfl, fun _ isDir => isDir, rfl, rfl⟩
  · rename_i made
    obtain ⟨files, dirs, used, limit⟩ := quiet_create made
      (isTemporary_temp ⟨upload, state.tempCounter, 0, 0⟩)
    exact ⟨files, dirs, used, limit⟩

theorem quiet_createDirs {temp : Option Path}
    (temporary : ∀ path ∈ temp, isTemporary path = true) :
    Quiet state (createDirs state dir temp later).1 := by
  unfold createDirs
  split
  · cases temp with
    | none => exact .refl state
    | some path => exact quiet_discard state (temporary path rfl)
  · rename_i files made
    exact ⟨fun path _ => FileTree.fileAt_createDirAll made path,
      fun path => FileTree.isDir_createDirAll made, rfl, rfl⟩

theorem quiet_receiveBytes {count : Nat} {result : ServerState × Outcome}
    (sound : stream.Sound state) (received : receiveBytes state stream count = some result) :
    Quiet state result.1 := by
  rcases receiveBytes_cases received with ⟨_, rfl⟩ | ⟨-, -, rfl⟩
  · exact quiet_discard state (isTemporary_temp stream)
  · exact ⟨fun path => (appended_append _ _ _).fileAt_plain sound,
      fun path isDir => (FileTree.isDir_mapFiles _ _ path).trans isDir, rfl, rfl⟩

end Quiet

structure Accounts (state : ServerState) (phase : Phase) (next : ServerState) (outcome : Outcome) :
    Prop where
  balance : state.Balance phase.owed → next.Balance outcome.owed
  informed : ∀ later, outcome = .running later → later.Informed next

section Accounts

variable {blake2b : Bytes → BitVec 256} {config : Config} {state next : ServerState}
  {outcome : Outcome} {size request : Nat} {temp : Path} {phase later : Phase}
  {result : ServerState × Outcome} {rest : Option (List Text × List Path)}

theorem Accounts.of_finished {response : Response}
    (balance : state.Balance phase.owed → next.Balance 0) :
    Accounts state phase next (.finished response) :=
  ⟨balance, fun _ => nofun⟩

theorem Accounts.of_running (balance : state.Balance phase.owed → next.Balance later.owed)
    (informed : later.Informed next) : Accounts state phase next (.running later) :=
  ⟨balance, fun _ same => Outcome.running.inj same ▸ informed⟩

theorem Phase.Informed.of_none (nothing : phase.expects? = none) : phase.Informed state := by
  intro path size expects
  cases nothing.symm.trans expects

theorem afterRemoval_owed (removed : Bool) (rest : Option (List Text × List Path)) :
    (afterRemoval removed rest).owed = 0 := by
  cases rest <;> rfl

theorem afterRemoval_informed {removed : Bool}
    (running : afterRemoval removed rest = .running later) :
    later.Informed next := by
  cases rest with
  | none => cases running
  | some rest =>
    cases running
    exact .of_none rfl

/-- A size that is known is the size of the file that can be removed or replaced. -/
theorem ServerState.SizeKnown.eq (known : state.SizeKnown path size)
    (plain : isTemporary path = false) (notDir : state.files.isDir path = false) :
    size = state.sizeAt path := by
  rcases known with temporary | isDir | same
  · cases temporary.symm.trans plain
  · cases isDir.symm.trans notDir
  · exact same

theorem Removed.balance (removed : Removed state next gone)
    (used : next.quotaUsed = state.quotaUsed)
    (isSize : size = state.sizeAt gone) (balance : state.Balance 0) : next.Balance (-size) := by
  have stored := removed.storedBytes
  unfold ServerState.Balance at balance ⊢
  rw [used, isSize]
  omega

theorem uncount_balance (balance : state.Balance (-size)) :
    (state.subQuotaUsage size).Balance 0 := by
  have difference : (state.storedBytes : Int) = state.quotaUsed + -size := balance
  change (state.storedBytes : Int) = (state.quotaUsed - size : Nat) + 0
  omega

theorem countUpload_accounts (fits : state.quotaUsed + stream.received < 2 ^ 64) :
    Accounts state (.counting stream) (countUpload state stream).1
      (countUpload state stream).2 := by
  refine .of_finished fun balance => ?_
  have difference : (state.storedBytes : Int) =
    state.quotaUsed + (stream.received - stream.oldSize) := balance
  rw [countUpload_eq]
  change (state.storedBytes : Int) = (if stream.oldSize < stream.received then
    (state.quotaUsed + (stream.received - stream.oldSize)) % 2 ^ 64
    else state.quotaUsed - (stream.oldSize - stream.received) : Nat) + 0
  split
  · rw [Nat.mod_eq_of_lt (by omega)]
    omega
  · omega

theorem finishUpload_accounts (sound : stream.Sound state)
    (owns : ∀ file, state.files.fileAt stream.temp = some file → file.inode = stream.inode)
    (complete : stream.received = stream.put.body.length) (plain : isTemporary stream.path = false)
    (informed : (Phase.receiving stream).Informed state) :
    Accounts state (.receiving stream) (finishUpload blake2b state stream).1
      (finishUpload blake2b state stream).2 := by
  have discarded {response : Response} : Accounts state (.receiving stream)
      (state.discard stream.temp) (.finished response) :=
    .of_finished (quiet_discard state (isTemporary_temp stream)).balance
  unfold finishUpload
  split
  · exact discarded
  · split
    · exact discarded
    · rename_i files renamed
      refine .of_running (fun balance => ?_) (.of_none rfl)
      have oldSize : stream.oldSize = state.sizeAt stream.path :=
        (informed _ _ rfl).eq plain (FileTree.not_isDir_of_rename renamed)
      obtain ⟨file, found, moved⟩ := FileTree.rename_eq_some renamed
      have length : file.bytes.length = stream.received := by
        rw [(sound.linked _ file found (owns file found)).2, complete, List.take_length]
      have isMoved : Moved state { state with files } stream.temp stream.path file :=
        ⟨rfl, found, moved⟩
      have stored := isMoved.storedBytes (isTemporary_temp stream) plain
      have difference : (state.storedBytes : Int) = state.quotaUsed + 0 := balance
      change (ServerState.storedBytes { state with files } : Int) =
        state.quotaUsed + (stream.received - stream.oldSize)
      omega

theorem removeObject_accounts {oldSize : Nat}
    (billed : (Phase.removing path oldSize rest).billed blake2b state = true)
    (informed : (Phase.removing path oldSize rest).Informed state) :
    Accounts state (.removing path oldSize rest) (removeObject state path oldSize rest).1
      (removeObject state path oldSize rest).2 := by
  unfold removeObject
  split
  · rename_i files removed
    obtain ⟨file, found⟩ := FileTree.removeFile_eq_some removed
    simp only [Phase.billed, found, Option.isNone_some, Bool.or_false, Bool.not_eq_true',
      Bool.or_eq_false_iff, List.isEmpty_eq_false_iff] at billed
    have known := (informed _ _ rfl).eq billed.2 (FileTree.not_isDir_of_fileAt billed.1 found)
    have isRemoved : Removed state { state with files } path :=
      ⟨le_rfl, FileTree.fileAt_removeFile removed⟩
    exact .of_running (isRemoved.balance rfl known) (.of_none rfl)
  · split
    · exact .of_finished id
    · exact ⟨fun balance => afterRemoval_owed false rest ▸ balance,
        fun _ => afterRemoval_informed⟩

theorem batchDeleteNext_informed {key : Text} {keys : List Text} {cleanup : List Path} :
    (batchDeleteNext config state.files key keys cleanup).owed = 0 ∧
      (batchDeleteNext config state.files key keys cleanup).Informed state := by
  unfold batchDeleteNext
  split
  · exact ⟨rfl, .of_none rfl⟩
  · refine ⟨rfl, fun path size expects => ?_⟩
    cases expects
    exact metadata_known config state _

theorem discard_source_balance (plain : isTemporary source = false)
    (notDir : state.files.isDir source = false) (balance : state.Balance 0) :
    ((state.discard source).subQuotaUsage
      ((metadata config state.files source).getD 0)).Balance 0 := by
  refine uncount_balance (Removed.balance (removed_discard state source) rfl ?_ balance)
  exact (metadata_known config state source).eq plain notDir

theorem repackNext_accounts {operation : RepackOperation} {rest : List RepackOperation}
    {completed : List RepackResult} (admitted : operation.Admitted config)
    (billed : (Phase.repacking (operation :: rest) completed).billed blake2b state = true) :
    Accounts state (.repacking (operation :: rest) completed)
      (repackNext config state operation rest completed).1
      (repackNext config state operation rest completed).2 := by
  unfold repackNext
  split
  · exact .of_finished id
  · rename_i source located
    split
    · rename_i keepsNothing
      refine .of_running (fun balance => ?_) (.of_none rfl)
      split
      · rename_i deletes
        refine discard_source_balance (not_isTemporary_source admitted.valid located) ?_ balance
        simpa [Phase.billed, keepsNothing, deletes, located] using billed
      · exact balance
    · split
      · exact .of_finished id
      · simp only
        split
        · split
          · exact .of_finished id
          · rename_i created _ made
            exact .of_finished ((quiet_create made (isTemporary_repackTemp _ _)).trans
              (quiet_discard created (isTemporary_repackTemp _ _))).balance
        · split
          · exact .of_finished id
          · rename_i made
            exact .of_running (quiet_create made (isTemporary_repackTemp _ _)).balance
              (.of_none rfl)

theorem repackPublish_accounts {job : RepackJob} (sound : job.Sound state)
    (billed : (Phase.repackRename job).billed blake2b state = true) :
    Accounts state (.repackRename job) (repackPublish blake2b state job).1
      (repackPublish blake2b state job).2 := by
  simp only [Phase.billed, Bool.and_eq_true, Option.isNone_iff_eq_none, decide_eq_true_eq] at billed
  unfold repackPublish
  split
  · exact .of_finished (quiet_discard state (isTemporary_repackTemp _ _)).balance
  · rename_i files renamed
    have balanced (balance : state.Balance 0) :
        ({ state with files }.addQuotaUsage job.content.length).Balance 0 := by
      obtain ⟨file, found, moved⟩ := FileTree.rename_eq_some renamed
      have isMoved : Moved state { state with files } job.temp (packPath (blake2b job.content))
        file := ⟨rfl, found, moved⟩
      have stored := isMoved.storedBytes (isTemporary_repackTemp _ _) (not_isTemporary_packPath _)
      rw [sound file found, sizeAt_absent billed.1] at stored
      have difference : (state.storedBytes : Int) = state.quotaUsed + 0 := balance
      change (ServerState.storedBytes { state with files } : Int) =
        ((state.quotaUsed + job.content.length) % 2 ^ 64 : Nat) + 0
      rw [Nat.mod_eq_of_lt billed.2]
      omega
    split
    · exact .of_running balanced (.of_none rfl)
    · exact .of_running balanced (.of_none rfl)

theorem createDirs_accounts {dir : Path} {temp : Option Path}
    (temporary : ∀ path ∈ temp, isTemporary path = true) (phaseOwed : phase.owed = 0)
    (laterOwed : later.owed = 0)
    (same : later.expects? = none ∨ later.expects? = phase.expects?)
    (informed : phase.Informed state) :
    Accounts state phase (createDirs state dir temp later).1
      (createDirs state dir temp later).2 := by
  have quiet := @quiet_createDirs state dir later temp temporary
  refine ⟨fun balance => ?_, fun other running => ?_⟩
  · rw [phaseOwed] at balance
    have owed : (createDirs state dir temp later).2.owed = 0 := by
      unfold createDirs
      split
      · rfl
      · exact laterOwed
    exact owed ▸ quiet.balance balance
  · have isLater : other = later := by
      unfold createDirs at running
      split at running
      · cases running
      · exact (Outcome.running.inj running).symm
    subst isLater
    intro path size expects
    rcases same with nothing | same
    · cases nothing.symm.trans expects
    · exact quiet.known (informed path size (same.symm.trans expects))

theorem createUpload_accounts {upload : Upload}
    (informed : (Phase.createTemp upload).Informed state) :
    Accounts state (.createTemp upload) (createUpload state upload).1
      (createUpload state upload).2 := by
  have quiet : Quiet state (createUpload state upload).1 := quiet_createUpload upload
  refine ⟨fun balance => ?_, fun later running => ?_⟩
  · have owed : (createUpload state upload).2.owed = 0 := by
      unfold createUpload
      simp only
      split <;> rfl
    exact owed ▸ quiet.balance balance
  · have expects : later.expects? = some (upload.path, upload.oldSize) := by
      unfold createUpload at running
      simp only at running
      split at running <;> cases running
      rfl
    intro path size isExpected
    cases expects.symm.trans isExpected
    exact quiet.known (informed _ _ rfl)

theorem removeDir_balance {dir : Path} {owed : Int} (balance : state.Balance owed) :
    ServerState.Balance { state with files := (state.files.removeDir dir).getD state.files }
      owed := by
  have stored : ServerState.storedBytes
      { state with files := (state.files.removeDir dir).getD state.files } =
      state.storedBytes := by
    refine storedBytes_congr fun path => ?_
    cases removed : state.files.removeDir dir with
    | none => rfl
    | some files => exact sizeAt_congr (FileTree.fileAt_removeDir removed path)
  unfold ServerState.Balance
  rw [stored]
  exact balance

theorem advancePhase_accounts (sound : state.Sound config) (owns : state.OwnsTemps)
    (running : state.requests request = some (.running phase))
    (billed : phase.billed blake2b state = true) (informed : phase.Informed state)
    (advanced : advancePhase blake2b config state phase = some result) :
    Accounts state phase result.1 result.2 := by
  have wellFormed := sound.wellFormed request phase running
  cases phase with
  | createParent upload =>
    simp only [advancePhase] at advanced
    split at advanced <;> cases advanced
    · exact .of_finished id
    · exact createDirs_accounts (by simp) rfl rfl (Or.inr rfl) informed
  | createTemp upload =>
    cases advanced
    exact createUpload_accounts informed
  | receiving stream =>
    simp only [advancePhase] at advanced
    split at advanced <;> cases advanced
    rename_i complete
    exact finishUpload_accounts (sound.stream request stream running)
      (owns request stream running) complete (Bool.not_eq_true' _ ▸ billed) informed
  | counting stream =>
    cases advanced
    exact countUpload_accounts (of_decide_eq_true billed)
  | removing path oldSize rest =>
    cases advanced
    exact removeObject_accounts billed informed
  | uncounting oldSize rest =>
    cases advanced
    exact ⟨fun balance => afterRemoval_owed true rest ▸ uncount_balance balance,
      fun _ => afterRemoval_informed⟩
  | batchDeleting keys cleanup =>
    cases keys <;> cases advanced
    · exact .of_running id (.of_none rfl)
    · obtain ⟨owed, informed⟩ := batchDeleteNext_informed
      exact .of_running (fun balance => owed.symm ▸ balance) informed
  | cleaning dirs =>
    cases dirs <;> cases advanced
    · exact .of_finished id
    · exact .of_running removeDir_balance (.of_none rfl)
  | creatingDirs dirs =>
    cases dirs <;> cases advanced
    · exact .of_finished id
    · exact createDirs_accounts (by simp) rfl rfl (Or.inl rfl) informed
  | repacking operations completed =>
    cases operations <;> cases advanced
    · exact .of_finished id
    · exact repackNext_accounts (wellFormed _ List.mem_cons_self) billed
  | repackParent job =>
    cases advanced
    refine createDirs_accounts (fun path isTemp => ?_) rfl rfl (Or.inl rfl) informed
    cases isTemp
    exact isTemporary_repackTemp _ _
  | repackRename job =>
    cases advanced
    exact repackPublish_accounts (sound.job request job ⟨_, running, rfl⟩) billed
  | repackDelete job =>
    cases advanced
    refine .of_running (discard_source_balance ?_ (Bool.not_eq_true' _ ▸ billed)) (.of_none rfl)
    exact not_isTemporary_source wellFormed.1.operation.valid wellFormed.1.located

theorem receiveBytes_accounts {count : Nat} (sound : stream.Sound state)
    (informed : (Phase.receiving stream).Informed state)
    (received : receiveBytes state stream count = some result) :
    Accounts state (.receiving stream) result.1 result.2 := by
  have quiet := quiet_receiveBytes sound received
  rcases receiveBytes_cases received with ⟨_, rfl⟩ | ⟨-, -, rfl⟩
  · exact .of_finished quiet.balance
  · refine .of_running quiet.balance fun path size expects => ?_
    exact quiet.known (informed path size expects)

theorem Phase.isTemporary_temp? (hasTemp : phase.temp? = some temp) : isTemporary temp = true := by
  unfold Phase.temp? at hasTemp
  split at hasTemp <;> cases hasTemp
  · exact isTemporary_temp _
  · exact isTemporary_repackTemp _ _
  · exact isTemporary_repackTemp _ _

theorem Phase.owed_eq_zero (phase : Phase) (settled : phase.settles = false) : phase.owed = 0 := by
  cases phase <;> first | rfl | cases settled

theorem failPhase_accounts (settled : phase.settles = false)
    (forgiven : phase.forgiven config state = true) :
    Accounts state phase (failPhase blake2b config state phase).1
      (failPhase blake2b config state phase).2 := by
  have forgets {source : Path} (absent : (metadata config state.files source).isNone = true)
      (balance : state.Balance 0) :
      (state.subQuotaUsage ((metadata config state.files source).getD 0)).Balance 0 := by
    rw [Option.isNone_iff_eq_none.mp absent]
    exact balance
  unfold failPhase
  split
  · split
    · exact .of_finished id
    · rename_i located
      split
      · rename_i removes
        refine .of_running (forgets ?_) (.of_none rfl)
        simpa [Phase.forgiven, removes, located] using forgiven
      · exact .of_finished id
  · exact .of_running (forgets forgiven) (.of_none rfl)
  · refine .of_finished fun balance => ?_
    rw [phase.owed_eq_zero settled] at balance
    cases hasTemp : phase.temp? with
    | none => exact balance
    | some temp => exact (quiet_discard state (phase.isTemporary_temp? hasTemp)).balance balance

end Accounts

end Vykar.Server

import Vykar.Server.Model

/-!
What one step of the server does.

`Acts` lists the effects that a call can have on the files and on the request it
is made for.  The invariants of the server are derived from it and do not look at
the handlers again.
-/

namespace Vykar.Server

open Vykar.Pack

def Phase.stream? : Phase → Option Stream
  | .receiving stream => some stream
  | _ => none

/-- The repack operation whose temporary file is written and not yet moved. -/
def Phase.job? : Phase → Option RepackJob
  | .repackParent job | .repackRename job => some job
  | _ => none

/-- What a request is about to do to an object: an upload that is not in place yet, or the
removal by `delete_object`. -/
inductive Task where
  | upload (upload : Upload)
  | removal (path : Path)

def Phase.task? : Phase → Option Task
  | .createParent upload | .createTemp upload => some (.upload upload)
  | .receiving stream => some (.upload stream.toUpload)
  | .removing path _ none => some (.removal path)
  | _ => none

structure Kept (state next : ServerState) : Prop where
  inodes : state.nextInode ≤ next.nextInode
  files : ∀ path, next.files.fileAt path = state.files.fileAt path

structure Removed (state next : ServerState) (gone : Path) : Prop where
  inodes : state.nextInode ≤ next.nextInode
  files : ∀ path, next.files.fileAt path =
    if path = gone then none else state.files.fileAt path

structure Created (state next : ServerState) (target : Path) (file : StoredFile) : Prop where
  inode : file.inode =
    ((state.files.fileAt target).map StoredFile.inode).getD state.nextInode
  inodes : next.nextInode = state.nextInode + 1
  files : ∀ path, next.files.fileAt path =
    if path = target then some file else state.files.fileAt path

structure Moved (state next : ServerState) (source target : Path) (file : StoredFile) : Prop where
  inodes : next.nextInode = state.nextInode
  found : state.files.fileAt source = some file
  files : ∀ path, next.files.fileAt path =
    if path = target then some file
    else if path = source then none else state.files.fileAt path

structure Appended (state next : ServerState) (inode : Nat) (bytes : Bytes) : Prop where
  inodes : next.nextInode = state.nextInode
  files : ∀ path, next.files.fileAt path = (state.files.fileAt path).map fun file =>
    if file.inode = inode then { file with bytes := file.bytes ++ bytes } else file

/-- The files that a request may remove with its next call. -/
def Phase.Removes : Phase → Path → Prop
  | .receiving stream, gone => gone = stream.temp
  | .removing path _ _, gone => gone = path
  | .repacking (operation :: _) _, gone =>
    ∃ source, filePath operation.sourcePack = some source ∧
      ((operation.deleteAfter = true ∧ gone = source) ∨
        ∃ id, gone = withFileName source (repackTempName id))
  | .repackParent job, gone | .repackRename job, gone => gone = job.temp
  | .repackDelete job, gone => gone = job.source
  | _, _ => False

/-- An operation that passed the checks of `repack`. -/
structure RepackOperation.Admitted (config : Config) (operation : RepackOperation) : Prop where
  valid : isValidPackKey operation.sourcePack = true
  keeps : config.appendOnly = true → operation.deleteAfter = false

structure RepackJob.Admitted (config : Config) (job : RepackJob) : Prop where
  operation : job.operation.Admitted config
  located : filePath job.operation.sourcePack = some job.source
  rest : ∀ operation ∈ job.rest, operation.Admitted config

/-- What the checks at the arrival of a request establish for all its phases. -/
def Phase.WellFormed (config : Config) : Phase → Prop
  | .createParent upload | .createTemp upload => filePath upload.put.key = some upload.path
  | .receiving stream => filePath stream.put.key = some stream.path
  | .batchDeleting .. | .cleaning _ => config.appendOnly = false
  | .removing _ _ rest | .uncounting _ rest => rest.isSome = true → config.appendOnly = false
  | .repacking operations _ => ∀ operation ∈ operations, operation.Admitted config
  | .repackParent job | .repackRename job => job.Admitted config
  | .repackDelete job => job.Admitted config ∧ job.operation.deleteAfter = true
  | .counting _ | .creatingDirs _ => True

def Follows (config : Config) (phase : Phase) (outcome : Outcome) : Prop :=
  ∀ later, outcome = .running later →
    later.stream? = none ∧ (later.job? = none ∨ later.job? = phase.job?) ∧
      (later.task? = none ∨ later.task? = phase.task?) ∧
      (phase.WellFormed config → later.WellFormed config)

/-- The effects of a call; only a request that advances removes or replaces files other than
temporary ones. -/
inductive Acts (blake2b : Bytes → BitVec 256) (config : Config) (advances : Prop)
    (state : ServerState) :
    Phase → ServerState → Outcome → Prop where
  | keeps {phase next outcome} :
      Kept state next → Follows config phase outcome →
      Acts blake2b config advances state phase next outcome
  | removes {phase next outcome gone} :
      phase.Removes gone → (phase.temp? = some gone ∨ advances) → Removed state next gone →
      Follows config phase outcome →
      Acts blake2b config advances state phase next outcome
  | opens {upload next inode} :
      Created state next (withFileName upload.path (tempName upload.path state.tempCounter))
        ⟨inode, []⟩ →
      Acts blake2b config advances state (.createTemp upload) next
        (.running (.receiving ⟨upload, state.tempCounter, inode, 0⟩))
  | appends {stream next count} :
      stream.received + count ≤ stream.put.body.length →
      Appended state next stream.inode ((stream.put.body.drop stream.received).take count) →
      Acts blake2b config advances state (.receiving stream) next
        (.running (.receiving { stream with received := stream.received + count }))
  | publishes {stream next file} :
      advances →
      stream.received = stream.put.body.length →
      checkUpload blake2b stream = .ok () →
      Moved state next stream.temp stream.path file →
      Acts blake2b config advances state (.receiving stream) next (.running (.counting stream))
  | writes {job inode next} :
      job.tempId = state.repackCounter →
      filePath job.operation.sourcePack = some job.source →
      Created state next job.temp ⟨inode, job.content⟩ →
      Acts blake2b config advances state (.repacking (job.operation :: job.rest) job.completed)
        next (.running (.repackParent job))
  | repacks {job file next later} :
      advances →
      Moved state next job.temp (packPath (blake2b job.content)) file →
      later.job? = none → Follows config (.repackRename job) (.running later) →
      Acts blake2b config advances state (.repackRename job) next (.running later)

variable {phase later : Phase} {id : Nat} {outcome : Outcome}

section Calls

variable (state : ServerState)

theorem Kept.refl : Kept state state := ⟨le_rfl, fun _ => rfl⟩

theorem removed_discard (path : Path) : Removed state (state.discard path) path := by
  refine ⟨le_rfl, fun other => ?_⟩
  unfold ServerState.discard
  cases found : state.files.removeFile path with
  | some files => exact FileTree.fileAt_removeFile found other
  | none =>
    by_cases same : other = path
    · subst same
      rw [if_pos rfl]
      unfold FileTree.removeFile at found
      simp only [Option.getD_none, FileTree.fileAt]
      split at found
      · cases found
      · rfl
    · rw [if_neg same]
      rfl

variable {state}

theorem created_create {path : Path} {bytes : Bytes} {next : ServerState} {inode : Nat}
    (created : state.create path bytes = some (next, inode)) :
    Created state next path ⟨inode, bytes⟩ := by
  unfold ServerState.create at created
  obtain ⟨files, written, same⟩ := Option.map_eq_some_iff.mp created
  cases same
  exact ⟨rfl, rfl, FileTree.fileAt_write written⟩

theorem appended_append (state : ServerState) (inode : Nat) (bytes : Bytes) :
    Appended state (state.append inode bytes) inode bytes :=
  ⟨rfl, FileTree.fileAt_mapFiles _ _⟩

theorem follows_finished (config : Config) (phase : Phase) (response : Response) :
    Follows config phase (.finished response) :=
  fun _ same => by cases same

theorem follows_running {config : Config} (stream : later.stream? = none)
    (job : later.job? = none ∨ later.job? = phase.job?)
    (task : later.task? = none ∨ later.task? = phase.task?)
    (wellFormed : phase.WellFormed config → later.WellFormed config) :
    Follows config phase (.running later) :=
  fun _ same => Outcome.running.inj same ▸ ⟨stream, job, task, wellFormed⟩

end Calls

section Inversion

variable {blake2b : Bytes → BitVec 256} {config : Config} {advances : Prop}
  {state : ServerState} {stream : Stream} {key : Text} {keys : List Text} {files : Files}
  {plan : RepackPlan} {result : ServerState × Outcome}

theorem finishUpload_acts (proceeds : advances)
    (complete : stream.received = stream.put.body.length) :
    Acts blake2b config advances state (.receiving stream) (finishUpload blake2b state stream).1
      (finishUpload blake2b state stream).2 := by
  unfold finishUpload
  split
  · exact .removes rfl (Or.inl rfl) (removed_discard state _) (follows_finished _ _ _)
  · rename_i checked
    split
    · exact .removes rfl (Or.inl rfl) (removed_discard state _) (follows_finished _ _ _)
    · rename_i files renamed
      obtain ⟨file, found, moved⟩ := FileTree.rename_eq_some renamed
      exact .publishes proceeds complete checked ⟨rfl, found, moved⟩

theorem receiveBytes_cases {count : Nat}
    (received : receiveBytes state stream count = some result) :
    (∃ error, result = (state.discard stream.temp, failed error)) ∨
      stream.received + count ≤ stream.put.body.length ∧
        (0 < stream.quota →
          netUsage state.quotaUsed stream.oldSize (stream.received + count) ≤ stream.quota) ∧
        result = (state.append stream.inode ((stream.put.body.drop stream.received).take count),
          .running (.receiving { stream with received := stream.received + count })) := by
  unfold receiveBytes at received
  split at received
  · cases received
  · rename_i fits
    simp only [not_or, not_lt] at fits
    simp only at received
    split at received
    · exact Or.inl ⟨_, (Option.some.inj received).symm⟩
    · rename_i passed
      exact Or.inr ⟨fits.2, by simpa using passed, (Option.some.inj received).symm⟩

theorem receiveBytes_acts {count : Nat}
    (received : receiveBytes state stream count = some result) :
    Acts blake2b config advances state (.receiving stream) result.1 result.2 := by
  rcases receiveBytes_cases received with ⟨_, rfl⟩ | ⟨fits, -, rfl⟩
  · exact .removes rfl (Or.inl rfl) (removed_discard state _) (follows_finished _ _ _)
  · exact .appends fits (appended_append _ _ _)

theorem createUpload_acts {upload : Upload} :
    Acts blake2b config advances state (.createTemp upload) (createUpload state upload).1
      (createUpload state upload).2 := by
  unfold createUpload
  simp only
  split
  · exact .keeps ⟨le_rfl, fun _ => rfl⟩ (follows_finished _ _ _)
  · rename_i made
    obtain ⟨inode, inodes, files⟩ := created_create made
    exact .opens ⟨inode, inodes, files⟩

theorem createDirs_acts {dir : Path} {temp : Option Path}
    (removable : ∀ path ∈ temp, phase.Removes path ∧ phase.temp? = some path)
    (stream : later.stream? = none) (job : later.job? = none ∨ later.job? = phase.job?)
    (task : later.task? = none ∨ later.task? = phase.task?)
    (wellFormed : phase.WellFormed config → later.WellFormed config) :
    Acts blake2b config advances state phase (createDirs state dir temp later).1
      (createDirs state dir temp later).2 := by
  unfold createDirs
  split
  · cases temp with
    | none => exact .keeps (Kept.refl state) (follows_finished _ _ _)
    | some path =>
      obtain ⟨removes, isTemp⟩ := removable path rfl
      exact .removes removes (Or.inl isTemp) (removed_discard state path)
        (follows_finished _ _ _)
  · rename_i files made
    exact .keeps ⟨le_rfl, FileTree.fileAt_createDirAll made⟩
      (follows_running stream job task wellFormed)

theorem follows_afterRemoval {removed : Bool} {rest : Option (List Text × List Path)}
    (batch : phase.WellFormed config → rest.isSome = true → config.appendOnly = false) :
    Follows config phase (afterRemoval removed rest) := by
  cases rest with
  | none => exact follows_finished _ _ _
  | some rest =>
    exact follows_running rfl (Or.inl rfl) (Or.inl rfl) fun wellFormed => batch wellFormed rfl

theorem batchDeleteNext_follows {cleanup : List Path} :
    Follows config (.batchDeleting (key :: keys) cleanup)
      (.running (batchDeleteNext config files key keys cleanup)) := by
  unfold batchDeleteNext
  split
  · exact follows_running rfl (Or.inl rfl) (Or.inl rfl) id
  · exact follows_running rfl (Or.inl rfl) (Or.inl rfl) fun permitted _ => permitted

theorem removeObject_acts {path : Path} {oldSize : Nat} {rest : Option (List Text × List Path)}
    (proceeds : advances) :
    Acts blake2b config advances state (.removing path oldSize rest)
      (removeObject state path oldSize rest).1 (removeObject state path oldSize rest).2 := by
  unfold removeObject
  split
  · rename_i files removed
    exact .removes rfl (Or.inr proceeds) ⟨le_rfl, FileTree.fileAt_removeFile removed⟩
      (follows_running rfl (Or.inl rfl) (Or.inl rfl) id)
  · refine .keeps (Kept.refl state) ?_
    split
    · exact follows_finished _ _ _
    · exact follows_afterRemoval id

theorem repackPublish_acts {job : RepackJob} (proceeds : advances) :
    Acts blake2b config advances state (.repackRename job) (repackPublish blake2b state job).1
      (repackPublish blake2b state job).2 := by
  unfold repackPublish
  split
  · exact .removes rfl (Or.inl rfl) (removed_discard state _) (follows_finished _ _ _)
  · rename_i files renamed
    obtain ⟨file, found, moved⟩ := FileTree.rename_eq_some renamed
    refine .repacks proceeds ⟨rfl, found, moved⟩ ?_ ?_
    · split <;> rfl
    · split
      · rename_i deletes
        exact follows_running rfl (Or.inl rfl) (Or.inl rfl) fun admitted => ⟨admitted, deletes⟩
      · exact follows_running rfl (Or.inl rfl) (Or.inl rfl) RepackJob.Admitted.rest

theorem repackNext_acts {operation : RepackOperation} {rest : List RepackOperation}
    {completed : List RepackResult} (proceeds : advances) :
    Acts blake2b config advances state (.repacking (operation :: rest) completed)
      (repackNext config state operation rest completed).1
      (repackNext config state operation rest completed).2 := by
  unfold repackNext
  split
  · exact .keeps (Kept.refl state) (follows_finished _ _ _)
  · rename_i source located
    split
    · have goesOn (results : List RepackResult) :
          Follows config (.repacking (operation :: rest) completed)
            (.running (.repacking rest results)) :=
        follows_running rfl (Or.inl rfl) (Or.inl rfl) fun admitted =>
          (List.forall_mem_cons.mp admitted).2
      cases deletes : operation.deleteAfter with
      | false => exact .keeps (Kept.refl state) (goesOn _)
      | true =>
        refine .removes ⟨source, located, Or.inl ⟨deletes, rfl⟩⟩ (Or.inr proceeds) ?_ (goesOn _)
        exact ⟨le_rfl, (removed_discard state source).files⟩
    · split
      · exact .keeps (Kept.refl state) (follows_finished _ _ _)
      · simp only
        split
        · split
          · exact .keeps ⟨le_rfl, fun _ => rfl⟩ (follows_finished _ _ _)
          · rename_i created _ made
            refine .removes ⟨source, located, Or.inr ⟨state.repackCounter, rfl⟩⟩
              (Or.inr proceeds) ?_ (follows_finished _ _ _)
            have removed := removed_discard created
              (withFileName source (repackTempName state.repackCounter))
            have opened := created_create made
            refine ⟨?_, fun path => ?_⟩
            · exact (Nat.le_succ _).trans (opened.inodes ▸ removed.inodes)
            · rw [removed.files]
              split
              · rfl
              · rename_i other
                rw [opened.files, if_neg other]
        · split
          · exact .keeps ⟨le_rfl, fun _ => rfl⟩ (follows_finished _ _ _)
          · rename_i content offsets _ _ _ _ made
            obtain ⟨inode, inodes, files⟩ := created_create made
            let job : RepackJob :=
              ⟨operation, source, state.repackCounter, content, offsets, rest, completed⟩
            have written : Created state _ job.temp ⟨_, job.content⟩ := ⟨inode, inodes, files⟩
            have sameId : job.tempId = state.repackCounter := rfl
            have sameSource : filePath job.operation.sourcePack = some job.source := located
            exact Acts.writes sameId sameSource written

theorem advancePhase_acts (proceeds : advances)
    (advanced : advancePhase blake2b config state phase = some result) :
    Acts blake2b config advances state phase result.1 result.2 := by
  unfold advancePhase at advanced
  split at advanced
  · split at advanced
    · cases advanced
      exact .keeps (Kept.refl state) (follows_finished _ _ _)
    · cases advanced
      exact createDirs_acts (fun _ => nofun) rfl (Or.inl rfl) (Or.inr rfl) id
  · cases advanced
    exact createUpload_acts
  · split at advanced
    · rename_i complete
      cases advanced
      exact finishUpload_acts proceeds complete
    · cases advanced
  · cases advanced
    refine .keeps ⟨?_, fun _ => ?_⟩ (follows_finished _ _ _)
    · unfold countUpload
      split <;> exact le_rfl
    · unfold countUpload
      split <;> rfl
  · cases advanced
    exact removeObject_acts proceeds
  · cases advanced
    exact .keeps ⟨le_rfl, fun _ => rfl⟩ (follows_afterRemoval id)
  · cases advanced
    exact .keeps (Kept.refl state) (follows_running rfl (Or.inl rfl) (Or.inl rfl) id)
  · cases advanced
    exact .keeps (Kept.refl state) batchDeleteNext_follows
  · cases advanced
    exact .keeps (Kept.refl state) (follows_finished _ _ _)
  · rename_i dir dirs
    cases advanced
    refine .keeps ⟨le_rfl, fun path => ?_⟩ (follows_running rfl (Or.inl rfl) (Or.inl rfl) id)
    cases removed : state.files.removeDir dir with
    | none => rfl
    | some files => exact FileTree.fileAt_removeDir removed path
  · cases advanced
    exact .keeps (Kept.refl state) (follows_finished _ _ _)
  · cases advanced
    exact createDirs_acts (fun _ => nofun) rfl (Or.inl rfl) (Or.inl rfl) id
  · cases advanced
    exact .keeps (Kept.refl state) (follows_finished _ _ _)
  · cases advanced
    exact repackNext_acts proceeds
  · cases advanced
    refine createDirs_acts (fun path isTemp => ?_) rfl (Or.inr rfl) (Or.inl rfl) id
    cases isTemp
    exact ⟨rfl, rfl⟩
  · cases advanced
    exact repackPublish_acts proceeds
  · cases advanced
    exact .removes rfl (Or.inr proceeds) ⟨le_rfl, (removed_discard state _).files⟩
      (follows_running rfl (Or.inl rfl) (Or.inl rfl) fun admitted => admitted.1.rest)

theorem failPhase_acts :
    Acts blake2b config advances state phase (failPhase blake2b config state phase).1
      (failPhase blake2b config state phase).2 := by
  unfold failPhase
  split
  · split
    · exact .keeps (Kept.refl state) (follows_finished _ _ _)
    · split
      · exact .keeps ⟨le_rfl, fun _ => rfl⟩
          (follows_running rfl (Or.inl rfl) (Or.inl rfl) fun admitted =>
          (List.forall_mem_cons.mp admitted).2)
      · exact .keeps (Kept.refl state) (follows_finished _ _ _)
  · exact .keeps ⟨le_rfl, fun _ => rfl⟩
      (follows_running rfl (Or.inl rfl) (Or.inl rfl) fun admitted => admitted.1.rest)
  · cases hasTemp : phase.temp? with
    | none => exact .keeps (Kept.refl state) (follows_finished _ _ _)
    | some temp =>
      have removes : phase.Removes temp := by
        unfold Phase.temp? at hasTemp
        split at hasTemp <;> cases hasTemp <;> rfl
      exact .removes removes (Or.inl hasTemp) (removed_discard state temp)
        (follows_finished _ _ _)

structure Phase.Arrived (config : Config) (phase : Phase) : Prop where
  stream : phase.stream? = none
  job : phase.job? = none
  wellFormed : phase.WellFormed config

theorem putObject_eq_ok {used quota : Nat} {put : PutRequest}
    (admitted : putObject config files used quota put = .ok phase) :
    ∃ path expected, filePath put.key = some path ∧
      (config.appendOnly = true → isMutable put.key = false →
        metadata config files path = none) ∧
      expectedBlake2b put = .ok expected ∧ phase =
        .createParent ⟨put, path, (metadata config files path).getD 0, quota, expected⟩ := by
  unfold putObject at admitted
  split at admitted
  · cases admitted
  · rename_i path located
    simp only at admitted
    split at admitted
    · cases admitted
    · rename_i permitted
      split at admitted
      · cases admitted
      · cases admitted
      · rename_i parsed
        cases admitted
        refine ⟨path, _, located, fun appendOnly immutable => ?_, parsed, rfl⟩
        simpa [appendOnly, immutable] using permitted

theorem deleteObject_eq_ok (admitted : deleteObject config files key = .ok phase) :
    ∃ path oldSize, (config.appendOnly = true → isDeletable key = true) ∧
      filePath key = some path ∧ metadata config files path = some oldSize ∧
      phase = .removing path oldSize none := by
  unfold deleteObject at admitted
  split at admitted
  · cases admitted
  · rename_i permitted
    split at admitted
    · cases admitted
    · rename_i path located
      split at admitted
      · cases admitted
      · rename_i oldSize found
        cases admitted
        exact ⟨path, oldSize, fun appendOnly => by simpa [appendOnly] using permitted, located,
          found, rfl⟩

theorem batchDelete_arrived {cleanup : Bool}
    (admitted : batchDelete config keys cleanup = .ok phase) :
    phase.Arrived config ∧ phase.task? = none := by
  unfold batchDelete at admitted
  split at admitted
  · cases admitted
  · rename_i notAppendOnly
    cases admitted
    exact ⟨⟨rfl, rfl, Bool.eq_false_iff.mpr notAppendOnly⟩, rfl⟩

theorem validateOperations_valid {idx : Nat} {operations : List RepackOperation}
    (valid : validateOperations idx operations = .ok ()) :
    ∀ operation ∈ operations, isValidPackKey operation.sourcePack = true := by
  induction operations generalizing idx with
  | nil => exact fun _ => nofun
  | cons operation operations ih =>
    unfold validateOperations at valid
    split at valid
    · cases valid
    · rename_i first
      refine List.forall_mem_cons.mpr ⟨?_, ih valid⟩
      unfold validateOperation at first
      simp only at first
      split at first
      · cases first
      · rename_i validKey
        simpa using validKey

theorem validateRepackPlan_valid (valid : validateRepackPlan plan = .ok ()) :
    ∀ operation ∈ plan.operations, isValidPackKey operation.sourcePack = true := by
  unfold validateRepackPlan at valid
  split at valid
  · cases valid
  · simp only at valid
    split at valid
    · cases valid
    · exact validateOperations_valid valid

theorem repack_arrived (admitted : repack config plan = .ok phase) :
    phase.Arrived config ∧ phase.task? = none := by
  unfold repack at admitted
  split at admitted
  · cases admitted
  · rename_i valid
    split at admitted
    · cases admitted
    · rename_i kept
      cases admitted
      refine ⟨⟨rfl, rfl, fun operation listed => ⟨?_, fun appendOnly => ?_⟩⟩, rfl⟩
      · exact validateRepackPlan_valid valid operation listed
      · simp only [appendOnly, Bool.true_and, List.any_eq_true, not_exists, not_and,
          Bool.not_eq_true] at kept
        exact kept operation listed

theorem makeDir_arrived (admitted : makeDir key = .ok phase) :
    phase.Arrived config ∧ phase.task? = none := by
  unfold makeDir at admitted
  split at admitted
  · cases admitted
  · cases admitted
    exact ⟨⟨rfl, rfl, trivial⟩, rfl⟩

theorem repoInit_arrived (admitted : repoInit config files = .ok phase) :
    phase.Arrived config ∧ phase.task? = none := by
  unfold repoInit at admitted
  simp only at admitted
  split at admitted
  · cases admitted
  · split at admitted
    · cases admitted
    · cases admitted
      exact ⟨⟨rfl, rfl, trivial⟩, rfl⟩

end Inversion

structure Call (blake2b : Bytes → BitVec 256) (config : Config) (advances : Prop)
    (state next : ServerState) (id : Nat) (phase : Phase) (outcome : Outcome) : Prop where
  running : state.requests id = some (.running phase)
  acts : Acts blake2b config advances state phase next outcome
  requests : next.requests = Function.update state.requests id (some outcome)

def Arrives (config : Config) (state : ServerState) : Event → Nat → Phase → Prop
  | .put id put, other, phase => other = id ∧
      putObject config state.files state.quotaUsed state.quotaLimit put = .ok phase
  | .delete id key, other, phase => other = id ∧ deleteObject config state.files key = .ok phase
  | .batchDelete id keys cleanup, other, phase =>
    other = id ∧ batchDelete config keys cleanup = .ok phase
  | .repack id plan, other, phase => other = id ∧ repack config plan = .ok phase
  | .mkdir id key, other, phase => other = id ∧ makeDir key = .ok phase
  | .init id, other, phase => other = id ∧ repoInit config state.files = .ok phase
  | _, _, _ => False

theorem Arrives.arrived {config : Config} {state : ServerState} {event : Event}
    (arrives : Arrives config state event id phase) : phase.Arrived config := by
  cases event with
  | put other put =>
    obtain ⟨path, expected, located, -, -, rfl⟩ := putObject_eq_ok arrives.2
    exact ⟨rfl, rfl, located⟩
  | delete other key =>
    obtain ⟨path, oldSize, -, -, -, rfl⟩ := deleteObject_eq_ok arrives.2
    exact ⟨rfl, rfl, nofun⟩
  | batchDelete => exact (batchDelete_arrived arrives.2).1
  | repack => exact (repack_arrived arrives.2).1
  | mkdir => exact (makeDir_arrived arrives.2).1
  | init => exact (repoInit_arrived arrives.2).1
  | advance | receive | fail | abort | refreshQuota | restart => exact arrives.elim

def Starts (config : Config) (state : ServerState) : Event → Nat → Task → Prop
  | .put id put, other, .upload upload => other = id ∧ put = upload.put ∧
      putObject config state.files state.quotaUsed state.quotaLimit put =
        .ok (.createParent upload)
  | .delete id key, other, .removal path => other = id ∧ filePath key = some path ∧
      (config.appendOnly = true → isDeletable key = true)
  | _, _, _ => False

theorem Arrives.starts {config : Config} {state : ServerState} {event : Event} {task : Task}
    (arrives : Arrives config state event id phase) (isTask : phase.task? = some task) :
    Starts config state event id task := by
  cases event with
  | put other put =>
    obtain ⟨path, expected, -, -, -, rfl⟩ := putObject_eq_ok arrives.2
    cases isTask
    exact ⟨arrives.1, rfl, arrives.2⟩
  | delete other key =>
    obtain ⟨path, oldSize, permitted, located, -, rfl⟩ := deleteObject_eq_ok arrives.2
    cases isTask
    exact ⟨arrives.1, located, permitted⟩
  | batchDelete => cases (batchDelete_arrived arrives.2).2.symm.trans isTask
  | repack => cases (repack_arrived arrives.2).2.symm.trans isTask
  | mkdir =>
    have arrived : phase.Arrived config ∧ phase.task? = none := makeDir_arrived arrives.2
    cases arrived.2.symm.trans isTask
  | init => cases (repoInit_arrived arrives.2).2.symm.trans isTask
  | advance | receive | fail | abort | refreshQuota | restart => exact arrives.elim

/-- A step that makes no call: requests arrive, or are lost. -/
structure Pause (config : Config) (event : Event) (state next : ServerState) : Prop where
  kept : Kept state next
  requests : ∀ id phase, next.requests id = some (.running phase) →
    state.requests id = some (.running phase) ∨ Arrives config state event id phase

theorem running_update {requests : Nat → Option Outcome} {other : Nat}
    (running : Function.update requests id (some outcome) other = some (.running phase)) :
    (other ≠ id ∧ requests other = some (.running phase)) ∨
      (other = id ∧ outcome = .running phase) := by
  by_cases same : other = id
  · subst same
    rw [Function.update_self] at running
    exact Or.inr ⟨rfl, Option.some.inj running⟩
  · rw [Function.update_of_ne same] at running
    exact Or.inl ⟨same, running⟩

section Step

variable {blake2b : Bytes → BitVec 256} {config : Config} {advances : Prop}
  {state next : ServerState}

theorem arrive_eq_some (stepped : state.arrive id outcome = some next) :
    next = { state with requests := Function.update state.requests id (some outcome) } := by
  unfold ServerState.arrive at stepped
  split at stepped
  · exact (Option.some.inj stepped).symm
  · cases stepped

theorem proceed_eq_some {act : Phase → Option (ServerState × Outcome)}
    (stepped : state.proceed id act = some next) :
    ∃ phase middle outcome, state.requests id = some (.running phase) ∧
      act phase = some (middle, outcome) ∧
      next = { middle with requests := Function.update state.requests id (some outcome) } := by
  unfold ServerState.proceed at stepped
  split at stepped
  · rename_i phase running
    obtain ⟨⟨middle, outcome⟩, acted, rfl⟩ := Option.map_eq_some_iff.mp stepped
    exact ⟨phase, middle, outcome, running, acted, rfl⟩
  · cases stepped

theorem arrive_pause {event : Event}
    (arrives : ∀ phase, outcome = .running phase → Arrives config state event id phase)
    (stepped : state.arrive id outcome = some next) : Pause config event state next := by
  obtain rfl := arrive_eq_some stepped
  refine ⟨⟨le_rfl, fun _ => rfl⟩, fun other phase running => ?_⟩
  rcases running_update running with ⟨-, before⟩ | ⟨rfl, isOutcome⟩
  · exact Or.inl before
  · exact Or.inr (arrives phase isOutcome)

theorem eq_ok_of_accept {result : Except ServerError Phase}
    (admitted : accept result = .running phase) : result = .ok phase := by
  cases result with
  | error error => cases admitted
  | ok later =>
    cases admitted
    rfl

theorem eq_ok_of_acceptDelete {result : Except Response Phase}
    (admitted : acceptDelete result = .running phase) : result = .ok phase := by
  cases result with
  | error response => cases admitted
  | ok later =>
    cases admitted
    rfl

theorem Acts.withRequests (acts : Acts blake2b config advances state phase next outcome)
    (requests : Nat → Option Outcome) :
    Acts blake2b config advances state phase { next with requests } outcome := by
  cases acts with
  | keeps kept follows => exact .keeps ⟨kept.inodes, kept.files⟩ follows
  | removes removable permitted removed follows =>
    exact .removes removable permitted ⟨removed.inodes, removed.files⟩ follows
  | opens created => exact .opens ⟨created.inode, created.inodes, created.files⟩
  | appends fits appended => exact .appends fits ⟨appended.inodes, appended.files⟩
  | publishes proceeds complete checked moved =>
    exact .publishes proceeds complete checked ⟨moved.inodes, moved.found, moved.files⟩
  | writes sameId located created =>
    exact .writes sameId located ⟨created.inode, created.inodes, created.files⟩
  | repacks proceeds moved noJob follows =>
    exact .repacks proceeds ⟨moved.inodes, moved.found, moved.files⟩ noJob follows

theorem Acts.task {task : Task} (acts : Acts blake2b config advances state phase next outcome)
    (running : outcome = .running later) (isTask : later.task? = some task) :
    phase.task? = some task := by
  have inherited (follows : Follows config phase outcome) : phase.task? = some task := by
    rcases (follows later running).2.2.1 with noTask | same
    · cases isTask.symm.trans noTask
    · exact same.symm.trans isTask
  cases acts with
  | keeps kept follows => exact inherited follows
  | removes removable permitted removed follows => exact inherited follows
  | opens created | appends fits created =>
    cases running
    exact isTask
  | publishes | writes =>
    cases running
    cases isTask
  | repacks proceeds moved noJob follows => exact inherited follows

theorem proceed_call {act : Phase → Option (ServerState × Outcome)}
    (acts : ∀ phase middle outcome, act phase = some (middle, outcome) →
      Acts blake2b config advances state phase middle outcome)
    (stepped : state.proceed id act = some next) :
    ∃ phase outcome, Call blake2b config advances state next id phase outcome := by
  obtain ⟨phase, middle, outcome, running, acted, rfl⟩ := proceed_eq_some stepped
  exact ⟨phase, outcome, running, (acts phase middle outcome acted).withRequests _, rfl⟩

/-- Every step is a call for one request or changes no file. -/
theorem step_cases {event : Event} (stepped : step blake2b config state event = some next) :
    (∃ id phase outcome,
      Call blake2b config (event = .advance id) state next id phase outcome) ∨
      Pause config event state next := by
  cases event with
  | put | batchDelete | repack | mkdir | init =>
    exact Or.inr (arrive_pause (fun _ running => ⟨rfl, eq_ok_of_accept running⟩) stepped)
  | delete id key =>
    exact Or.inr (arrive_pause (fun _ running => ⟨rfl, eq_ok_of_acceptDelete running⟩) stepped)
  | advance id =>
    exact Or.inl ⟨id, proceed_call (fun _ _ _ => advancePhase_acts rfl) stepped⟩
  | receive id count =>
    refine Or.inl ⟨id, proceed_call (fun phase middle outcome acted => ?_) stepped⟩
    cases phase with
    | receiving stream => exact receiveBytes_acts acted
    | _ => cases acted
  | fail id =>
    refine Or.inl ⟨id, proceed_call (fun phase middle outcome acted => ?_) stepped⟩
    have acts : Acts blake2b config (Event.fail id = .advance id) state phase _ _ :=
      failPhase_acts
    split at acted
    · cases acted
    · rwa [Option.some.inj acted] at acts
  | abort id =>
    refine Or.inl ⟨id, proceed_call (fun phase middle outcome acted => ?_) stepped⟩
    split at acted
    · cases acted
      exact .keeps (Kept.refl state) (follows_finished _ _ _)
    · cases acted
  | refreshQuota limit =>
    cases stepped
    exact Or.inr ⟨⟨le_rfl, fun _ => rfl⟩, fun _ _ running => Or.inl running⟩
  | restart =>
    cases stepped
    refine Or.inr ⟨⟨le_rfl, fun _ => rfl⟩, fun id phase running => ?_⟩
    simp only at running
    obtain ⟨outcome, -, lost⟩ := Option.map_eq_some_iff.mp running
    cases outcome <;> cases lost

end Step

end Vykar.Server

import Vykar.Server.Guard
import Vykar.Server.Serving

/-!
An upload from beginning to end (`put_object`).

`Underway` describes the server between two calls of an upload that is served alone:
up to the rename nothing has happened to the key, and the rename either puts the body in
its place or leaves the key alone.
-/

namespace Vykar.Server

open Vykar.Pack

def tempPath (path : Path) (id : Nat) : Path := withFileName path (tempName path id)

section Serving

variable (blake2b : Bytes → BitVec 256) (config : Config)

/-- The upload can be stored: no file is in the way of its directory, its path is no directory
and the body has the digest that the header gives. -/
structure Uploadable (path : Path) (put : PutRequest) (files : Files) : Prop where
  present : path ≠ []
  clear : ∀ dir, dir ≠ [] → dir <+: path.dropLast → files.fileAt dir = none
  notDir : files.isDir path = false
  digest : ∀ header, put.contentBlake2b = some header →
    hexEncode (blake2b put.body) = header.map Char.toLower

def ServerState.HasRoom (state : ServerState) (path : Path) (length : Nat) : Prop :=
  state.quotaLimit = 0 ∨
    state.quotaUsed - (metadata config state.files path).getD 0 + length ≤ state.quotaLimit

/-- Nothing but the key itself can keep an upload from being stored. -/
structure Ready (path : Path) (length : Nat) (state : ServerState) : Prop where
  identified : state.Identified
  temps : ∀ id, state.files.isDir (tempPath path id) = false
  room : state.HasRoom config path length

structure Untouched (path : Path) (length : Nat) (state next : ServerState) : Prop where
  files : ∀ dir, dir <+: path → next.files.fileAt dir = state.files.fileAt dir
  isDir : next.files.isDir path = state.files.isDir path
  ready : Ready config path length state → Ready config path length next

/-- What `put_object` knows of the server when it accepts an upload. -/
structure Upload.Accepted (upload : Upload) (start : ServerState) : Prop where
  oldSize : upload.oldSize = (metadata config start.files upload.path).getD 0
  quota : upload.quota = start.quotaLimit
  expected : upload.expected = upload.put.contentBlake2b.map (·.map Char.toLower)
  length : upload.put.contentLength.getD upload.put.body.length = upload.put.body.length

structure Progress (start : ServerState) (upload : Upload) (state : ServerState) : Prop where
  untouched : Untouched config upload.path upload.put.body.length start state
  present : upload.path ≠ []
  parents : ∀ dir, dir <+: upload.path.dropLast → state.files.isDir dir = true
  clear : ∀ dir, dir ≠ [] → dir <+: upload.path.dropLast → start.files.fileAt dir = none
  used : state.quotaUsed = start.quotaUsed
  limit : state.quotaLimit = start.quotaLimit

structure Placed (start : ServerState) (upload : Upload) (state : ServerState) : Prop where
  uploadable : Uploadable blake2b upload.path upload.put start.files
  content : state.objectAt upload.path = some upload.put.body
  again : Uploadable blake2b upload.path upload.put state.files
  identified : state.Identified
  temps : ∀ id, state.files.isDir (tempPath upload.path id) = false
  used : state.quotaUsed = start.quotaUsed
  limit : state.quotaLimit = start.quotaLimit

inductive Underway (start : ServerState) (upload : Upload) : ServerState → Phase → Prop
  | createParent {state : ServerState}
      (untouched : Untouched config upload.path upload.put.body.length start state)
      (used : state.quotaUsed = start.quotaUsed) (limit : state.quotaLimit = start.quotaLimit) :
      Underway start upload state (.createParent upload)
  | createTemp {state : ServerState} (progress : Progress config start upload state) :
      Underway start upload state (.createTemp upload)
  | receiving {state : ServerState} {stream : Stream} (same : stream.toUpload = upload)
      (progress : Progress config start upload state) (sound : stream.Sound state)
      (linked : ∃ file, state.files.fileAt stream.temp = some file ∧ file.inode = stream.inode)
      (bounded : stream.received ≤ stream.put.body.length) :
      Underway start upload state (.receiving stream)
  | counting {state : ServerState} {stream : Stream} (same : stream.toUpload = upload)
      (placed : Placed blake2b start upload state)
      (complete : stream.received = stream.put.body.length) :
      Underway start upload state (.counting stream)

inductive Ended (start : ServerState) (upload : Upload) : ServerState → Response → Prop
  | stored {next : ServerState} {response : Response}
      (uploadable : Uploadable blake2b upload.path upload.put start.files)
      (succeeds : response = .created ∨ response = .noContent)
      (content : next.objectAt upload.path = some upload.put.body)
      (again : Uploadable blake2b upload.path upload.put next.files)
      (ready : Ready config upload.path upload.put.body.length start →
        Ready config upload.path upload.put.body.length next) :
      Ended start upload next response
  | refused {next : ServerState} (error : ServerError)
      (notUploadable : ¬ Uploadable blake2b upload.path upload.put start.files)
      (untouched : Untouched config upload.path upload.put.body.length start next) :
      Ended start upload next (.error error)

end Serving

def callsLeft : Phase → Nat
  | .createParent upload => upload.put.body.length + 4
  | .createTemp upload => upload.put.body.length + 3
  | .receiving stream => stream.put.body.length - stream.received + 2
  | .counting _ => 1
  | _ => 0

/-- So many bytes can be read next. -/
def Phase.CanRead (count : Nat) : Phase → Prop
  | .receiving stream => stream.received < stream.put.body.length →
      0 < count ∧ stream.received + count ≤ stream.put.body.length
  | _ => True

theorem canRead_readCount (offered : Nat) (phase : Phase) :
    phase.CanRead (readCount offered phase) := by
  cases phase with
  | receiving stream =>
    intro unread
    simp only [readCount]
    omega
  | _ => trivial

section TempPath

variable {path dir : Path}

theorem tempPath_dropLast (path : Path) (id : Nat) : (tempPath path id).dropLast = path.dropLast :=
  List.dropLast_concat

theorem tempPath_ne_self (present : path ≠ []) (id : Nat) : tempPath path id ≠ path := by
  intro same
  have sameName : tempName path id = path.getLast present := by
    have named : withFileName path (tempName path id) =
        withFileName path (path.getLast present) :=
      same.trans (List.dropLast_append_getLast present).symm
    exact withFileName_injective named
  have longer := congrArg List.length sameName
  rw [tempName, List.getLast?_eq_getLast_of_ne_nil present] at longer
  simp at longer
  omega

theorem length_tempPath (present : path ≠ []) (id : Nat) :
    (tempPath path id).length = path.length := by
  have positive := List.length_pos_iff.mpr present
  simp [tempPath, withFileName]
  omega

theorem tempPath_ne_above (present : path ≠ []) (above : dir <+: path) (id : Nat) :
    dir ≠ tempPath path id := by
  rintro rfl
  exact tempPath_ne_self present id (above.eq_of_length (length_tempPath present id))

theorem not_above_dropLast (present : path ≠ []) (long : path.length ≤ dir.length) :
    ¬ dir <+: path.dropLast := by
  intro above
  have positive := List.length_pos_iff.mpr present
  have short := above.length_le
  rw [List.length_dropLast] at short
  omega

end TempPath

variable {files : Files} {stream : Stream} {phase : Phase} {calls : Nat} {next : ServerState}

section Untouched

variable {config : Config} {path : Path} {length : Nat} {state middle : ServerState} {bytes : Bytes}
  {inode : Nat}

theorem Untouched.refl (state : ServerState) : Untouched config path length state state :=
  ⟨fun _ _ => rfl, rfl, id⟩

theorem Untouched.trans (first : Untouched config path length state middle)
    (second : Untouched config path length middle next) :
    Untouched config path length state next where
  files dir above := (second.files dir above).trans (first.files dir above)
  isDir := second.isDir.trans first.isDir
  ready ready := second.ready (first.ready ready)

theorem Uploadable.untouched {blake2b : Bytes → BitVec 256} {put : PutRequest}
    (uploadable : Uploadable blake2b path put state.files)
    (untouched : Untouched config path length state next) :
    Uploadable blake2b path put next.files :=
  { uploadable with
    clear dir notRoot above := by
      rw [untouched.files dir (above.trans (List.dropLast_prefix _))]
      exact uploadable.clear dir notRoot above
    notDir := untouched.isDir.trans uploadable.notDir }

theorem Untouched.objectAt
    (untouched : Untouched config path length state next) :
    next.objectAt path = state.objectAt path := by
  rw [ServerState.objectAt, ServerState.objectAt, untouched.files path (List.prefix_refl path)]

theorem Untouched.of_files
    (files : ∀ dir, dir <+: path → next.files.fileAt dir = state.files.fileAt dir)
    (isDir : next.files.isDir path = state.files.isDir path)
    (temps : ∀ id, next.files.isDir (tempPath path id) = state.files.isDir (tempPath path id))
    (identified : state.Identified → next.Identified)
    (used : next.quotaUsed = state.quotaUsed) (limit : next.quotaLimit = state.quotaLimit) :
    Untouched config path length state next where
  files := files
  isDir := isDir
  ready ready := by
    refine ⟨identified ready.identified, fun id => (temps id).trans (ready.temps id), ?_⟩
    have sameSize : metadata config next.files path = metadata config state.files path := by
      rw [metadata, metadata, isDir, files path (List.prefix_refl path)]
    unfold ServerState.HasRoom
    rw [used, limit, sameSize]
    exact ready.room

theorem untouched_discard (present : path ≠ []) (id : Nat) :
    Untouched config path length state (state.discard (tempPath path id)) := by
  have removed := removed_discard state (tempPath path id)
  refine .of_files ?_ (discard_isDir _ _ _) (fun _ => discard_isDir _ _ _) ?_ rfl rfl
  · intro dir above
    rw [removed.files, if_neg (tempPath_ne_above present above id)]
  · intro identified
    exact identified.of_kept removed.inodes fun other file found =>
      ⟨file, removed.unchanged other file found, rfl⟩

theorem untouched_createDirAll (present : path ≠ [])
    (created : state.files.createDirAll path.dropLast = some files) :
    Untouched config path length state { state with files } := by
  have sameDir (dir : Path) (long : path.length ≤ dir.length) :
      files.isDir dir = state.files.isDir dir := by
    have exactly := FileTree.isDir_createDirAll_iff created dir
    rw [or_iff_left (not_above_dropLast present long)] at exactly
    exact Bool.eq_iff_iff.mpr exactly
  refine .of_files (fun dir _ => FileTree.fileAt_createDirAll created dir) (sameDir path le_rfl)
    (fun id => sameDir _ (length_tempPath present id).ge) ?_ rfl rfl
  intro identified
  refine identified.of_kept le_rfl fun other file found => ⟨file, ?_, rfl⟩
  rwa [FileTree.fileAt_createDirAll created] at found

theorem create_keeps {target : Path} (created : state.create target bytes = some (next, inode)) :
    (∀ other, next.files.isDir other = state.files.isDir other) ∧
      next.quotaUsed = state.quotaUsed ∧ next.quotaLimit = state.quotaLimit := by
  unfold ServerState.create at created
  obtain ⟨files, written, same⟩ := Option.map_eq_some_iff.mp created
  cases same
  exact ⟨FileTree.isDir_write written, rfl, rfl⟩

theorem untouched_create (present : path ≠ []) {id : Nat}
    (created : state.create (tempPath path id) bytes = some (next, inode)) :
    Untouched config path length state next := by
  have made := created_create created
  obtain ⟨sameDirs, used, limit⟩ := create_keeps created
  refine .of_files ?_ (sameDirs _) (fun _ => sameDirs _) made.identified used limit
  intro dir above
  rw [made.files, if_neg (tempPath_ne_above present above id)]

theorem untouched_append (present : stream.path ≠ []) (sound : stream.Sound state) (bytes : Bytes) :
    Untouched config stream.path length state (state.append stream.inode bytes) := by
  have appended : Appended state (state.append stream.inode bytes) stream.inode bytes :=
    ⟨rfl, FileTree.fileAt_mapFiles _ _⟩
  refine .of_files ?_ (FileTree.isDir_mapFiles _ _ _) (fun _ => FileTree.isDir_mapFiles _ _ _) ?_
    rfl rfl
  · intro dir above
    rw [appended.files]
    cases found : state.files.fileAt dir with
    | none => rfl
    | some file =>
      -- The open file is linked at the temporary path only.
      have isOther : file.inode ≠ stream.inode := fun isOpen =>
        tempPath_ne_above present above _ (sound.linked dir file found isOpen).1
      rw [Option.map_some, if_neg isOther]
  · intro identified
    refine identified.of_kept le_rfl fun other file found => ?_
    obtain ⟨before, wasThere, sameInode, -⟩ := appended.before found
    exact ⟨before, wasThere, sameInode⟩

end Untouched

section Calls

variable {blake2b : Bytes → BitVec 256} {config : Config} {start state : ServerState}
  {upload : Upload}

def Leads (blake2b : Bytes → BitVec 256) (config : Config) (start : ServerState) (upload : Upload)
    (phase : Phase) (next : ServerState) : Outcome → Prop
  | .running later => Underway blake2b config start upload next later ∧
      callsLeft later < callsLeft phase
  | .finished response => Ended blake2b config start upload next response

theorem createParent_leads {count : Nat}
    (untouched : Untouched config upload.path upload.put.body.length start state)
    (used : state.quotaUsed = start.quotaUsed) (limit : state.quotaLimit = start.quotaLimit) :
    ∃ next outcome, nextCall blake2b config state count (.createParent upload) =
      some (next, outcome) ∧
      Leads blake2b config start upload (.createParent upload) next outcome := by
  have above {dir : Path} (inside : dir <+: upload.path.dropLast) :
      state.files.fileAt dir = start.files.fileAt dir :=
    untouched.files dir (inside.trans (List.dropLast_prefix _))
  unfold nextCall advancePhase
  by_cases present : upload.path = []
  · refine ⟨state, failed .io, by simp [present], .refused .io ?_ untouched⟩
    exact fun uploadable => uploadable.present present
  · have notRoot : ¬ upload.path.isEmpty = true := by simpa using present
    simp only [if_neg notRoot, createDirs]
    cases created : state.files.createDirAll upload.path.dropLast with
    | none =>
      refine ⟨state, failed .io, rfl, .refused .io (fun uploadable => ?_) untouched⟩
      have free := FileTree.createDirAll_isSome_iff.mpr fun dir notRoot inside =>
        (above inside).trans (uploadable.clear dir notRoot inside)
      rw [created] at free
      cases free
    | some files =>
      refine ⟨{ state with files }, .running (.createTemp upload), rfl, .createTemp ?_,
        Nat.lt_succ_self _⟩
      exact {
        untouched := untouched.trans (untouched_createDirAll present created)
        present := present
        parents := fun dir above =>
          (FileTree.isDir_createDirAll_iff created dir).mpr (Or.inr above)
        clear := fun dir notRoot inside => (above inside).symm.trans
          (FileTree.createDirAll_isSome_iff.mp (created ▸ rfl) dir notRoot inside)
        used := used
        limit := limit }

theorem Progress.create (progress : Progress config start upload state)
    (ready : Ready config upload.path upload.put.body.length start) (id : Nat) (bytes : Bytes) :
    ∃ next inode, state.create (tempPath upload.path id) bytes = some (next, inode) ∧
      Progress config start upload next := by
  have writable : state.files.writable (tempPath upload.path id) = true := by
    have parent := progress.parents _ (List.prefix_refl _)
    have free := (progress.untouched.ready ready).temps id
    have notRoot : tempPath upload.path id ≠ [] := by simp [tempPath, withFileName]
    simp [FileTree.writable, tempPath_dropLast, parent, free, notRoot]
  have created : ∃ next inode,
      state.create (tempPath upload.path id) bytes = some (next, inode) := by
    unfold ServerState.create FileTree.write
    simp only [writable, if_true, Option.map_some]
    exact ⟨_, _, rfl⟩
  obtain ⟨next, inode, made⟩ := created
  obtain ⟨sameDirs, used, limit⟩ := create_keeps made
  refine ⟨next, inode, made, ?_⟩
  exact {
    untouched := progress.untouched.trans (untouched_create progress.present made)
    present := progress.present
    parents := fun dir above => (sameDirs dir).trans (progress.parents dir above)
    clear := progress.clear
    used := used.trans progress.used
    limit := limit.trans progress.limit }

theorem createTemp_leads {count : Nat}
    (ready : Ready config upload.path upload.put.body.length start)
    (progress : Progress config start upload state) :
    ∃ next outcome, nextCall blake2b config state count (.createTemp upload) =
      some (next, outcome) ∧
      Leads blake2b config start upload (.createTemp upload) next outcome := by
  let counted := { state with tempCounter := nextId state.tempCounter }
  have countedProgress : Progress config start upload counted :=
    { progress with
      untouched := progress.untouched.trans
        (.of_files (fun _ _ => rfl) rfl (fun _ => rfl) (fun ⟨bound, single⟩ => ⟨bound, single⟩) rfl
          rfl) }
  obtain ⟨next, inode, created, opened⟩ := countedProgress.create ready state.tempCounter []
  let stream : Stream := ⟨upload, state.tempCounter, inode, 0⟩
  have call : createUpload state upload = (next, .running (.receiving stream)) := by
    unfold tempPath at created
    simp only [createUpload, stream, counted, created]
  have made := created_create created
  refine ⟨next, .running (.receiving stream), congrArg some call, ?_, ?_⟩
  · refine .receiving rfl opened ?_ ⟨⟨inode, []⟩, ?_, rfl⟩ (Nat.zero_le _)
    · exact made.opened (countedProgress.untouched.ready ready).identified
    · rw [made.files]
      exact if_pos rfl
  · exact Nat.lt_succ_self _

theorem checkUpload_ok_iff (complete : stream.received = stream.put.body.length)
    (accepted : Upload.Accepted config stream.toUpload start) :
    checkUpload blake2b stream = .ok () ↔ ∀ header, stream.put.contentBlake2b = some header →
      hexEncode (blake2b stream.put.body) = header.map Char.toLower := by
  have length : stream.received = stream.put.contentLength.getD stream.received := by
    rw [complete]
    exact accepted.length.symm
  unfold checkUpload
  simp only [← length, ne_eq, not_true_eq_false, if_false, accepted.expected]
  cases stream.put.contentBlake2b with
  | none => simp
  | some header =>
    simp only [Option.map_some]
    by_cases same : hexEncode (blake2b stream.put.body) = header.map Char.toLower
    · simp [same]
    · simp [same]

section

variable (ready : Ready config stream.path stream.put.body.length start)
  (accepted : Upload.Accepted config stream.toUpload start)

include ready accepted

theorem withinQuota {received : Nat} (used : state.quotaUsed = start.quotaUsed)
    (bounded : received ≤ stream.put.body.length) :
    ¬ (0 < stream.quota ∧ stream.quota < netUsage state.quotaUsed stream.oldSize received) := by
  rintro ⟨limited, exceeded⟩
  have room := ready.room
  unfold ServerState.HasRoom at room
  rw [accepted.quota] at limited exceeded
  rw [accepted.oldSize, used] at exceeded
  have reduced :
      netUsage start.quotaUsed ((metadata config start.files stream.path).getD 0) received ≤
      start.quotaUsed - (metadata config start.files stream.path).getD 0 + received :=
        Nat.mod_le _ _
  omega

variable (progress : Progress config start stream.toUpload state)

include progress

theorem receive_leads {count : Nat} (sound : stream.Sound state)
    (linked : ∃ file, state.files.fileAt stream.temp = some file ∧ file.inode = stream.inode)
    (unread : stream.received < stream.put.body.length) (positive : 0 < count)
    (fits : stream.received + count ≤ stream.put.body.length) :
    ∃ next outcome, nextCall blake2b config state count (.receiving stream) = some (next, outcome) ∧
      Leads blake2b config start stream.toUpload (.receiving stream) next outcome := by
  let part := (stream.put.body.drop stream.received).take count
  have call : receiveBytes state stream count = some (state.append stream.inode part,
      .running (.receiving { stream with received := stream.received + count })) := by
    unfold receiveBytes
    rw [if_neg (by omega)]
    simp only [if_neg (withinQuota ready accepted progress.used fits), part]
  have appended : Appended state (state.append stream.inode part) stream.inode part :=
    ⟨rfl, FileTree.fileAt_mapFiles _ _⟩
  refine ⟨state.append stream.inode part,
    .running (.receiving { stream with received := stream.received + count }), ?_,
    .receiving rfl ?_ (sound.receive appended) ?_ fits, ?_⟩
  · rw [nextCall, if_neg unread.ne, call]
  · exact {
      untouched := progress.untouched.trans (untouched_append progress.present sound part)
      present := progress.present
      parents := fun dir above =>
        (FileTree.isDir_mapFiles _ _ dir).trans (progress.parents dir above)
      clear := progress.clear
      used := progress.used
      limit := progress.limit }
  · obtain ⟨file, found, isOpen⟩ := linked
    refine ⟨_, (appended.files stream.temp).trans (by rw [found, Option.map_some]), ?_⟩
    split <;> exact isOpen
  · simp only [callsLeft]
    omega

theorem finish_leads {count : Nat} (sound : stream.Sound state)
    (linked : ∃ file, state.files.fileAt stream.temp = some file ∧ file.inode = stream.inode)
    (complete : stream.received = stream.put.body.length) :
    ∃ next outcome, nextCall blake2b config state count (.receiving stream) = some (next, outcome) ∧
      Leads blake2b config start stream.toUpload (.receiving stream) next outcome := by
  have isCall : nextCall blake2b config state count (.receiving stream) =
      some (finishUpload blake2b state stream) := if_pos complete
  rw [isCall]
  have discarded := progress.untouched.trans (untouched_discard progress.present stream.tempId)
  unfold finishUpload
  cases checked : checkUpload blake2b stream with
  | error error =>
    refine ⟨_, _, rfl, .refused error (fun uploadable => ?_) discarded⟩
    rw [(checkUpload_ok_iff complete accepted).mpr uploadable.digest] at checked
    cases checked
  | ok =>
    obtain ⟨file, found, isOpen⟩ := linked
    have body : file.bytes = stream.put.body := by
      rw [(sound.linked _ file found isOpen).2, complete, List.take_length]
    cases renamed : state.files.rename stream.temp stream.path with
    | none =>
      refine ⟨_, _, rfl, .refused .io (fun uploadable => ?_) discarded⟩
      have writable : state.files.writable stream.path = true := by
        have parent := progress.parents _ (List.prefix_refl _)
        have notDir := progress.untouched.isDir.trans uploadable.notDir
        simp [FileTree.writable, progress.present, parent, notDir]
      simp [FileTree.rename, FileTree.fileAt_eq_some.mp found, writable] at renamed
    | some files =>
      obtain ⟨moving, isMoving, moved⟩ := FileTree.rename_eq_some renamed
      obtain rfl := Option.some.inj (isMoving.symm.trans found)
      have stored : files.fileAt stream.path = some moving := by rw [moved, if_pos rfl]
      have notDir := FileTree.not_isDir_of_rename renamed
      have digest := (checkUpload_ok_iff complete accepted).mp checked
      have startNotDir := progress.untouched.isDir.symm.trans notDir
      have moves : Moved state { state with files } stream.temp stream.path moving :=
        ⟨rfl, found, moved⟩
      refine ⟨{ state with files }, _, rfl, .counting rfl ⟨⟨progress.present, progress.clear,
        startNotDir, digest⟩, ?_, ⟨progress.present, ?_, ?_, digest⟩,
        moves.identified (progress.untouched.ready ready).identified, fun id => ?_,
        progress.used, progress.limit⟩ complete, ?_⟩
      · rw [ServerState.objectAt, stored, Option.map_some, body]
      · intro dir notRoot above
        have inside : dir <+: stream.path := above.trans (List.dropLast_prefix _)
        have notTarget : dir ≠ stream.path := by
          rintro rfl
          exact not_above_dropLast progress.present le_rfl above
        have notTemp : dir ≠ stream.temp :=
          tempPath_ne_above progress.present inside stream.tempId
        rw [moved, if_neg notTarget, if_neg notTemp, progress.untouched.files dir inside]
        exact progress.clear dir notRoot above
      · exact (FileTree.isDir_rename renamed _).trans notDir
      · exact (FileTree.isDir_rename renamed _).trans
          ((progress.untouched.ready ready).temps id)
      · simp only [callsLeft]
        omega

omit progress in
/-- The counter takes in what the quota has left for the upload. -/
theorem Placed.counted {response : Response}
    (placed : Placed blake2b start stream.toUpload state)
    (complete : stream.received = stream.put.body.length)
    (succeeds : response = .created ∨ response = .noContent) :
    Ended blake2b config start stream.toUpload (countUpload state stream).1 response := by
  rw [countUpload_eq]
  refine .stored placed.uploadable succeeds placed.content placed.again
    fun _ => ⟨⟨placed.identified.1, placed.identified.2⟩, placed.temps, ?_⟩
  have room := ready.room
  obtain ⟨file, found, body⟩ := Option.map_eq_some_iff.mp placed.content
  have size : metadata config state.files stream.path = some stream.put.body.length := by
    rw [metadata, placed.again.notDir, found, Option.map_some, body]
    rfl
  unfold ServerState.HasRoom at room ⊢
  simp only [size, Option.getD_some, complete, placed.limit, placed.used]
  rw [← accepted.oldSize] at room
  have reduced := Nat.mod_le (start.quotaUsed + (stream.put.body.length - stream.oldSize)) (2 ^ 64)
  split <;> omega

end

theorem serve_finished (reads : Nat → Nat) (calls : Nat) (state : ServerState)
    (response : Response) :
    serve blake2b config reads calls state (.finished response) = (state, .finished response) := by
  cases calls <;> rfl

section

variable (ready : Ready config upload.path upload.put.body.length start)
  (accepted : upload.Accepted config start)
  (underway : Underway blake2b config start upload state phase)

include ready accepted underway

/-- Each call brings an upload nearer to its answer. -/
theorem Underway.leads {count : Nat} (canRead : phase.CanRead count) :
    ∃ next outcome, nextCall blake2b config state count phase = some (next, outcome) ∧
      Leads blake2b config start upload phase next outcome := by
  cases underway with
  | createParent untouched used limit => exact createParent_leads untouched used limit
  | createTemp progress => exact createTemp_leads ready progress
  | receiving same progress sound linked bounded =>
    subst same
    rcases bounded.lt_or_eq with unread | complete
    · obtain ⟨positive, fits⟩ := canRead unread
      exact receive_leads ready accepted progress sound linked unread positive fits
    · exact finish_leads ready accepted progress sound linked complete
  | counting same placed complete =>
    subst same
    refine ⟨_, _, rfl, placed.counted ready accepted complete ?_⟩
    split
    · exact Or.inr rfl
    · exact Or.inl rfl

theorem Underway.ended (reads : Nat → Nat) (enough : callsLeft phase ≤ calls) :
    ∃ next response, serve blake2b config reads calls state (.running phase) =
      (next, .finished response) ∧ Ended blake2b config start upload next response := by
  induction calls generalizing state phase with
  | zero =>
    cases underway <;> simp [callsLeft] at enough
  | succ calls ih =>
    obtain ⟨next, outcome, call, leads⟩ :=
      underway.leads ready accepted (canRead_readCount (reads calls) phase)
    simp only [serve, call]
    cases outcome with
    | running later => exact ih leads.1 (by have := leads.2; omega)
    | finished response =>
      rw [serve_finished]
      exact ⟨next, response, rfl, leads⟩

end

end Calls

section Runs

variable {blake2b : Bytes → BitVec 256} {config : Config} {start state final : ServerState}
  {upload : Upload} {id : Nat} {events : List Event} {event : Event}

/-- A request after so many steps: it is on its way and can take a step, or it is answered. -/
def Stands (blake2b : Bytes → BitVec 256) (config : Config) (start : ServerState) (upload : Upload)
    (id steps : Nat) (state : ServerState) : Outcome → Prop
  | .running phase => Underway blake2b config start upload state phase ∧
      steps + callsLeft phase ≤ upload.put.body.length + 4 ∧
      ∃ event : Event, event.Own id ∧ (step blake2b config state event).isSome = true
  | .finished response => Ended blake2b config start upload state response ∧
      steps ≤ upload.put.body.length + 4

section Requests

variable {path : Path} {length : Nat} (requests : Nat → Option Outcome)

theorem Untouched.withRequests (untouched : Untouched config path length start state) :
    Untouched config path length start { state with requests } :=
  untouched.trans (.of_files (fun _ _ => rfl) rfl (fun _ => rfl)
    (fun ⟨bound, single⟩ => ⟨bound, single⟩) rfl rfl)

theorem Underway.withRequests (underway : Underway blake2b config start upload state phase) :
    Underway blake2b config start upload { state with requests } phase := by
  cases underway with
  | createParent untouched used limit => exact .createParent (untouched.withRequests _) used limit
  | createTemp progress =>
    exact .createTemp { progress with untouched := progress.untouched.withRequests _ }
  | receiving same progress sound linked bounded =>
    obtain ⟨open_, written, isLinked⟩ := sound
    exact .receiving same { progress with untouched := progress.untouched.withRequests _ }
      ⟨open_, written, isLinked⟩ linked bounded
  | counting same placed complete =>
    exact .counting same { placed with identified := ⟨placed.identified.1, placed.identified.2⟩ }
      complete

theorem Ended.withRequests {response : Response}
    (ended : Ended blake2b config start upload state response) :
    Ended blake2b config start upload { state with requests } response := by
  cases ended with
  | stored uploadable succeeds content again ready =>
    refine .stored uploadable succeeds content again fun before => ?_
    obtain ⟨⟨bound, single⟩, temps, room⟩ := ready before
    exact ⟨⟨bound, single⟩, temps, room⟩
  | refused error notUploadable untouched =>
    exact .refused error notUploadable (untouched.withRequests _)

end Requests

theorem Underway.nextCall_of_step (underway : Underway blake2b config start upload state phase)
    (running : state.requests id = some (.running phase)) (own : event.Own id)
    (stepped : step blake2b config state event = some next) :
    ∃ count middle outcome, phase.CanRead count ∧
      nextCall blake2b config state count phase = some (middle, outcome) ∧
      next = { middle with requests := Function.update state.requests id (some outcome) } := by
  rcases own with rfl | ⟨count, rfl⟩
  · obtain ⟨other, middle, outcome, isRunning, acted, rfl⟩ := proceed_eq_some stepped
    obtain rfl : phase = other := by cases running.symm.trans isRunning; rfl
    cases underway with
    | createParent | createTemp | counting => exact ⟨0, middle, outcome, trivial, acted, rfl⟩
    | receiving =>
      simp only [advancePhase] at acted
      split at acted
      · rename_i complete
        refine ⟨0, middle, outcome, fun unread => absurd complete unread.ne, ?_, rfl⟩
        rw [nextCall, if_pos complete, acted]
      · cases acted
  · obtain ⟨other, middle, outcome, isRunning, acted, rfl⟩ := proceed_eq_some stepped
    obtain rfl : phase = other := by cases running.symm.trans isRunning; rfl
    cases underway with
    | createParent | createTemp | counting => cases acted
    | @receiving stream =>
      have called := acted
      simp only [receiveBytes] at acted
      split at acted
      · cases acted
      · rename_i fits
        have unread : stream.received ≠ stream.put.body.length := by omega
        refine ⟨count, middle, outcome, fun _ => by omega, ?_, rfl⟩
        rw [nextCall, if_neg unread]
        exact called

section

variable (ready : Ready config upload.path upload.put.body.length start)
  (accepted : upload.Accepted config start)

include ready accepted

theorem Underway.runs (underway : Underway blake2b config start upload state phase)
    (running : state.requests id = some (.running phase)) (own : ∀ event ∈ events, event.Own id)
    (executed : (serverSystem blake2b config).run state events = some final) :
    ∃ outcome, final.requests id = some outcome ∧ events.length ≤ callsLeft phase ∧
      match outcome with
      | .running later => Underway blake2b config start upload final later ∧
          events.length + callsLeft later ≤ callsLeft phase
      | .finished response => Ended blake2b config start upload final response := by
  induction events generalizing state phase with
  | nil =>
    cases executed
    exact ⟨_, running, Nat.zero_le _, underway, (Nat.zero_add _).le⟩
  | cons event rest ih =>
    obtain ⟨ownFirst, ownRest⟩ := List.forall_mem_cons.mp own
    obtain ⟨after, stepped, continued⟩ := Option.bind_eq_some_iff.mp executed
    obtain ⟨count, middle, outcome, canRead, call, rfl⟩ :=
      underway.nextCall_of_step running ownFirst stepped
    obtain ⟨_, _, again, leads⟩ := underway.leads ready accepted canRead
    cases call.symm.trans again
    cases outcome with
    | running later =>
      obtain ⟨last, answered, steps, stands⟩ := ih
        (leads.1.withRequests _) (Function.update_self ..) ownRest continued
      have fewer := leads.2
      refine ⟨last, answered, ?_, ?_⟩
      · rw [List.length_cons]
        omega
      · cases last with
        | running => exact ⟨stands.1, by rw [List.length_cons]; have := stands.2; omega⟩
        | finished => exact stands
    | finished response =>
      -- A request that is answered takes no step.
      have stopped : rest = [] := by
        cases rest with
        | nil => rfl
        | cons event rest =>
          obtain ⟨_, stepped, -⟩ := Option.bind_eq_some_iff.mp continued
          rcases ownRest event List.mem_cons_self with rfl | ⟨count, rfl⟩
          all_goals
            obtain ⟨_, _, _, isRunning, -⟩ := proceed_eq_some stepped
            cases (Function.update_self ..).symm.trans isRunning
      subst stopped
      cases continued
      refine ⟨_, Function.update_self .., ?_, leads.withRequests _⟩
      cases underway <;> simp [callsLeft]

end

end Runs

section Put

variable {blake2b : Bytes → BitVec 256} {config : Config} {state : ServerState} {put : PutRequest}
  {path : Path} {header : Text}

section

variable (located : filePath put.key = some path)

include located

theorem putObject_forbidden
    (forbidden : (config.appendOnly && (metadata config state.files path).isSome &&
      !isMutable put.key) = true) (used quota : Nat) :
    putObject config state.files used quota put =
      .error (.forbidden "append-only: cannot overwrite immutable object") := by
  simp [putObject, located, forbidden]

variable (ready : Ready config path put.body.length state)
  (length : put.contentLength = some put.body.length) (digest : put.contentBlake2b = some header)
  (hex : isHexText 64 header = true)

include ready length digest hex

theorem putObject_accepts
    (permitted : (config.appendOnly && (metadata config state.files path).isSome &&
      !isMutable put.key) = false) :
    ∃ upload : Upload, upload.put = put ∧ upload.path = path ∧ upload.Accepted config state ∧
      putObject config state.files state.quotaUsed state.quotaLimit put =
        .ok (.createParent upload) := by
  refine ⟨⟨put, path, (metadata config state.files path).getD 0, state.quotaLimit,
    some (header.map Char.toLower)⟩, rfl, rfl, ⟨rfl, rfl, ?_, ?_⟩, ?_⟩
  · simp [digest]
  · simp [length]
  · have quota : checkQuota state.quotaUsed state.quotaLimit
        ((metadata config state.files path).getD 0) put.contentLength = .ok () := by
      rw [length, checkQuota, if_neg]
      rintro ⟨limited, exceeded⟩
      have room := ready.room
      unfold ServerState.HasRoom at room
      have reduced : netUsage state.quotaUsed ((metadata config state.files path).getD 0)
          put.body.length ≤ state.quotaUsed - (metadata config state.files path).getD 0 +
            put.body.length := Nat.mod_le _ _
      omega
    simp [putObject, located, permitted, quota, expectedBlake2b, digest, hex]

theorem put_started {id : Nat} {start : ServerState}
    (permitted : (config.appendOnly && (metadata config state.files path).isSome &&
      !isMutable put.key) = false)
    (arrived : step blake2b config state (.put id put) = some start) :
    ∃ upload : Upload, upload.put = put ∧ upload.path = path ∧
      Ready config path put.body.length start ∧ upload.Accepted config start ∧
      start.requests id = some (.running (.createParent upload)) := by
  obtain ⟨upload, isPut, isPath, accepted, admitted⟩ :=
    putObject_accepts located ready length digest hex permitted
  obtain rfl := arrive_eq_some arrived
  refine ⟨upload, isPut, isPath,
    ⟨⟨ready.identified.1, ready.identified.2⟩, ready.temps, ready.room⟩,
    ⟨accepted.oldSize, accepted.quota, accepted.expected, accepted.length⟩, ?_⟩
  rw [admitted]
  exact Function.update_self ..

theorem servePut_ended (reads : Nat → Nat)
    (permitted : (config.appendOnly && (metadata config state.files path).isSome &&
      !isMutable put.key) = false) :
    ∃ upload next response, upload.put = put ∧ upload.path = path ∧
      servePut blake2b config reads state put = (next, .finished response) ∧
      Ended blake2b config state upload next response := by
  obtain ⟨upload, rfl, rfl, accepted, admitted⟩ :=
    putObject_accepts located ready length digest hex permitted
  obtain ⟨next, response, served, ended⟩ :=
    Underway.ended ready accepted (.createParent (.refl state) rfl rfl) reads le_rfl
  refine ⟨upload, next, response, rfl, rfl, ?_, ended⟩
  rw [servePut, admitted]
  exact served

section Alone

variable {id : Nat} {events : List Event} {start final : ServerState}
  (permitted : (config.appendOnly && (metadata config state.files path).isSome &&
    !isMutable put.key) = false)
  (arrived : step blake2b config state (.put id put) = some start)
  (own : ∀ event ∈ events, event.Own id)
  (executed : (serverSystem blake2b config).run start events = some final)

include permitted arrived own executed

end Alone

end

end Put

section Sample

theorem emptyServer_ready (config : Config) (path : Path) (length : Nat) :
    Ready config path length emptyServer := by
  refine ⟨⟨fun _ _ => nofun, fun _ _ _ _ => nofun⟩, fun id => ?_, Or.inl rfl⟩
  have present : tempPath path id ≠ [] := by simp [tempPath, withFileName]
  rw [FileTree.isDir, Bool.or_eq_false_iff]
  exact ⟨by simpa using present, rfl⟩

def indexPut : PutRequest :=
  ⟨"index".toList, some 2, some (List.replicate 64 '0'), [1, 2]⟩

/-- The index is to be stored while a request to create directories is in flight. -/
def busyServer : ServerState :=
  { emptyServer with
    requests := Function.update emptyServer.requests 1 (some (.running (.creatingDirs []))) }

theorem busyServer_ready : Ready ⟨true, 4096⟩ ["index".toList] 2 busyServer :=
  have ready := emptyServer_ready ⟨true, 4096⟩ ["index".toList] 2
  ⟨⟨ready.identified.1, ready.identified.2⟩, ready.temps, ready.room⟩

def placesIndex : List Event :=
  [.advance 0, .advance 0, .receive 0 1, .receive 0 1, .advance 0]

theorem placesIndex_own : ∀ event ∈ placesIndex, event.Own 0 := by
  simp [placesIndex, Event.Own]

end Sample

end Vykar.Server

import Vykar.Lib.TransitionSystem
import Vykar.Server.Request

/-!
The server as a transition system.

Requests of any number of clients are in flight at once.  A step is the arrival
of a request with its checks, or one call to the file system made for a request
in flight together with the code up to the next call, so that every interleaving
of handlers is a run.  Any call may fail, a client may go away, and the server may
be restarted; the counters for temporary names then start over.

A handler is dropped while it waits, and the call it waits for is carried out all
the same.  So the call that moves or removes an object and the change of the usage
counter after it are two steps.  A repack runs on a thread of its own and is not
dropped; it changes the counter in the step of the call.
-/

namespace Vykar.Server

open Vykar.Pack

inductive Outcome where
  | running (phase : Phase)
  | finished (response : Response)

structure ServerState where
  files : Files
  nextInode : Nat
  /-- `TEMP_COUNTER` -/
  tempCounter : Nat
  /-- `REPACK_TEMP_COUNTER` -/
  repackCounter : Nat
  quotaUsed : Nat
  quotaLimit : Nat
  requests : Nat → Option Outcome

inductive Event where
  | put (id : Nat) (put : PutRequest)
  | delete (id : Nat) (key : Text)
  | batchDelete (id : Nat) (keys : List Text) (cleanup : Bool)
  | repack (id : Nat) (plan : RepackPlan)
  | mkdir (id : Nat) (key : Text)
  | init (id : Nat)
  /-- The next call of a request succeeds or fails as the files decide. -/
  | advance (id : Nat)
  /-- Some more bytes of a body arrive. -/
  | receive (id count : Nat)
  /-- The next call of a request fails for a reason outside the model. -/
  | fail (id : Nat)
  /-- The client goes away. -/
  | abort (id : Nat)
  | refreshQuota (limit : Nat)
  | restart

/-- The counter after `fetch_add(1)`, in 64 bits. -/
def nextId (counter : Nat) : Nat := if counter + 1 = 2 ^ 64 then 0 else counter + 1

namespace ServerState

def addQuotaUsage (state : ServerState) (bytes : Nat) : ServerState :=
  { state with quotaUsed := (state.quotaUsed + bytes) % 2 ^ 64 }

def subQuotaUsage (state : ServerState) (bytes : Nat) : ServerState :=
  { state with quotaUsed := state.quotaUsed - bytes }

/-- `remove_file` with its error ignored. -/
def discard (state : ServerState) (path : Path) : ServerState :=
  { state with files := (state.files.removeFile path).getD state.files }

/-- `File::create`: the handle, after truncating a file that is there. -/
def create (state : ServerState) (path : Path) (bytes : Bytes) : Option (ServerState × Nat) :=
  let inode := ((state.files.fileAt path).map StoredFile.inode).getD state.nextInode
  (state.files.write path ⟨inode, bytes⟩).map fun files =>
    ({ state with files, nextInode := state.nextInode + 1 }, inode)

def append (state : ServerState) (inode : Nat) (bytes : Bytes) : ServerState :=
  { state with files := state.files.mapFiles fun file =>
      if file.inode = inode then { file with bytes := file.bytes ++ bytes } else file }

end ServerState

def failed (error : ServerError) : Outcome := .finished (.error error)

/-- `put_object` after the end of the body: the checks of length and digest. -/
def checkUpload (blake2b : Bytes → BitVec 256) (stream : Stream) : Except ServerError Unit :=
  let received := stream.received
  let length := stream.put.contentLength.getD received
  if received ≠ length then
    .error (.badRequest s!"upload size mismatch: Content-Length {length}, received {received}")
  else match stream.expected with
    | none => .ok ()
    | some expected =>
      let actual := hexEncode (blake2b stream.put.body)
      let expectedText := String.ofList expected
      let actualText := String.ofList actual
      if actual ≠ expected then
        .error (.conflict
          s!"BLAKE2b checksum mismatch: expected {expectedText}, got {actualText}")
      else .ok ()

/-- `put_object` up to the rename. -/
def finishUpload (blake2b : Bytes → BitVec 256) (state : ServerState) (stream : Stream) :
    ServerState × Outcome :=
  match checkUpload blake2b stream with
  | .error error => (state.discard stream.temp, failed error)
  | .ok () =>
    match state.files.rename stream.temp stream.path with
    | none => (state.discard stream.temp, failed .io)
    | some files => ({ state with files }, .running (.counting stream))

/-- The end of `put_object`. -/
def countUpload (state : ServerState) (stream : Stream) : ServerState × Outcome :=
  (if stream.oldSize < stream.received then
      state.addQuotaUsage (stream.received - stream.oldSize)
    else state.subQuotaUsage (stream.oldSize - stream.received),
    .finished (if 0 < stream.oldSize then .noContent else .created))

/-- `delete_object` or `batch_delete` after its call to `remove_file`. -/
def afterRemoval (removed : Bool) : Option (List Text × List Path) → Outcome
  | none => .finished (if removed then .noContent else .notFound)
  | some (keys, cleanup) => .running (.batchDeleting keys cleanup)

/-- `remove_file` in `delete_object` and in `batch_delete`. -/
def removeObject (state : ServerState) (path : Path) (oldSize : Nat)
    (rest : Option (List Text × List Path)) : ServerState × Outcome :=
  match state.files.removeFile path with
  | some files => ({ state with files }, .running (.uncounting oldSize rest))
  | none => (state, if state.files.isDir path then failed .io else afterRemoval false rest)

/-- One turn of the loop of `execute_repack` up to the creation of the new pack's directory. -/
def repackNext (config : Config) (state : ServerState) (operation : RepackOperation)
    (rest : List RepackOperation) (completed : List RepackResult) : ServerState × Outcome :=
  match filePath operation.sourcePack with
  | none => (state, failed (.internal "invalid pack path"))
  | some source =>
    if operation.keepBlobs.isEmpty then
      let result := ⟨operation.sourcePack, none, [], operation.deleteAfter⟩
      let oldSize := (metadata config state.files source).getD 0
      (if operation.deleteAfter then (state.discard source).subQuotaUsage oldSize else state,
        .running (.repacking rest (completed ++ [result])))
    else
      match state.files.fileAt source with
      | none => (state, failed .io)
      | some file =>
        let tempId := state.repackCounter
        let counted := { state with repackCounter := nextId state.repackCounter }
        let temp := withFileName source (repackTempName tempId)
        match repackContent file.bytes operation.keepBlobs with
        | .error message =>
          -- The temporary file is created, holds a part of the pack and is removed.
          match counted.create temp [] with
          | none => (counted, failed .io)
          | some (created, _) => (created.discard temp, failed (.internal message))
        | .ok (content, offsets) =>
          match counted.create temp content with
          | none => (counted, failed .io)
          | some (created, _) =>
            (created, .running (.repackParent
              ⟨operation, source, tempId, content, offsets, rest, completed⟩))

def RepackJob.result (blake2b : Bytes → BitVec 256) (job : RepackJob) : RepackResult :=
  ⟨job.operation.sourcePack, some (packKey (blake2b job.content)), job.offsets,
    job.operation.deleteAfter⟩

/-- `put_object`: open the temporary file. -/
def createUpload (state : ServerState) (upload : Upload) : ServerState × Outcome :=
  let tempId := state.tempCounter
  let counted := { state with tempCounter := nextId state.tempCounter }
  match counted.create (withFileName upload.path (tempName upload.path tempId)) [] with
  | none => (counted, failed .io)
  | some (created, inode) => (created, .running (.receiving ⟨upload, tempId, inode, 0⟩))

/-- One turn of the loop of `batch_delete` up to the removal. -/
def batchDeleteNext (config : Config) (files : Files) (key : Text) (keys : List Text)
    (cleanup : List Path) : Phase :=
  match filePathForCleanup key with
  | none => .batchDeleting keys cleanup
  | some path => .removing path ((metadata config files path).getD 0) (some (keys, cleanup))

/-- Create a directory and go on with `next`; on an error remove the file in `temp`. -/
def createDirs (state : ServerState) (dir : Path) (temp : Option Path) (next : Phase) :
    ServerState × Outcome :=
  match state.files.createDirAll dir with
  | none => (match temp with
      | some path => state.discard path
      | none => state, failed .io)
  | some files => ({ state with files }, .running next)

/-- `execute_repack`: move the new pack into place. -/
def repackPublish (blake2b : Bytes → BitVec 256) (state : ServerState) (job : RepackJob) :
    ServerState × Outcome :=
  match state.files.rename job.temp (packPath (blake2b job.content)) with
  | none => (state.discard job.temp, failed .io)
  | some files =>
    ({ state with files }.addQuotaUsage job.content.length,
      .running (if job.operation.deleteAfter then .repackDelete job
        else .repacking job.rest (job.completed ++ [job.result blake2b])))

/-- The next call of a request in flight; `none` while it waits for its body. -/
def advancePhase (blake2b : Bytes → BitVec 256) (config : Config) (state : ServerState) :
    Phase → Option (ServerState × Outcome)
  | .createParent upload =>
    -- The data directory itself is never replaced by a file.
    if upload.path.isEmpty then some (state, failed .io)
    else some (createDirs state upload.path.dropLast none (.createTemp upload))
  | .createTemp upload => some (createUpload state upload)
  | .receiving stream =>
    if stream.received = stream.put.body.length then some (finishUpload blake2b state stream)
    else none
  | .counting stream => some (countUpload state stream)
  | .removing path oldSize rest => some (removeObject state path oldSize rest)
  | .uncounting oldSize rest => some (state.subQuotaUsage oldSize, afterRemoval true rest)
  | .batchDeleting [] cleanup => some (state, .running (.cleaning cleanup))
  | .batchDeleting (key :: keys) cleanup =>
    some (state, .running (batchDeleteNext config state.files key keys cleanup))
  | .cleaning [] => some (state, .finished .noContent)
  | .cleaning (dir :: dirs) =>
    some ({ state with files := (state.files.removeDir dir).getD state.files },
      .running (.cleaning dirs))
  | .creatingDirs [] => some (state, .finished .created)
  | .creatingDirs (dir :: dirs) => some (createDirs state dir none (.creatingDirs dirs))
  | .repacking [] completed => some (state, .finished (.repacked completed))
  | .repacking (operation :: rest) completed =>
    some (repackNext config state operation rest completed)
  | .repackParent job =>
    some (createDirs state (packPath (blake2b job.content)).dropLast (some job.temp)
      (.repackRename job))
  | .repackRename job => some (repackPublish blake2b state job)
  | .repackDelete job =>
    let oldSize := (metadata config state.files job.source).getD 0
    some ((state.discard job.source).subQuotaUsage oldSize,
      .running (.repacking job.rest (job.completed ++ [job.result blake2b])))

/-- A turn of the loop that reads the body; `none` unless that many bytes are left. -/
def receiveBytes (state : ServerState) (stream : Stream) (count : Nat) :
    Option (ServerState × Outcome) :=
  if count = 0 ∨ stream.put.body.length < stream.received + count then none
  else
    let received := stream.received + count
    let used := state.quotaUsed
    let quota := stream.quota
    if 0 < quota ∧ quota < netUsage used stream.oldSize received then
      some (state.discard stream.temp, failed (.payloadTooLarge
        s!"quota exceeded during upload: used {used}, limit {quota}, written {received}"))
    else
      let part := (stream.put.body.drop stream.received).take count
      some (state.append stream.inode part, .running (.receiving { stream with received }))

def Phase.temp? : Phase → Option Path
  | .receiving stream => some stream.temp
  | .repackParent job | .repackRename job => some job.temp
  | _ => none

/-- The next call fails and the handler cleans up.  A repack ignores that a source pack cannot be
removed: it takes the size off the usage and goes on. -/
def failPhase (blake2b : Bytes → BitVec 256) (config : Config) (state : ServerState) :
    Phase → ServerState × Outcome
  | .repacking (operation :: rest) completed =>
    match filePath operation.sourcePack with
    | none => (state, failed .io)
    | some source =>
      if operation.keepBlobs.isEmpty && operation.deleteAfter then
        (state.subQuotaUsage ((metadata config state.files source).getD 0),
          .running (.repacking rest (completed ++ [⟨operation.sourcePack, none, [], true⟩])))
      else (state, failed .io)
  | .repackDelete job =>
    (state.subQuotaUsage ((metadata config state.files job.source).getD 0),
      .running (.repacking job.rest (job.completed ++ [job.result blake2b])))
  | phase =>
    (match phase.temp? with
      | some temp => state.discard temp
      | none => state, failed .io)

/-- The call is done, and only the counter is left to be changed. -/
def Phase.settles : Phase → Bool
  | .counting _ | .uncounting _ _ => true
  | _ => false

/-- A handler whose client is gone is dropped where it waits; a repack goes on. -/
def Phase.droppable : Phase → Bool
  | .repacking .. | .repackParent _ | .repackRename _ | .repackDelete _ => false
  | _ => true

/-- A request's answer when it is refused, or the phase it starts in. -/
def accept : Except ServerError Phase → Outcome
  | .ok phase => .running phase
  | .error error => failed error

def acceptDelete : Except Response Phase → Outcome
  | .ok phase => .running phase
  | .error response => .finished response

def Outcome.lost : Outcome → Outcome
  | .running _ => .finished .aborted
  | .finished response => .finished response

namespace ServerState

def arrive (state : ServerState) (id : Nat) (outcome : Outcome) : Option ServerState :=
  match state.requests id with
  | none => some { state with requests := Function.update state.requests id (some outcome) }
  | some _ => none

def proceed (state : ServerState) (id : Nat)
    (act : Phase → Option (ServerState × Outcome)) : Option ServerState :=
  match state.requests id with
  | some (.running phase) =>
    (act phase).map fun (next, outcome) =>
      { next with requests := Function.update state.requests id (some outcome) }
  | _ => none

end ServerState

def step (blake2b : Bytes → BitVec 256) (config : Config) (state : ServerState) :
    Event → Option ServerState
  | .put id put =>
    state.arrive id
      (accept (putObject config state.files state.quotaUsed state.quotaLimit put))
  | .delete id key => state.arrive id (acceptDelete (deleteObject config state.files key))
  | .batchDelete id keys cleanup => state.arrive id (accept (batchDelete config keys cleanup))
  | .repack id plan => state.arrive id (accept (repack config plan))
  | .mkdir id key => state.arrive id (accept (makeDir key))
  | .init id => state.arrive id (accept (repoInit config state.files))
  | .advance id => state.proceed id (advancePhase blake2b config state)
  | .receive id count =>
    state.proceed id fun phase =>
      match phase with
      | .receiving stream => receiveBytes state stream count
      | _ => none
  | .fail id =>
    state.proceed id fun phase =>
      if phase.settles then none else some (failPhase blake2b config state phase)
  | .abort id =>
    state.proceed id fun phase =>
      if phase.droppable then some (state, .finished .aborted) else none
  | .refreshQuota limit => some { state with quotaLimit := limit }
  | .restart =>
    some { state with
      tempCounter := 0
      repackCounter := 0
      requests := fun id => (state.requests id).map Outcome.lost }

def ServerState.objectAt (state : ServerState) (path : Path) : Option Bytes :=
  (state.files.fileAt path).map StoredFile.bytes

/-- A server started on any data directory. -/
def serverSystem (blake2b : Bytes → BitVec 256) (config : Config) :
    TransitionSystem ServerState Event where
  initial state :=
    (∀ id, state.requests id = none) ∧
      (∀ path file, state.files.fileAt path = some file → file.inode < state.nextInode) ∧
      ∀ path other file otherFile, state.files.fileAt path = some file →
        state.files.fileAt other = some otherFile → file.inode = otherFile.inode → path = other
  step := step blake2b config

/-- A concrete hash function: the bytes as a number. -/
def littleEndianHash (body : Bytes) : BitVec 256 := BitVec.ofNat 256 (fromLeBytes body)

end Vykar.Server

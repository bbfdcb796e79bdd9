import Vykar.Backup.FileCache
import Vykar.Clients.Durability

/-!
Backups that skip unchanged files (`commands/backup/mod.rs`, `repo/file_cache.rs`).

A backup loads the file cache of its machine once its session is admitted, and it drops the
sections whose anchor is not listed.  While it walks its roots it takes cache hits from the loaded
cache and fills a new one; once its snapshot is written, the sections of the new cache are merged
into the loaded one and saved.  Other clients take their steps in between: backups, `delete` and
`prune`.

Snapshot ids are random, so one is never drawn twice.  `streams` records the item stream that
was written for each id.
-/

namespace Vykar.Clients

open Index Pack Repo Backup

abbrev MachineId := Nat

/-- The caches of a running backup, and the references of the items appended so far. -/
structure BackupCaches where
  read : FileCache
  write : FileCache
  items : List (List ChunkRef)
  dirty : Bool

structure CachingWorld where
  world : World
  streams : Dict SnapshotId (List (List ChunkRef))
  disk : MachineId → FileCache
  caches : ClientId → BackupCaches

def CachingWorld.init : CachingWorld :=
  ⟨.init, ∅, fun _ => .new, fun _ => ⟨.new, .new, [], false⟩⟩

def CachingWorld.setCaches (state : CachingWorld) (id : ClientId) (caches : BackupCaches) :
    CachingWorld :=
  { state with caches := Function.update state.caches id caches }

def CachingWorld.withWorld (state : CachingWorld) (world : World) : CachingWorld :=
  { state with world }

def CachingWorld.leave (state : CachingWorld) (id : ClientId) : CachingWorld :=
  state.withWorld (state.world.leave id)

def streamChunks (stream : List (List ChunkRef)) : List (List ChunkId) :=
  stream.map fun refs => refs.map (·.id)

/-- The steps of backups and of removals.  `file` appends a file that was stored or taken over
from the parent snapshot, and `item` any other item.  `cleanSession` is the removal of a marker
that is older than 72 hours or seems to belong to a dead process. -/
inductive CachingEvent where
  | session (id : ClientId) (event : SessionEvent)
  | openRepo (id : ClientId) (journal : ChunkId → Option RecoveredChunkEntry)
      (readable : SnapshotId → Bool) (loadable : Bool) (roots : List PathText)
  | call (id : ClientId) (op : SessionOp)
  | item (id : ClientId) (refs : List ChunkRef)
  | file (id : ClientId) (path : PathText) (metadata : MetadataSummary) (refs : List ChunkRef)
  | hit (id : ClientId) (path : PathText) (metadata : MetadataSummary)
  | upload (id : ClientId) (file : Bytes)
  | lock (id : ClientId)
  | commit (id : ClientId) (input : CommitInput)
  | putSnapshot (id : ClientId)
  | saveCache (id : ClientId)
  | deregister (id : ClientId)
  | removal (id : ClientId) (event : MaintenanceEvent)
  | cleanSession (id : ClientId)
  | leave (id : ClientId)

/-- The steps of `delete` and `prune`. -/
def MaintenanceEvent.ofRemoval : MaintenanceEvent → Bool
  | .openRepo | .lock | .checkSessions | .remove _ | .deleteSnapshot | .save => true
  | .compact _ _ _ _ | .turn | .write | .finish => false

/-- `commit_cache_hit`; `none` if a chunk is nowhere known. -/
def commitCacheHit (session : BackupSession) (refs : List ChunkRef) : Option BackupSession :=
  (session.recording.run (refs.map fun ref => .reuse ref.id)).map fun recording =>
    { session with recording, stores := session.stores ++ refs.map (·.id) }

/-- The caches of a backup that has opened the repository: sections without a listed anchor are
dropped, those of the roots are active, and the new cache has an empty section for each. -/
def openCaches (disk : FileCache) (listed : SnapshotId → Bool) (loadable : Bool)
    (roots : List PathText) : BackupCaches :=
  let loaded : FileCache := if loadable then ⟨disk.sections, []⟩ else .new
  let valid := loaded.invalidateMissingSnapshots listed
  { read := valid.activateForWalkRoots roots
    write := FileCache.new.beginSections roots
    items := []
    dirty := valid.sections.keysList.length ≠ loaded.sections.keysList.length }

def BackupCaches.merged (caches : BackupCaches) : FileCache :=
  caches.write.takeActiveSections.foldl (fun cache entry => cache.mergeSection entry.1 entry.2)
    caches.read

section Step

variable (hash : Bytes → PackId) (hashPath : PathText → PathHash) (machine : ClientId → MachineId)

def CachingWorld.advance (state : CachingWorld) (event : Event) : Option CachingWorld :=
  (step hash state.world event).map state.withWorld

/-- A file is appended to the item stream and inserted into the new cache. -/
def CachingWorld.appendFile (state : CachingWorld) (id : ClientId) (path : PathText)
    (metadata : MetadataSummary) (refs : List ChunkRef) : CachingWorld :=
  let caches := state.caches id
  match caches.write.insert hashPath path metadata refs with
  | none => state.leave id
  | some write => state.setCaches id { caches with write, items := caches.items ++ [refs] }

def cachingStep (state : CachingWorld) : CachingEvent → Option CachingWorld
  | .session id event => state.advance hash (.session id event)
  | .openRepo id journal readable loadable roots =>
    (state.advance hash (.backup id (.openRepo journal))).map fun next =>
      next.setCaches id (openCaches (state.disk (machine id))
        (fun snapshotId => readable snapshotId &&
          (state.world.repo.snapshots.get? snapshotId).isSome) loadable roots)
  | .call id op => state.advance hash (.backup id (.call op))
  | .item id refs =>
    match state.world.clients id with
    | .writing _ => some (state.setCaches id
        { state.caches id with items := (state.caches id).items ++ [refs] })
    | _ => none
  | .file id path metadata refs =>
    match state.world.clients id with
    | .writing _ => some (state.appendFile hashPath id path metadata refs)
    | _ => none
  | .hit id path metadata =>
    match state.world.clients id with
    | .writing session =>
      match (state.caches id).read.lookup hashPath path metadata with
      | none => none
      | some refs =>
        match commitCacheHit session refs with
        | none => some (state.leave id)
        | some next =>
          some ((state.withWorld (state.world.withPhase id (.writing next))).appendFile
            hashPath id path metadata refs)
    | _ => none
  | .upload id file => state.advance hash (.backup id (.upload file))
  | .lock id => state.advance hash (.backup id .lock)
  | .commit id input =>
    let caches := state.caches id
    if state.streams.get? input.id = none ∧
        input.snapshot.items = streamChunks caches.items then
      (state.advance hash (.backup id (.commit input))).map fun next =>
        { next with streams := state.streams.set input.id caches.items }.setCaches id
          { caches with write := caches.write.finalizeSections input.id }
    else none
  | .putSnapshot id => state.advance hash (.backup id .putSnapshot)
  | .saveCache id =>
    let caches := state.caches id
    match state.world.clients id with
    | .committed =>
      if caches.dirty ∨ caches.write.takeActiveSections ≠ [] then
        some { state with disk := Function.update state.disk (machine id) caches.merged }
      else some state
    | _ => none
  | .deregister id => state.advance hash (.backup id .deregister)
  | .removal id event =>
    if event.ofRemoval then state.advance hash (.maintenance id event) else none
  | .cleanSession id => some (state.withWorld (state.world.deregister id))
  | .leave id => some (state.leave id)

/-- Backups and removals on a repository and on machines that start empty. -/
def cachingSystem : TransitionSystem CachingWorld CachingEvent where
  initial state := state = .init
  step := cachingStep hash hashPath machine

def Phase.inSession : Phase → Bool
  | .registered | .admitted | .writing _ | .committing _ | .indexed _ _ | .committed => true
  | _ => false

/-- Removals start to act while the stored index is the one they have loaded, the marker of a
backup stays while it runs, and counts do not wrap. -/
def removesOnStored (state : CachingWorld) : CachingEvent → Bool
  | .call id op => actsOnStored hash state.world (.backup id (.call op))
  | .commit id input => actsOnStored hash state.world (.backup id (.commit input))
  | .hit id path metadata =>
    match state.world.clients id, (state.caches id).read.lookup hashPath path metadata with
    | .writing session, some refs => countsFit ∅ (session.stores ++ refs.map (·.id))
    | _, _ => true
  | .removal id event => actsOnStored hash state.world (.maintenance id event)
  | .cleanSession id => !(state.world.clients id).inSession
  | _ => true

end Step

end Vykar.Clients

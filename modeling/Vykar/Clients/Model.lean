import Vykar.Compact.Model
import Vykar.Index.FastPath
import Vykar.Repo.History

/-!
Clients that share one repository (`commands/util.rs` and the commands that use it).

Backups, maintenance commands (`delete`, `prune`, `compact`) and readers take their storage
steps in any order.  A session is registered by its marker and then probes for the lock; it
is refused while the lock is held.  A backup registers a session before it opens the
repository, and it commits to the index that it finds under the lock.  A maintenance command
loads the index when it opens the repository; it takes the lock and looks for sessions
afterwards, and what it saves is the copy it has loaded.  Readers register a session before
they open the repository, except `mount`, which registers none.

The lock is held by one client at a time, and the marker of a running session is not removed
by others.
-/

namespace Vykar.Clients

open Index Pack Repo

abbrev ClientId := Nat

/-- A backup that stores chunks: the index it was opened on, its write session, and the chunks
it was asked to store so far. -/
structure BackupSession where
  base : ChunkIndex
  recording : Recording
  stores : List ChunkId

/-- What a commit is given: the packs sealed last, and the snapshot.  `cached` says whether the
local copies of the index that was loaded allow the fast path. -/
structure CommitInput where
  dataPack : PackId
  treePack : PackId
  id : SnapshotId
  snapshot : Snapshot
  cached : Bool

/-- A running `compact_repo`.  `remaining` are the selected packs not yet worked on,
`completed` is what the server has done, and `pending` are the writes that finish the work on
the current pack. -/
structure Compaction where
  backend : Compact.Backend
  cap : Option UInt64
  selected : List Compact.PackAnalysis
  client : Compact.Client
  remaining : List Compact.PackAnalysis
  repackedBytes : Nat
  completed : List Compact.OperationResult
  pending : List Compact.Write

/-- Where a client is in its command. -/
inductive Phase where
  | idle
  -- a session that has put its marker, and one whose probe has found no lock
  | registered
  | admitted
  -- backup
  | writing (session : BackupSession)
  | committing (session : BackupSession)
  | indexed (id : SnapshotId) (snapshot : Snapshot)
  | committed
  | deregistered
  -- maintenance, with the loaded index and the listed snapshots
  | opened (loaded : ChunkIndex) (listed : List SnapshotId)
  | locked (loaded : ChunkIndex) (listed : List SnapshotId)
  | checked (loaded : ChunkIndex) (listed : List SnapshotId)
  | removing (loaded : ChunkIndex) (pending : List (SnapshotId × Snapshot))
      (references : List ChunkId)
  | compacting (pass : Compaction)
  | finished
  -- readers, with the loaded index and the packs that were stored at that time
  | reading (loaded : ChunkIndex) (stored : Dict PackId Bytes)

structure World where
  repo : Repository
  packs : Dict PackId Bytes
  lock : Option ClientId
  sessions : List ClientId
  clients : ClientId → Phase

namespace World

def init : World := ⟨.init, ∅, none, [], fun _ => .idle⟩

def withPhase (world : World) (id : ClientId) (phase : Phase) : World :=
  { world with clients := Function.update world.clients id phase }

def register (world : World) (id : ClientId) : World :=
  { world with sessions := id :: world.sessions }

def deregister (world : World) (id : ClientId) : World :=
  { world with sessions := world.sessions.filter fun other => other ≠ id }

def leave (world : World) (id : ClientId) : World :=
  { world.deregister id with
    lock := if world.lock = some id then none else world.lock }.withPhase id .idle

def putPack (world : World) (packId : PackId) (file : Bytes) : World :=
  { world with packs := world.packs.set packId file }

def write (world : World) (write : Repo.Write) : World :=
  { world with repo := world.repo.apply write }

def writeCompact (world : World) : Compact.Write → World
  | .putPack packId file => world.putPack packId file
  | .deletePack packId => { world with packs := world.packs.remove packId }
  | .putIndex index => world.write (.putIndex index)

def hasPack (world : World) (packId : PackId) : Bool := (world.packs.get? packId).isSome

/-- The index of a commit, from the one that is stored under the lock.  The cached copies stand
for the index of the generation that the session was opened on. -/
def commitIndex (world : World) (base : ChunkIndex) (delta : IndexDelta) (cached : Bool) :
    Except CommitError ChunkIndex :=
  if cached = true ∧ world.repo.index = some base then
    if delta.packsStored world.hasPack then .ok (fastPathIndex base delta)
    else .error .packsMissing
  else do
    let reconciled ← delta.reconcile world.repo.chunkIndex
    if reconciled.packsStored world.hasPack then
      .ok (reconciled.applyTo world.repo.chunkIndex)
    else .error .packsMissing

/-- `commit_concurrent_session_with_progress` up to the write of the index.  A snapshot is
given a fresh id and is made of references that the session handed out. -/
def commit (world : World) (id : ClientId) (session : BackupSession) (input : CommitInput) :
    Option World :=
  if world.repo.snapshots.get? input.id = none ∧
      input.snapshot.references.Subperm session.recording.references then
    let delta := finishSession session.recording.session input.dataPack input.treePack
    if (world.repo.findSnapshot input.snapshot.name).isSome then some (world.leave id)
    else if delta.isEmpty then some (world.withPhase id (.indexed input.id input.snapshot))
    else
      match world.commitIndex session.base delta input.cached with
      | .error _ => some (world.leave id)
      | .ok index =>
        some ((world.write (.putIndex index)).withPhase id (.indexed input.id input.snapshot))
  else none

end World

namespace Compaction

/-- A compaction that has selected its packs from the listed ones; `none` if the server rejects
its plan. -/
def start (backend : Compact.Backend) (wasteful : Nat → Nat → Bool) (cap : Option UInt64)
    (discovered : List PackId) (loaded : ChunkIndex) (packs : Dict PackId Bytes) :
    Option Compaction :=
  let selected := Compact.selectPacks wasteful cap discovered loaded packs
  let pass : Compaction := ⟨backend, cap, selected, ⟨loaded, false⟩, selected, 0, [], []⟩
  match backend with
  | .plain => some pass
  | .server server =>
    if server.accepts (Compact.repackPlan selected) ∧
        (server.appendOnly && !selected.isEmpty) = false then some pass
    else none

/-- The pass once the client has worked out what to do with the next pack. -/
def turnClient (pass : Compaction) (analysis : Compact.PackAnalysis)
    (rest : List Compact.PackAnalysis) : Compact.Outcome → Compaction
  | .skipped => { pass with remaining := rest }
  | .emptied => { pass with remaining := rest, pending := [.deletePack analysis.packId] }
  | .repacked packId file placed =>
    let saved := (pass.client.relocate packId placed).saveState
    { pass with
      client := saved.1
      remaining := rest
      repackedBytes := pass.repackedBytes + analysis.totalBytes
      pending := .putPack packId file :: (saved.2 ++ [.deletePack analysis.packId]) }

/-- The pass once it has turned to the next pack; `none` if that fails. -/
def turn (hash : Bytes → PackId) (packs : Dict PackId Bytes) (pass : Compaction)
    (analysis : Compact.PackAnalysis) (rest : List Compact.PackAnalysis) : Option Compaction :=
  match pass.backend with
  | .plain =>
    if pass.cap.any fun cap => cap.toNat ≤ pass.repackedBytes then
      some { pass with remaining := [] }
    else
      match Compact.repackPack hash (packs.get? analysis.packId) analysis with
      | .error _ => none
      | .ok outcome => some (pass.turnClient analysis rest outcome)
  | .server _ => do
      let (writes, result) ← Compact.executeOperation hash (packs.get? analysis.packId)
        ⟨analysis.packId, analysis.liveEntries.map fun entry => ⟨entry.offset, entry.length⟩, true⟩
      some { pass with
        remaining := rest, completed := pass.completed ++ [result], pending := writes }

/-- The last write of a pass: the index, if it was changed and not saved yet. -/
def lastWrites (pass : Compaction) : List Compact.Write :=
  match pass.backend with
  | .plain => pass.client.saveState.2
  | .server _ =>
    match Compact.applyResults pass.completed pass.client pass.selected with
    | .error _ => []
    | .ok client => client.saveState.2

end Compaction

/-- The two halves of `register_session`. -/
inductive SessionEvent where
  | register
  | probe

inductive BackupEvent where
  | openRepo (journal : ChunkId → Option RecoveredChunkEntry)
  | call (op : SessionOp)
  | upload (file : Bytes)
  | lock
  | commit (input : CommitInput)
  | putSnapshot
  | deregister

inductive MaintenanceEvent where
  | openRepo
  | lock
  | checkSessions
  | remove (targets : List (SnapshotId × Snapshot))
  | deleteSnapshot
  | save
  | compact (backend : Compact.Backend) (wasteful : Nat → Nat → Bool) (cap : Option UInt64)
      (discovered : List PackId)
  | turn
  | write
  | finish

inductive ReaderEvent where
  | load
  | mount

inductive Event where
  | session (id : ClientId) (event : SessionEvent)
  | backup (id : ClientId) (event : BackupEvent)
  | maintenance (id : ClientId) (event : MaintenanceEvent)
  | reader (id : ClientId) (event : ReaderEvent)
  | leave (id : ClientId)

/-- `register_session`: the marker is put first, and it is removed again if the probe finds the
lock held. -/
def sessionStep (world : World) (id : ClientId) : Phase → SessionEvent → Option World
  | .idle, .register => some ((world.register id).withPhase id .registered)
  | .registered, .probe =>
    if world.lock = none then some (world.withPhase id .admitted) else some (world.leave id)
  | _, _ => none

/-- The steps of `backup`; its packs are uploaded while it stores chunks and, for those sealed
last, during the commit. -/
def backupStep (hash : Bytes → PackId) (world : World) (id : ClientId) :
    Phase → BackupEvent → Option World
  | .admitted, .openRepo journal =>
    some (world.withPhase id
      (.writing ⟨world.repo.chunkIndex, .start world.repo.chunkIndex journal, []⟩))
  | .writing session, .call op =>
    (session.recording.step op).map fun recording => world.withPhase id
      (.writing { session with recording, stores := session.stores ++ op.stores })
  | .writing _, .upload file => some (world.putPack (hash file) file)
  | .committing _, .upload file => some (world.putPack (hash file) file)
  | .writing session, .lock =>
    if world.lock = none then
      some ({ world with lock := some id }.withPhase id (.committing session))
    else none
  | .committing session, .commit input => world.commit id session input
  | .indexed snapshotId snapshot, .putSnapshot =>
    some ((world.write (.putSnapshot snapshotId snapshot)).withPhase id .committed)
  | .committed, .deregister => some ((world.deregister id).withPhase id .deregistered)
  | _, _ => none

/-- The steps of `delete`, `prune` and `compact`. -/
def maintenanceStep (hash : Bytes → PackId) (world : World) (id : ClientId) :
    Phase → MaintenanceEvent → Option World
  | .idle, .openRepo =>
    some (world.withPhase id (.opened world.repo.chunkIndex world.repo.snapshots.keysList))
  | .opened loaded listed, .lock =>
    if world.lock = none then
      some ({ world with lock := some id }.withPhase id (.locked loaded listed))
    else none
  | .locked loaded listed, .checkSessions =>
    if world.sessions.isEmpty then some (world.withPhase id (.checked loaded listed))
    else some (world.leave id)
  | .checked loaded listed, .remove targets =>
    -- the snapshots are loaded before the first one is deleted
    if (targets.map Prod.fst).Nodup ∧ ∀ target ∈ targets, target.1 ∈ listed ∧
        world.repo.snapshots.get? target.1 = some target.2 then
      some (world.withPhase id (.removing loaded targets
        (targets.flatMap fun target => target.2.references)))
    else none
  | .removing loaded (target :: pending) references, .deleteSnapshot =>
    some ((world.write (.deleteSnapshot target.1)).withPhase id
      (.removing loaded pending references))
  | .removing loaded [] references, .save =>
    some ((if references.isEmpty then world
      else world.write (.putIndex (loaded.decrementAll references))).withPhase id .finished)
  | .checked loaded _, .compact backend wasteful cap discovered =>
    if discovered.isPerm world.packs.keysList then
      match Compaction.start backend wasteful cap discovered loaded world.packs with
      | none => some (world.leave id)
      | some pass => some (world.withPhase id (.compacting pass))
    else none
  | .compacting pass, .turn =>
    match pass.pending, pass.remaining with
    | [], analysis :: rest =>
      match pass.turn hash world.packs analysis rest with
      | none => some (world.leave id)
      | some next => some (world.withPhase id (.compacting next))
    | _, _ => none
  | .compacting pass, .write =>
    match pass.pending with
    | [] => none
    | write :: pending =>
      some ((world.writeCompact write).withPhase id (.compacting { pass with pending }))
  | .compacting pass, .finish =>
    match pass.pending, pass.remaining with
    | [], [] =>
      some ((pass.lastWrites.foldl World.writeCompact world).withPhase id .finished)
    | _, _ => none
  | _, _ => none

/-- The steps of `restore`, `list` and `find`, which run in a session, and of `mount`. -/
def readerStep (world : World) (id : ClientId) : Phase → ReaderEvent → Option World
  | .admitted, .load => some (world.withPhase id (.reading world.repo.chunkIndex world.packs))
  | .idle, .mount => some (world.withPhase id (.reading world.repo.chunkIndex world.packs))
  | _, _ => none

def step (hash : Bytes → PackId) (world : World) : Event → Option World
  | .session id event => sessionStep world id (world.clients id) event
  | .backup id event => backupStep hash world id (world.clients id) event
  | .maintenance id event => maintenanceStep hash world id (world.clients id) event
  | .reader id event => readerStep world id (world.clients id) event
  | .leave id => some (world.leave id)

/-- Any number of clients on a repository that starts empty. -/
def clientSystem (hash : Bytes → PackId) : TransitionSystem World Event where
  initial world := world = .init
  step := step hash

end Vykar.Clients

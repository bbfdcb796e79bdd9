import Vykar.Index.CommitOrder
import Vykar.Lib.TransitionSystem
import Vykar.Repo.SessionRun

/-!
The journals of interrupted backup sessions (`repo/write_session.rs`, `index/mod.rs`).

A session records every pack it seals in a journal and writes the journal to storage
from time to time.  A later session takes over what it finds in the journals of
sessions whose markers are gone or stale, and deletes these journals after its commit.
Any number of sessions run at once and each may be interrupted at any point; calls to
the storage do not fail and no maintenance command runs.
-/

namespace Vykar.Repo

open Index

abbrev SessionId := Nat

structure PendingChunkEntry where
  chunkId : ChunkId
  storedSize : Nat
  packOffset : Nat
  deriving DecidableEq

abbrev PendingIndexJournal := Dict PackId (List PendingChunkEntry)

/-- A journal as it is written: `Vec<PendingPackEntry>`. -/
abbrev JournalWire := List (PackId × List PendingChunkEntry)

/-- What is stored under `sessions/<id>.index`. -/
inductive StoredJournal where
  | corrupt
  | valid (wire : JournalWire)
  deriving DecidableEq

/-- What is stored under `sessions/<id>.json`. -/
inductive Marker where
  | readable (lastRefresh : Nat)
  | unreadable
  deriving DecidableEq

inductive MarkerState where
  | active
  | stale
  | unknown
  deriving DecidableEq

def recoveryStaleSecs : Nat := 45 * 60

def Marker.state (now : Nat) : Marker → MarkerState
  | .readable lastRefresh => if recoveryStaleSecs ≤ now - lastRefresh then .stale else .active
  | .unreadable => .unknown

def isRecoverable (now : Nat) : Option Marker → Bool
  | none => true
  | some marker => marker.state now = .stale

/-- What a session has recovered: `recovered_chunks`, the journal seeded with the packs found,
and `recovered_index_keys`. -/
structure Recovery where
  recovered : ChunkId → Option RecoveredChunkEntry
  journal : PendingIndexJournal
  indexKeys : List SessionId

namespace Recovery

def empty : Recovery := ⟨fun _ => none, ∅, []⟩

def recoverChunk (index : ChunkIndex) (packId : PackId)
    (recovered : ChunkId → Option RecoveredChunkEntry) (chunk : PendingChunkEntry) :
    ChunkId → Option RecoveredChunkEntry :=
  if index.contains chunk.chunkId then recovered
  else Function.update recovered chunk.chunkId
    (some ⟨chunk.storedSize, packId, chunk.packOffset⟩)

def recoverPack (index : ChunkIndex) (packs : List PackId) (recovery : Recovery)
    (pack : PackId × List PendingChunkEntry) : Recovery :=
  if pack.1 ∈ packs then
    { recovery with
      recovered := pack.2.foldl (recoverChunk index pack.1) recovery.recovered
      journal := recovery.journal.set pack.1 pack.2 }
  else recovery

/-- `recover_single_index` on a journal that can be read. -/
def recoverWire (index : ChunkIndex) (packs : List PackId) (recovery : Recovery)
    (other : SessionId) (wire : JournalWire) : Recovery :=
  let found := wire.foldl (recoverPack index packs) recovery
  { found with indexKeys := found.indexKeys ++ [other] }

end Recovery

def pendingEntries (entries : List NewChunkEntry) : List PendingChunkEntry :=
  entries.map fun entry => ⟨entry.chunkId, entry.storedSize, entry.packOffset⟩

structure Session where
  index : ChunkIndex
  recovery : Recovery
  recording : Recording
  /-- `pending_journal` -/
  journal : PendingIndexJournal
  /-- `journal_pack_ids`: the packs sealed since the running dump began. -/
  sealedInDump : List PackId
  /-- Packs whose uploads are not complete. -/
  uploads : List PackId

namespace Session

/-- `enable_tiered_dedup_mode` after the recovery. -/
def start (index : ChunkIndex) (recovery : Recovery) : Session where
  index := index
  recovery := recovery
  recording := .start index recovery.recovered
  journal := recovery.journal
  sealedInDump := []
  uploads := []

def seals (session : Session) : SessionOp → Option (PackId × PackType)
  | .flush packId packType => some (packId, packType)
  | .beginDump packId =>
    if session.recording.session.dataWriter.blobMeta.isEmpty then none else some (packId, .data)
  | _ => none

def sealedEntries (session : Session) (packId : PackId) (packType : PackType) :
    List PendingChunkEntry :=
  pendingEntries ((session.recording.session.writer packType).sealEntries packId)

/-- `record_pack` for a call that seals a pack, `remove_pack` for a rollback. -/
def journalAfter (session : Session) (op : SessionOp) : PendingIndexJournal :=
  match op, session.seals op with
  | .rollbackDump, _ => session.sealedInDump.foldl Dict.remove session.journal
  | _, some (packId, packType) =>
    session.journal.set packId (session.sealedEntries packId packType)
  | _, none => session.journal

def sealedInDumpAfter (session : Session) : SessionOp → List PackId
  | .flush packId _ =>
    if session.recording.session.tracker.isSome then session.sealedInDump ++ [packId] else []
  | .beginDump _ | .commitDump | .rollbackDump => []
  | .store .. | .reuse _ => session.sealedInDump

/-- Only a pack with blobs is sealed, and the id of a pack is the hash of its contents: `layout`
tells which chunks the pack with an id holds. -/
def sealsContent (layout : PackId → List PendingChunkEntry) (session : Session)
    (op : SessionOp) : Bool :=
  match session.seals op with
  | some (packId, packType) =>
    session.sealedEntries packId packType = layout packId ∧ layout packId ≠ []
  | none => true

def step (layout : PackId → List PendingChunkEntry) (session : Session) (op : SessionOp) :
    Option Session :=
  if session.sealsContent layout op then
    (session.recording.step op).map fun recording =>
      { session with
        recording
        journal := session.journalAfter op
        sealedInDump := session.sealedInDumpAfter op
        uploads := session.uploads ++ ((session.seals op).map Prod.fst).toList }
  else none

def isDrained (session : Session) : Bool :=
  session.uploads.isEmpty && session.recording.session.dataWriter.blobMeta.isEmpty &&
    session.recording.session.treeWriter.blobMeta.isEmpty

end Session

inductive SessionPhase where
  | registered
  | opened (index : ChunkIndex)
  | recovering (index : ChunkIndex) (recovery : Recovery) (worklist : List SessionId)
  | writing (session : Session)
  /-- The commit is done and these journals are still to be deleted. -/
  | committed (indexKeys : List SessionId)
  | deregistered
  | ended

def SessionPhase.isOpen : SessionPhase → Bool
  | .registered | .opened _ | .recovering .. | .writing _ => true
  | .committed _ | .deregistered | .ended => false

structure JournalState where
  now : Nat
  packs : List PackId
  index : ChunkIndex
  markers : SessionId → Option Marker
  journals : Dict SessionId StoredJournal
  /-- `none` for an id that is not used yet. -/
  sessions : SessionId → Option SessionPhase

inductive JournalEvent where
  | tick (seconds : Nat)
  | register (id : SessionId)
  /-- Open the repository and load the index. -/
  | openRepo (id : SessionId)
  /-- List the markers and journals; storage lists its keys in any order. -/
  | scan (id : SessionId) (listing : List SessionId)
  | recoverNext (id : SessionId)
  | beginWriting (id : SessionId)
  | call (id : SessionId) (op : SessionOp)
  | upload (id : SessionId) (packId : PackId)
  | writeJournal (id : SessionId)
  | refresh (id : SessionId)
  | commit (id : SessionId)
  | cleanup (id : SessionId)
  | deregister (id : SessionId)
  | clear (id : SessionId)
  /-- The backup fails and deregisters its session. -/
  | abort (id : SessionId)
  /-- The process is gone. -/
  | interrupt (id : SessionId)

namespace JournalState

def withPhase (state : JournalState) (id : SessionId) (phase : SessionPhase) : JournalState :=
  { state with sessions := Function.update state.sessions id (some phase) }

def withMarker (state : JournalState) (id : SessionId) (marker : Option Marker) : JournalState :=
  { state with markers := Function.update state.markers id marker }

/-- The journals that `recover_pending_index` reads. -/
def worklist (state : JournalState) (id : SessionId) (listing : List SessionId) :
    List SessionId :=
  listing.filter fun other => other ≠ id && isRecoverable state.now (state.markers other)

/-- `recover_pending_index` on one journal. -/
def recoverNext (state : JournalState) (id : SessionId) (index : ChunkIndex)
    (recovery : Recovery) (other : SessionId) (worklist : List SessionId) : JournalState :=
  match state.journals.get? other with
  | none => state.withPhase id (.recovering index recovery worklist)
  | some .corrupt =>
    { state with journals := state.journals.remove other }.withPhase id
      (.recovering index recovery worklist)
  | some (.valid wire) =>
    state.withPhase id
      (.recovering index (recovery.recoverWire index state.packs other wire) worklist)

/-- `commit_concurrent_session` up to the snapshot. -/
def commit (state : JournalState) (id : SessionId) (session : Session) : Option JournalState :=
  if session.isDrained then
    match Index.commit state.index session.recording.session.delta with
    | .ok index => some ({ state with index }.withPhase id (.committed session.recovery.indexKeys))
    | .error _ => none
  else none

end JournalState

def journalStep (layout : PackId → List PendingChunkEntry) (state : JournalState) :
    JournalEvent → Option JournalState
  | .tick seconds => some { state with now := state.now + seconds }
  | .register id =>
    match state.sessions id with
    | none => some ((state.withMarker id (some (.readable state.now))).withPhase id .registered)
    | some _ => none
  | .openRepo id =>
    match state.sessions id with
    | some .registered => some (state.withPhase id (.opened state.index))
    | _ => none
  | .scan id listing =>
    match state.sessions id with
    | some (.opened index) =>
      if listing.isPerm state.journals.keysList then
        some (state.withPhase id (.recovering index .empty (state.worklist id listing)))
      else none
    | _ => none
  | .recoverNext id =>
    match state.sessions id with
    | some (.recovering index recovery (other :: worklist)) =>
      some (state.recoverNext id index recovery other worklist)
    | _ => none
  | .beginWriting id =>
    match state.sessions id with
    | some (.recovering index recovery []) =>
      some (state.withPhase id (.writing (.start index recovery)))
    | _ => none
  | .call id op =>
    match state.sessions id with
    | some (.writing session) =>
      (session.step layout op).map fun next => state.withPhase id (.writing next)
    | _ => none
  | .upload id packId =>
    match state.sessions id with
    | some (.writing session) =>
      if packId ∈ session.uploads then
        some ({ state with packs := packId :: state.packs }.withPhase id
          (.writing { session with uploads := session.uploads.erase packId }))
      else none
    | _ => none
  | .writeJournal id =>
    match state.sessions id with
    | some (.writing session) =>
      if session.journal.keysList.isEmpty then none
      else some { state with
        journals := state.journals.set id (.valid session.journal.toList) }
    | _ => none
  | .refresh id =>
    match state.sessions id with
    | some (.writing _) => some (state.withMarker id (some (.readable state.now)))
    | _ => none
  | .commit id =>
    match state.sessions id with
    | some (.writing session) => state.commit id session
    | _ => none
  | .cleanup id =>
    match state.sessions id with
    | some (.committed (other :: rest)) =>
      some ({ state with journals := state.journals.remove other }.withPhase id
        (.committed rest))
    | _ => none
  | .deregister id =>
    match state.sessions id with
    | some (.committed []) => some ((state.withMarker id none).withPhase id .deregistered)
    | _ => none
  | .clear id =>
    match state.sessions id with
    | some .deregistered =>
      some ({ state with journals := state.journals.remove id }.withPhase id .ended)
    | _ => none
  | .abort id =>
    match state.sessions id with
    | some phase =>
      if phase.isOpen then some ((state.withMarker id none).withPhase id .ended) else none
    | none => none
  | .interrupt id =>
    match state.sessions id with
    | some _ => some (state.withPhase id .ended)
    | none => none

def Accurate (layout : PackId → List PendingChunkEntry) (wire : JournalWire) : Prop :=
  ∀ pack ∈ wire, pack.2 = layout pack.1

/-- Sessions that ended before may have left any markers and journals. -/
def journalSystem (layout : PackId → List PendingChunkEntry) :
    TransitionSystem JournalState JournalEvent where
  initial state :=
    (∀ id phase, state.sessions id = some phase → phase = .ended) ∧
    (∀ id, state.sessions id = none → state.markers id = none ∧ state.journals.get? id = none) ∧
    ∀ id wire, state.journals.get? id = some (.valid wire) → Accurate layout wire
  step := journalStep layout

end Vykar.Repo

import Vykar.Lib.ContentStore
import Vykar.Lib.WriteLog
import Vykar.Pack.Layout
import Vykar.Repo.WriteSession

/-!
Compaction (`commands/compact.rs`) and the repack request of the server
(`handlers/admin.rs`).

Packs are analysed with the chunk index that was loaded when the repository was
opened.  The client path rewrites one pack after the other and saves the index
before it deletes the old pack; the server path sends one plan, and the client
saves the index when the reply has arrived.  A run is given by the storage
writes it makes, in order, and by its result.

The hash of pack files is a parameter, and so is the comparison of the unused
ratio with the threshold, which the code makes in floating point.
-/

namespace Vykar.Compact

open Index Pack WriteLog

structure Storage where
  packs : Dict PackId Bytes
  index : ChunkIndex

inductive Write where
  | putPack (id : PackId) (file : Bytes)
  | deletePack (id : PackId)
  | putIndex (index : ChunkIndex)

def Storage.apply (storage : Storage) : Write → Storage
  | .putPack id file => { storage with packs := storage.packs.set id file }
  | .deletePack id => { storage with packs := storage.packs.remove id }
  | .putIndex index => { storage with index := index }

/-- `read_blob_from_pack` -/
def readBlob (packs : Dict PackId Bytes) (entry : ChunkIndexEntry) : Option Bytes :=
  (packs.get? entry.packId).bind fun file => readRange file entry.packOffset entry.storedSize

def Storage.read (storage : Storage) (id : ChunkId) : Option Bytes :=
  (storage.index.get? id).bind (readBlob storage.packs)

structure LiveEntry where
  chunkId : ChunkId
  offset : Nat
  length : Nat
  deriving DecidableEq

structure PackAnalysis where
  packId : PackId
  liveEntries : List LiveEntry
  totalBytes : Nat
  deadBytes : Nat
  deriving DecidableEq

inductive CompactError where
  | packDisappeared (pack : PackId)
  | unreadableBlob (pack : PackId)
  | repackRejected
  | repackFailed
  | missingOperation (pack : PackId)
  | missingNewPack (pack : PackId)
  | offsetsMismatch (pack : PackId)
  deriving DecidableEq

/-- The index entries of one pack, from `per_pack_lookup`. -/
def liveEntriesOf (index : ChunkIndex) (id : PackId) : List LiveEntry :=
  (index.toList.filter fun entry => entry.2.packId = id).map fun entry =>
    ⟨entry.1, entry.2.packOffset, entry.2.storedSize⟩

/-- The analysis of one discovered pack; `none` if it is not a candidate.  `wasteful` stands
for the comparison of the unused ratio with the threshold. -/
def analyzePack (wasteful : Nat → Nat → Bool) (index : ChunkIndex) (packs : Dict PackId Bytes)
    (id : PackId) : Option PackAnalysis := do
  let file ← packs.get? id
  let entries := liveEntriesOf index id
  if entries.isEmpty then
    let payload := file.length - headerSize
    if 0 < payload then some ⟨id, [], payload, payload⟩ else none
  else
    let liveBytes := (entries.map fun entry => 4 + entry.length).sum
    if file.length < headerSize ∨ file.length - headerSize < liveBytes then none
    else
      let payload := file.length - headerSize
      let deadBytes := payload - liveBytes
      if deadBytes = 0 then none
      else if wasteful deadBytes payload then
        some ⟨id, entries.insertionSort fun first second => first.offset ≤ second.offset,
          payload, deadBytes⟩
      else none

def selectAnalysesByCap (cap : Option UInt64) (total : Nat) :
    List PackAnalysis → List PackAnalysis
  | [] => []
  | analysis :: analyses =>
    if cap.any fun cap => cap.toNat ≤ total then []
    else analysis ::
      selectAnalysesByCap cap (min (total + analysis.totalBytes) (2 ^ 64 - 1)) analyses

/-- The packs to work on, most wasteful first.  `discovered` is the order in which the listed
packs were analysed. -/
def selectPacks (wasteful : Nat → Nat → Bool) (cap : Option UInt64) (discovered : List PackId)
    (index : ChunkIndex) (packs : Dict PackId Bytes) : List PackAnalysis :=
  selectAnalysesByCap cap 0
    ((discovered.filterMap (analyzePack wasteful index packs)).insertionSort
      fun first second => second.deadBytes ≤ first.deadBytes)

structure Placement where
  chunkId : ChunkId
  offset : Nat
  size : Nat
  deriving DecidableEq

/-- The repository handle of the client: its copy of the index. -/
structure Client where
  index : ChunkIndex
  dirty : Bool

def relocate (index : ChunkIndex) (packId : PackId) (placed : List Placement) : ChunkIndex :=
  placed.foldl (fun index place =>
    index.updateLocation place.chunkId packId place.offset place.size) index

/-- `save_state` without a write session -/
def Client.saveState (client : Client) : Client × List Write :=
  if client.dirty then ({ client with dirty := false }, [.putIndex client.index])
  else (client, [])

def Client.relocate (client : Client) (packId : PackId) (placed : List Placement) : Client :=
  ⟨Compact.relocate client.index packId placed, true⟩

section ClientPath

inductive Outcome where
  | skipped
  | emptied
  | repacked (packId : PackId) (file : Bytes) (placed : List Placement)
  deriving DecidableEq

variable (hash : Bytes → PackId)

def readLive (file : Bytes) : List LiveEntry → Option (List Bytes)
  | [] => some []
  | entry :: entries => do
      let blob ← readCheckedBlob file entry.offset entry.length
      let blobs ← readLive file entries
      some (blob :: blobs)

/-- The `PackWriter` of a repack, after all live blobs were added. -/
def repackWriter (entries : List LiveEntry) (blobs : List Bytes) : Repo.PackWriter :=
  (entries.zip blobs).foldl (fun writer pair => writer.addBlob pair.1.chunkId pair.2.length)
    .empty

/-- One turn of the repack loop, up to the upload of the new pack. -/
def repackPack (file? : Option Bytes) (analysis : PackAnalysis) :
    Except CompactError Outcome :=
  if analysis.liveEntries.isEmpty then .ok .emptied
  else
    match file? with
    | none => .error (.packDisappeared analysis.packId)
    | some file =>
      if hasValidHeader file then
        match readLive file analysis.liveEntries with
        | none => .error (.unreadableBlob analysis.packId)
        | some blobs =>
          let packId := hash (packBytes blobs)
          .ok (.repacked packId (packBytes blobs)
            (((repackWriter analysis.liveEntries blobs).sealEntries packId).map fun entry =>
              ⟨entry.chunkId, entry.packOffset, entry.storedSize⟩))
      else .ok .skipped

/-- The counters that the second phase of `compact_repo` changes. -/
structure CompactStats where
  packsRepacked : Nat := 0
  packsDeletedEmpty : Nat := 0
  packsCorrupt : Nat := 0
  spaceFreed : Nat := 0
  deriving DecidableEq

def CompactStats.repacked (stats : CompactStats) (bytes : Nat) : CompactStats :=
  { stats with packsRepacked := stats.packsRepacked + 1, spaceFreed := stats.spaceFreed + bytes }

def CompactStats.deletedEmpty (stats : CompactStats) (bytes : Nat) : CompactStats :=
  { stats with
    packsDeletedEmpty := stats.packsDeletedEmpty + 1
    spaceFreed := stats.spaceFreed + bytes }

def CompactStats.turn (stats : CompactStats) (analysis : PackAnalysis) : Outcome → CompactStats
  | .skipped => { stats with packsCorrupt := stats.packsCorrupt + 1 }
  | .emptied => stats.deletedEmpty analysis.totalBytes
  | .repacked _ _ _ => stats.repacked analysis.deadBytes

/-- The repack loop: its writes, and the client and the counters afterwards.  `done` is
`total_repacked_bytes`. -/
def repackLoop (cap : Option UInt64) (storage : Storage) (client : Client) (done : Nat)
    (stats : CompactStats) :
    List PackAnalysis → List Write × Except CompactError (Client × CompactStats)
  | [] => ([], .ok (client, stats))
  | analysis :: analyses =>
    if cap.any fun cap => cap.toNat ≤ done then ([], .ok (client, stats))
    else
      match repackPack hash (storage.packs.get? analysis.packId) analysis with
      | .error failure => ([], .error failure)
      | .ok .skipped =>
        repackLoop cap storage client done (stats.turn analysis .skipped) analyses
      | .ok .emptied =>
        let rest := repackLoop cap (storage.apply (.deletePack analysis.packId)) client done
          (stats.turn analysis .emptied) analyses
        (.deletePack analysis.packId :: rest.1, rest.2)
      | .ok (.repacked packId file placed) =>
        -- the index is saved before the old pack is deleted
        let saved := (client.relocate packId placed).saveState
        let writes := .putPack packId file :: (saved.2 ++ [.deletePack analysis.packId])
        let rest := repackLoop cap (applyAll Storage.apply storage writes) saved.1
          (done + analysis.totalBytes) (stats.turn analysis (.repacked packId file placed))
          analyses
        (writes ++ rest.1, rest.2)

/-- The client path; the last `save_state` finds a clean index. -/
def compactClient (cap : Option UInt64) (storage : Storage) (client : Client)
    (stats : CompactStats) (selected : List PackAnalysis) :
    List Write × Except CompactError CompactStats :=
  match repackLoop hash cap storage client 0 stats selected with
  | (writes, .error failure) => (writes, .error failure)
  | (writes, .ok (client, stats)) => (writes ++ client.saveState.2, .ok stats)

end ClientPath

section ServerPath

structure Operation where
  sourcePack : PackId
  keepBlobs : List BlobRef
  deleteAfter : Bool
  deriving DecidableEq

structure OperationResult where
  sourcePack : PackId
  newPack : Option PackId
  newOffsets : List Nat
  deleted : Bool
  deriving DecidableEq

/-- `validate_blob_ref` -/
def validBlobRef (blob : BlobRef) : Bool :=
  decide (blob.length ≠ 0 ∧ blob.length < 2 ^ 32 ∧ blob.offset + blob.length < 2 ^ 64)

/-- `validate_repack_plan`, with `MAX_REPACK_OPS` and `MAX_KEEP_BLOBS_PER_OP` -/
def validPlan (plan : List Operation) : Bool :=
  decide (plan.length ≤ 10000) && plan.all fun operation =>
    decide (operation.keepBlobs.length ≤ 200000) && operation.keepBlobs.all validBlobRef

def repackPlan (selected : List PackAnalysis) : List Operation :=
  selected.map fun analysis =>
    ⟨analysis.packId, analysis.liveEntries.map fun entry => ⟨entry.offset, entry.length⟩, true⟩

variable (hash : Bytes → PackId)

def copyBlobs (file : Bytes) : List BlobRef → Option (List Bytes)
  | [] => some []
  | blob :: blobs => do
      if blob.length = 0 then none
      let first ← readCheckedBlob file blob.offset blob.length
      let rest ← copyBlobs file blobs
      some (first :: rest)

/-- One operation of `execute_repack`; `none` if it fails, which leaves nothing behind. -/
def executeOperation (file? : Option Bytes) (operation : Operation) :
    Option (List Write × OperationResult) :=
  if operation.keepBlobs.isEmpty then
    some (if operation.deleteAfter then [.deletePack operation.sourcePack] else [],
      ⟨operation.sourcePack, none, [], operation.deleteAfter⟩)
  else do
    let file ← file?
    let blobs ← copyBlobs file operation.keepBlobs
    let packId := hash (packBytes blobs)
    some (.putPack packId (packBytes blobs) ::
        if operation.deleteAfter then [.deletePack operation.sourcePack] else [],
      ⟨operation.sourcePack, some packId,
        blobOffsets headerSize (operation.keepBlobs.map BlobRef.length), operation.deleteAfter⟩)

/-- `execute_repack`: the writes made and, unless an operation failed, the results. -/
def executeRepack (storage : Storage) :
    List Operation → List Write × Option (List OperationResult)
  | [] => ([], some [])
  | operation :: plan =>
    match executeOperation hash (storage.packs.get? operation.sourcePack) operation with
    | none => ([], none)
    | some (writes, result) =>
      let rest := executeRepack (applyAll Storage.apply storage writes) plan
      (writes ++ rest.1, rest.2.map fun results => result :: results)

/-- `MAX_ADMIN_BODY_BYTES` -/
def maxAdminBodyBytes : Nat := 64 * 1024 * 1024

structure RepackServer where
  appendOnly : Bool
  /-- The length of the JSON of a request. -/
  bodySize : List Operation → Nat

def RepackServer.accepts (server : RepackServer) (plan : List Operation) : Bool :=
  decide (server.bodySize plan ≤ maxAdminBodyBytes) && validPlan plan

/-- `repack` on the server: the plan is checked before anything is done. -/
def serverRepack (server : RepackServer) (storage : Storage) (plan : List Operation) :
    List Write × Except CompactError (List OperationResult) :=
  if server.accepts plan then
    if server.appendOnly && plan.any Operation.deleteAfter then ([], .error .repackRejected)
    else
      match executeRepack hash storage plan with
      | (writes, none) => (writes, .error .repackFailed)
      | (writes, some results) => (writes, .ok results)
  else ([], .error .repackRejected)

def applyResults (completed : List OperationResult) :
    Client → List PackAnalysis → Except CompactError Client
  | client, [] => .ok client
  | client, analysis :: analyses =>
    -- `completed_by_source` keeps the last result of a source
    match completed.reverse.find? fun result => result.sourcePack = analysis.packId with
    | none => .error (.missingOperation analysis.packId)
    | some result =>
      if analysis.liveEntries.isEmpty then applyResults completed client analyses
      else
        match result.newPack with
        | none => .error (.missingNewPack analysis.packId)
        | some newPack =>
          if result.newOffsets.length ≠ analysis.liveEntries.length then
            .error (.offsetsMismatch analysis.packId)
          else
            applyResults completed
              (client.relocate newPack
                (List.zipWith (fun entry offset => ⟨entry.chunkId, offset, entry.length⟩)
                  analysis.liveEntries result.newOffsets)) analyses

/-- `try_server_side_repack` on a backend that supports it, with the reply received. -/
def compactServer (server : RepackServer) (storage : Storage) (client : Client)
    (selected : List PackAnalysis) : List Write × Except CompactError Unit :=
  if selected.isEmpty then ([], .ok ())
  else
    match serverRepack hash server storage (repackPlan selected) with
    | (writes, .error failure) => (writes, .error failure)
    | (writes, .ok completed) =>
      match applyResults completed client selected with
      | .error failure => (writes, .error failure)
      | .ok client => (writes ++ client.saveState.2, .ok ())

end ServerPath

inductive Backend where
  | plain
  | server (server : RepackServer)

/-- `compact_repo` on an opened repository. -/
def compactRepo (hash : Bytes → PackId) (backend : Backend) (wasteful : Nat → Nat → Bool)
    (cap : Option UInt64) (discovered : List PackId) (storage : Storage) (client : Client) :
    List Write × Except CompactError Unit :=
  let selected := selectPacks wasteful cap discovered client.index storage.packs
  match backend with
  | .plain =>
    let run := compactClient hash cap storage client {} selected
    (run.1, run.2.map fun _ => ())
  | .server server => compactServer hash server storage client selected

end Vykar.Compact

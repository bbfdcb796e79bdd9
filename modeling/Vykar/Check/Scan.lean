import Vykar.Snapshot.Contents

/-!
The integrity check (`commands/check.rs`).

The scan looks at the objects behind the snapshot list, at every listed snapshot,
at the existence of every indexed pack and, if asked to, at the data of every
indexed chunk.  The order in which hash maps are walked and threads finish is a
`Schedule`.  Server-side verification, sampling, progress reports and counters are
left out.
-/

namespace Vykar.Check

open Index Pack Snapshot

inductive IntegrityIssue where
  | corruptSnapshot (id : SnapshotId) (name : Option String)
  /-- An object under `snapshots/` whose key is not an id. -/
  | invalidSnapshotKey (key : String)
  | danglingItemPtr (name : String) (chunkId : ChunkId)
  | danglingFileChunk (name path : String) (chunkId : ChunkId)
  | missingPack (packId : PackId)
  | corruptPackContent (packId : PackId) (detail : String)
  | corruptChunk (chunkId : ChunkId) (packId : PackId) (detail : String)
  | packExistenceCheckFailed (packId : PackId) (detail : String)
  | unreadableSnapshot (name detail : String)
  | snapshotReadFailed (name detail : String)
  deriving DecidableEq

structure CheckError where
  context : String
  message : String
  deriving DecidableEq

namespace IntegrityIssue

def toCheckError : IntegrityIssue → CheckError
  | corruptSnapshot id name =>
    let shown := shownId id
    ⟨match name with
      | some name => s!"snapshot '{name}'"
      | none => s!"snapshot {shown}",
      "failed to load metadata: corrupt or undecryptable"⟩
  | invalidSnapshotKey key => ⟨"snapshots", s!"invalid snapshot key: snapshots/{key}"⟩
  | danglingItemPtr name chunkId =>
    let shown := shownId chunkId
    ⟨s!"snapshot '{name}' item_ptrs", s!"chunk {shown} not in index"⟩
  | danglingFileChunk name path chunkId =>
    let shown := shownId chunkId
    ⟨s!"snapshot '{name}' file '{path}'", s!"chunk {shown} not in index"⟩
  | missingPack packId =>
    let shown := shownId packId
    ⟨"chunk index", s!"pack {shown} missing from storage"⟩
  | corruptPackContent packId detail =>
    let shown := shownId packId
    ⟨"verify-data", s!"pack {shown}: {detail}"⟩
  | corruptChunk chunkId _ detail =>
    let shown := shownId chunkId
    ⟨"verify-data", s!"chunk {shown}: {detail}"⟩
  | packExistenceCheckFailed packId detail =>
    let shown := shownId packId
    ⟨"chunk index", s!"pack {shown} existence check failed: {detail}"⟩
  | unreadableSnapshot name detail => ⟨s!"snapshot '{name}'", s!"failed to load items: {detail}"⟩
  | snapshotReadFailed name detail => ⟨s!"snapshot '{name}'", s!"I/O error: {detail}"⟩

end IntegrityIssue

/-- An error of a save, which may have stored the index all the same. -/
structure SaveFault where
  stored : Bool
  failure : VykarError

/-- The failures that hit the calls of a run, by call. -/
structure Faults where
  index : Option VykarError
  /-- The listing made to refresh the snapshot list, and the downloads behind it. -/
  list : Option VykarError
  listed : String → Option VykarError
  /-- The listing and the downloads of the scan for objects behind the list. -/
  listOrphans : Option VykarError
  orphan : String → Option VykarError
  /-- The calls for a listed snapshot, by its position in the list. -/
  scan : Nat → LoadFaults
  packExists : PackId → Option VykarError
  fullPack : PackId → Option VykarError
  blob : ChunkId → Option VykarError
  delete : String → Option VykarError
  /-- The calls for a surviving snapshot when reference counts are rebuilt. -/
  rebuild : Nat → LoadFaults
  save : Option SaveFault

def Faults.none : Faults where
  index := .none
  list := .none
  listed _ := .none
  listOrphans := .none
  orphan _ := .none
  scan _ := .none
  packExists _ := .none
  fullPack _ := .none
  blob _ := .none
  delete _ := .none
  rebuild _ := .none
  save := .none

/-- The order in which hash maps are walked and threads finish. -/
structure Schedule where
  entries : List SnapshotEntry → List SnapshotEntry
  existence : List PackId → List PackId
  data : List PackId → List PackId
  entries_perm : ∀ listed, (entries listed).Perm listed
  existence_perm : ∀ packIds, (existence packIds).Perm packIds
  data_perm : ∀ packIds, (data packIds).Perm packIds

def Schedule.inOrder : Schedule where
  entries listed := listed
  existence packIds := packIds
  data packIds := packIds
  entries_perm _ := .refl _
  existence_perm _ := .refl _
  data_perm _ := .refl _

/-- `to_entries`: sorted by time. -/
def manifestOf (schedule : Schedule) (cache : Dict String SnapshotEntry) : List SnapshotEntry :=
  (schedule.entries (cache.toList.map Prod.snd)).insertionSort fun first second =>
    first.time ≤ second.time

section Scan

variable (external : External)

/-- Phase 0: an object that no listed snapshot accounts for. -/
def scanOrphan (faults : String → Option VykarError) (snapshots : Dict String Bytes)
    (manifest : List SnapshotEntry) (key : String) : Option IntegrityIssue :=
  if key = "" ∨ key ∈ manifest.map fun entry => toHex entry.id then none
  else
    match fromHex? key with
    | none => some (.invalidSnapshotKey key)
    | some id =>
      match getObject (faults key) snapshots key with
      | .ok (some blob) =>
        match external.readMeta id blob with
        | .ok _ => none
        | .error _ => some (.corruptSnapshot id none)
      | .ok none => none
      | .error failure =>
        let shown := shownId id
        some (.snapshotReadFailed s!"(orphan {shown})" s!"GET failed: {failure}")

def danglingItemPtrs (index : ChunkIndex) (name : String) (itemPtrs : List ChunkId) :
    List IntegrityIssue :=
  (itemPtrs.filter fun id => !index.contains id).map (.danglingItemPtr name)

def danglingFileChunks (index : ChunkIndex) (name : String) (items : List Item) :
    List IntegrityIssue :=
  (items.filter fun item => item.entryType = .regularFile).flatMap fun item =>
    (item.chunkIds.filter fun id => !index.contains id).map
      (.danglingFileChunk name (String.ofList item.path))

/-- Phase 1, for one listed snapshot: the issues and the chunks seen. -/
def scanSnapshot (faults : LoadFaults) (storage : Storage) (manifest : List SnapshotEntry)
    (cache : BlobCache) (entry : SnapshotEntry) :
    BlobCache × List IntegrityIssue × List ChunkId :=
  match loadSnapshotMeta external faults.metadata storage.snapshots manifest entry.name with
  | .error failure =>
    (cache,
      [if failure.isTransientIo then
          .snapshotReadFailed entry.name s!"load metadata: {failure}"
        else .corruptSnapshot entry.id (some entry.name)], [])
  | .ok snapshot =>
    let dangling := danglingItemPtrs storage.index entry.name snapshot.itemPtrs
    match loadSnapshotItemStream external faults storage manifest cache entry.name with
    | (cache, .error failure) =>
      (cache,
        dangling ++
          [if failure.isTransientIo then
              .snapshotReadFailed entry.name s!"load item stream: {failure}"
            else .unreadableSnapshot entry.name s!"load item stream: {failure}"],
        snapshot.itemPtrs)
    | (cache, .ok stream) =>
      let (items, failure) := external.forEachDecodedItem stream
      (cache,
        dangling ++
          (failure.map fun failure =>
            .unreadableSnapshot entry.name s!"decode items: {failure}").toList ++
          danglingFileChunks storage.index entry.name items,
        snapshot.itemPtrs ++ fileChunks items)

def scanSnapshots (faults : Nat → LoadFaults) (storage : Storage)
    (manifest : List SnapshotEntry) :
    Nat → BlobCache → List SnapshotEntry →
      BlobCache × List IntegrityIssue × List (String × List ChunkId)
  | _, cache, [] => (cache, [], [])
  | position, cache, entry :: entries =>
    let (cache, issues, seen) :=
      scanSnapshot external (faults position) storage manifest cache entry
    let (cache, laterIssues, laterSeen) :=
      scanSnapshots faults storage manifest (position + 1) cache entries
    (cache, issues ++ laterIssues, (entry.name, seen) :: laterSeen)

end Scan

def packIds (index : ChunkIndex) : List PackId :=
  (index.toList.map fun indexed => indexed.2.packId).dedup

def packChunks (index : ChunkIndex) (packId : PackId) : List (ChunkId × ChunkIndexEntry) :=
  index.toList.filter fun indexed => indexed.2.packId = packId

/-- Phase 2, for one pack. -/
def checkExistence (faults : PackId → Option VykarError) (packs : Dict PackId Bytes)
    (packId : PackId) : Option IntegrityIssue :=
  match faults packId with
  | some failure => some (.packExistenceCheckFailed packId failure.text)
  | none => if (packs.get? packId).isSome then none else some (.missingPack packId)

section VerifyData

variable (external : External)

def verifySingleChunk (packId : PackId) (id : ChunkId) (raw : Bytes) : Option IntegrityIssue :=
  match external.unpackObject .chunkData (idBytes id) raw with
  | .error failure => some (.corruptChunk id packId s!"decrypt failed: {failure}")
  | .ok compressed =>
    match external.decompress compressed with
    | .error failure => some (.corruptChunk id packId s!"decompress failed: {failure}")
    | .ok plaintext =>
      let recomputed := external.computeId plaintext
      if recomputed = id then none
      else
        let shown := shownId recomputed
        some (.corruptChunk id packId s!"ID mismatch (recomputed {shown})")

def verifyInFile (packId : PackId) (file : Bytes) (indexed : ChunkId × ChunkIndexEntry) :
    Option IntegrityIssue :=
  let start := indexed.2.packOffset
  let stop := start + indexed.2.storedSize
  if file.length < stop then
    -- a pack in memory is shorter than `2 ^ 64` bytes, so that an overflow is always an excess
    let stored := indexed.2.storedSize
    let size := file.length
    some (.corruptChunk indexed.1 packId
      (if 2 ^ 64 ≤ stop then s!"blob range overflows (offset={start}, size={stored})"
      else s!"blob range [{start}..{stop}) exceeds pack size {size}"))
  else
    verifySingleChunk external packId indexed.1 ((file.drop start).take indexed.2.storedSize)

def verifyPackFull (fault : Option VykarError) (packs : Dict PackId Bytes) (packId : PackId)
    (chunks : List (ChunkId × ChunkIndexEntry)) : List IntegrityIssue :=
  match getObject fault packs packId with
  | .error failure => [.packExistenceCheckFailed packId s!"full GET failed: {failure}"]
  | .ok none => [.corruptPackContent packId "pack not found (full GET)"]
  | .ok (some file) =>
    if hasValidHeader file then chunks.filterMap (verifyInFile external packId file)
    else [.corruptPackContent packId "invalid pack header"]

def verifyBlob (faults : ChunkId → Option VykarError)
    (packs : Dict PackId Bytes) (packId : PackId) (indexed : ChunkId × ChunkIndexEntry) :
    Option IntegrityIssue :=
  match readBlobFromPack external (faults indexed.1) packs packId indexed.2.packOffset
      indexed.2.storedSize with
  | .error failure => some (.corruptChunk indexed.1 packId s!"read failed: {failure}")
  | .ok raw => verifySingleChunk external packId indexed.1 raw

def verifyPackIndividual (faults : ChunkId → Option VykarError) (packs : Dict PackId Bytes)
    (packId : PackId) (chunks : List (ChunkId × ChunkIndexEntry)) : List IntegrityIssue :=
  chunks.filterMap (verifyBlob external faults packs packId)

def batchThreshold : Nat := 3

/-- Phase 3, for one pack. -/
def verifyPack (faults : Faults) (storage : Storage) (packId : PackId) : List IntegrityIssue :=
  let chunks := packChunks storage.index packId
  if batchThreshold ≤ chunks.length then
    verifyPackFull external (faults.fullPack packId) storage.packs packId chunks
  else verifyPackIndividual external faults.blob storage.packs packId chunks

end VerifyData

structure ScanOptions where
  collectChunkRefs : Bool
  detectOrphans : Bool
  verifyData : Bool

structure ScanResult where
  issues : List IntegrityIssue
  snapshotChunkRefs : Dict String (Finset ChunkId)

def collectRefs (seen : List (String × List ChunkId)) : Dict String (Finset ChunkId) :=
  seen.foldl (fun refs snapshot =>
    refs.set snapshot.1 ((refs.get? snapshot.1).getD ∅ ∪ snapshot.2.toFinset)) ∅

def scanOrphans (external : External) (faults : Faults) (storage : Storage)
    (manifest : List SnapshotEntry) : Except VykarError (List IntegrityIssue) :=
  match faults.listOrphans with
  | some failure => .error failure
  | none => .ok (storage.snapshots.keysList.filterMap
      (scanOrphan external faults.orphan storage.snapshots manifest))

def scanPacks (external : External) (schedule : Schedule) (faults : Faults) (verifyData : Bool)
    (storage : Storage) : List IntegrityIssue :=
  (schedule.existence (packIds storage.index)).filterMap
      (checkExistence faults.packExists storage.packs) ++
    if verifyData then
      (schedule.data (packIds storage.index)).flatMap (verifyPack external faults storage)
    else []

/-- `integrity_scan`, together with the blob cache it leaves behind. -/
def integrityScan (external : External) (schedule : Schedule) (faults : Faults)
    (options : ScanOptions) (storage : Storage) (manifest : List SnapshotEntry) :
    Except VykarError (BlobCache × ScanResult) :=
  match if options.detectOrphans then scanOrphans external faults storage manifest
      else .ok [] with
  | .error failure => .error failure
  | .ok orphans =>
    let (cache, snapshots, seen) :=
      scanSnapshots external faults.scan storage manifest 0 .empty manifest
    .ok (cache,
      ⟨orphans ++ snapshots ++ scanPacks external schedule faults options.verifyData storage,
        if options.collectChunkRefs then collectRefs seen else ∅⟩)

/-- `check` of the whole repository, without trusting the server: the errors reported. -/
def run (external : External) (schedule : Schedule) (faults : Faults) (verifyData : Bool)
    (storage : Storage) (snapshotCache : Dict String SnapshotEntry) :
    Except VykarError (List CheckError) :=
  match faults.list with
  | some failure => .error failure
  | none =>
    -- opening the repository skips snapshots that cannot be read
    match refreshSnapshotCache external false faults.listed storage.snapshots snapshotCache with
    | .error failure => .error failure
    | .ok listed =>
      match faults.index with
      | some failure => .error failure
      | none =>
        (integrityScan external schedule faults ⟨false, false, verifyData⟩ storage
          (manifestOf schedule listed)).map fun scan =>
            scan.2.issues.map IntegrityIssue.toCheckError

end Vykar.Check

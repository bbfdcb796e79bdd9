import Vykar.Check.Scan

/-!
The repair (`check --repair` in `commands/check.rs`).

A plan is made from the issues of a scan and executed in a fixed order: objects
under `snapshots/` and index entries are removed, reference counts are rebuilt
from the snapshots that are left, and the index is saved at the very end.  An
error before that leaves the stored index as it was; the save itself can fail
with the new index stored.
-/

namespace Vykar.Check

open Index Pack Snapshot

inductive RepairAction where
  | removeCorruptSnapshot (id : SnapshotId) (name : Option String)
  | removeInvalidSnapshotKey (key : String)
  | removeDanglingIndexEntries (packId : PackId) (chunkCount : Nat)
  | removeCorruptPack (packId : PackId) (chunkCount : Nat)
  | removeCorruptChunks (packId : PackId) (chunkIds : List ChunkId)
  | removeDanglingSnapshot (name : String) (missingChunks : Nat)
  | rebuildRefcounts
  deriving DecidableEq

structure RepairPlan where
  actions : List RepairAction
  hasDataLoss : Bool

section Plan

/-- Corrupt snapshots, one action for each id, and invalid keys. -/
def addSnapshotAction (actions : List RepairAction) (issue : IntegrityIssue) :
    List RepairAction :=
  match issue with
  | .corruptSnapshot id name =>
    if actions.any fun action =>
        match action with
        | .removeCorruptSnapshot other _ => other = id
        | _ => false
    then actions
    else actions ++ [.removeCorruptSnapshot id name]
  | .invalidSnapshotKey key => actions ++ [.removeInvalidSnapshotKey key]
  | _ => actions

def snapshotActions (issues : List IntegrityIssue) : List RepairAction :=
  issues.foldl addSnapshotAction []

/-- `corrupt_snapshot_names` -/
def corruptNames (actions : List RepairAction) : List String :=
  actions.filterMap fun action =>
    match action with
    | .removeCorruptSnapshot _ name => name
    | _ => none

def missingPacks (issues : List IntegrityIssue) : List PackId :=
  (issues.filterMap fun issue =>
    match issue with
    | .missingPack packId => some packId
    | _ => none).dedup

/-- `corrupt_packs` and `corrupt_chunks_by_pack` -/
structure CorruptData where
  packs : List PackId
  chunks : Dict PackId (List ChunkId)

def addCorruptData (missing : List PackId) (corrupt : CorruptData) (issue : IntegrityIssue) :
    CorruptData :=
  match issue with
  | .corruptPackContent packId _ => { corrupt with packs := corrupt.packs.insert packId }
  | .corruptChunk chunkId packId _ =>
    if packId ∉ corrupt.packs ∧ packId ∉ missing then
      { corrupt with
        chunks := corrupt.chunks.set packId ((corrupt.chunks.get? packId).getD [] ++ [chunkId]) }
    else corrupt
  | _ => corrupt

def corruptData (issues : List IntegrityIssue) : CorruptData :=
  issues.foldl (addCorruptData (missingPacks issues)) ⟨[], ∅⟩

def chunksToRemove (index : ChunkIndex) (missing : List PackId) (corrupt : CorruptData) :
    List ChunkId :=
  ((missing ++ corrupt.packs).flatMap fun packId => (packChunks index packId).map Prod.fst) ++
    corrupt.chunks.toList.flatMap Prod.snd

/-- Snapshots that refer to chunks that are not in the index or cannot be read. -/
def addDoomed (doomed : Dict String Nat) (issue : IntegrityIssue) : Dict String Nat :=
  match issue with
  | .danglingItemPtr name _ | .danglingFileChunk name _ _ =>
    doomed.set name ((doomed.get? name).getD 0 + 1)
  | .unreadableSnapshot name _ =>
    match doomed.get? name with
    | some _ => doomed
    | none => doomed.set name 1
  | _ => doomed

/-- Snapshots that refer to chunks about to be removed. -/
def addNewlyMissing (corrupt : List String) (removed : List ChunkId) (doomed : Dict String Nat)
    (snapshot : String × Finset ChunkId) : Dict String Nat :=
  if snapshot.1 ∈ corrupt then doomed
  else
    let newlyMissing := (snapshot.2.filter fun id => id ∈ removed).card
    if 0 < newlyMissing then
      doomed.set snapshot.1 ((doomed.get? snapshot.1).getD 0 + newlyMissing)
    else doomed

/-- `doomed_missing` -/
def doomedSnapshots (issues : List IntegrityIssue) (corrupt : List String)
    (removed : List ChunkId) (refs : Dict String (Finset ChunkId)) : Dict String Nat :=
  let doomed := issues.foldl addDoomed ∅
  if removed.isEmpty then doomed
  else refs.toList.foldl (addNewlyMissing corrupt removed) doomed

def buildRepairPlan (index : ChunkIndex) (scan : ScanResult) : RepairPlan :=
  let snapshots := snapshotActions scan.issues
  let corrupt := corruptNames snapshots
  let missing := missingPacks scan.issues
  let data := corruptData scan.issues
  let doomed := doomedSnapshots scan.issues corrupt (chunksToRemove index missing data)
    scan.snapshotChunkRefs
  let actions :=
    snapshots ++
    missing.map (fun packId =>
      .removeDanglingIndexEntries packId (packChunks index packId).length) ++
    (data.packs.filter fun packId => packId ∉ missing).map (fun packId =>
      .removeCorruptPack packId (packChunks index packId).length) ++
    data.chunks.toList.map (fun (packId, ids) => .removeCorruptChunks packId ids) ++
    (doomed.toList.filter fun (name, _) => name ∉ corrupt).map fun (name, count) =>
      .removeDanglingSnapshot name count
  ⟨actions ++ [.rebuildRefcounts], !actions.isEmpty⟩

end Plan

section Execute

/-- The repository while it is repaired: the stored snapshot objects, and the list and the index
in memory. -/
structure Repairing where
  snapshots : Dict String Bytes
  manifest : List SnapshotEntry
  index : ChunkIndex
  applied : List RepairAction
  errors : List String
  /-- `successfully_deleted_doomed` -/
  deleted : List String

variable (faults : String → Option VykarError)

/-- Step 1: the first snapshot object that cannot be deleted ends the repair. -/
def removeCorrupt : List RepairAction → Repairing → Repairing × Option VykarError
  | [], state => (state, none)
  | action :: actions, state =>
    match action with
    | .removeCorruptSnapshot id name =>
      match faults (toHex id) with
      | some failure =>
        let shown := shownId id
        (state, some (.other (s!"aborting repair: failed to remove corrupt snapshot " ++
          s!"{shown}: {failure} (cannot safely rebuild refcounts)")))
      | none =>
        removeCorrupt actions
          { state with
            snapshots := state.snapshots.remove (toHex id)
            manifest :=
              match name with
              | some name => removeSnapshot state.manifest name
              | none => state.manifest
            applied := state.applied ++ [action] }
    | _ => removeCorrupt actions state

/-- Step 2. -/
def removeInvalid (state : Repairing) (action : RepairAction) : Repairing :=
  match action with
  | .removeInvalidSnapshotKey key =>
    match faults key with
    | some failure =>
      { state with
        errors := state.errors ++
          [s!"failed to remove invalid snapshot key snapshots/{key}: {failure}"] }
    | none =>
      { state with
        snapshots := state.snapshots.remove key
        applied := state.applied ++ [action] }
  | _ => state

/-- Step 3. -/
def dropDangling (state : Repairing) (action : RepairAction) : Repairing :=
  match action with
  | .removeDanglingIndexEntries packId _ =>
    { state with
      index := state.index.removeByPack packId
      applied := state.applied ++ [action] }
  | _ => state

/-- Step 4. -/
def dropCorrupt (state : Repairing) (action : RepairAction) : Repairing :=
  match action with
  | .removeCorruptPack packId _ =>
    { state with
      index := state.index.removeByPack packId
      applied := state.applied ++ [action] }
  | .removeCorruptChunks _ ids =>
    { state with
      index := ids.foldl Dict.remove state.index
      applied := state.applied ++ [action] }
  | _ => state

/-- Step 5. -/
def removeDoomed (state : Repairing) (action : RepairAction) : Repairing :=
  match action with
  | .removeDanglingSnapshot name _ =>
    match findSnapshot state.manifest name with
    | none => state
    | some entry =>
      match faults (toHex entry.id) with
      | some failure =>
        { state with
          errors := state.errors ++
            [s!"failed to remove doomed snapshot '{name}': {failure}"] }
      | none =>
        { state with
          snapshots := state.snapshots.remove (toHex entry.id)
          manifest := removeSnapshot state.manifest name
          applied := state.applied ++ [action]
          deleted := state.deleted ++ [name] }
  | _ => state

def countChunks (index : ChunkIndex) (counts : Dict ChunkId Nat) (ids : List ChunkId) :
    Dict ChunkId Nat :=
  ids.foldl (fun counts id =>
    if index.contains id then counts.set id (addU32 ((counts.get? id).getD 0) 1) else counts)
    counts

def abortRebuild (reason : String) (failure : VykarError) : VykarError :=
  .other s!"aborting repair: {reason}: {failure} (persisting would drop live references)"

/-- Step 6, for one surviving snapshot. -/
def rebuildSnapshot (external : External) (faults : LoadFaults) (storage : Storage)
    (manifest : List SnapshotEntry) (cache : BlobCache) (counts : Dict ChunkId Nat)
    (entry : SnapshotEntry) : BlobCache × Except VykarError (Dict ChunkId Nat) :=
  let name := entry.name
  match loadSnapshotMeta external faults.metadata storage.snapshots manifest name with
  | .error failure =>
    (cache, .error (abortRebuild
      s!"cannot load snapshot '{name}' during refcount rebuild" failure))
  | .ok snapshot =>
    let counts := countChunks storage.index counts snapshot.itemPtrs
    match loadSnapshotItemStream external faults storage manifest cache name with
    | (cache, .error failure) =>
      (cache, .error (abortRebuild
        s!"cannot load item stream for '{name}' during refcount rebuild" failure))
    | (cache, .ok stream) =>
      match external.forEachDecodedItem stream with
      | (_, some failure) =>
        (cache, .error (abortRebuild
          s!"failed to decode items for '{name}' during refcount rebuild" failure))
      | (items, none) => (cache, .ok (countChunks storage.index counts (fileChunks items)))

/-- Step 6, from a position among the surviving snapshots on. -/
def rebuildCounts (external : External) (faults : Nat → LoadFaults) (storage : Storage)
    (manifest : List SnapshotEntry) :
    Nat → BlobCache → Dict ChunkId Nat → List SnapshotEntry →
      Except VykarError (Dict ChunkId Nat)
  | _, _, counts, [] => .ok counts
  | position, cache, counts, entry :: entries =>
    match rebuildSnapshot external (faults position) storage manifest cache counts entry with
    | (_, .error failure) => .error failure
    | (cache, .ok counts) =>
      rebuildCounts external faults storage manifest (position + 1) cache counts entries

def Repairing.start (storage : Storage) (manifest : List SnapshotEntry) : Repairing :=
  ⟨storage.snapshots, manifest, storage.index, [], [], []⟩

def Repairing.current (state : Repairing) (storage : Storage) : Storage :=
  ⟨state.snapshots, storage.packs, state.index⟩

/-- What is stored as long as the index has not been saved. -/
def Repairing.stored (state : Repairing) (storage : Storage) : Storage :=
  { storage with snapshots := state.snapshots }

def Repairing.saved (state : Repairing) (storage : Storage) (counts : Dict ChunkId Nat) :
    Storage :=
  ⟨state.snapshots, storage.packs, state.index.rebuildRefcounts counts⟩

/-- Steps 2 to 5. -/
def Repairing.clean (state : Repairing) (actions : List RepairAction) : Repairing :=
  let state := actions.foldl (removeInvalid faults) state
  let state := actions.foldl dropDangling state
  let state := actions.foldl dropCorrupt state
  actions.foldl (removeDoomed faults) state

end Execute

/-- `execute_repair`: what is stored afterwards, and the actions applied with the errors met. -/
def executeRepair (external : External) (faults : Faults) (storage : Storage)
    (manifest : List SnapshotEntry) (cache : BlobCache) (plan : RepairPlan)
    (issues : List IntegrityIssue) :
    Storage × Except VykarError (List RepairAction × List String) :=
  match issues.findSome? fun issue =>
      match issue with
      | .snapshotReadFailed name detail => some (name, detail)
      | _ => none with
  | some (name, detail) =>
    (storage, .error (.other (s!"aborting repair: snapshot '{name}' had a transient read " ++
      s!"failure during scan ({detail}); retry when storage is stable")))
  | none =>
    match removeCorrupt faults.delete plan.actions (.start storage manifest) with
    | (state, some failure) => (state.stored storage, .error failure)
    | (state, none) =>
      let state := state.clean faults.delete plan.actions
      match rebuildCounts external faults.rebuild (state.current storage) state.manifest 0 cache ∅
          (state.manifest.filter fun entry => entry.name ∉ state.deleted) with
      | .error failure => (state.stored storage, .error failure)
      | .ok counts =>
        match faults.save with
        | some fault =>
          (if fault.stored then state.saved storage counts else state.stored storage,
            .error fault.failure)
        | none =>
          (state.saved storage counts,
            .ok (state.applied ++ [.rebuildRefcounts], state.errors))

structure RepairResult where
  errors : List CheckError
  plan : RepairPlan
  applied : List RepairAction
  repairErrors : List String

/-- `run_with_repair` in `Apply` mode, under the maintenance lock: what is stored afterwards and
what is reported.  Whether the backend allows deletions is found out by `probe_deletes_allowed`. -/
def runWithRepair (external : External) (schedule : Schedule) (faults : Faults)
    (verifyData deletesAllowed : Bool) (storage : Storage)
    (snapshotCache : Dict String SnapshotEntry) : Storage × Except VykarError RepairResult :=
  match faults.index with
  | some failure => (storage, .error failure)
  | none =>
    match faults.list with
    | some failure => (storage, .error failure)
    | none =>
      match refreshSnapshotCache external true faults.listed storage.snapshots
          snapshotCache with
      | .error failure => (storage, .error failure)
      | .ok listed =>
        let manifest := manifestOf schedule listed
        match integrityScan external schedule faults ⟨true, true, verifyData⟩ storage
            manifest with
        | .error failure => (storage, .error failure)
        | .ok (cache, scan) =>
          let plan := buildRepairPlan storage.index scan
          if plan.hasDataLoss && !deletesAllowed then
            (storage, .error (.other
              ("repair requires deleting immutable snapshot objects; " ++
                "not supported on append-only backends")))
          else
            match executeRepair external faults storage manifest cache plan
                scan.issues with
            | (storage, .error failure) => (storage, .error failure)
            | (storage, .ok (applied, repairErrors)) =>
              (storage, .ok ⟨scan.issues.map IntegrityIssue.toCheckError, plan,
                applied, repairErrors⟩)

end Vykar.Check

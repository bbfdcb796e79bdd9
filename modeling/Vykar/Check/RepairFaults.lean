import Vykar.Check.RepairRun
import Vykar.Check.Soundness

/-!
Repair under failing storage calls.

A failed call while a snapshot is scanned stops the repair only if its error is of a
transient kind; other errors are taken for damage, and so is every failed read of a
single chunk.  With errors that are recognised, intact snapshots and their chunks
survive; each kind that is not recognised costs an intact snapshot of some
repository.
-/

namespace Vykar.Check

open Index Pack Snapshot

/-- Everything about the snapshot is intact: its metadata, its item stream, and the chunks it
refers to with their packs. -/
def SnapshotSound (external : External) (storage : Storage) (key : String) : Prop :=
  ∃ ids, references external storage key = some ids ∧ ∀ id ∈ ids, ∃ entry,
    storage.index.get? id = some entry ∧ ChunkSound external storage id entry

/-- The failures of the calls that read a listed snapshot are of a transient kind, and the reads
of single chunks that sound snapshots refer to do not fail.  There are no more snapshots in the
list than stored objects. -/
structure Recognised (external : External) (faults : Faults) (verifyData : Bool)
    (storage : Storage) : Prop where
  loads : ∀ position < storage.snapshots.keysList.length, ∀ failure,
    LoadHit (faults.scan position) failure → failure.isTransientIo = true
  blobs : verifyData = true → ∀ key ids id, SnapshotSound external storage key →
    references external storage key = some ids → id ∈ ids → faults.blob id = none

def Kept (external : External) (storage final : Storage) (key : String) : Prop :=
  final.snapshots.get? key = storage.snapshots.get? key ∧
    ∀ ids, references external storage key = some ids → ∀ id ∈ ids,
      final.index.contains id = true

variable {external : External} {schedule : Schedule} {faults : Faults}
  {verifyData deletesAllowed : Bool} {storage : Storage} {manifest : List SnapshotEntry}
  {cache : BlobCache} {scan : ScanResult} {visits : List Visit} {visit : Visit}
  {snapshotCache : Dict String SnapshotEntry} {key : String}

theorem SnapshotSound.intact (sound : SnapshotSound external storage key) :
    SnapshotIntact external storage key := by
  obtain ⟨ids, isRefs, chunks⟩ := sound
  refine ⟨ids, isRefs, fun id isRef => ?_⟩
  obtain ⟨entry, found, chunkSound⟩ := chunks id isRef
  exact (chunkIntact_iff found).mpr chunkSound.verifies

theorem SnapshotSound.kept_self (sound : SnapshotSound external storage key) :
    Kept external storage storage key := by
  obtain ⟨ids, isRefs, indexed⟩ := sound.intact.indexed
  refine ⟨rfl, fun same sameRefs => ?_⟩
  cases isRefs.symm.trans sameRefs
  exact indexed

theorem SnapshotSound.decodable (sound : SnapshotSound external storage key) :
    (snapshotAt external storage.snapshots key).isSome = true := by
  obtain ⟨ids, isRefs, -⟩ := sound
  obtain ⟨snapshot, isSnapshot, -⟩ := Option.bind_eq_some_iff.mp isRefs
  rw [isSnapshot]
  rfl

theorem SnapshotSound.unharmed (sound : SnapshotSound external storage (toHex visit.entry.id))
    (lists : Lists external storage manifest) (flat : FlatStreams external storage)
    (scanned : Scanned external schedule faults verifyData storage manifest cache scan visits)
    (among : visit ∈ visits)
    (noneFailed : ∀ name detail, .snapshotReadFailed name detail ∉ scan.issues)
    (transient : ∀ failure, LoadHit (faults.scan visit.position) failure →
      failure.isTransientIo = true)
    (unhit : ∀ ids id, references external storage (toHex visit.entry.id) = some ids →
      id ∈ ids → faults.blob id = none) :
    Unharmed external faults storage manifest scan visit := by
  obtain ⟨same, sameRefs, indexed⟩ := sound.intact.indexed
  obtain ⟨ids, isRefs, chunks⟩ := sound
  obtain rfl := Option.some.inj (isRefs.symm.trans sameRefs)
  have isFound := lists.names.findSnapshot.mpr ⟨scanned.visit_listed among, rfl⟩
  rcases @scanSnapshot_intact external storage (faults.scan visit.position) manifest visit.cache
    visit.entry visit.entry _ ids (located_indexedPlain external storage)
    (scanned.sound visit among) flat isFound isRefs indexed with
      ⟨quiet, seen⟩ | ⟨failure, hit, noticed⟩
  · refine ⟨quiet, fun id isSeen removed => ?_⟩
    have isRef : id ∈ ids := seen ▸ isSeen
    obtain ⟨entry, found, chunkSound⟩ := chunks id isRef
    exact scanned.not_sound_of_removed found removed (unhit ids id isRefs isRef) chunkSound
  · obtain ⟨detail, reported⟩ := noticed (transient failure hit)
    exact absurd (scanned.mem_issues.mpr (.inr (.inl ⟨visit, among, reported⟩)))
      (noneFailed _ detail)

theorem kept_of_recognised (listable : Listable external storage snapshotCache)
    (transient : ∀ position < storage.snapshots.keysList.length, ∀ failure,
      LoadHit (faults.scan position) failure → failure.isTransientIo = true)
    (sound : SnapshotSound external storage key)
    (unhit : ∀ ids id, references external storage key = some ids → id ∈ ids →
      faults.blob id = none) :
    Kept external storage (runWithRepair external schedule faults verifyData deletesAllowed
      storage snapshotCache).1 key := by
  rcases @runWithRepair_cases external schedule faults verifyData deletesAllowed storage
    snapshotCache listable with ⟨-, failure, unchanged⟩ |
      ⟨manifest, cache, scan, visits, outcome, report, lists, scanned, executed, ran⟩
  · rw [unchanged]
    exact sound.kept_self
  · rw [ran]
    obtain ⟨entry, isListed, rfl⟩ := lists.covers key sound.decodable
    obtain ⟨visit, among, rfl⟩ := scanned.exists_visit isListed
    have survives (noneFailed : ∀ name detail, .snapshotReadFailed name detail ∉ scan.issues) :
        Kept external storage outcome (toHex visit.entry.id) := by
      have unharmed := sound.unharmed lists listable.flat scanned among noneFailed
        (transient _ (lt_of_lt_of_le (scanned.positions visit among) lists.length_le)) unhit
      obtain ⟨sameObject, indexed⟩ :=
        unharmed.survives lists scanned among executed
      refine ⟨sameObject, fun ids isRefs => ?_⟩
      obtain rfl := Option.some.inj
        ((unharmed.references lists scanned among).1.symm.trans isRefs)
      exact indexed
    cases executed with
    | refused failed => exact sound.kept_self
    | stopped noneFailed => exact survives noneFailed
    | aborted noneFailed => exact survives noneFailed
    | saved noneFailed => exact survives noneFailed

def Healthy (external : External) (storage : Storage) : Prop :=
  ∀ key id, fromHex? key = some id → (storage.snapshots.get? key).isSome = true →
    SnapshotSound external storage key

def metadataFaults (failure : VykarError) : Faults :=
  { Faults.none with scan := fun _ => { LoadFaults.none with metadata := some failure } }

def blobFaults (failed : ChunkId) (failure : VykarError) : Faults :=
  { Faults.none with blob := fun id => if id = failed then some failure else none }

theorem scanOrphan_unfailed {name detail : String} :
    scanOrphan external (fun _ => none) storage.snapshots manifest key ≠
      some (.snapshotReadFailed name detail) := by
  intro reported
  unfold scanOrphan getObject at reported
  split at reported
  · cases reported
  · split at reported
    · cases reported
    · split at reported
      · split at reported <;> cases reported
      · cases reported
      · rename_i failed
        cases failed

theorem unharmed_of_kept (lists : Lists external storage manifest)
    (scanned : Scanned external schedule faults verifyData storage manifest cache scan visits)
    {outcome : Storage} {report : Except VykarError (List RepairAction × List String)}
    (executed : Executed external faults storage manifest cache
      (buildRepairPlan storage.index scan).actions scan.issues (outcome, report))
    (orphans : faults.orphan = fun _ => none) (unhit : ∀ key, faults.delete key = none)
    (visitsUnfailed : ∀ visit ∈ visits, ∀ name detail, .snapshotReadFailed name detail ∉
      (visit.scan external faults.scan storage manifest).1)
    (among : visit ∈ visits) (kept : Kept external storage outcome (toHex visit.entry.id)) :
    Unharmed external faults storage manifest scan visit := by
  have noneFailed : ∀ name detail, .snapshotReadFailed name detail ∉ scan.issues := by
    intro name detail reported
    rcases scanned.mem_issues.mp reported with ⟨key, -, orphan⟩ | ⟨other, isOther, here⟩ | pack
    · rw [orphans] at orphan
      exact scanOrphan_unfailed orphan
    · exact visitsUnfailed other isOther name detail here
    · cases finding_of_mem_scanPacks pack
  refine executed.unharmed lists scanned noneFailed unhit among ?_
  rw [kept.1]
  exact lists.stored _ (scanned.visit_listed among)

/-- If metadata downloads fail with an error that does not count as transient, sound snapshots
are lost. -/
theorem lost_of_metadataFaults (listable : Listable external storage snapshotCache)
    {failure : VykarError} (kind : failure.isTransientIo = false)
    (sound : SnapshotSound external storage key) :
    ¬ Kept external storage (runWithRepair external schedule (metadataFaults failure) verifyData
      true storage snapshotCache).1 key := by
  rcases @runWithRepair_cases external schedule (metadataFaults failure) verifyData true storage
    snapshotCache listable with ⟨unreached, -⟩ |
      ⟨manifest, cache, scan, visits, outcome, report, lists, scanned, executed, ran⟩
  · exact absurd ⟨rfl, rfl, fun _ => rfl, rfl, rfl⟩ unreached
  · rw [ran]
    obtain ⟨entry, isListed, rfl⟩ := lists.covers key sound.decodable
    obtain ⟨visit, among, rfl⟩ := scanned.exists_visit isListed
    have scanOf (visit : Visit) (among : visit ∈ visits) :
        (visit.scan external (metadataFaults failure).scan storage manifest).1 =
          [.corruptSnapshot visit.entry.id (some visit.entry.name)] := by
      have isFound := lists.names.findSnapshot.mpr ⟨scanned.visit_listed among, rfl⟩
      have failed : loadSnapshotMeta external (some failure) storage.snapshots manifest
          visit.entry.name = .error failure := by
        simp only [loadSnapshotMeta, isFound, getObject]
      simp only [Visit.scan, scanSnapshot, metadataFaults, failed, kind]
      rfl
    intro kept
    have unharmed := unharmed_of_kept lists scanned executed rfl (fun _ => rfl)
      (fun visit among name detail => by simp [scanOf visit among]) among kept
    rw [Unharmed, scanOf visit among] at unharmed
    cases unharmed.1

theorem chunk_reported_of_blobFaults {id : ChunkId} {entry : ChunkIndexEntry}
    {failure : VykarError} (found : storage.index.get? id = some entry)
    (small : ¬ IsLarge storage.index entry.packId) :
    ∃ detail, .corruptChunk id entry.packId detail ∈
      scanPacks external schedule (blobFaults id failure) true storage := by
  have indexedPack : entry.packId ∈ packIds storage.index := mem_packIds.mpr ⟨id, entry, found, rfl⟩
  refine ⟨s!"read failed: {failure}", List.mem_append_right _ ?_⟩
  rw [if_pos rfl]
  refine List.mem_flatMap.mpr
    ⟨entry.packId, (schedule.data_perm _).mem_iff.mpr indexedPack, ?_⟩
  unfold verifyPack
  simp only
  rw [if_neg (show ¬ batchThreshold ≤ _ from small)]
  refine List.mem_filterMap.mpr ⟨(id, entry), mem_packChunks.mpr ⟨found, rfl⟩, ?_⟩
  simp [verifyBlob, readBlobFromPack, blobFaults, getRange]

/-- In a healthy repository, a chunk whose pack is read chunk by chunk costs the snapshots that
refer to it when that read fails, whatever the error. -/
theorem lost_of_blobFaults (listable : Listable external storage snapshotCache)
    (healthy : Healthy external storage) {failure : VykarError} {ids : List ChunkId}
    {id : ChunkId} {entry : ChunkIndexEntry} (sound : SnapshotSound external storage key)
    (isRefs : references external storage key = some ids) (isRef : id ∈ ids)
    (found : storage.index.get? id = some entry)
    (small : ¬ IsLarge storage.index entry.packId) :
    ¬ Kept external storage (runWithRepair external schedule (blobFaults id failure) true true
      storage snapshotCache).1 key := by
  rcases @runWithRepair_cases external schedule (blobFaults id failure) true true storage
    snapshotCache listable with ⟨unreached, -⟩ |
      ⟨manifest, cache, scan, visits, outcome, report, lists, scanned, executed, ran⟩
  · exact absurd ⟨rfl, rfl, fun _ => rfl, rfl, rfl⟩ unreached
  · rw [ran]
    obtain ⟨listed, isListed, rfl⟩ := lists.covers key sound.decodable
    obtain ⟨visit, among, rfl⟩ := scanned.exists_visit isListed
    -- no call fails while the snapshots are visited, so they are seen as they are
    have scanOf (visit : Visit) (among : visit ∈ visits) :
        (visit.scan external (blobFaults id failure).scan storage manifest).1 = [] ∧
          references external storage (toHex visit.entry.id) =
            some (visit.scan external (blobFaults id failure).scan storage manifest).2 := by
      obtain ⟨refs, areRefs, indexed⟩ := (healthy _ _ (fromHex?_toHex visit.entry.id)
        (lists.stored _ (scanned.visit_listed among))).intact.indexed
      obtain ⟨quiet, seen⟩ := visit_seen lists scanned listable.flat among
        (fun other hit => by rcases hit with hit | hit | ⟨packId, start, hit⟩ <;> cases hit)
        areRefs indexed
      exact ⟨quiet, areRefs.trans (congrArg some seen.symm)⟩
    intro kept
    have unharmed := unharmed_of_kept lists scanned executed rfl (fun _ => rfl)
      (fun visit among name detail => by simp [(scanOf visit among).1]) among kept
    cases isRefs.symm.trans (scanOf visit among).2
    obtain ⟨detail, reported⟩ := @chunk_reported_of_blobFaults external schedule storage id entry
      failure found small
    exact unharmed.2 id isRef (removed_of_blamed found (.inr (.inr
      ⟨detail, scanned.mem_issues.mpr (.inr (.inr reported))⟩)))

theorem runWithRepair_blob (reads : ChunkId → Option VykarError) :
    runWithRepair external schedule { faults with blob := reads } false deletesAllowed storage
        snapshotCache =
      runWithRepair external schedule faults false deletesAllowed storage snapshotCache := rfl

/-- If failures are recognised, sound snapshots and their chunks are kept.  A metadata download
that fails with any other kind of error loses sound snapshots of every repository, and the
failing read of a single chunk loses snapshots of every healthy repository. -/
theorem repair_keeps_sound_snapshots (external : External) (schedule : Schedule)
    (storage : Storage) (snapshotCache : Dict String SnapshotEntry)
    (listable : Listable external storage snapshotCache) :
    (∀ faults verifyData deletesAllowed, Recognised external faults verifyData storage →
      ∀ key, SnapshotSound external storage key →
        Kept external storage (runWithRepair external schedule faults verifyData deletesAllowed
          storage snapshotCache).1 key) ∧
    (∀ failure verifyData, failure.isTransientIo = false →
      ∀ key, SnapshotSound external storage key →
        ¬ Kept external storage (runWithRepair external schedule (metadataFaults failure)
          verifyData true storage snapshotCache).1 key) ∧
    (Healthy external storage →
      ∀ failure key ids id entry, SnapshotSound external storage key →
        references external storage key = some ids → id ∈ ids →
        storage.index.get? id = some entry → ¬ IsLarge storage.index entry.packId →
          ¬ Kept external storage (runWithRepair external schedule (blobFaults id failure) true
            true storage snapshotCache).1 key) := by
  refine ⟨fun faults verifyData deletesAllowed recognised key sound => ?_,
    fun failure verifyData kind key sound => lost_of_metadataFaults listable kind sound,
    fun healthy failure key ids id entry sound isRefs isRef found small =>
      lost_of_blobFaults listable healthy sound isRefs isRef found small⟩
  cases verifyData with
  | true =>
    exact kept_of_recognised listable recognised.loads sound fun ids id isRefs isRef =>
      recognised.blobs rfl key ids id sound isRefs isRef
  | false =>
    rw [← runWithRepair_blob fun _ => none]
    exact kept_of_recognised listable recognised.loads sound fun _ _ _ _ => rfl

section Samples

theorem wellKept_of_ids {ids : List SnapshotId} (flat : FlatStreams external storage)
    (only : storage.snapshots.keysList = ids.map toHex)
    (names : ∀ key ∈ ids.map toHex, ∀ other ∈ ids.map toHex,
      ∀ entry ∈ decodedEntry external storage.snapshots key,
      ∀ same ∈ decodedEntry external storage.snapshots other,
        entry.name = same.name → key = other) :
    WellKept external storage ∅ := by
  have listed {key : String} (stored : (storage.snapshots.get? key).isSome = true) :
      key ∈ ids.map toHex := only ▸ Dict.mem_keysList.mpr stored
  have canonical : CanonicalKeys storage.snapshots := by
    intro key other stored valid
    obtain ⟨id, -, rfl⟩ := List.mem_map.mp (listed stored)
    rw [fromHex?_toHex] at valid
    rw [Option.some.inj valid]
  have decoded {key : String} {entry : SnapshotEntry}
      (isEntry : listedEntry external storage.snapshots ∅ key = some entry) :
      key ∈ ids.map toHex ∧ decodedEntry external storage.snapshots key = some entry := by
    unfold listedEntry at isEntry
    split at isEntry
    · rename_i stored
      exact ⟨listed (mem_listedKeys.mp stored).2, isEntry⟩
    · cases isEntry
  refine ⟨⟨fun _ other id _ valid _ stored => canonical other id stored valid, ?_, ?_, flat⟩,
    canonical⟩
  · intro key entry found
    cases found
  · intro key other entry same isEntry isSame sameName
    obtain ⟨isKey, isFirst⟩ := decoded isEntry
    obtain ⟨isOther, isSecond⟩ := decoded isSame
    exact names key isKey other isOther entry isFirst same isSecond sameName

theorem flatStreams_of_toList
    (flat : ∀ first ∈ storage.index.toList, ∀ second ∈ storage.index.toList,
      first.2.packId = second.2.packId → first.2.packOffset ≤ second.2.packOffset →
      first.2.packOffset + first.2.storedSize ≤ second.2.packOffset + second.2.storedSize) :
    FlatStreams external storage :=
  fun _ _ _ _ _ _ _ _ _ firstFound secondFound =>
    flat _ (Dict.get?_eq_some_iff.mp firstFound) _ (Dict.get?_eq_some_iff.mp secondFound)

theorem oneSnapshot_wellKept : WellKept byteExternal oneSnapshot ∅ :=
  @wellKept_of_ids _ _ [1] (flatStreams_of_toList (by decide +kernel)) rfl (by decide +kernel)

theorem oneSnapshot_sound : SnapshotSound byteExternal oneSnapshot (toHex 1) := by
  refine ⟨[byteChunk 5, byteChunk 5], by decide +kernel, fun id isRef => ?_⟩
  obtain rfl : id = byteChunk 5 := by simpa using isRef
  refine ⟨⟨2, 3, 9, 13⟩, by decide +kernel, ⟨[5], by decide +kernel, by decide +kernel⟩, ?_⟩
  intro large
  exact absurd large (by decide +kernel)

/-- A timeout while the metadata is read leaves the repository as it is. -/
theorem repair_keeps_sound_snapshots_timeout :
    Kept byteExternal oneSnapshot (runWithRepair byteExternal .inOrder
      (metadataFaults (.io "timed out")) true true oneSnapshot ∅).1 (toHex 1) := by
  refine (repair_keeps_sound_snapshots byteExternal .inOrder oneSnapshot ∅
    oneSnapshot_wellKept.toListable).1 _ true true ⟨?_, fun _ _ _ _ _ _ _ => rfl⟩ _
      oneSnapshot_sound
  rintro position - failure (hit | hit | ⟨packId, start, hit⟩) <;> cases hit
  rfl

/-- A server that answers one metadata download with an error costs an intact snapshot, and so
does a timeout in the read of one chunk. -/
theorem repair_deletes_sound_snapshot :
    WellKept byteExternal oneSnapshot ∅ ∧ SnapshotSound byteExternal oneSnapshot (toHex 1) ∧
      (oneSnapshot.snapshots.get? (toHex 1)).isSome = true ∧
      (runWithRepair byteExternal .inOrder (metadataFaults (.other "REST GET: HTTP 503"))
        false true oneSnapshot ∅).1.snapshots.get? (toHex 1) = none ∧
      (runWithRepair byteExternal .inOrder (blobFaults (byteChunk 5) (.io "timed out"))
        true true oneSnapshot ∅).1.snapshots.get? (toHex 1) = none :=
  ⟨oneSnapshot_wellKept, oneSnapshot_sound, by decide +kernel, by decide +kernel,
    by decide +kernel⟩

end Samples

end Vykar.Check

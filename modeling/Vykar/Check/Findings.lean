import Vykar.Check.Scan

/-!
What the scan finds.

The issues about packs and chunks are compared with the chunks that verify, and
the issues about a listed snapshot with its contents.  The lemmas allow failing
calls: they say which issues can be due to a failed call only.
-/

namespace Vykar.Check

open Index Pack Snapshot

variable {external : External} {storage : Storage} {packId : PackId} {id : ChunkId}
  {entry : ChunkIndexEntry} {issue : IntegrityIssue} {index : ChunkIndex}

/-- The chunk is where its entry says and hashes to its id. -/
def Verifies (external : External) (packs : Dict PackId Bytes) (id : ChunkId)
    (entry : ChunkIndexEntry) : Prop :=
  ∃ data, plainAt external packs (locationOf id entry) = some data ∧ external.computeId data = id

theorem chunkIntact_iff (found : storage.index.get? id = some entry) :
    ChunkIntact external storage id ↔ Verifies external storage.packs id entry := by
  unfold ChunkIntact Verifies indexedPlain
  rw [found, Option.bind_some]

section Chunk

variable {raw file : Bytes} {faults : ChunkId → Option VykarError}

theorem verifySingleChunk_eq_none :
    verifySingleChunk external packId id raw = none ↔
      ∃ data, external.readChunk id raw = .ok data ∧ external.computeId data = id := by
  unfold verifySingleChunk External.readChunk
  cases external.unpackObject .chunkData (idBytes id) raw with
  | error failure => simp [bind, Except.bind]
  | ok compressed =>
    simp only [bind, Except.bind]
    cases external.decompress compressed with
    | error failure => simp
    | ok plaintext =>
      simp only [Except.ok.injEq, exists_eq_left']
      split <;> simp_all

theorem verifySingleChunk_eq_some (found : verifySingleChunk external packId id raw = some issue) :
    ∃ detail, issue = .corruptChunk id packId detail := by
  unfold verifySingleChunk at found
  split at found
  · exact ⟨_, (Option.some.inj found).symm⟩
  · split at found
    · exact ⟨_, (Option.some.inj found).symm⟩
    · simp only at found
      split at found
      · cases found
      · exact ⟨_, (Option.some.inj found).symm⟩

theorem verifies_of_read {data : Bytes} (stored : storage.packs.get? entry.packId = some file)
    (read : readRange file entry.packOffset entry.storedSize = some raw)
    (decoded : external.readChunk id raw = .ok data) (same : external.computeId data = id) :
    Verifies external storage.packs id entry :=
  ⟨data, @plainAt_of_readChunk _ _ external storage.packs _ (locationOf id entry) stored read
    decoded, same⟩

theorem Verifies.read (verifies : Verifies external storage.packs id entry) :
    ∃ file raw, storage.packs.get? entry.packId = some file ∧ entry.storedSize ≠ 0 ∧
      entry.packOffset + entry.storedSize ≤ file.length ∧
      readRange file entry.packOffset entry.storedSize = some raw ∧
      verifySingleChunk external entry.packId id raw = none := by
  obtain ⟨data, isPlain, same⟩ := verifies
  obtain ⟨file, raw, found, stored, nonempty, inside, read, decoded⟩ :=
    @exists_file_of_plainAt external storage.packs (locationOf id entry) (by rw [isPlain]; rfl)
  have again := plainAt_of_readChunk stored read decoded
  cases isPlain.symm.trans again
  exact ⟨file, raw, stored, nonempty, inside, read,
    verifySingleChunk_eq_none.mpr ⟨data, decoded, same⟩⟩

theorem verifyInFile_eq_none (stored : storage.packs.get? entry.packId = some file) :
    verifyInFile external entry.packId file (id, entry) = none ↔
      Verifies external storage.packs id entry := by
  unfold verifyInFile
  simp only
  split
  · rename_i short
    simp only [reduceCtorEq, false_iff]
    intro verifies
    obtain ⟨same, raw, sameStored, -, inside, -⟩ := verifies.read
    cases stored.symm.trans sameStored
    omega
  · rename_i long
    have read := readRange_eq (Nat.le_of_not_lt long)
    constructor
    · intro fine
      obtain ⟨data, decoded, same⟩ := verifySingleChunk_eq_none.mp fine
      exact verifies_of_read stored read decoded same
    · intro verifies
      obtain ⟨same, raw, sameStored, -, -, sameRead, fine⟩ := verifies.read
      cases stored.symm.trans sameStored
      cases read.symm.trans sameRead
      exact fine

theorem verifyInFile_eq_some (found : verifyInFile external packId file (id, entry) = some issue) :
    ∃ detail, issue = .corruptChunk id packId detail := by
  unfold verifyInFile at found
  simp only at found
  split at found
  · exact ⟨_, (Option.some.inj found).symm⟩
  · exact verifySingleChunk_eq_some found

theorem verifyBlob_eq_none (unhit : faults id = none) :
    verifyBlob external faults storage.packs entry.packId (id, entry) = none ↔
      Verifies external storage.packs id entry := by
  unfold verifyBlob readBlobFromPack
  simp only [unhit]
  constructor
  · intro fine
    split at fine
    · cases fine
    · rename_i raw read
      split at read
      · cases read
      · cases read
      · rename_i part fetched
        split at read
        · cases read
          obtain ⟨file, stored, range⟩ := getRange_eq_some fetched
          obtain ⟨data, decoded, same⟩ := verifySingleChunk_eq_none.mp fine
          exact verifies_of_read stored range decoded same
        · cases read
  · intro verifies
    obtain ⟨file, raw, stored, nonempty, -, range, fine⟩ := verifies.read
    have fetched : getRange external none storage.packs entry.packId entry.packOffset
        entry.storedSize = .ok (some raw) := by
      simp only [getRange, stored, range]
      rw [if_neg nonempty]
    rw [fetched]
    simp only [readRange_length range, if_true]
    exact fine

theorem verifyBlob_eq_some
    (found : verifyBlob external faults storage.packs packId (id, entry) = some issue) :
    ∃ detail, issue = .corruptChunk id packId detail := by
  unfold verifyBlob at found
  split at found
  · exact ⟨_, (Option.some.inj found).symm⟩
  · exact verifySingleChunk_eq_some found

end Chunk

section Packs

theorem mem_packChunks :
    (id, entry) ∈ packChunks index packId ↔ index.get? id = some entry ∧ entry.packId = packId := by
  simp [packChunks, Dict.get?_eq_some_iff]

theorem mem_packIds :
    packId ∈ packIds index ↔ ∃ id entry, index.get? id = some entry ∧ entry.packId = packId := by
  simp [packIds, Dict.get?_eq_some_iff]

/-- The pack is looked at as a whole. -/
def IsLarge (index : ChunkIndex) (packId : PackId) : Prop :=
  batchThreshold ≤ (packChunks index packId).length

instance (index : ChunkIndex) (packId : PackId) : Decidable (IsLarge index packId) :=
  inferInstanceAs (Decidable (_ ≤ _))

/-- The chunk verifies, and so does the header of its pack if that is looked at. -/
structure ChunkSound (external : External) (storage : Storage) (id : ChunkId)
    (entry : ChunkIndexEntry) : Prop where
  verifies : Verifies external storage.packs id entry
  header : IsLarge storage.index entry.packId → ∀ file,
    storage.packs.get? entry.packId = some file → hasValidHeader file = true

inductive PackFinding (external : External) (faults : Faults) (storage : Storage) :
    IntegrityIssue → Prop where
  | missing {packId : PackId} (indexed : packId ∈ packIds storage.index)
      (absent : storage.packs.get? packId = none) :
      PackFinding external faults storage (.missingPack packId)
  | failed {packId : PackId} {detail : String}
      (hit : (faults.packExists packId).isSome = true ∨ (faults.fullPack packId).isSome = true) :
      PackFinding external faults storage (.packExistenceCheckFailed packId detail)
  | header {packId : PackId} {detail : String} (large : IsLarge storage.index packId)
      (bad : ∀ file, storage.packs.get? packId = some file → hasValidHeader file = false) :
      PackFinding external faults storage (.corruptPackContent packId detail)
  | chunk {id : ChunkId} {entry : ChunkIndexEntry} {detail : String}
      (indexed : storage.index.get? id = some entry)
      (damaged : (faults.blob id).isSome = true ∨ ¬ Verifies external storage.packs id entry) :
      PackFinding external faults storage (.corruptChunk id entry.packId detail)

theorem IsLarge.mem_packIds (large : IsLarge index packId) :
    packId ∈ packIds index := by
  have nonempty : packChunks index packId ≠ [] := by
    intro nothing
    rw [IsLarge, nothing] at large
    cases large
  obtain ⟨⟨id, entry⟩, among⟩ := List.exists_mem_of_ne_nil _ nonempty
  exact Check.mem_packIds.mpr ⟨id, entry, mem_packChunks.mp among⟩

theorem packChunks_keys_nodup (index : ChunkIndex) (packId : PackId) :
    ((packChunks index packId).map Prod.fst).Nodup :=
  List.Nodup.sublist (List.filter_sublist.map Prod.fst)
    (Dict.toList_keys index ▸ index.keysList_nodup)

theorem IsLarge.of_within {smaller larger : ChunkIndex} (large : IsLarge smaller packId)
    (within : Within smaller larger) : IsLarge larger packId := by
  have part : (packChunks smaller packId).map Prod.fst ⊆
      (packChunks larger packId).map Prod.fst := by
    intro id listed
    obtain ⟨⟨_, entry⟩, among, rfl⟩ := List.mem_map.mp listed
    obtain ⟨found, samePack⟩ := mem_packChunks.mp among
    obtain ⟨same, foundLarger, sameLocation⟩ := within _ entry found
    refine List.mem_map.mpr ⟨(_, same), mem_packChunks.mpr ⟨foundLarger, ?_⟩, rfl⟩
    exact (congrArg ChunkLocation.packId sameLocation).trans samePack
  have shorter :=
    List.Subperm.length_le (List.subperm_of_subset (packChunks_keys_nodup smaller packId) part)
  rw [List.length_map, List.length_map] at shorter
  exact Nat.le_trans large shorter

variable {schedule : Schedule} {faults : Faults} {verifyData : Bool}

theorem finding_of_mem_verifyPack (listed : issue ∈ verifyPack external faults storage packId) :
    PackFinding external faults storage issue := by
  unfold verifyPack at listed
  simp only at listed
  split at listed
  · rename_i large
    unfold verifyPackFull at listed
    split at listed
    · rename_i failure fetched
      obtain rfl := List.mem_singleton.mp listed
      exact .failed (.inr (by rw [getObject_eq_error.mp fetched]; rfl))
    · rename_i fetched
      obtain rfl := List.mem_singleton.mp listed
      refine .header large fun file stored => ?_
      rw [(getObject_eq_ok.mp fetched).2] at stored
      cases stored
    · rename_i file fetched
      have stored := (getObject_eq_ok.mp fetched).2
      split at listed
      · obtain ⟨⟨id, entry⟩, among, found⟩ := List.mem_filterMap.mp listed
        obtain ⟨indexed, rfl⟩ := mem_packChunks.mp among
        obtain ⟨detail, rfl⟩ := verifyInFile_eq_some found
        refine .chunk indexed (.inr fun verifies => ?_)
        rw [(verifyInFile_eq_none stored).mpr verifies] at found
        cases found
      · rename_i bad
        obtain rfl := List.mem_singleton.mp listed
        refine .header large fun same sameStored => ?_
        cases stored.symm.trans sameStored
        simpa using bad
  · obtain ⟨⟨id, entry⟩, among, found⟩ := List.mem_filterMap.mp listed
    obtain ⟨indexed, rfl⟩ := mem_packChunks.mp among
    obtain ⟨detail, rfl⟩ := verifyBlob_eq_some found
    refine .chunk indexed ?_
    cases hit : faults.blob id with
    | some failure => exact .inl rfl
    | none =>
      refine .inr fun verifies => ?_
      rw [(verifyBlob_eq_none hit).mpr verifies] at found
      cases found

theorem finding_of_mem_scanPacks
    (listed : issue ∈ scanPacks external schedule faults verifyData storage) :
    PackFinding external faults storage issue := by
  rcases List.mem_append.mp listed with existence | data
  · obtain ⟨packId, among, found⟩ := List.mem_filterMap.mp existence
    unfold checkExistence at found
    split at found
    · rename_i failure hit
      cases found
      exact .failed (.inl (by rw [hit]; rfl))
    · split at found
      · cases found
      · rename_i absent
        cases found
        exact .missing ((schedule.existence_perm _).mem_iff.mp among) (by simpa using absent)
  · split at data
    · obtain ⟨packId, -, found⟩ := List.mem_flatMap.mp data
      exact finding_of_mem_verifyPack found
    · cases data

theorem scanPacks_eq_nil (chunks : ∀ id entry, storage.index.get? id = some entry →
    ChunkSound external storage id entry) :
    scanPacks external schedule .none verifyData storage = [] := by
  apply List.eq_nil_iff_forall_not_mem.mpr
  intro issue listed
  cases finding_of_mem_scanPacks listed with
  | missing indexed absent =>
    obtain ⟨id, entry, found, rfl⟩ := mem_packIds.mp indexed
    obtain ⟨file, -, stored, -⟩ := (chunks id entry found).verifies.read
    rw [absent] at stored
    cases stored
  | failed hit => rcases hit with hit | hit <;> cases hit
  | header large bad =>
    obtain ⟨id, entry, found, rfl⟩ := mem_packIds.mp large.mem_packIds
    obtain ⟨file, -, stored, -⟩ := (chunks id entry found).verifies.read
    have valid := (chunks id entry found).header large file stored
    rw [bad file stored] at valid
    cases valid
  | chunk found damaged =>
    rcases damaged with hit | broken
    · cases hit
    · exact broken (chunks _ _ found).verifies

/-- The reported issues cover every indexed chunk that is not sound, unless a call fails. -/
theorem exists_issue_of_not_sound (found : storage.index.get? id = some entry)
    (existsUnhit : faults.packExists entry.packId = none)
    (fullUnhit : faults.fullPack entry.packId = none) (blobUnhit : faults.blob id = none)
    (damaged : ¬ ChunkSound external storage id entry) :
    .missingPack entry.packId ∈ scanPacks external schedule faults true storage ∨
      (∃ detail, .corruptPackContent entry.packId detail ∈
        scanPacks external schedule faults true storage) ∨
      ∃ detail, .corruptChunk id entry.packId detail ∈
        scanPacks external schedule faults true storage := by
  have indexedPack : entry.packId ∈ packIds storage.index := mem_packIds.mpr ⟨id, entry, found, rfl⟩
  have ofData {issue : IntegrityIssue}
      (reported : issue ∈ verifyPack external faults storage entry.packId) :
      issue ∈ scanPacks external schedule faults true storage := by
    refine List.mem_append_right _ ?_
    rw [if_pos rfl]
    exact List.mem_flatMap.mpr
      ⟨entry.packId, (schedule.data_perm _).mem_iff.mpr indexedPack, reported⟩
  cases stored : storage.packs.get? entry.packId with
  | none =>
    refine .inl (List.mem_append_left _ (List.mem_filterMap.mpr
      ⟨entry.packId, (schedule.existence_perm _).mem_iff.mpr indexedPack, ?_⟩))
    simp [checkExistence, existsUnhit, stored]
  | some file =>
    have among : (id, entry) ∈ packChunks storage.index entry.packId :=
      mem_packChunks.mpr ⟨found, rfl⟩
    by_cases large : IsLarge storage.index entry.packId
    · have full : verifyPack external faults storage entry.packId =
          if hasValidHeader file then (packChunks storage.index entry.packId).filterMap
            (verifyInFile external entry.packId file)
          else [.corruptPackContent entry.packId "invalid pack header"] := by
        unfold verifyPack
        simp only
        rw [if_pos (show batchThreshold ≤ _ from large), verifyPackFull,
          getObject_eq_ok.mpr ⟨fullUnhit, stored⟩]
      by_cases valid : hasValidHeader file = true
      · have broken : ¬ Verifies external storage.packs id entry := fun verifies =>
          damaged ⟨verifies, fun _ same sameStored => by
            rwa [← Option.some.inj (stored.symm.trans sameStored)]⟩
        obtain ⟨issue, reported⟩ := Option.ne_none_iff_exists'.mp
          (mt (verifyInFile_eq_none stored).mp broken)
        obtain ⟨detail, rfl⟩ := verifyInFile_eq_some reported
        refine .inr (.inr ⟨detail, ofData ?_⟩)
        rw [full, if_pos valid]
        exact List.mem_filterMap.mpr ⟨_, among, reported⟩
      · refine .inr (.inl ⟨"invalid pack header", ofData ?_⟩)
        rw [full, if_neg valid]
        exact List.mem_singleton_self _
    · have broken : ¬ Verifies external storage.packs id entry := fun verifies =>
        damaged ⟨verifies, fun isLarge => absurd isLarge large⟩
      obtain ⟨issue, reported⟩ := Option.ne_none_iff_exists'.mp
        (mt (verifyBlob_eq_none blobUnhit).mp broken)
      obtain ⟨detail, rfl⟩ := verifyBlob_eq_some reported
      refine .inr (.inr ⟨detail, ofData ?_⟩)
      unfold verifyPack
      simp only
      rw [if_neg (show ¬ batchThreshold ≤ _ from large)]
      exact List.mem_filterMap.mpr ⟨_, among, reported⟩

end Packs

section Snapshots

variable {faults : LoadFaults} {manifest : List SnapshotEntry} {cache : BlobCache}
  {listed found : SnapshotEntry} {plain : ChunkId → Option Bytes} {ids : List ChunkId}
  {snapshot : SnapshotMeta} {name : String} {fault : Option VykarError}

theorem loadSnapshotItemStream_ok (located : Located external storage plain)
    (cacheSound : CacheSound plain cache) (faults : LoadFaults) (name : String) :
    CacheSound plain (loadSnapshotItemStream external faults storage manifest cache name).1 ∧
      ∀ stream, (loadSnapshotItemStream external faults storage manifest cache name).2 =
          .ok stream →
        ∃ snapshot, loadSnapshotMeta external faults.again storage.snapshots manifest name =
            .ok snapshot ∧ (∀ id ∈ snapshot.itemPtrs, storage.index.contains id = true) ∧
          streamOf external storage snapshot.itemPtrs = some stream := by
  unfold loadSnapshotItemStream
  split
  · exact ⟨cacheSound, fun stream done => by cases done⟩
  · rename_i snapshot loaded
    obtain ⟨next, result⟩ := loadItemStreamFromPtrs_ok located cacheSound faults.range
    exact ⟨next, fun stream done => ⟨snapshot, loaded, result stream done⟩⟩

theorem danglingItemPtrs_eq_nil :
    danglingItemPtrs index name ids = [] ↔ ∀ id ∈ ids, index.contains id = true := by
  simp [danglingItemPtrs]

theorem danglingFileChunks_eq_nil {items : List Item} :
    danglingFileChunks index name items = [] ↔
      ∀ id ∈ fileChunks items, index.contains id = true := by
  simp only [danglingFileChunks, fileChunks, List.flatMap_eq_nil_iff, List.map_eq_nil_iff,
    List.filter_eq_nil_iff, List.mem_flatMap, Bool.not_eq_true', Bool.not_eq_false]
  constructor
  · rintro all id ⟨item, listed, among⟩
    exact all item listed id among
  · intro all item listed id among
    exact all id ⟨item, listed, among⟩

theorem findSnapshot_of_loadSnapshotMeta
    (loaded : loadSnapshotMeta external fault storage.snapshots manifest name = .ok snapshot) :
    ∃ found, findSnapshot manifest name = some found := by
  unfold loadSnapshotMeta at loaded
  split at loaded
  · cases loaded
  · exact ⟨_, ‹_›⟩

theorem references_eq_some {key : String} :
    references external storage key = some ids ↔
      ∃ snapshot stream items, snapshotAt external storage.snapshots key = some snapshot ∧
        streamOf external storage snapshot.itemPtrs = some stream ∧
        external.forEachDecodedItem stream = (items, none) ∧
        ids = snapshot.itemPtrs ++ fileChunks items := by
  constructor
  · intro isRefs
    obtain ⟨snapshot, loaded, rest⟩ := Option.bind_eq_some_iff.mp isRefs
    obtain ⟨items, decoded, rfl⟩ := Option.map_eq_some_iff.mp rest
    obtain ⟨stream, read, match_items⟩ := Option.bind_eq_some_iff.mp decoded
    refine ⟨snapshot, stream, items, loaded, read, ?_, rfl⟩
    split at match_items
    · rename_i sameItems isItems
      rw [isItems, Option.some.inj match_items]
    · cases match_items
  · rintro ⟨snapshot, stream, items, loaded, read, decoded, rfl⟩
    simp only [references, itemsOf]
    rw [loaded, Option.bind_some, read, Option.bind_some, decoded]
    rfl

theorem scanSnapshot_cacheSound (located : Located external storage plain)
    (cacheSound : CacheSound plain cache) :
    CacheSound plain (scanSnapshot external faults storage manifest cache listed).1 := by
  unfold scanSnapshot
  split
  · exact cacheSound
  · have next := (@loadSnapshotItemStream_ok external storage manifest cache plain located
      cacheSound faults listed.name).1
    simp only
    split
    · rename_i load
      rw [load] at next
      exact next
    · rename_i load
      rw [load] at next
      exact next

theorem scanSnapshot_clean (located : Located external storage plain)
    (cacheSound : CacheSound plain cache)
    (clean : (scanSnapshot external faults storage manifest cache listed).2.1 = []) :
    ∃ found ids, findSnapshot manifest listed.name = some found ∧
      references external storage (toHex found.id) = some ids ∧
      (∀ id ∈ ids, storage.index.contains id = true) ∧
      (scanSnapshot external faults storage manifest cache listed).2.2 = ids := by
  unfold scanSnapshot at clean ⊢
  split at clean
  · cases clean
  · rename_i snapshot loaded
    obtain ⟨found, isFound⟩ := findSnapshot_of_loadSnapshotMeta loaded
    have isSnapshot := ((loadSnapshotMeta_eq_ok isFound).mp loaded).2
    obtain ⟨-, result⟩ := @loadSnapshotItemStream_ok external storage manifest cache plain located
      cacheSound faults listed.name
    simp only at clean ⊢
    split at clean
    · exact absurd (List.append_eq_nil_iff.mp clean).2 (by simp)
    · rename_i stream load
      rw [load] at result
      obtain ⟨again, reloaded, -, read⟩ := result stream rfl
      obtain rfl := Option.some.inj
        (isSnapshot.symm.trans ((loadSnapshotMeta_eq_ok isFound).mp reloaded).2)
      simp only [List.append_eq_nil_iff, danglingItemPtrs_eq_nil, danglingFileChunks_eq_nil,
        Option.toList_eq_nil_iff, Option.map_eq_none_iff] at clean
      refine ⟨found, _, isFound, references_eq_some.mpr ⟨snapshot, stream,
        (external.forEachDecodedItem stream).1, isSnapshot, read, ?_, rfl⟩, ?_, rfl⟩
      · rw [← clean.1.2]
      · intro id among
        rcases List.mem_append.mp among with pointer | file
        · exact clean.1.1 id pointer
        · exact clean.2 id file

def LoadHit (faults : LoadFaults) (failure : VykarError) : Prop :=
  faults.metadata = some failure ∨ faults.again = some failure ∨
    ∃ packId start, faults.range packId start = some failure

theorem loadSnapshotMeta_readable (isFound : findSnapshot manifest name = some found)
    (isSnapshot : snapshotAt external storage.snapshots (toHex found.id) = some snapshot) :
    loadSnapshotMeta external fault storage.snapshots manifest name = .ok snapshot ∨
      ∃ failure, fault = some failure ∧
        loadSnapshotMeta external fault storage.snapshots manifest name = .error failure := by
  cases fault with
  | none => exact .inl ((loadSnapshotMeta_eq_ok isFound).mpr ⟨rfl, isSnapshot⟩)
  | some failure => exact .inr ⟨failure, rfl, by simp only [loadSnapshotMeta, isFound, getObject]⟩

theorem loadSnapshotItemStream_readable (located : Located external storage plain)
    (cacheSound : CacheSound plain cache) (flat : FlatStreams external storage)
    (isFound : findSnapshot manifest name = some found)
    (isSnapshot : snapshotAt external storage.snapshots (toHex found.id) = some snapshot)
    {stream : Bytes} (read : streamOf external storage snapshot.itemPtrs = some stream) :
    (loadSnapshotItemStream external faults storage manifest cache name).2 = .ok stream ∨
      ∃ failure, LoadHit faults failure ∧
        (loadSnapshotItemStream external faults storage manifest cache name).2 =
          .error failure := by
  obtain ⟨-, result⟩ := @loadSnapshotItemStream_ok external storage manifest cache plain located
    cacheSound faults name
  cases load : (loadSnapshotItemStream external faults storage manifest cache name).2 with
  | ok same =>
    obtain ⟨again, reloaded, -, reread⟩ := result same load
    obtain rfl := Option.some.inj
      (isSnapshot.symm.trans ((loadSnapshotMeta_eq_ok isFound).mp reloaded).2)
    cases read.symm.trans reread
    exact .inl rfl
  | error failure =>
    refine .inr ⟨failure, .inr ?_, rfl⟩
    unfold loadSnapshotItemStream at load
    rcases @loadSnapshotMeta_readable external storage manifest found snapshot _ faults.again
      isFound isSnapshot with loaded | ⟨other, hit, failed⟩
    · rw [loaded] at load
      exact .inr (loadItemStreamFromPtrs_fault (flat _ _ isSnapshot) (by rw [read]; rfl) load)
    · rw [failed] at load
      cases load
      exact .inl hit

theorem scanSnapshot_intact (located : Located external storage plain)
    (cacheSound : CacheSound plain cache) (flat : FlatStreams external storage)
    (isFound : findSnapshot manifest listed.name = some found)
    (isRefs : references external storage (toHex found.id) = some ids)
    (indexed : ∀ id ∈ ids, storage.index.contains id = true) :
    ((scanSnapshot external faults storage manifest cache listed).2.1 = [] ∧
        (scanSnapshot external faults storage manifest cache listed).2.2 = ids) ∨
      ∃ failure, LoadHit faults failure ∧ (failure.isTransientIo = true → ∃ detail,
        .snapshotReadFailed listed.name detail ∈
          (scanSnapshot external faults storage manifest cache listed).2.1) := by
  obtain ⟨snapshot, stream, items, isSnapshot, read, decoded, rfl⟩ := references_eq_some.mp isRefs
  unfold scanSnapshot
  rcases @loadSnapshotMeta_readable external storage manifest found snapshot _ faults.metadata
    isFound isSnapshot with loaded | ⟨failure, hit, failed⟩
  · rw [loaded]
    simp only
    have outcome := @loadSnapshotItemStream_readable external storage faults manifest cache found
      plain snapshot listed.name located cacheSound flat isFound isSnapshot stream read
    split
    · rename_i failure load
      rw [load] at outcome
      obtain ⟨same, hit, failed⟩ := outcome.resolve_left (by simp)
      cases failed
      refine .inr ⟨failure, hit, fun transient => ?_⟩
      rw [if_pos transient]
      exact ⟨_, List.mem_append_right _ (List.mem_singleton_self _)⟩
    · rename_i same load
      rw [load] at outcome
      obtain rfl : same = stream := by
        rcases outcome with done | ⟨failure, -, failed⟩
        · exact Except.ok.inj done
        · cases failed
      refine .inl ⟨?_, by rw [decoded]⟩
      simp only [decoded, List.append_eq_nil_iff, danglingItemPtrs_eq_nil,
        danglingFileChunks_eq_nil]
      exact ⟨⟨fun id among => indexed id (List.mem_append_left _ among), rfl⟩,
        fun id among => indexed id (List.mem_append_right _ among)⟩
  · rw [failed]
    refine .inr ⟨failure, .inl hit, fun transient => ?_⟩
    simp only
    rw [if_pos transient]
    exact ⟨_, List.mem_singleton_self _⟩

structure Visit where
  position : Nat
  entry : SnapshotEntry
  cache : BlobCache

def Visit.scan (external : External) (faults : Nat → LoadFaults) (storage : Storage)
    (manifest : List SnapshotEntry) (visit : Visit) : List IntegrityIssue × List ChunkId :=
  (scanSnapshot external (faults visit.position) storage manifest visit.cache visit.entry).2

theorem scanSnapshots_visits (located : Located external storage plain)
    (cacheSound : CacheSound plain cache) (faults : Nat → LoadFaults)
    (manifest entries : List SnapshotEntry) (start : Nat) :
    ∃ visits : List Visit, visits.map Visit.entry = entries ∧
      (∀ visit ∈ visits, visit.position < start + entries.length ∧
        CacheSound plain visit.cache) ∧
      CacheSound plain (scanSnapshots external faults storage manifest start cache entries).1 ∧
      (scanSnapshots external faults storage manifest start cache entries).2 =
        (visits.flatMap fun visit => (visit.scan external faults storage manifest).1,
          visits.map fun visit =>
            (visit.entry.name, (visit.scan external faults storage manifest).2)) := by
  induction entries generalizing start cache with
  | nil => exact ⟨[], rfl, by simp, cacheSound, rfl⟩
  | cons entry entries ih =>
    obtain ⟨visits, sameEntries, sound, final, result⟩ := ih
      (@scanSnapshot_cacheSound external storage (faults start) manifest cache entry plain
        located cacheSound) (start + 1)
    refine ⟨⟨start, entry, cache⟩ :: visits, by rw [List.map_cons, sameEntries], ?_, final, ?_⟩
    · intro visit listed
      rw [List.length_cons]
      rcases List.mem_cons.mp listed with rfl | among
      · exact ⟨by dsimp only; omega, cacheSound⟩
      · obtain ⟨position, visitSound⟩ := sound visit among
        exact ⟨by omega, visitSound⟩
    · have issues := congrArg Prod.fst result
      have seen := congrArg Prod.snd result
      simp only at issues seen
      rw [scanSnapshots]
      simp only [List.flatMap_cons, List.map_cons]
      rw [issues, seen]
      rfl

theorem cacheSound_empty (plain : ChunkId → Option Bytes) : CacheSound plain .empty := by
  intro id data found
  cases found

theorem scan_visits (external : External) (faults : Nat → LoadFaults) (storage : Storage)
    (manifest : List SnapshotEntry) :
    ∃ visits : List Visit, visits.map Visit.entry = manifest ∧
      (∀ visit ∈ visits, visit.position < manifest.length ∧
        CacheSound (indexedPlain external storage) visit.cache) ∧
      CacheSound (indexedPlain external storage)
        (scanSnapshots external faults storage manifest 0 .empty manifest).1 ∧
      (scanSnapshots external faults storage manifest 0 .empty manifest).2 =
        (visits.flatMap fun visit => (visit.scan external faults storage manifest).1,
          visits.map fun visit =>
            (visit.entry.name, (visit.scan external faults storage manifest).2)) :=
  Nat.zero_add manifest.length ▸ scanSnapshots_visits (located_indexedPlain external storage)
    (cacheSound_empty _) faults manifest manifest 0

/-- The object under the key is the one loaded for a name of the list. -/
def LookedAt (manifest : List SnapshotEntry) (key : String) : Prop :=
  ∃ entry, findSnapshot manifest entry.name = some entry ∧ key = toHex entry.id

theorem mem_of_findSnapshot (isFound : findSnapshot manifest name = some found) :
    found ∈ manifest ∧ found.name = name :=
  ⟨List.mem_of_find?_eq_some isFound, by simpa using List.find?_some isFound⟩

theorem exists_findSnapshot (isListed : listed ∈ manifest) :
    ∃ found, findSnapshot manifest listed.name = some found ∧
      LookedAt manifest (toHex found.id) := by
  obtain ⟨found, isFound⟩ : ∃ found, findSnapshot manifest listed.name = some found := by
    apply Option.isSome_iff_exists.mp
    rw [findSnapshot, List.find?_isSome]
    exact ⟨listed, isListed, by simp⟩
  refine ⟨found, isFound, found, ?_, rfl⟩
  rw [(mem_of_findSnapshot isFound).2]
  exact isFound

variable {loadFaults : Nat → LoadFaults} {key : String}

theorem references_of_quiet
    (quiet : (scanSnapshots external loadFaults storage manifest 0 .empty manifest).2.1 = [])
    (lookedAt : LookedAt manifest key) :
    ∃ ids, references external storage key = some ids ∧
      ∀ id ∈ ids, storage.index.contains id = true := by
  obtain ⟨entry, isFound, rfl⟩ := lookedAt
  obtain ⟨visits, entries, sound, -, result⟩ := scan_visits external loadFaults storage manifest
  have isListed := (mem_of_findSnapshot isFound).1
  rw [← entries] at isListed
  obtain ⟨visit, among, rfl⟩ := List.mem_map.mp isListed
  have quietVisit : (visit.scan external loadFaults storage manifest).1 = [] := by
    rw [result, List.flatMap_eq_nil_iff] at quiet
    exact quiet visit among
  obtain ⟨same, ids, sameFound, isRefs, indexed, -⟩ := scanSnapshot_clean
    (located_indexedPlain external storage) (sound visit among).2 quietVisit
  cases isFound.symm.trans sameFound
  exact ⟨ids, isRefs, indexed⟩

theorem quiet_of_references (flat : FlatStreams external storage)
    (unhit : ∀ position failure, ¬ LoadHit (loadFaults position) failure)
    (readable : ∀ key, LookedAt manifest key → ∃ ids, references external storage key = some ids ∧
      ∀ id ∈ ids, storage.index.contains id = true) :
    (scanSnapshots external loadFaults storage manifest 0 .empty manifest).2.1 = [] := by
  obtain ⟨visits, entries, sound, -, result⟩ := scan_visits external loadFaults storage manifest
  rw [result, List.flatMap_eq_nil_iff]
  intro visit among
  have isListed : visit.entry ∈ manifest := entries ▸ List.mem_map_of_mem among
  obtain ⟨found, isFound, lookedAt⟩ := exists_findSnapshot isListed
  obtain ⟨ids, isRefs, indexed⟩ := readable _ lookedAt
  rcases scanSnapshot_intact (located_indexedPlain external storage) (sound visit among).2 flat
    isFound isRefs indexed with ⟨quiet, -⟩ | ⟨failure, hit, -⟩
  · exact quiet
  · exact absurd hit (unhit visit.position failure)

end Snapshots

end Vykar.Check

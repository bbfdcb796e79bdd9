import Vykar.Check.RepairFaults

/-!
What a repository looks like after a repair without failing calls.

The snapshots that are left are intact, the index holds their chunks with exact
reference counts and nothing else, and no sound snapshot is gone.  A second repair
finds nothing to do.
-/

namespace Vykar.Check

open Index Pack Snapshot

def storedKeys (snapshots : Dict String Bytes) : List String :=
  snapshots.keysList.filter fun key => (fromHex? key).isSome

/-- How often the stored snapshots refer to a chunk. -/
def occurrences (external : External) (storage : Storage) (id : ChunkId) : Nat :=
  ((storedKeys storage.snapshots).map fun key =>
    ((references external storage key).getD []).count id).sum

theorem mem_storedKeys {snapshots : Dict String Bytes} {key : String} :
    key ∈ storedKeys snapshots ↔
      (snapshots.get? key).isSome = true ∧ (fromHex? key).isSome = true := by
  rw [storedKeys, List.mem_filter, Dict.mem_keysList]

theorem storedKeys_nodup (snapshots : Dict String Bytes) : (storedKeys snapshots).Nodup :=
  snapshots.keysList_nodup.filter _

structure Repaired (external : External) (storage final : Storage) : Prop where
  unaltered : ∀ key blob, final.snapshots.get? key = some blob →
    storage.snapshots.get? key = some blob
  intact : ∀ key ∈ storedKeys final.snapshots, SnapshotIntact external final key
  refcounts : ∀ id, final.index.refcount id = occurrences external final id
  nothingElse : ∀ id, final.index.contains id = true ↔ 0 < occurrences external final id
  removed : ∀ key ∈ storedKeys storage.snapshots, key ∉ storedKeys final.snapshots →
    ¬ SnapshotSound external storage key

section FirstRun

variable {external : External} {schedule : Schedule} {storage : Storage}
  {manifest : List SnapshotEntry} {cache : BlobCache} {scan : ScanResult} {visits : List Visit}
  {next : Repairing} {entry : SnapshotEntry} {key : String} {id : ChunkId}

structure Run (external : External) (schedule : Schedule) (storage : Storage)
    (manifest : List SnapshotEntry) (cache : BlobCache) (scan : ScanResult) (visits : List Visit)
    (next : Repairing) : Prop where
  canonical : CanonicalKeys storage.snapshots
  lists : Lists external storage manifest
  scanned : Scanned external schedule .none true storage manifest cache scan visits
  noneFailed : ∀ name detail, .snapshotReadFailed name detail ∉ scan.issues
  left : Cleaned Faults.none.delete (buildRepairPlan storage.index scan).actions storage manifest
    next
  readable : ∀ entry ∈ next.manifest,
    (references external (next.current storage) (toHex entry.id)).isSome = true

def survivingRefs (external : External) (storage : Storage) (next : Repairing) : List ChunkId :=
  next.manifest.flatMap fun entry =>
    (references external (next.current storage) (toHex entry.id)).getD []

def savedStorage (external : External) (storage : Storage) (next : Repairing) : Storage :=
  ⟨next.snapshots, storage.packs,
    next.index.rebuildRefcounts (countChunks next.index ∅ (survivingRefs external storage next))⟩

variable (run : Run external schedule storage manifest cache scan visits next)
include run

theorem Run.unharmed (isListed : entry ∈ next.manifest) :
    ∃ visit ∈ visits, visit.entry = entry ∧
      Unharmed external .none storage manifest scan visit := by
  obtain ⟨before, notCorruptName, notDeleted⟩ := (run.left.listed entry).mp isListed
  obtain ⟨visit, among, rfl⟩ := run.scanned.exists_visit before
  refine ⟨visit, among, rfl, unharmed_of_spared run.scanned among run.noneFailed ?_ notCorruptName
    fun doomed => notDeleted ⟨doomed, rfl⟩⟩
  intro name removed
  obtain ⟨rfl, -⟩ := corrupt_visit run.lists run.scanned among removed
  rw [mem_corruptNames_actions] at notCorruptName
  exact notCorruptName (mem_corruptNames.mpr ⟨_, removed⟩)

theorem Run.mem_storedKeys :
    key ∈ storedKeys next.snapshots ↔ ∃ entry ∈ next.manifest, toHex entry.id = key := by
  rw [Check.mem_storedKeys]
  constructor
  · rintro ⟨stored, valid⟩
    obtain ⟨id, isId⟩ := Option.isSome_iff_exists.mp valid
    obtain ⟨blob, isBlob⟩ := Option.isSome_iff_exists.mp stored
    obtain ⟨before, notCorrupt, -⟩ := (run.left.snapshots key blob).mp isBlob
    have storedBefore : (storage.snapshots.get? key).isSome = true := by
      rw [before]
      rfl
    have isListed : key ∈ manifest.map fun entry => toHex entry.id := by
      by_contra unlisted
      -- otherwise the object would have been found to be undecodable, and removed
      have undecodable : snapshotAt external storage.snapshots key = none := by
        rw [← Option.not_isSome_iff_eq_none]
        intro decodable
        obtain ⟨entry, isEntry, rfl⟩ := run.lists.covers key decodable
        exact unlisted (List.mem_map_of_mem isEntry)
      have reported : scanOrphan external Faults.none.orphan storage.snapshots manifest key =
          some (.corruptSnapshot id none) := by
        unfold scanOrphan
        rw [if_neg (not_or.mpr ⟨ne_empty_of_fromHex? isId, unlisted⟩), isId]
        simp only [snapshotAt, isId, before, Option.bind_some] at undecodable
        simp only [getObject, before, Faults.none]
        cases read : external.readMeta id blob with
        | ok snapshot =>
          rw [read] at undecodable
          cases undecodable
        | error failure => rfl
      obtain ⟨other, removed⟩ := exists_mem_snapshotActions
        (run.scanned.mem_issues.mpr (.inl ⟨key, storedBefore, reported⟩))
      exact notCorrupt id other (corrupt_mem_actions.mpr removed)
        (run.canonical key id storedBefore isId).symm
    obtain ⟨entry, isEntry, rfl⟩ := List.mem_map.mp isListed
    obtain ⟨visit, among, rfl⟩ := run.scanned.exists_visit isEntry
    have unharmed := run.left.unharmed run.lists run.scanned among run.noneFailed (fun _ => rfl)
      stored
    exact ⟨_, (unharmed.kept run.lists run.scanned run.left among).1, rfl⟩
  · rintro ⟨entry, isListed, rfl⟩
    obtain ⟨visit, among, rfl, unharmed⟩ := run.unharmed isListed
    rw [(unharmed.kept run.lists run.scanned run.left among).2, fromHex?_toHex]
    exact ⟨run.lists.stored _ (run.scanned.visit_listed among), rfl⟩

theorem Run.unaltered {blob : Bytes} (stored : next.snapshots.get? key = some blob) :
    storage.snapshots.get? key = some blob := ((run.left.snapshots key blob).mp stored).1

theorem Run.chunkSound (isRef : id ∈ survivingRefs external storage next) :
    ∃ entry, next.index.get? id = some entry ∧ storage.index.get? id = some entry ∧
      ChunkSound external storage id entry := by
  obtain ⟨listed, isListed, among⟩ := List.mem_flatMap.mp isRef
  obtain ⟨visit, isVisit, rfl, unharmed⟩ := run.unharmed isListed
  rw [unharmed.references_current run.lists run.scanned run.left isVisit] at among
  obtain ⟨entry, found⟩ := Option.isSome_iff_exists.mp
    ((unharmed.references run.lists run.scanned isVisit).2 id among)
  have notRemoved := unharmed.2 id among
  refine ⟨entry, run.left.get?_index.mpr ⟨found, notRemoved⟩, found, ?_⟩
  by_contra damaged
  exact notRemoved (run.scanned.removed_of_not_sound rfl rfl found damaged)

omit run in
theorem get?_savedStorage {saved : ChunkIndexEntry} :
    (savedStorage external storage next).index.get? id = some saved ↔
      id ∈ survivingRefs external storage next ∧ ∃ entry, next.index.get? id = some entry ∧
        saved = { entry with
          refcount := (survivingRefs external storage next).count id % 2 ^ 32 } := by
  rw [savedStorage, get?_rebuildRefcounts]
  simp only [countChunks_get?]
  constructor
  · rintro ⟨entry, count, found, counted, rfl⟩
    split at counted
    · rename_i isRef
      cases counted
      exact ⟨isRef.2, entry, found, rfl⟩
    · cases counted
  · rintro ⟨isRef, entry, found, rfl⟩
    refine ⟨entry, _, found, if_pos ⟨?_, isRef⟩, rfl⟩
    rw [ChunkIndex.contains, found]
    rfl

theorem Run.contains_iff :
    (savedStorage external storage next).index.contains id = true ↔
      id ∈ survivingRefs external storage next := by
  rw [ChunkIndex.contains, Option.isSome_iff_exists]
  constructor
  · rintro ⟨saved, found⟩
    exact (get?_savedStorage.mp found).1
  · intro isRef
    obtain ⟨entry, found, -⟩ := run.chunkSound isRef
    exact ⟨_, get?_savedStorage.mpr ⟨isRef, entry, found, rfl⟩⟩

theorem Run.within : Within (savedStorage external storage next).index storage.index := by
  intro id saved found
  obtain ⟨-, entry, kept, rfl⟩ := get?_savedStorage.mp found
  exact ⟨entry, (run.left.get?_index.mp kept).1, rfl⟩

theorem Run.references (isListed : entry ∈ next.manifest) :
    ∃ ids, references external storage (toHex entry.id) = some ids ∧
      references external (next.current storage) (toHex entry.id) = some ids ∧
      references external (savedStorage external storage next) (toHex entry.id) = some ids := by
  obtain ⟨visit, among, rfl, unharmed⟩ := run.unharmed isListed
  have current := unharmed.references_current run.lists run.scanned run.left among
  have before := (unharmed.references run.lists run.scanned among).1
  refine ⟨_, before, current, run.within.references_smaller rfl
    (unharmed.kept run.lists run.scanned run.left among).2 before fun id seen => ?_⟩
  refine run.contains_iff.mpr (List.mem_flatMap.mpr ⟨visit.entry, isListed, ?_⟩)
  rw [current]
  exact seen

/-- The saved reference counts are the occurrences in the snapshots that are left. -/
theorem Run.occurrences_eq :
    occurrences external (savedStorage external storage next) id =
      (survivingRefs external storage next).count id := by
  have distinct : (next.manifest.map fun entry => toHex entry.id).Nodup := by
    refine List.Nodup.sublist (run.left.part.map _) (List.Nodup.map_on ?_
      (List.Nodup.of_map _ run.lists.names))
    intro first firstListed second secondListed same
    exact run.lists.ids _ firstListed _ secondListed (toHex_injective same)
  have keys : (storedKeys next.snapshots).Perm (next.manifest.map fun entry => toHex entry.id) := by
    rw [List.perm_ext_iff_of_nodup (storedKeys_nodup _) distinct]
    intro key
    rw [run.mem_storedKeys, List.mem_map]
  have same := (keys.map fun key =>
    ((Snapshot.references external (savedStorage external storage next) key).getD []).count
      id).sum_eq
  rw [List.map_map] at same
  rw [occurrences, show (savedStorage external storage next).snapshots = next.snapshots from rfl,
    same, survivingRefs, List.count_flatMap]
  congr 1
  refine List.map_congr_left fun entry isListed => ?_
  obtain ⟨ids, -, current, saved⟩ := run.references isListed
  simp only [Function.comp_apply, current, saved]

theorem Run.occurrences_le :
    occurrences external (savedStorage external storage next) id ≤
      occurrences external storage id := by
  have part : storedKeys next.snapshots ⊆ storedKeys storage.snapshots := by
    intro key listed
    obtain ⟨stored, valid⟩ := Check.mem_storedKeys.mp listed
    obtain ⟨blob, isBlob⟩ := Option.isSome_iff_exists.mp stored
    exact Check.mem_storedKeys.mpr ⟨by rw [run.unaltered isBlob]; rfl, valid⟩
  obtain ⟨same, perm, sublist⟩ := List.subperm_of_subset (storedKeys_nodup _) part
  obtain ⟨others, split⟩ := sublist.exists_perm_append
  have whole := ((split.trans (perm.append_right others)).map fun key =>
    ((Snapshot.references external storage key).getD []).count id).sum_eq
  rw [List.map_append, List.sum_append] at whole
  rw [occurrences, occurrences, whole]
  refine Nat.le_add_right_of_le (le_of_eq (congrArg List.sum (List.map_congr_left ?_)))
  intro key listed
  obtain ⟨entry, isListed, rfl⟩ := run.mem_storedKeys.mp listed
  obtain ⟨ids, before, -, saved⟩ := run.references isListed
  rw [before, saved]

theorem Run.occurrences_of_snapshots
    (same : (savedStorage external storage next).snapshots = storage.snapshots) :
    occurrences external (savedStorage external storage next) id =
      occurrences external storage id := by
  rw [occurrences, occurrences, same]
  refine congrArg List.sum (List.map_congr_left fun key listed => ?_)
  rw [← same] at listed
  obtain ⟨entry, isListed, rfl⟩ := run.mem_storedKeys.mp listed
  obtain ⟨ids, before, -, saved⟩ := run.references isListed
  rw [before, saved]

theorem Run.saved_entry (fits : ∀ id, occurrences external storage id < 2 ^ 32)
    {saved : ChunkIndexEntry}
    (found : (savedStorage external storage next).index.get? id = some saved) :
    ∃ entry, storage.index.get? id = some entry ∧ ChunkSound external storage id entry ∧
      saved = { entry with
        refcount := occurrences external (savedStorage external storage next) id } := by
  obtain ⟨isRef, entry, kept, rfl⟩ := get?_savedStorage.mp found
  obtain ⟨same, sameKept, before, sound⟩ := run.chunkSound isRef
  cases kept.symm.trans sameKept
  refine ⟨entry, before, sound, ?_⟩
  rw [run.occurrences_eq, Nat.mod_eq_of_lt]
  rw [← run.occurrences_eq]
  exact lt_of_le_of_lt run.occurrences_le (fits id)

theorem Run.nothingElse :
    (savedStorage external storage next).index.contains id = true ↔
      0 < occurrences external (savedStorage external storage next) id := by
  rw [run.contains_iff, run.occurrences_eq, List.count_pos_iff]

theorem Run.intact (listed : key ∈ storedKeys next.snapshots) :
    SnapshotIntact external (savedStorage external storage next) key := by
  obtain ⟨entry, isListed, rfl⟩ := run.mem_storedKeys.mp listed
  obtain ⟨ids, -, current, saved⟩ := run.references isListed
  refine ⟨ids, saved, fun id isRef => ?_⟩
  have surviving : id ∈ survivingRefs external storage next :=
    List.mem_flatMap.mpr ⟨entry, isListed, by rw [current]; exact isRef⟩
  obtain ⟨before, -, found, sound⟩ := run.chunkSound surviving
  obtain ⟨data, isPlain, same⟩ := (chunkIntact_iff found).mpr sound.verifies
  exact ⟨data, (run.within.indexedPlain rfl (run.contains_iff.mpr surviving)).trans isPlain, same⟩

theorem Run.valid (stored : (next.snapshots.get? key).isSome = true) :
    key = "" ∨ key ∈ storedKeys next.snapshots := by
  by_cases isEmpty : key = ""
  · exact .inl isEmpty
  · refine .inr (Check.mem_storedKeys.mpr ⟨stored, ?_⟩)
    by_contra invalid
    rw [Bool.not_eq_true, Option.isSome_eq_false_iff, Option.isNone_iff_eq_none] at invalid
    obtain ⟨blob, isBlob⟩ := Option.isSome_iff_exists.mp stored
    obtain ⟨before, -, notInvalid, -⟩ := (run.left.snapshots key blob).mp isBlob
    have unlisted : key ∉ manifest.map fun entry => toHex entry.id := by
      intro isListed
      obtain ⟨entry, -, rfl⟩ := List.mem_map.mp isListed
      rw [fromHex?_toHex] at invalid
      cases invalid
    have reported : scanOrphan external Faults.none.orphan storage.snapshots manifest key =
        some (.invalidSnapshotKey key) := by
      unfold scanOrphan
      rw [if_neg (not_or.mpr ⟨isEmpty, unlisted⟩), invalid]
    exact notInvalid (invalid_mem_actions.mpr (run.scanned.mem_issues.mpr
      (.inl ⟨key, by rw [before]; rfl, reported⟩))) rfl

theorem Run.saved_chunkSound (fits : ∀ id, occurrences external storage id < 2 ^ 32)
    {saved : ChunkIndexEntry}
    (found : (savedStorage external storage next).index.get? id = some saved) :
    ChunkSound external (savedStorage external storage next) id saved := by
  obtain ⟨entry, -, sound, rfl⟩ := run.saved_entry fits found
  exact ⟨sound.verifies, fun large => sound.header (large.of_within run.within)⟩

theorem Run.repaired (flat : FlatStreams external storage)
    (fits : ∀ id, occurrences external storage id < 2 ^ 32) :
    Repaired external storage (savedStorage external storage next) where
  unaltered _ _ := run.unaltered
  intact _ := run.intact
  refcounts id := by
    rw [ChunkIndex.refcount]
    cases found : (savedStorage external storage next).index.get? id with
    | none =>
      have absent : ¬ 0 < occurrences external (savedStorage external storage next) id := by
        rw [← run.nothingElse, ChunkIndex.contains, found]
        simp
      simp only [Option.map_none, Option.getD_none]
      omega
    | some saved =>
      obtain ⟨entry, -, -, rfl⟩ := run.saved_entry fits found
      rfl
  nothingElse _ := run.nothingElse
  removed key listed gone sound := by
    obtain ⟨entry, isListed, rfl⟩ := run.lists.covers key sound.decodable
    obtain ⟨visit, among, rfl⟩ := run.scanned.exists_visit isListed
    have unharmed := sound.unharmed run.lists flat run.scanned among run.noneFailed
      (fun failure hit => by
        rcases hit with hit | hit | ⟨packId, start, hit⟩ <;> cases hit)
      (fun _ _ _ _ => rfl)
    exact gone (run.mem_storedKeys.mpr
      ⟨_, (unharmed.kept run.lists run.scanned run.left among).1, rfl⟩)

end FirstRun

section LaterCache

variable {external : External} {storage final : Storage}
  {snapshotCache later : Dict String SnapshotEntry} {key : String}

/-- The local cache after a repair: as it was, if it could not be saved, or as the repair left
it, and then perhaps brought up to date by opening the repository. -/
inductive LaterCache (external : External) (storage : Storage)
    (snapshotCache : Dict String SnapshotEntry) (final : Storage) :
    Dict String SnapshotEntry → Prop where
  | unsaved : LaterCache external storage snapshotCache final snapshotCache
  | saved {later : Dict String SnapshotEntry}
      (done : refreshSnapshotCache external true (fun _ => none) storage.snapshots snapshotCache =
        .ok later) : LaterCache external storage snapshotCache final later
  | reopened {earlier later : Dict String SnapshotEntry}
      (before : LaterCache external storage snapshotCache final earlier)
      (done : refreshSnapshotCache external false (fun _ => none) final.snapshots earlier =
        .ok later) : LaterCache external storage snapshotCache final later

theorem listedEntry_refreshed {snapshots others : Dict String Bytes}
    (same : decodedEntry external snapshots key = decodedEntry external others key)
    (listed : key ∈ listedKeys snapshots) (isListed : key ∈ listedKeys others)
    (refreshed : later.get? key = listedEntry external others snapshotCache key) :
    listedEntry external snapshots later key = listedEntry external others snapshotCache key := by
  rw [listedEntry, if_pos listed, refreshed, listedEntry, if_pos isListed, same, Option.or_assoc,
    Option.or_self]

theorem LaterCache.listedEntry_eq (unaltered : ∀ key blob, final.snapshots.get? key = some blob →
      storage.snapshots.get? key = some blob)
    (isLater : LaterCache external storage snapshotCache final later)
    (listed : key ∈ listedKeys final.snapshots) :
    listedEntry external final.snapshots later key =
      listedEntry external storage.snapshots snapshotCache key := by
  obtain ⟨nonempty, stored⟩ := mem_listedKeys.mp listed
  obtain ⟨blob, isBlob⟩ := Option.isSome_iff_exists.mp stored
  have before := unaltered key blob isBlob
  have isListed : key ∈ listedKeys storage.snapshots :=
    mem_listedKeys.mpr ⟨nonempty, by rw [before]; rfl⟩
  have sameDecoded : decodedEntry external final.snapshots key =
      decodedEntry external storage.snapshots key := by
    rw [decodedEntry, decodedEntry, isBlob, before]
  induction isLater with
  | unsaved => rw [listedEntry, listedEntry, if_pos listed, if_pos isListed, sameDecoded]
  | saved done =>
    exact listedEntry_refreshed sameDecoded listed isListed
      (refreshSnapshotCache_get? (fun _ _ => .inl rfl) done key)
  | reopened _ done ih =>
    rw [← ih]
    exact listedEntry_refreshed rfl listed listed
      (refreshSnapshotCache_get? (fun _ _ => .inr rfl) done key)

theorem LaterCache.cachedIds (cachedIds : CachedIds snapshotCache)
    (isLater : LaterCache external storage snapshotCache final later) : CachedIds later := by
  induction isLater with
  | unsaved => exact cachedIds
  | saved done =>
    intro key entry found
    rw [refreshSnapshotCache_get? (fun _ _ => .inl rfl) done key] at found
    exact (fromHex?_of_listedEntry cachedIds found).2
  | reopened _ done ih =>
    intro key entry found
    rw [refreshSnapshotCache_get? (fun _ _ => .inr rfl) done key] at found
    exact (fromHex?_of_listedEntry ih found).2

theorem WellKept.afterwards (wellKept : WellKept external storage snapshotCache)
    (unaltered : ∀ key blob, final.snapshots.get? key = some blob →
      storage.snapshots.get? key = some blob)
    (within : Within final.index storage.index)
    (isLater : LaterCache external storage snapshotCache final later) :
    WellKept external final later where
  canonical key id stored isId := by
    obtain ⟨blob, isBlob⟩ := Option.isSome_iff_exists.mp stored
    exact wellKept.canonical key id (by rw [unaltered key blob isBlob]; rfl) isId
  cachedIds := isLater.cachedIds wellKept.cachedIds
  names key other entry same isEntry isSame sameName := by
    have ids := isLater.cachedIds wellKept.cachedIds
    rw [isLater.listedEntry_eq unaltered (fromHex?_of_listedEntry ids isEntry).1] at isEntry
    rw [isLater.listedEntry_eq unaltered (fromHex?_of_listedEntry ids isSame).1] at isSame
    exact wellKept.names key other entry same isEntry isSame sameName
  keys key other id _ isId _ stored := by
    obtain ⟨blob, isBlob⟩ := Option.isSome_iff_exists.mp stored
    exact wellKept.canonical other id (by rw [unaltered other blob isBlob]; rfl) isId
  flat key snapshot isSnapshot := by
    obtain ⟨id, isId, rest⟩ := Option.bind_eq_some_iff.mp isSnapshot
    obtain ⟨blob, isBlob, read⟩ := Option.bind_eq_some_iff.mp rest
    refine (wellKept.flat key snapshot ?_).within within
    rw [snapshotAt, isId, Option.bind_some, unaltered key blob isBlob, Option.bind_some, read]

end LaterCache

section Runs

variable {external : External} {schedule : Schedule} {deletesAllowed : Bool} {storage : Storage}
  {snapshotCache : Dict String SnapshotEntry} {scan : ScanResult}

theorem exists_run (wellKept : WellKept external storage snapshotCache) {final : Storage}
    {result : RepairResult}
    (ran : runWithRepair external schedule .none true deletesAllowed storage snapshotCache =
      (final, .ok result)) :
    ∃ manifest cache scan visits next,
      Run external schedule storage manifest cache scan visits next ∧
        final = savedStorage external storage next := by
  rcases @runWithRepair_cases external schedule .none true deletesAllowed storage snapshotCache
    wellKept.toListable with ⟨-, failure, failed⟩ |
      ⟨manifest, cache, scan, visits, outcome, report, lists, scanned, executed, same⟩
  · cases failed.symm.trans ran
  · rw [ran, Prod.mk.injEq] at same
    obtain ⟨rfl, reported⟩ := same
    cases executed with
    | refused => cases reported
    | stopped => cases reported
    | aborted => cases reported
    | @saved next counts report noneFailed left rebuilt =>
      obtain ⟨readable, rfl⟩ := left.counts lists scanned.cacheSound rebuilt
      exact ⟨manifest, cache, scan, visits, next,
        ⟨wellKept.canonical, lists, scanned, noneFailed, left, readable⟩, rfl⟩

theorem buildRepairPlan_quiet {index : ChunkIndex} (quiet : scan.issues = []) :
    buildRepairPlan index scan = ⟨[.rebuildRefcounts], false⟩ := by
  have nothing : doomedSnapshots [] (corruptNames (snapshotActions []))
      (chunksToRemove index (missingPacks []) (corruptData [])) scan.snapshotChunkRefs = ∅ := rfl
  simp only [buildRepairPlan, quiet, nothing]
  rfl

/-- In a repository in which everything verifies, only the reference counts are rebuilt. -/
theorem runWithRepair_quiet (wellKept : WellKept external storage snapshotCache)
    (valid : ∀ key, (storage.snapshots.get? key).isSome = true → key = "" ∨
      key ∈ storedKeys storage.snapshots)
    (intact : ∀ key ∈ storedKeys storage.snapshots, SnapshotIntact external storage key)
    (chunks : ∀ id entry, storage.index.get? id = some entry →
      ChunkSound external storage id entry) :
    ∃ again result, runWithRepair external schedule .none true deletesAllowed storage
        snapshotCache = (again, .ok result) ∧
      result.applied = [.rebuildRefcounts] ∧ result.repairErrors = [] ∧
      again.snapshots = storage.snapshots := by
  obtain ⟨listed, refreshed⟩ := @exists_refreshSnapshotCache external true Faults.none.listed
    storage.snapshots snapshotCache fun _ => rfl
  have lists : Lists external storage (manifestOf schedule listed) :=
    wellKept.toListable.lists (refreshed_of_strict refreshed)
  have stored {entry : SnapshotEntry} (isListed : entry ∈ manifestOf schedule listed) :
      toHex entry.id ∈ storedKeys storage.snapshots :=
    mem_storedKeys.mpr ⟨lists.stored entry isListed, by rw [fromHex?_toHex]; rfl⟩
  have unhit (position : Nat) (failure : VykarError) :
      ¬ LoadHit (Faults.none.scan position) failure := by
    rintro (hit | hit | ⟨packId, start, hit⟩) <;> cases hit
  obtain ⟨⟨cache, scan⟩, scanDone⟩ :=
    exists_integrityScan external schedule storage (manifestOf schedule listed) true
  obtain ⟨visits, scanned⟩ := exists_scanned scanDone
  have quiet : scan.issues = [] := by
    apply List.eq_nil_iff_forall_not_mem.mpr
    intro issue reported
    rcases scanned.mem_issues.mp reported with ⟨key, isStored, orphan⟩ | ⟨visit, among, here⟩ |
      pack
    · rcases valid key isStored with rfl | isKey
      · simp [scanOrphan] at orphan
      · obtain ⟨ids, isRefs, -⟩ := intact key isKey
        obtain ⟨snapshot, isSnapshot, -⟩ := Option.bind_eq_some_iff.mp isRefs
        obtain ⟨entry, isListed, rfl⟩ := lists.covers key (by rw [isSnapshot]; rfl)
        exact (scanOrphan_about orphan).1 (List.mem_map_of_mem isListed)
    · obtain ⟨ids, isRefs, indexed⟩ :=
        (intact _ (stored (scanned.visit_listed among))).indexed
      rw [(visit_seen lists scanned wellKept.flat among (unhit _) isRefs indexed).1] at here
      cases here
    · rw [scanPacks_eq_nil chunks] at pack
      cases pack
  obtain ⟨counts, rebuilt⟩ := @exists_rebuildCounts external storage (manifestOf schedule listed)
    cache (indexedPlain external storage) ∅ Faults.none.rebuild 0 (manifestOf schedule listed)
    (located_indexedPlain external storage) scanned.cacheSound wellKept.flat unhit
    fun entry isListed => by
      rw [listedRefs, lists.names.findSnapshot.mpr ⟨isListed, rfl⟩, Option.bind_some]
      obtain ⟨ids, isRefs, -⟩ := intact _ (stored isListed)
      rw [isRefs]
      rfl
  have executed : executeRepair external .none storage (manifestOf schedule listed) cache
      ⟨[.rebuildRefcounts], false⟩ [] =
        ((Repairing.start storage (manifestOf schedule listed)).saved storage counts,
          .ok ([.rebuildRefcounts], [])) := by
    simp only [executeRepair, List.findSome?_nil, removeCorrupt, Repairing.clean, Repairing.start,
      Repairing.current, List.foldl_cons, List.foldl_nil, removeInvalid, dropDangling, dropCorrupt,
      removeDoomed]
    rw [List.filter_eq_self.mpr (by simp), rebuilt]
    rfl
  refine ⟨(Repairing.start storage (manifestOf schedule listed)).saved storage counts,
    ⟨[], ⟨[.rebuildRefcounts], false⟩, [.rebuildRefcounts], []⟩, ?_, rfl, rfl, rfl⟩
  simp only [runWithRepair, show Faults.none.index = none from rfl,
    show Faults.none.list = none from rfl, refreshed, scanDone, quiet,
    buildRepairPlan_quiet quiet, executed, Bool.false_and]
  rfl

/-- A second run leaves the snapshots and the decoded index as they are. -/
structure Settled (final again : Storage) (result : RepairResult) : Prop where
  applied : result.applied = [.rebuildRefcounts]
  errors : result.repairErrors = []
  snapshots : again.snapshots = final.snapshots
  index : ∀ id, again.index.get? id = final.index.get? id

theorem Run.settled {manifest : List SnapshotEntry} {cache : BlobCache} {visits : List Visit}
    {next : Repairing} {later : Dict String SnapshotEntry} {secondSchedule : Schedule}
    (run : Run external schedule storage manifest cache scan visits next)
    (wellKept : WellKept external storage snapshotCache)
    (fits : ∀ id, occurrences external storage id < 2 ^ 32)
    (isLater : LaterCache external storage snapshotCache (savedStorage external storage next)
      later) :
    ∃ again result, runWithRepair external secondSchedule .none true deletesAllowed
        (savedStorage external storage next) later = (again, .ok result) ∧
      Settled (savedStorage external storage next) again result := by
  have keptNow := wellKept.afterwards (fun _ _ => run.unaltered) run.within isLater
  obtain ⟨again, result, ran, applied, errors, snapshots⟩ :=
    @runWithRepair_quiet external secondSchedule deletesAllowed _ later keptNow
      (fun _ stored => run.valid stored) (fun _ listed => run.intact listed)
      (fun _ _ found => run.saved_chunkSound fits found)
  refine ⟨again, result, ran, applied, errors, snapshots, fun id => ?_⟩
  obtain ⟨_, _, _, _, following, second, rfl⟩ := exists_run keptNow ran
  have fitsNow (id : ChunkId) :
      occurrences external (savedStorage external storage next) id < 2 ^ 32 :=
    lt_of_le_of_lt run.occurrences_le (fits id)
  have same : occurrences external (savedStorage external (savedStorage external storage next)
      following) id = occurrences external (savedStorage external storage next) id :=
    second.occurrences_of_snapshots snapshots
  cases found : (savedStorage external (savedStorage external storage next)
      following).index.get? id with
  | none =>
    have absent : ¬ (savedStorage external storage next).index.contains id = true := by
      rw [run.nothingElse, ← same, ← second.nothingElse, ChunkIndex.contains, found]
      simp
    rw [ChunkIndex.contains, Bool.not_eq_true, Option.isSome_eq_false_iff,
      Option.isNone_iff_eq_none] at absent
    exact absent.symm
  | some saved =>
    obtain ⟨entry, before, -, rfl⟩ := second.saved_entry fitsNow found
    obtain ⟨_, -, -, rfl⟩ := run.saved_entry fits before
    rw [before, same]

end Runs

/-- For a repository with distinct names whose reference counts fit, a repair with data
verification and without failing calls leaves exactly the intact snapshots, their chunks and
their reference counts, and a second repair changes nothing. -/
theorem repair_result (external : External) (schedule : Schedule) (deletesAllowed : Bool)
    (storage final : Storage) (snapshotCache : Dict String SnapshotEntry) (result : RepairResult)
    (wellKept : WellKept external storage snapshotCache)
    (fits : ∀ id, occurrences external storage id < 2 ^ 32)
    (ran : runWithRepair external schedule .none true deletesAllowed storage snapshotCache =
      (final, .ok result)) :
    Repaired external storage final ∧
      ∀ secondSchedule secondAllowed later,
        LaterCache external storage snapshotCache final later →
        ∃ again secondResult, runWithRepair external secondSchedule .none true secondAllowed final
            later = (again, .ok secondResult) ∧ Settled final again secondResult := by
  obtain ⟨manifest, cache, scan, visits, next, run, rfl⟩ := exists_run wellKept ran
  exact ⟨run.repaired wellKept.flat fits, fun secondSchedule secondAllowed later isLater =>
    run.settled wellKept fits isLater⟩

/-- Two snapshots, one of which has lost its pack, and an object that is no snapshot. -/
def lostPack : Storage where
  snapshots := Dict.ofList [(toHex 1, byteSnapshot 7 [5]), (toHex 2, byteSnapshot 8 [6]),
    (toHex 3, [])]
  packs := Dict.ofList [(9, packBytes [byteBlob 5])]
  index := Dict.ofList [(byteChunk 5, ⟨4, 3, 9, 13⟩), (byteChunk 6, ⟨2, 3, 10, 13⟩)]

theorem repair_result_lostPack :
    ∃ final result, runWithRepair byteExternal .inOrder .none true true lostPack ∅ =
        (final, .ok result) ∧
      Repaired byteExternal lostPack final ∧ storedKeys final.snapshots = [toHex 1] ∧
      ∃ again second, runWithRepair byteExternal .inOrder .none true true final ∅ =
        (again, .ok second) ∧ Settled final again second := by
  have finished : (runWithRepair byteExternal .inOrder .none true true lostPack
      ∅).2.toOption.isSome = true := by decide +kernel
  have kept : storedKeys (runWithRepair byteExternal .inOrder .none true true
      lostPack ∅).1.snapshots = [toHex 1] := by decide +kernel
  have wellKept : WellKept byteExternal lostPack ∅ :=
    @wellKept_of_ids _ _ [3, 2, 1] (flatStreams_of_toList (by decide +kernel)) (by decide +kernel)
      (by decide +kernel)
  have fits (id : ChunkId) : occurrences byteExternal lostPack id < 2 ^ 32 := by
    have refs : ((storedKeys lostPack.snapshots).map fun key =>
        (references byteExternal lostPack key).getD []) =
          [[], [], [byteChunk 5, byteChunk 5]] := by decide +kernel
    have counts : occurrences byteExternal lostPack id =
        (([[], [], [byteChunk 5, byteChunk 5]] : List (List ChunkId)).map (List.count id)).sum := by
      rw [← refs, List.map_map]
      rfl
    have few := @List.count_le_length _ _ id [byteChunk 5, byteChunk 5]
    simp only [counts, List.map_cons, List.map_nil, List.sum_cons, List.sum_nil, List.count_nil,
      List.length_cons, List.length_nil] at few ⊢
    omega
  generalize ran : runWithRepair byteExternal .inOrder .none true true lostPack ∅ = outcome
    at finished kept
  obtain ⟨final, _ | result⟩ := outcome
  · cases finished
  · obtain ⟨repaired, settled⟩ := repair_result byteExternal .inOrder true lostPack final ∅
      result wellKept fits ran
    exact ⟨final, result, rfl, repaired, kept, settled .inOrder true ∅ .unsaved⟩

/-- A repository with one snapshot and one pack of three chunks, whose header is damaged. -/
def badHeader : Storage where
  snapshots := Dict.ofList [(toHex 1, byteSnapshot 7 [5, 6, 8])]
  packs := Dict.ofList [(9, 0 :: (packBytes [byteBlob 5, byteBlob 6, byteBlob 8]).drop 1)]
  index := Dict.ofList [(byteChunk 5, ⟨2, 3, 9, 13⟩), (byteChunk 6, ⟨2, 3, 9, 20⟩),
    (byteChunk 8, ⟨2, 3, 9, 27⟩)]

/-- A damaged pack header costs a snapshot all of whose chunks verify. -/
theorem repair_removes_intact_snapshot :
    WellKept byteExternal badHeader ∅ ∧ SnapshotIntact byteExternal badHeader (toHex 1) ∧
      (runWithRepair byteExternal .inOrder .none true true badHeader ∅).2.toOption.map
        RepairResult.repairErrors = some [] ∧
      (runWithRepair byteExternal .inOrder .none true true badHeader ∅).1.snapshots.get?
        (toHex 1) = none := by
  have refs : references byteExternal badHeader (toHex 1) = some [byteChunk 5, byteChunk 6,
      byteChunk 8, byteChunk 5, byteChunk 6, byteChunk 8] := by decide +kernel
  have verified : ∀ id ∈ [byteChunk 5, byteChunk 6, byteChunk 8, byteChunk 5, byteChunk 6,
      byteChunk 8], (indexedPlain byteExternal badHeader id).map byteExternal.computeId =
        some id := List.map_inj_left.mp (by decide +kernel)
  exact ⟨@wellKept_of_ids _ _ [1] (flatStreams_of_toList (by decide +kernel)) rfl
      (by decide +kernel),
    ⟨_, refs, fun id isRef => Option.map_eq_some_iff.mp (verified id isRef)⟩,
    by decide +kernel, by decide +kernel⟩

end Vykar.Check

import Vykar.Check.Execution

/-!
The scan that a repair starts from.

In a repository whose keys are canonical and whose names are distinct, the list of
snapshots accounts for every object that can be decoded, and every issue belongs to
one listed snapshot, to one object behind the list or to one pack.  A listed
snapshot survives the repair exactly if nothing is reported about it and none of its
chunks is removed.
-/

namespace Vykar.Check

open Index Pack Snapshot

variable {entry : SnapshotEntry} {id : SnapshotId} {index : ChunkIndex} {name : String}

section Listing

variable {external : External} {schedule : Schedule} {storage : Storage}
  {snapshotCache listed : Dict String SnapshotEntry} {key : String}

/-- The entry of the snapshot list for the object under a key. -/
def listedEntry (external : External) (snapshots : Dict String Bytes)
    (snapshotCache : Dict String SnapshotEntry) (key : String) : Option SnapshotEntry :=
  if key ∈ listedKeys snapshots then
    (snapshotCache.get? key).or (decodedEntry external snapshots key)
  else none

/-- Keys that are ids are written in lower case, as they are when a snapshot is stored. -/
def CanonicalKeys (snapshots : Dict String Bytes) : Prop :=
  ∀ key id, (snapshots.get? key).isSome = true → fromHex? key = some id → key = toHex id

def DistinctNames (external : External) (snapshots : Dict String Bytes)
    (snapshotCache : Dict String SnapshotEntry) : Prop :=
  ∀ key other entry same, listedEntry external snapshots snapshotCache key = some entry →
    listedEntry external snapshots snapshotCache other = some same → entry.name = same.name →
      key = other

/-- Snapshots are listed and read as the commands of the repository leave them.  For the id of a
listed snapshot there is no object but that whose key is in lower case. -/
structure Listable (external : External) (storage : Storage)
    (snapshotCache : Dict String SnapshotEntry) : Prop where
  keys : ∀ key other id, fromHex? key = some id → fromHex? other = some id →
    (listedEntry external storage.snapshots snapshotCache key).isSome = true →
    (storage.snapshots.get? other).isSome = true → other = toHex id
  cachedIds : CachedIds snapshotCache
  names : DistinctNames external storage.snapshots snapshotCache
  flat : FlatStreams external storage

structure WellKept (external : External) (storage : Storage)
    (snapshotCache : Dict String SnapshotEntry) : Prop
    extends Listable external storage snapshotCache where
  canonical : CanonicalKeys storage.snapshots

theorem fromHex?_of_listedEntry {snapshots : Dict String Bytes}
    (cachedIds : CachedIds snapshotCache)
    (isEntry : listedEntry external snapshots snapshotCache key = some entry) :
    key ∈ listedKeys snapshots ∧ fromHex? key = some entry.id := by
  unfold listedEntry at isEntry
  split at isEntry
  · rename_i isListed
    refine ⟨isListed, ?_⟩
    rcases Option.or_eq_some_iff.mp isEntry with cached | ⟨-, decoded⟩
    · exact cachedIds key entry cached
    · exact decodedEntry_id decoded
  · cases isEntry

theorem Listable.listedEntry_id (listable : Listable external storage snapshotCache)
    (isEntry : listedEntry external storage.snapshots snapshotCache key = some entry) :
    key = toHex entry.id ∧ (storage.snapshots.get? key).isSome = true := by
  obtain ⟨isListed, isId⟩ := fromHex?_of_listedEntry listable.cachedIds isEntry
  have stored := (mem_listedKeys.mp isListed).2
  exact ⟨listable.keys key key entry.id isId isId (by rw [isEntry]; rfl) stored, stored⟩

/-- The list of snapshots accounts for every object that can be decoded. -/
structure Lists (external : External) (storage : Storage) (manifest : List SnapshotEntry) :
    Prop where
  names : NamesDistinct manifest
  ids : ∀ first ∈ manifest, ∀ second ∈ manifest, first.id = second.id → first = second
  stored : ∀ entry ∈ manifest, (storage.snapshots.get? (toHex entry.id)).isSome = true
  keys : ∀ entry ∈ manifest, ∀ key, fromHex? key = some entry.id →
    (storage.snapshots.get? key).isSome = true → key = toHex entry.id
  covers : ∀ key, (snapshotAt external storage.snapshots key).isSome = true →
    ∃ entry ∈ manifest, toHex entry.id = key

theorem Lists.length_le {manifest : List SnapshotEntry}
    (lists : Lists external storage manifest) :
    manifest.length ≤ storage.snapshots.keysList.length := by
  have distinct : (manifest.map fun entry => toHex entry.id).Nodup :=
    (List.Nodup.of_map _ lists.names).map_on fun first isFirst second isSecond same =>
      lists.ids first isFirst second isSecond (toHex_injective same)
  have stored : (manifest.map fun entry => toHex entry.id) ⊆ storage.snapshots.keysList := by
    intro key isKey
    obtain ⟨entry, isListed, rfl⟩ := List.mem_map.mp isKey
    exact Dict.mem_keysList.mpr (lists.stored entry isListed)
  simpa using (List.subperm_of_subset distinct stored).length_le

theorem manifestOf_perm (schedule : Schedule) (listed : Dict String SnapshotEntry) :
    (manifestOf schedule listed).Perm (listed.toList.map Prod.snd) :=
  (List.perm_insertionSort _ _).trans (schedule.entries_perm _)

theorem mem_manifestOf :
    entry ∈ manifestOf schedule listed ↔ ∃ key, listed.get? key = some entry := by
  rw [(manifestOf_perm schedule listed).mem_iff, List.mem_map]
  simp [Dict.get?_eq_some_iff]

theorem ne_empty_of_fromHex? (valid : fromHex? key = some id) : key ≠ "" := by
  rintro rfl
  rw [show fromHex? "" = none by decide] at valid
  cases valid

theorem snapshotAt_isSome :
    (snapshotAt external storage.snapshots key).isSome = true ↔
      (decodedEntry external storage.snapshots key).isSome = true := by
  unfold snapshotAt decodedEntry
  cases fromHex? key with
  | none => simp
  | some id =>
    cases storage.snapshots.get? key with
    | none => simp
    | some blob => simp

theorem exists_listedEntry (decodable : (snapshotAt external storage.snapshots key).isSome = true) :
    ∃ entry, listedEntry external storage.snapshots snapshotCache key = some entry := by
  obtain ⟨snapshot, isSnapshot⟩ := Option.isSome_iff_exists.mp decodable
  obtain ⟨id, valid, rest⟩ := Option.bind_eq_some_iff.mp isSnapshot
  obtain ⟨blob, stored, -⟩ := Option.bind_eq_some_iff.mp rest
  obtain ⟨entry, decoded⟩ := Option.isSome_iff_exists.mp (snapshotAt_isSome.mp decodable)
  have isListed : key ∈ listedKeys storage.snapshots :=
    mem_listedKeys.mpr ⟨ne_empty_of_fromHex? valid, by rw [stored]; rfl⟩
  rw [listedEntry, if_pos isListed, decoded]
  cases snapshotCache.get? key with
  | none => exact ⟨entry, rfl⟩
  | some cached => exact ⟨cached, rfl⟩

theorem Listable.lists (listable : Listable external storage snapshotCache)
    (refreshed : ∀ key, listed.get? key =
      listedEntry external storage.snapshots snapshotCache key) :
    Lists external storage (manifestOf schedule listed) := by
  have keyOf {entry : SnapshotEntry} (isListed : entry ∈ manifestOf schedule listed) :
      listedEntry external storage.snapshots snapshotCache (toHex entry.id) = some entry := by
    obtain ⟨key, found⟩ := mem_manifestOf.mp isListed
    rw [refreshed] at found
    rw [← (listable.listedEntry_id found).1]
    exact found
  constructor
  · have names : ((listed.toList.map Prod.snd).map SnapshotEntry.name).Nodup := by
      have distinct : listed.toList.Nodup :=
        List.Nodup.of_map Prod.fst (listed.toList_keys ▸ listed.keysList_nodup)
      rw [List.map_map]
      refine distinct.map_on ?_
      rintro ⟨key, entry⟩ first ⟨other, same⟩ second sameName
      have firstFound := Dict.get?_eq_some_iff.mpr first
      have secondFound := Dict.get?_eq_some_iff.mpr second
      obtain rfl := listable.names key other entry same (refreshed key ▸ firstFound)
        (refreshed other ▸ secondFound) sameName
      cases firstFound.symm.trans secondFound
      rfl
    exact ((manifestOf_perm schedule listed).map _).nodup_iff.mpr names
  · intro first firstListed second secondListed same
    have found := keyOf firstListed
    rw [same, keyOf secondListed] at found
    exact (Option.some.inj found).symm
  · exact fun entry isListed => (listable.listedEntry_id (keyOf isListed)).2
  · intro entry isListed key isId stored
    exact listable.keys _ key entry.id (fromHex?_toHex _) isId (by rw [keyOf isListed]; rfl) stored
  · intro key decodable
    obtain ⟨entry, isEntry⟩ := @exists_listedEntry external storage snapshotCache key decodable
    exact ⟨entry, mem_manifestOf.mpr ⟨key, (refreshed key).trans isEntry⟩,
      (listable.listedEntry_id isEntry).1.symm⟩

theorem refreshed_of_strict {faults : String → Option VykarError}
    (done : refreshSnapshotCache external true faults storage.snapshots snapshotCache =
      .ok listed) (key : String) :
    listed.get? key = listedEntry external storage.snapshots snapshotCache key :=
  refreshSnapshotCache_get? (fun _ _ => .inl rfl) done key

end Listing

section Issues

variable {external : External} {schedule : Schedule} {faults : Faults} {verifyData : Bool}
  {storage : Storage} {manifest : List SnapshotEntry} {cache : BlobCache} {scan : ScanResult}
  {visits : List Visit} {issue : IntegrityIssue} {key : String}

structure Scanned (external : External) (schedule : Schedule) (faults : Faults)
    (verifyData : Bool) (storage : Storage) (manifest : List SnapshotEntry) (cache : BlobCache)
    (scan : ScanResult) (visits : List Visit) : Prop where
  entries : visits.map Visit.entry = manifest
  positions : ∀ visit ∈ visits, visit.position < manifest.length
  sound : ∀ visit ∈ visits, CacheSound (indexedPlain external storage) visit.cache
  cacheSound : CacheSound (indexedPlain external storage) cache
  issues : scan.issues =
    storage.snapshots.keysList.filterMap
        (scanOrphan external faults.orphan storage.snapshots manifest) ++
      (visits.flatMap fun visit => (visit.scan external faults.scan storage manifest).1) ++
      scanPacks external schedule faults verifyData storage
  refs : scan.snapshotChunkRefs = collectRefs (visits.map fun visit =>
    (visit.entry.name, (visit.scan external faults.scan storage manifest).2))

theorem exists_scanned
    (done : integrityScan external schedule faults ⟨true, true, verifyData⟩ storage manifest =
      .ok (cache, scan)) :
    ∃ visits, Scanned external schedule faults verifyData storage manifest cache scan visits := by
  obtain ⟨visits, entries, sound, final, result⟩ :=
    scan_visits external faults.scan storage manifest
  refine ⟨visits, ?_⟩
  unfold integrityScan at done
  simp only [if_true] at done
  split at done
  · cases done
  · rename_i orphans found
    unfold scanOrphans at found
    split at found
    · cases found
    · cases found
      cases done
      exact ⟨entries, fun visit among => (sound visit among).1,
        fun visit among => (sound visit among).2, final, by simp only [result],
        by simp only [result]⟩

theorem exists_integrityScan (external : External) (schedule : Schedule) (storage : Storage)
    (manifest : List SnapshotEntry) (verifyData : Bool) :
    ∃ result, integrityScan external schedule .none ⟨true, true, verifyData⟩ storage manifest =
      .ok result := ⟨_, rfl⟩

theorem doomedName?_of_dangling {ids : List ChunkId}
    (reported : issue ∈ danglingItemPtrs index name ids) : doomedName? issue = some name := by
  obtain ⟨id, -, rfl⟩ := List.mem_map.mp reported
  rfl

theorem doomedName?_of_danglingFile {items : List Item}
    (reported : issue ∈ danglingFileChunks index name items) :
    doomedName? issue = some name := by
  obtain ⟨item, -, among⟩ := List.mem_flatMap.mp reported
  obtain ⟨id, -, rfl⟩ := List.mem_map.mp among
  rfl

theorem scanSnapshot_about {loadFaults : LoadFaults}
    (reported : issue ∈ (scanSnapshot external loadFaults storage manifest cache entry).2.1) :
    (∃ detail, issue = .snapshotReadFailed entry.name detail) ∨
      issue = .corruptSnapshot entry.id (some entry.name) ∨
      doomedName? issue = some entry.name := by
  unfold scanSnapshot at reported
  split at reported
  · obtain rfl := List.mem_singleton.mp reported
    split
    · exact .inl ⟨_, rfl⟩
    · exact .inr (.inl rfl)
  · simp only at reported
    split at reported
    · rcases List.mem_append.mp reported with pointer | failed
      · exact .inr (.inr (doomedName?_of_dangling pointer))
      · obtain rfl := List.mem_singleton.mp failed
        split
        · exact .inl ⟨_, rfl⟩
        · exact .inr (.inr rfl)
    · rcases List.mem_append.mp reported with before | file
      · rcases List.mem_append.mp before with pointer | undecodable
        · exact .inr (.inr (doomedName?_of_dangling pointer))
        · obtain ⟨failure, -, rfl⟩ := Option.map_eq_some_iff.mp (Option.mem_toList.mp undecodable)
          exact .inr (.inr rfl)
      · exact .inr (.inr (doomedName?_of_danglingFile file))

theorem scanOrphan_about {orphanFaults : String → Option VykarError}
    (reported : scanOrphan external orphanFaults storage.snapshots manifest key = some issue) :
    key ∉ manifest.map (fun entry => toHex entry.id) ∧
      ((∃ name detail, issue = .snapshotReadFailed name detail) ∨
        (∃ id, issue = .corruptSnapshot id none ∧ fromHex? key = some id) ∨
        issue = .invalidSnapshotKey key ∧ fromHex? key = none) := by
  unfold scanOrphan at reported
  split at reported
  · cases reported
  · rename_i unlisted
    refine ⟨(not_or.mp unlisted).2, ?_⟩
    split at reported
    · rename_i invalid
      exact .inr (.inr ⟨(Option.some.inj reported).symm, invalid⟩)
    · rename_i id valid
      split at reported
      · split at reported
        · cases reported
        · exact .inr (.inl ⟨id, (Option.some.inj reported).symm, valid⟩)
      · cases reported
      · exact .inl ⟨_, _, (Option.some.inj reported).symm⟩

namespace Scanned

variable (scanned : Scanned external schedule faults verifyData storage manifest cache scan visits)
include scanned

theorem mem_issues : issue ∈ scan.issues ↔
    (∃ key, (storage.snapshots.get? key).isSome = true ∧
      scanOrphan external faults.orphan storage.snapshots manifest key = some issue) ∨
    (∃ visit ∈ visits, issue ∈ (visit.scan external faults.scan storage manifest).1) ∨
    issue ∈ scanPacks external schedule faults verifyData storage := by
  rw [scanned.issues, List.mem_append, List.mem_append, List.mem_filterMap, List.mem_flatMap,
    or_assoc]
  simp only [Dict.mem_keysList]

theorem visit_listed {visit : Visit} (among : visit ∈ visits) : visit.entry ∈ manifest :=
  scanned.entries ▸ List.mem_map_of_mem among

theorem exists_visit (isListed : entry ∈ manifest) :
    ∃ visit ∈ visits, visit.entry = entry := by
  rw [← scanned.entries] at isListed
  exact List.mem_map.mp isListed

theorem visit_of_corrupt (reported : .corruptSnapshot id (some name) ∈ scan.issues) :
    ∃ visit ∈ visits, visit.entry.id = id ∧ visit.entry.name = name ∧
      .corruptSnapshot id (some name) ∈ (visit.scan external faults.scan storage manifest).1 := by
  rcases scanned.mem_issues.mp reported with ⟨key, -, orphan⟩ | ⟨visit, among, here⟩ | pack
  · rcases (scanOrphan_about orphan).2 with ⟨_, _, same⟩ | ⟨_, same, -⟩ | ⟨same, -⟩ <;> cases same
  · rcases scanSnapshot_about here with ⟨_, same⟩ | same | same <;> cases same
    exact ⟨visit, among, rfl, rfl, here⟩
  · cases finding_of_mem_scanPacks pack

theorem orphan_of_corrupt (reported : .corruptSnapshot id none ∈ scan.issues) :
    ∃ key, (storage.snapshots.get? key).isSome = true ∧ fromHex? key = some id ∧
      key ∉ manifest.map (fun entry => toHex entry.id) := by
  rcases scanned.mem_issues.mp reported with ⟨key, stored, orphan⟩ | ⟨visit, among, here⟩ | pack
  · obtain ⟨unlisted, about⟩ := scanOrphan_about orphan
    rcases about with ⟨_, _, same⟩ | ⟨_, same, valid⟩ | ⟨same, -⟩ <;> cases same
    exact ⟨key, stored, valid, unlisted⟩
  · rcases scanSnapshot_about here with ⟨_, same⟩ | same | same <;> cases same
  · cases finding_of_mem_scanPacks pack

theorem orphan_of_invalid (reported : .invalidSnapshotKey key ∈ scan.issues) :
    fromHex? key = none := by
  rcases scanned.mem_issues.mp reported with ⟨other, -, orphan⟩ | ⟨visit, among, here⟩ | pack
  · rcases (scanOrphan_about orphan).2 with ⟨_, _, same⟩ | ⟨_, same, -⟩ | ⟨same, invalid⟩ <;>
      cases same
    exact invalid
  · rcases scanSnapshot_about here with ⟨_, same⟩ | same | same <;> cases same
  · cases finding_of_mem_scanPacks pack

theorem visit_of_doomed (reported : issue ∈ scan.issues) (dooms : doomedName? issue = some name) :
    ∃ visit ∈ visits, visit.entry.name = name ∧
      issue ∈ (visit.scan external faults.scan storage manifest).1 := by
  rcases scanned.mem_issues.mp reported with ⟨key, -, orphan⟩ | ⟨visit, among, here⟩ | pack
  · rcases (scanOrphan_about orphan).2 with ⟨_, _, rfl⟩ | ⟨_, rfl, -⟩ | ⟨rfl, -⟩ <;> cases dooms
  · refine ⟨visit, among, ?_, here⟩
    rcases scanSnapshot_about here with ⟨_, rfl⟩ | rfl | same
    · cases dooms
    · cases dooms
    · exact Option.some.inj (same.symm.trans dooms)
  · cases finding_of_mem_scanPacks pack <;> cases dooms

theorem mem_scanPacks (reported : issue ∈ scan.issues)
    (notRead : ∀ name detail, issue ≠ .snapshotReadFailed name detail)
    (noAction : snapshotAction? issue = none) (noDoom : doomedName? issue = none) :
    issue ∈ scanPacks external schedule faults verifyData storage := by
  rcases scanned.mem_issues.mp reported with ⟨key, -, orphan⟩ | ⟨visit, among, here⟩ | pack
  · rcases (scanOrphan_about orphan).2 with ⟨_, _, rfl⟩ | ⟨_, rfl, -⟩ | ⟨rfl, -⟩
    · exact absurd rfl (notRead _ _)
    · cases noAction
    · cases noAction
  · rcases scanSnapshot_about here with ⟨_, rfl⟩ | rfl | same
    · exact absurd rfl (notRead _ _)
    · cases noAction
    · rw [noDoom] at same
      cases same
  · exact pack

/-- Chunks that verify, with a valid pack header, are removed only after a failed call. -/
theorem not_sound_of_removed {id : ChunkId} {entry : ChunkIndexEntry}
    (found : storage.index.get? id = some entry)
    (removed : id ∈ removedChunks storage.index scan.issues) (unhit : faults.blob id = none) :
    ¬ ChunkSound external storage id entry := by
  intro sound
  obtain ⟨file, -, stored, -⟩ := sound.verifies.read
  have ofChunk {packId : PackId} {detail : String}
      (reported : .corruptChunk id packId detail ∈ scan.issues) : False := by
    cases finding_of_mem_scanPacks (scanned.mem_scanPacks reported (by simp) rfl rfl) with
    | chunk indexed damaged =>
      cases found.symm.trans indexed
      rcases damaged with hit | broken
      · rw [unhit] at hit
        cases hit
      · exact broken sound.verifies
  obtain ⟨packId, blamed, located | ⟨detail, reported⟩⟩ := blamed_of_removed removed
  · obtain ⟨same, sameFound, rfl⟩ := located
    cases found.symm.trans sameFound
    rcases blamed with missing | ⟨detail, content⟩ | ⟨detail, reported⟩
    · cases finding_of_mem_scanPacks (scanned.mem_scanPacks missing (by simp) rfl rfl) with
      | missing indexed absent =>
        rw [absent] at stored
        cases stored
    · cases finding_of_mem_scanPacks (scanned.mem_scanPacks content (by simp) rfl rfl) with
      | header large bad =>
        have valid := sound.header large file stored
        rw [bad file stored] at valid
        cases valid
    · exact ofChunk reported
  · exact ofChunk reported

theorem removed_of_not_sound {id : ChunkId} {entry : ChunkIndexEntry} (verified : verifyData = true)
    (unhit : faults = .none) (found : storage.index.get? id = some entry)
    (damaged : ¬ ChunkSound external storage id entry) :
    id ∈ removedChunks storage.index scan.issues := by
  subst verified unhit
  have ofPacks {issue : IntegrityIssue}
      (reported : issue ∈ scanPacks external schedule .none true storage) : issue ∈ scan.issues :=
    scanned.mem_issues.mpr (.inr (.inr reported))
  apply removed_of_blamed found
  rcases @exists_issue_of_not_sound external storage id entry schedule .none found rfl rfl rfl
    damaged with missing | ⟨detail, content⟩ | ⟨detail, chunk⟩
  · exact .inl (ofPacks missing)
  · exact .inr (.inl ⟨detail, ofPacks content⟩)
  · exact .inr (.inr ⟨detail, ofPacks chunk⟩)

end Scanned

end Issues

section Survivors

variable {external : External} {schedule : Schedule} {faults : Faults} {verifyData : Bool}
  {storage : Storage} {manifest : List SnapshotEntry} {cache : BlobCache} {scan : ScanResult}
  {visits : List Visit} {visit : Visit} (lists : Lists external storage manifest)
  (scanned : Scanned external schedule faults verifyData storage manifest cache scan visits)
  {other : Visit}
include lists scanned

theorem visit_unique (among : visit ∈ visits) (otherAmong : other ∈ visits)
    (same : other.entry = visit.entry) : other = visit := by
  have distinct : (visits.map Visit.entry).Nodup := by
    rw [scanned.entries]
    exact List.Nodup.of_map _ lists.names
  exact List.inj_on_of_nodup_map distinct otherAmong among same

theorem visit_unique_name (among : visit ∈ visits) (otherAmong : other ∈ visits)
    (same : other.entry.name = visit.entry.name) : other = visit :=
  visit_unique lists scanned among otherAmong (lists.names.eq_of_name
    (scanned.visit_listed otherAmong) (scanned.visit_listed among) same)

theorem corrupt_visit (among : visit ∈ visits) {name : Option String}
    (removed : .removeCorruptSnapshot visit.entry.id name ∈ snapshotActions scan.issues) :
    name = some visit.entry.name ∧
      .corruptSnapshot visit.entry.id name ∈
        (visit.scan external faults.scan storage manifest).1 := by
  have reported := corrupt_of_mem_snapshotActions removed
  cases name with
  | none =>
    obtain ⟨key, stored, valid, unlisted⟩ := scanned.orphan_of_corrupt reported
    rw [lists.keys _ (scanned.visit_listed among) key valid stored] at unlisted
    exact absurd (List.mem_map_of_mem (scanned.visit_listed among)) unlisted
  | some name =>
    obtain ⟨other, otherAmong, sameId, rfl, here⟩ := scanned.visit_of_corrupt reported
    have sameEntry := lists.ids _ (scanned.visit_listed otherAmong) _
      (scanned.visit_listed among) sameId
    obtain rfl := visit_unique lists scanned among otherAmong sameEntry
    exact ⟨rfl, here⟩

/-- Nothing was found at the visit, and no chunk seen there is removed. -/
def Unharmed (external : External) (faults : Faults) (storage : Storage)
    (manifest : List SnapshotEntry) (scan : ScanResult) (visit : Visit) : Prop :=
  (visit.scan external faults.scan storage manifest).1 = [] ∧
    ∀ id ∈ (visit.scan external faults.scan storage manifest).2,
      id ∉ removedChunks storage.index scan.issues

omit lists scanned in
theorem mem_corruptNames_actions :
    name ∈ corruptNames (buildRepairPlan index scan).actions ↔
      name ∈ corruptNames (snapshotActions scan.issues) := by
  simp only [mem_corruptNames, corrupt_mem_actions]

section

variable (among : visit ∈ visits) (unharmed : Unharmed external faults storage manifest scan visit)

include among unharmed

theorem Unharmed.not_corrupt {name : Option String} :
    .removeCorruptSnapshot visit.entry.id name ∉ snapshotActions scan.issues := by
  intro removed
  have here := (corrupt_visit lists scanned among removed).2
  rw [unharmed.1] at here
  cases here

theorem Unharmed.not_corruptName :
    visit.entry.name ∉ corruptNames (buildRepairPlan storage.index scan).actions := by
  rw [mem_corruptNames_actions, mem_corruptNames]
  rintro ⟨id, removed⟩
  obtain ⟨other, otherAmong, -, sameName, here⟩ :=
    scanned.visit_of_corrupt (corrupt_of_mem_snapshotActions removed)
  obtain rfl := visit_unique_name lists scanned among otherAmong sameName
  rw [unharmed.1] at here
  cases here

theorem Unharmed.not_doomed :
    ¬ ∃ count, .removeDanglingSnapshot visit.entry.name count ∈
      (buildRepairPlan storage.index scan).actions := by
  rw [doomed_mem_actions]
  rintro ⟨-, ⟨issue, reported, dooms⟩ | ⟨ids, isRefs, id, isRef, removed⟩⟩
  · obtain ⟨other, otherAmong, sameName, here⟩ := scanned.visit_of_doomed reported dooms
    obtain rfl := visit_unique_name lists scanned among otherAmong sameName
    rw [unharmed.1] at here
    cases here
  · rw [scanned.refs] at isRefs
    obtain ⟨seen, isSeen, idSeen⟩ := mem_collectRefs.mp ⟨ids, isRefs, isRef⟩
    obtain ⟨other, otherAmong, same⟩ := List.mem_map.mp isSeen
    cases (visit_unique_name lists scanned among otherAmong (congrArg Prod.fst same))
    cases same
    exact unharmed.2 id idSeen removed

end

omit lists in
/-- A snapshot that no action removes is unharmed, unless reading it failed. -/
theorem unharmed_of_spared (among : visit ∈ visits)
    (noneFailed : ∀ name detail, .snapshotReadFailed name detail ∉ scan.issues)
    (notCorrupt : ∀ name, .removeCorruptSnapshot visit.entry.id name ∉
      snapshotActions scan.issues)
    (notCorruptName : visit.entry.name ∉
      corruptNames (buildRepairPlan storage.index scan).actions)
    (notDoomed : ¬ ∃ count, .removeDanglingSnapshot visit.entry.name count ∈
      (buildRepairPlan storage.index scan).actions) :
    Unharmed external faults storage manifest scan visit := by
  rw [mem_corruptNames_actions] at notCorruptName
  rw [doomed_mem_actions, not_and, not_or] at notDoomed
  obtain ⟨notNamed, noneMissing⟩ := notDoomed notCorruptName
  constructor
  · apply List.eq_nil_iff_forall_not_mem.mpr
    intro issue here
    have reported : issue ∈ scan.issues := scanned.mem_issues.mpr (.inr (.inl ⟨_, among, here⟩))
    rcases scanSnapshot_about here with ⟨detail, rfl⟩ | rfl | dooms
    · exact noneFailed _ _ reported
    · obtain ⟨other, removed⟩ := exists_mem_snapshotActions reported
      exact notCorrupt other removed
    · exact notNamed ⟨issue, reported, dooms⟩
  · intro id seen removed
    obtain ⟨ids, isRefs, isRef⟩ := mem_collectRefs.mpr
      ⟨_, List.mem_map_of_mem (f := fun visit : Visit =>
        (visit.entry.name, (visit.scan external faults.scan storage manifest).2)) among, seen⟩
    exact noneMissing ⟨ids, scanned.refs ▸ isRefs, id, isRef, removed⟩

variable {next : Repairing}
  (left : Cleaned faults.delete (buildRepairPlan storage.index scan).actions storage manifest next)
include left

theorem Unharmed.kept (among : visit ∈ visits)
    (unharmed : Unharmed external faults storage manifest scan visit) :
    visit.entry ∈ next.manifest ∧ next.snapshots.get? (toHex visit.entry.id) =
      storage.snapshots.get? (toHex visit.entry.id) := by
  have isListed := scanned.visit_listed among
  have notDeleted : ¬ Deletes faults.delete (buildRepairPlan storage.index scan).actions
      visit.entry := fun deletes => unharmed.not_doomed lists scanned among deletes.1
  refine ⟨(left.listed _).mpr ⟨isListed, unharmed.not_corruptName lists scanned among,
    notDeleted⟩, ?_⟩
  obtain ⟨blob, stored⟩ := Option.isSome_iff_exists.mp (lists.stored _ isListed)
  rw [stored, left.snapshots]
  refine ⟨stored, ?_, ?_, ?_⟩
  · intro id name removed same
    obtain rfl := toHex_injective same
    exact unharmed.not_corrupt lists scanned among (corrupt_mem_actions.mp removed)
  · intro removed
    have invalid := scanned.orphan_of_invalid (invalid_mem_actions.mp removed)
    rw [fromHex?_toHex] at invalid
    cases invalid
  · intro entry entryListed _ deletes same
    obtain rfl := lists.ids _ entryListed _ isListed (toHex_injective same)
    exact notDeleted deletes

theorem Cleaned.unharmed (among : visit ∈ visits)
    (noneFailed : ∀ name detail, .snapshotReadFailed name detail ∉ scan.issues)
    (unhit : ∀ key, faults.delete key = none)
    (stored : (next.snapshots.get? (toHex visit.entry.id)).isSome = true) :
    Unharmed external faults storage manifest scan visit := by
  obtain ⟨blob, isStored⟩ := Option.isSome_iff_exists.mp stored
  obtain ⟨-, notCorrupt, -, notDeleted⟩ := (left.snapshots _ _).mp isStored
  have notCorruptName : visit.entry.name ∉
      corruptNames (buildRepairPlan storage.index scan).actions := by
    rw [mem_corruptNames_actions, mem_corruptNames]
    rintro ⟨id, removed⟩
    obtain ⟨other, otherAmong, rfl, sameName, -⟩ :=
      scanned.visit_of_corrupt (corrupt_of_mem_snapshotActions removed)
    obtain rfl := visit_unique_name lists scanned among otherAmong sameName
    exact notCorrupt _ _ (corrupt_mem_actions.mpr removed) rfl
  refine unharmed_of_spared scanned among noneFailed (fun name removed => ?_) notCorruptName ?_
  · exact notCorrupt _ name (corrupt_mem_actions.mpr removed) rfl
  · intro doomed
    exact notDeleted _ (scanned.visit_listed among) notCorruptName ⟨doomed, unhit _⟩ rfl

omit lists scanned in
theorem Cleaned.get?_index {id : ChunkId} {entry : ChunkIndexEntry} :
    next.index.get? id = some entry ↔
      storage.index.get? id = some entry ∧ id ∉ removedChunks storage.index scan.issues := by
  rw [left.index]
  refine and_congr_right fun found => ?_
  rw [← exists_drops_iff found]
  push Not
  rfl

end Survivors

end Vykar.Check

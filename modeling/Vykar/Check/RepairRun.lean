import Vykar.Check.RepairScan

/-!
Whole runs of the repair.

`Executed` lists the ways in which the execution of a plan can end.  In each of them
an unharmed snapshot keeps its object and its index entries.
-/

namespace Vykar.Check

open Index Pack Snapshot

variable {external : External} {schedule : Schedule} {faults : Faults}
  {verifyData deletesAllowed : Bool} {storage : Storage} {manifest : List SnapshotEntry}
  {cache : BlobCache} {scan : ScanResult} {visits : List Visit} {visit : Visit}
  {snapshotCache : Dict String SnapshotEntry}

inductive Executed (external : External) (faults : Faults) (storage : Storage)
    (manifest : List SnapshotEntry) (cache : BlobCache) (actions : List RepairAction)
    (issues : List IntegrityIssue) :
    Storage × Except VykarError (List RepairAction × List String) → Prop where
  | refused {failure : VykarError}
      (failed : ∃ name detail, .snapshotReadFailed name detail ∈ issues) :
      Executed external faults storage manifest cache actions issues (storage, .error failure)
  | stopped {failure : VykarError}
      (noneFailed : ∀ name detail, .snapshotReadFailed name detail ∉ issues)
      (hit : ∃ key, faults.delete key ≠ none) :
      Executed external faults storage manifest cache actions issues
        ((removeCorrupt faults.delete actions (.start storage manifest)).1.stored storage,
          .error failure)
  | aborted {next : Repairing} {failure : VykarError}
      (noneFailed : ∀ name detail, .snapshotReadFailed name detail ∉ issues)
      (left : Cleaned faults.delete actions storage manifest next) :
      Executed external faults storage manifest cache actions issues
        (next.stored storage, .error failure)
  | saved {next : Repairing} {counts : Dict ChunkId Nat}
      {report : Except VykarError (List RepairAction × List String)}
      (noneFailed : ∀ name detail, .snapshotReadFailed name detail ∉ issues)
      (left : Cleaned faults.delete actions storage manifest next)
      (rebuilt : rebuildCounts external faults.rebuild (next.current storage) next.manifest 0
        cache ∅ next.manifest = .ok counts) :
      Executed external faults storage manifest cache actions issues
        (next.saved storage counts, report)

theorem executeRepair_executed (distinct : NamesDistinct manifest) (plan : RepairPlan)
    (issues : List IntegrityIssue) :
    Executed external faults storage manifest cache plan.actions issues
      (executeRepair external faults storage manifest cache plan issues) := by
  unfold executeRepair
  split
  · rename_i name detail first
    obtain ⟨issue, reported, isFailure⟩ := List.exists_of_findSome?_eq_some first
    refine .refused ⟨name, detail, ?_⟩
    split at isFailure <;> cases isFailure
    exact reported
  · rename_i quiet
    have noneFailed : ∀ name detail, .snapshotReadFailed name detail ∉ issues := by
      intro name detail reported
      exact absurd (List.findSome?_eq_none_iff.mp quiet _ reported) (by simp)
    split
    · rename_i state failure stopped
      have same : state = (removeCorrupt faults.delete plan.actions
          (.start storage manifest)).1 := by
        rw [stopped]
      rw [same]
      refine .stopped noneFailed ?_
      by_contra unhit
      push Not at unhit
      have finished := @removeCorrupt_of_unhit faults.delete plan.actions
        (.start storage manifest) unhit
      rw [stopped] at finished
      cases finished
    · rename_i state finished
      have done := removeCorrupt_done (congrArg Prod.snd finished)
      rw [finished] at done
      obtain rfl := done
      have left := @cleaned storage faults.delete plan.actions manifest distinct
      simp only
      generalize (plan.actions.foldl applyCorrupt (.start storage manifest)).clean faults.delete
        plan.actions = next at left ⊢
      have survivors : (next.manifest.filter fun entry => entry.name ∉ next.deleted) =
          next.manifest :=
        List.filter_eq_self.mpr fun entry isListed => by simpa using left.deleted entry isListed
      rw [survivors]
      split
      · exact .aborted noneFailed left
      · rename_i counts rebuilt
        split
        · rename_i fault hit
          cases fault.stored with
          | false => exact .aborted noneFailed left
          | true => exact .saved noneFailed left rebuilt
        · exact .saved noneFailed left rebuilt

/-- No call fails before a plan is executed, and the backend allows deletions. -/
structure Reaches (faults : Faults) (deletesAllowed : Bool) : Prop where
  index : faults.index = none
  list : faults.list = none
  listed : ∀ key, faults.listed key = none
  listOrphans : faults.listOrphans = none
  allowed : deletesAllowed = true

/-- A repair changes nothing, or it executes the plan made from a scan. -/
theorem runWithRepair_cases (listable : Listable external storage snapshotCache) :
    (¬ Reaches faults deletesAllowed ∧ ∃ failure, runWithRepair external schedule faults
      verifyData deletesAllowed storage snapshotCache = (storage, .error failure)) ∨
    ∃ manifest cache scan visits outcome report,
      Lists external storage manifest ∧
      Scanned external schedule faults verifyData storage manifest cache scan visits ∧
      Executed external faults storage manifest cache
        (buildRepairPlan storage.index scan).actions scan.issues (outcome, report) ∧
      runWithRepair external schedule faults verifyData deletesAllowed storage snapshotCache =
        (outcome, report.map fun repaired => ⟨scan.issues.map IntegrityIssue.toCheckError,
          buildRepairPlan storage.index scan, repaired.1, repaired.2⟩) := by
  unfold runWithRepair
  split
  · rename_i failure hit
    refine .inl ⟨fun reaches => ?_, _, rfl⟩
    cases hit.symm.trans reaches.index
  · split
    · rename_i failure hit
      refine .inl ⟨fun reaches => ?_, _, rfl⟩
      cases hit.symm.trans reaches.list
    · split
      · rename_i failure failed
        refine .inl ⟨fun reaches => ?_, _, rfl⟩
        obtain ⟨listed, done⟩ := @exists_refreshSnapshotCache external true faults.listed
          storage.snapshots snapshotCache reaches.listed
        cases failed.symm.trans done
      · rename_i listed refreshed
        have lists : Lists external storage (manifestOf schedule listed) :=
          listable.lists (refreshed_of_strict refreshed)
        simp only
        split
        · rename_i failure failed
          refine .inl ⟨fun reaches => ?_, _, rfl⟩
          simp only [integrityScan, scanOrphans, reaches.listOrphans, if_true] at failed
          cases failed
        · rename_i cache scan found
          obtain ⟨visits, scanned⟩ := exists_scanned found
          split
          · rename_i forbidden
            refine .inl ⟨fun reaches => ?_, _, rfl⟩
            rw [reaches.allowed, Bool.not_true, Bool.and_false] at forbidden
            cases forbidden
          · have executed := @executeRepair_executed external faults storage
              (manifestOf schedule listed) cache lists.names (buildRepairPlan storage.index scan)
              scan.issues
            generalize executeRepair external faults storage (manifestOf schedule listed) cache
              (buildRepairPlan storage.index scan) scan.issues = ended at executed ⊢
            obtain ⟨outcome, report⟩ := ended
            refine .inr ⟨_, cache, scan, visits, outcome, report, lists, scanned, executed, ?_⟩
            cases report <;> rfl

theorem get?_rebuildRefcounts {index : ChunkIndex} {counts : Dict ChunkId Nat} {id : ChunkId}
    {entry : ChunkIndexEntry} :
    (index.rebuildRefcounts counts).get? id = some entry ↔
      ∃ before count, index.get? id = some before ∧ counts.get? id = some count ∧
        entry = { before with refcount := count } := by
  rw [ChunkIndex.rebuildRefcounts, Dict.get?_retain, Option.bind_eq_some_iff]
  simp only [Option.map_eq_some_iff]
  constructor
  · rintro ⟨before, found, count, counted, rfl⟩
    exact ⟨before, count, found, counted, rfl⟩
  · rintro ⟨before, count, found, counted, rfl⟩
    exact ⟨before, found, count, counted, rfl⟩

section Rebuilt

variable (lists : Lists external storage manifest)
  (scanned : Scanned external schedule faults verifyData storage manifest cache scan visits)
  {next : Repairing}
  (left : Cleaned faults.delete (buildRepairPlan storage.index scan).actions storage manifest next)

theorem Cleaned.within {actions : List RepairAction}
    (left : Cleaned faults.delete actions storage manifest next) :
    Within (next.current storage).index storage.index :=
  fun id entry found => ⟨entry, ((left.index id entry).mp found).1, rfl⟩

include lists in
theorem Cleaned.listedRefs_eq {actions : List RepairAction} {entry : SnapshotEntry}
    (left : Cleaned faults.delete actions storage manifest next)
    (isListed : entry ∈ next.manifest) :
    listedRefs external (next.current storage) next.manifest entry.name =
      references external (next.current storage) (toHex entry.id) := by
  rw [listedRefs, (lists.names.sublist left.part).findSnapshot.mpr ⟨isListed, rfl⟩,
    Option.bind_some]

include lists scanned in
theorem Unharmed.references (among : visit ∈ visits)
    (unharmed : Unharmed external faults storage manifest scan visit) :
    references external storage (toHex visit.entry.id) =
        some (visit.scan external faults.scan storage manifest).2 ∧
      ∀ id ∈ (visit.scan external faults.scan storage manifest).2,
        storage.index.contains id = true := by
  obtain ⟨found, ids, isFound, isRefs, indexed, seen⟩ := scanSnapshot_clean
    (located_indexedPlain external storage) (scanned.sound visit among) unharmed.1
  obtain rfl := Option.some.inj (isFound.symm.trans
    (lists.names.findSnapshot.mpr ⟨scanned.visit_listed among, rfl⟩))
  have same : (visit.scan external faults.scan storage manifest).2 = ids := seen
  rw [same]
  exact ⟨isRefs, indexed⟩

include lists scanned in
theorem visit_seen (flat : FlatStreams external storage) (among : visit ∈ visits)
    (unhit : ∀ failure, ¬ LoadHit (faults.scan visit.position) failure) {ids : List ChunkId}
    (isRefs : references external storage (toHex visit.entry.id) = some ids)
    (indexed : ∀ id ∈ ids, storage.index.contains id = true) :
    (visit.scan external faults.scan storage manifest).1 = [] ∧
      (visit.scan external faults.scan storage manifest).2 = ids :=
  (scanSnapshot_intact (located_indexedPlain external storage) (scanned.sound visit among) flat
    (lists.names.findSnapshot.mpr ⟨scanned.visit_listed among, rfl⟩) isRefs
    indexed).resolve_right fun ⟨failure, hit, _⟩ => unhit failure hit

include lists scanned left in
theorem Unharmed.references_current (among : visit ∈ visits)
    (unharmed : Unharmed external faults storage manifest scan visit) :
    Snapshot.references external (next.current storage) (toHex visit.entry.id) =
      some (visit.scan external faults.scan storage manifest).2 := by
  obtain ⟨isRefs, indexed⟩ := unharmed.references lists scanned among
  refine left.within.references_smaller rfl
    (unharmed.kept lists scanned left among).2 isRefs fun id seen => ?_
  obtain ⟨entry, found⟩ := Option.isSome_iff_exists.mp (indexed id seen)
  rw [ChunkIndex.contains,
    show (next.current storage).index.get? id = some entry from
      left.get?_index.mpr ⟨found, unharmed.2 id seen⟩]
  rfl

theorem Cleaned.counts {actions : List RepairAction} {counts : Dict ChunkId Nat}
    (lists : Lists external storage manifest)
    (left : Cleaned faults.delete actions storage manifest next)
    (cacheSound : CacheSound (indexedPlain external storage) cache)
    (rebuilt : rebuildCounts external faults.rebuild (next.current storage) next.manifest 0 cache
      ∅ next.manifest = .ok counts) :
    (∀ entry ∈ next.manifest,
        (references external (next.current storage) (toHex entry.id)).isSome = true) ∧
      counts = countChunks next.index ∅ (next.manifest.flatMap fun entry =>
        (references external (next.current storage) (toHex entry.id)).getD []) := by
  obtain ⟨readable, rfl⟩ := rebuildCounts_ok (left.within.located rfl) cacheSound rebuilt
  constructor
  · intro entry isListed
    rw [← left.listedRefs_eq lists isListed]
    exact readable entry isListed
  · refine congrArg (countChunks next.index ∅) ?_
    exact List.flatMap_congr fun entry isListed => by rw [left.listedRefs_eq lists isListed]

include lists scanned in
theorem Unharmed.survives {outcome : Storage}
    {report : Except VykarError (List RepairAction × List String)} (among : visit ∈ visits)
    (unharmed : Unharmed external faults storage manifest scan visit)
    (executed : Executed external faults storage manifest cache
      (buildRepairPlan storage.index scan).actions scan.issues (outcome, report)) :
    outcome.snapshots.get? (toHex visit.entry.id) =
        storage.snapshots.get? (toHex visit.entry.id) ∧
      ∀ id ∈ (visit.scan external faults.scan storage manifest).2,
        outcome.index.contains id = true := by
  obtain ⟨isRefs, indexed⟩ := unharmed.references lists scanned among
  cases executed with
  | refused failed => exact ⟨rfl, indexed⟩
  | stopped noneFailed hit =>
    refine ⟨?_, indexed⟩
    obtain ⟨blob, stored⟩ := Option.isSome_iff_exists.mp
      (lists.stored _ (scanned.visit_listed among))
    rw [stored]
    refine removeCorrupt_kept stored fun id name removed same => ?_
    obtain rfl := toHex_injective same
    exact unharmed.not_corrupt lists scanned among (corrupt_mem_actions.mp removed)
  | aborted noneFailed left =>
    exact ⟨(unharmed.kept lists scanned left among).2, indexed⟩
  | @saved next counts report noneFailed left rebuilt =>
    obtain ⟨stays, sameObject⟩ := unharmed.kept lists scanned left among
    refine ⟨sameObject, fun id seen => ?_⟩
    obtain ⟨-, rfl⟩ := left.counts lists scanned.cacheSound rebuilt
    obtain ⟨entry, found⟩ := Option.isSome_iff_exists.mp (indexed id seen)
    have kept := left.get?_index.mpr ⟨found, unharmed.2 id seen⟩
    have counted : id ∈ next.manifest.flatMap fun entry =>
        (Snapshot.references external (next.current storage) (toHex entry.id)).getD [] := by
      refine List.mem_flatMap.mpr ⟨visit.entry, stays, ?_⟩
      rw [unharmed.references_current lists scanned left among]
      exact seen
    have after := get?_rebuildRefcounts.mpr ⟨entry, _, kept,
      countChunks_get?.trans (if_pos ⟨by rw [ChunkIndex.contains, kept]; rfl, counted⟩), rfl⟩
    exact Option.isSome_iff_exists.mpr ⟨_, after⟩

include lists scanned in
theorem Executed.unharmed {outcome : Storage}
    {report : Except VykarError (List RepairAction × List String)}
    (executed : Executed external faults storage manifest cache
      (buildRepairPlan storage.index scan).actions scan.issues (outcome, report))
    (noneFailed : ∀ name detail, .snapshotReadFailed name detail ∉ scan.issues)
    (unhit : ∀ key, faults.delete key = none) (among : visit ∈ visits)
    (stored : (outcome.snapshots.get? (toHex visit.entry.id)).isSome = true) :
    Unharmed external faults storage manifest scan visit := by
  cases executed with
  | refused failed =>
    obtain ⟨name, detail, reported⟩ := failed
    exact absurd reported (noneFailed name detail)
  | stopped _ hit =>
    obtain ⟨key, isHit⟩ := hit
    exact absurd (unhit key) isHit
  | aborted _ left => exact left.unharmed lists scanned among noneFailed unhit stored
  | saved _ left rebuilt => exact left.unharmed lists scanned among noneFailed unhit stored

end Rebuilt

end Vykar.Check

import Vykar.Check.Findings
import Vykar.Check.Repair

/-!
What a repair plan contains, in terms of the issues it is made from.

Snapshots are removed because an issue names them or because a chunk they refer to
is about to be removed; chunks are removed because an issue names them or their
pack.
-/

namespace Vykar.Check

open Index Pack Snapshot

variable {issues : List IntegrityIssue} {scan : ScanResult} {index : ChunkIndex} {id : ChunkId}
  {packId : PackId} {name key : String} {action : RepairAction} {issue : IntegrityIssue}
  {entry : ChunkIndexEntry}

section SnapshotActions

/-- The action for an issue about an object under `snapshots/`. -/
def snapshotAction? : IntegrityIssue → Option RepairAction
  | .corruptSnapshot id name => some (.removeCorruptSnapshot id name)
  | .invalidSnapshotKey key => some (.removeInvalidSnapshotKey key)
  | _ => none

theorem addSnapshotAction_cases (actions : List RepairAction) (issue : IntegrityIssue) :
    (addSnapshotAction actions issue = actions ∧ ∀ action, snapshotAction? issue = some action →
        ∃ id name other, action = .removeCorruptSnapshot id name ∧
          .removeCorruptSnapshot id other ∈ actions) ∨
      ∃ action, snapshotAction? issue = some action ∧
        addSnapshotAction actions issue = actions ++ [action] := by
  cases issue
  case corruptSnapshot id name =>
    unfold addSnapshotAction
    simp only
    split
    · rename_i already
      refine .inl ⟨rfl, fun action isAction => ⟨id, name, ?_⟩⟩
      obtain ⟨action, listed, matched⟩ := List.any_eq_true.mp already
      split at matched
      · rename_i other otherName
        obtain rfl : other = id := by simpa using matched
        exact ⟨otherName, (Option.some.inj isAction).symm, listed⟩
      · cases matched
    · exact .inr ⟨_, rfl, rfl⟩
  case invalidSnapshotKey key => exact .inr ⟨_, rfl, rfl⟩
  all_goals exact .inl ⟨rfl, fun action none => by cases none⟩

variable {actions : List RepairAction}

theorem mem_foldl_addSnapshotAction (listed : action ∈ issues.foldl addSnapshotAction actions) :
    action ∈ actions ∨ ∃ issue ∈ issues, snapshotAction? issue = some action := by
  induction issues generalizing actions with
  | nil => exact .inl listed
  | cons issue issues ih =>
    rcases ih listed with among | ⟨later, isLater, isAction⟩
    · rcases addSnapshotAction_cases actions issue with ⟨same, -⟩ | ⟨new, isNew, added⟩
      · exact .inl (same ▸ among)
      · rw [added, List.mem_append, List.mem_singleton] at among
        rcases among with before | rfl
        · exact .inl before
        · exact .inr ⟨issue, List.mem_cons_self, isNew⟩
    · exact .inr ⟨later, List.mem_cons_of_mem _ isLater, isAction⟩

theorem subset_foldl_addSnapshotAction (actions : List RepairAction)
    (issues : List IntegrityIssue) : actions ⊆ issues.foldl addSnapshotAction actions := by
  induction issues generalizing actions with
  | nil => exact fun _ listed => listed
  | cons issue issues ih =>
    refine List.Subset.trans ?_ (ih _)
    rcases addSnapshotAction_cases actions issue with ⟨same, -⟩ | ⟨new, -, added⟩
    · rw [same]
      exact fun _ listed => listed
    · rw [added]
      exact List.subset_append_left _ _

theorem answered_of_mem (actions : List RepairAction) (listed : issue ∈ issues)
    (isAction : snapshotAction? issue = some action) :
    action ∈ issues.foldl addSnapshotAction actions ∨
      ∃ id name other, action = .removeCorruptSnapshot id name ∧
        .removeCorruptSnapshot id other ∈ issues.foldl addSnapshotAction actions := by
  induction issues generalizing actions with
  | nil => cases listed
  | cons head issues ih =>
    rcases List.mem_cons.mp listed with rfl | later
    · have kept := subset_foldl_addSnapshotAction (addSnapshotAction actions issue) issues
      rcases addSnapshotAction_cases actions issue with ⟨same, answered⟩ | ⟨new, isNew, added⟩
      · obtain ⟨id, name, other, isCorrupt, among⟩ := answered action isAction
        exact .inr ⟨id, name, other, isCorrupt, kept (same.symm ▸ among)⟩
      · cases isAction.symm.trans isNew
        exact .inl (kept (by rw [added]; simp))
    · exact ih _ later

theorem corrupt_of_mem_snapshotActions {id : SnapshotId} {name : Option String}
    (listed : .removeCorruptSnapshot id name ∈ snapshotActions issues) :
    .corruptSnapshot id name ∈ issues := by
  rcases mem_foldl_addSnapshotAction listed with none | ⟨issue, among, isAction⟩
  · cases none
  · cases issue <;> cases isAction
    exact among

theorem exists_mem_snapshotActions {id : SnapshotId} {name : Option String}
    (listed : .corruptSnapshot id name ∈ issues) :
    ∃ other, .removeCorruptSnapshot id other ∈ snapshotActions issues := by
  rcases answered_of_mem [] listed rfl with among | ⟨_, _, other, same, among⟩
  · exact ⟨name, among⟩
  · cases same
    exact ⟨other, among⟩

theorem invalid_mem_snapshotActions :
    .removeInvalidSnapshotKey key ∈ snapshotActions issues ↔ .invalidSnapshotKey key ∈ issues := by
  constructor
  · intro listed
    rcases mem_foldl_addSnapshotAction listed with none | ⟨issue, among, isAction⟩
    · cases none
    · cases issue <;> cases isAction
      exact among
  · intro listed
    rcases answered_of_mem [] listed rfl with among | ⟨_, _, _, same, -⟩
    · exact among
    · cases same

theorem snapshotAction_kind (listed : action ∈ snapshotActions issues) :
    (∃ id name, action = .removeCorruptSnapshot id name) ∨
      ∃ key, action = .removeInvalidSnapshotKey key := by
  rcases mem_foldl_addSnapshotAction listed with none | ⟨issue, -, isAction⟩
  · cases none
  · cases issue <;> cases isAction
    · exact .inl ⟨_, _, rfl⟩
    · exact .inr ⟨_, rfl⟩

theorem mem_corruptNames :
    name ∈ corruptNames actions ↔ ∃ id, .removeCorruptSnapshot id (some name) ∈ actions := by
  unfold corruptNames
  rw [List.mem_filterMap]
  constructor
  · rintro ⟨action, listed, isName⟩
    cases action <;> cases isName
    exact ⟨_, listed⟩
  · rintro ⟨id, listed⟩
    exact ⟨_, listed, rfl⟩

end SnapshotActions

section ChunkRemoval

theorem mem_missingPacks : packId ∈ missingPacks issues ↔ .missingPack packId ∈ issues := by
  unfold missingPacks
  rw [List.mem_dedup, List.mem_filterMap]
  constructor
  · rintro ⟨issue, listed, isPack⟩
    cases issue <;> cases isPack
    exact listed
  · intro listed
    exact ⟨_, listed, rfl⟩

def CorruptData.Lists (corrupt : CorruptData) (packId : PackId) (id : ChunkId) : Prop :=
  ∃ ids, corrupt.chunks.get? packId = some ids ∧ id ∈ ids

variable {corrupt : CorruptData} {missing : List PackId}

theorem mem_addCorruptData_packs :
    packId ∈ (addCorruptData missing corrupt issue).packs ↔
      packId ∈ corrupt.packs ∨ ∃ detail, issue = .corruptPackContent packId detail := by
  cases issue
  case corruptPackContent other detail =>
    simp only [addCorruptData, List.mem_insert_iff, IntegrityIssue.corruptPackContent.injEq]
    constructor
    · rintro (rfl | before)
      · exact .inr ⟨detail, rfl, rfl⟩
      · exact .inl before
    · rintro (before | ⟨_, rfl, -⟩)
      · exact .inr before
      · exact .inl rfl
  case corruptChunk =>
    unfold addCorruptData
    simp only
    split <;> simp
  all_goals simp [addCorruptData]

theorem lists_addCorruptData :
    (addCorruptData missing corrupt issue).Lists packId id ↔
      corrupt.Lists packId id ∨
        (∃ detail, issue = .corruptChunk id packId detail) ∧ packId ∉ corrupt.packs ∧
          packId ∉ missing := by
  cases issue
  case corruptChunk other otherPack detail =>
    unfold addCorruptData
    simp only
    split
    · rename_i counted
      simp only [CorruptData.Lists, Dict.get?_set, IntegrityIssue.corruptChunk.injEq]
      by_cases same : packId = otherPack
      · subst same
        cases found : corrupt.chunks.get? packId <;>
          simp [counted.1, counted.2, eq_comm]
      · simp [same, Ne.symm same]
    · rename_i skipped
      constructor
      · exact .inl
      · rintro (before | ⟨⟨_, same⟩, counted⟩)
        · exact before
        · cases same
          exact absurd counted skipped
  all_goals simp [addCorruptData, CorruptData.Lists]

theorem mem_foldl_addCorruptData_packs :
    packId ∈ (issues.foldl (addCorruptData missing) corrupt).packs ↔
      packId ∈ corrupt.packs ∨ ∃ detail, .corruptPackContent packId detail ∈ issues := by
  induction issues generalizing corrupt with
  | nil => simp
  | cons issue issues ih =>
    rw [List.foldl_cons, ih, mem_addCorruptData_packs, or_assoc]
    simp only [List.mem_cons, exists_or, eq_comm]

theorem mem_corruptData_packs :
    packId ∈ (corruptData issues).packs ↔ ∃ detail, .corruptPackContent packId detail ∈ issues := by
  rw [corruptData, mem_foldl_addCorruptData_packs]
  simp

theorem issue_of_lists_foldl
    (lists : (issues.foldl (addCorruptData missing) corrupt).Lists packId id) :
    corrupt.Lists packId id ∨ ∃ detail, .corruptChunk id packId detail ∈ issues := by
  induction issues generalizing corrupt with
  | nil => exact .inl lists
  | cons issue issues ih =>
    rcases ih lists with before | ⟨detail, later⟩
    · rcases lists_addCorruptData.mp before with earlier | ⟨⟨detail, rfl⟩, -⟩
      · exact .inl earlier
      · exact .inr ⟨detail, List.mem_cons_self⟩
    · exact .inr ⟨detail, List.mem_cons_of_mem _ later⟩

theorem lists_foldl_of_lists (lists : corrupt.Lists packId id) :
    (issues.foldl (addCorruptData missing) corrupt).Lists packId id := by
  induction issues generalizing corrupt with
  | nil => exact lists
  | cons issue issues ih =>
    exact ih (lists_addCorruptData.mpr (.inl lists))

/-- A corrupt chunk is listed unless its whole pack is given up. -/
theorem lists_foldl_of_issue {detail : String} (listed : .corruptChunk id packId detail ∈ issues) :
    (issues.foldl (addCorruptData missing) corrupt).Lists packId id ∨
      packId ∈ (issues.foldl (addCorruptData missing) corrupt).packs ∨ packId ∈ missing := by
  induction issues generalizing corrupt with
  | nil => cases listed
  | cons issue issues ih =>
    rw [List.foldl_cons]
    rcases List.mem_cons.mp listed with rfl | later
    · by_cases givenUp : packId ∈ corrupt.packs
      · refine .inr (.inl (mem_foldl_addCorruptData_packs.mpr (.inl ?_)))
        exact mem_addCorruptData_packs.mpr (.inl givenUp)
      · by_cases isMissing : packId ∈ missing
        · exact .inr (.inr isMissing)
        · exact .inl (lists_foldl_of_lists
            (lists_addCorruptData.mpr (.inr ⟨⟨detail, rfl⟩, givenUp, isMissing⟩)))
    · exact ih later

def removedChunks (index : ChunkIndex) (issues : List IntegrityIssue) : List ChunkId :=
  chunksToRemove index (missingPacks issues) (corruptData issues)

theorem mem_chunksToRemove :
    id ∈ chunksToRemove index missing corrupt ↔
      (∃ entry, index.get? id = some entry ∧
        (entry.packId ∈ missing ∨ entry.packId ∈ corrupt.packs)) ∨
      ∃ packId, corrupt.Lists packId id := by
  unfold chunksToRemove CorruptData.Lists
  rw [List.mem_append]
  apply or_congr
  · simp only [List.mem_flatMap, List.mem_append, List.mem_map, Prod.exists, exists_and_right,
      exists_eq_right, mem_packChunks]
    constructor
    · rintro ⟨packId, givenUp, entry, found, rfl⟩
      exact ⟨entry, found, givenUp⟩
    · rintro ⟨entry, found, givenUp⟩
      exact ⟨_, givenUp, entry, found, rfl⟩
  · simp only [List.mem_flatMap, Prod.exists, Dict.get?_eq_some_iff]

def Blames (issues : List IntegrityIssue) (packId : PackId) (id : ChunkId) : Prop :=
  .missingPack packId ∈ issues ∨ (∃ detail, .corruptPackContent packId detail ∈ issues) ∨
    ∃ detail, .corruptChunk id packId detail ∈ issues

theorem blamed_of_removed (removed : id ∈ removedChunks index issues) :
    ∃ packId, Blames issues packId id ∧
      ((∃ entry, index.get? id = some entry ∧ entry.packId = packId) ∨
        ∃ detail, .corruptChunk id packId detail ∈ issues) := by
  rcases mem_chunksToRemove.mp removed with ⟨entry, found, givenUp⟩ | ⟨packId, lists⟩
  · refine ⟨entry.packId, ?_, .inl ⟨entry, found, rfl⟩⟩
    rw [mem_missingPacks, mem_corruptData_packs] at givenUp
    rcases givenUp with missing | content
    · exact .inl missing
    · exact .inr (.inl content)
  · rcases issue_of_lists_foldl lists with ⟨ids, none, -⟩ | reported
    · simp at none
    · exact ⟨packId, .inr (.inr reported), .inr reported⟩

theorem removed_of_blamed (found : index.get? id = some entry)
    (blamed : Blames issues entry.packId id) : id ∈ removedChunks index issues := by
  rcases blamed with missing | content | ⟨detail, reported⟩
  · exact mem_chunksToRemove.mpr (.inl ⟨entry, found, .inl (mem_missingPacks.mpr missing)⟩)
  · exact mem_chunksToRemove.mpr
      (.inl ⟨entry, found, .inr (mem_corruptData_packs.mpr content)⟩)
  · apply mem_chunksToRemove.mpr
    rcases lists_foldl_of_issue reported with lists | givenUp | missing
    · exact .inr ⟨entry.packId, lists⟩
    · exact .inl ⟨entry, found, .inr givenUp⟩
    · exact .inl ⟨entry, found, .inl missing⟩

end ChunkRemoval

section Doomed

def doomedName? : IntegrityIssue → Option String
  | .danglingItemPtr name _ | .danglingFileChunk name _ _ | .unreadableSnapshot name _ => some name
  | _ => none

variable {doomed : Dict String Nat} {corrupt : List String} {removed : List ChunkId}
  {refs : Dict String (Finset ChunkId)} {seen : List (String × List ChunkId)}

theorem isSome_set {doomed : Dict String Nat} {name other : String} {count : Nat} :
    ((doomed.set other count).get? name).isSome = true ↔
      (doomed.get? name).isSome = true ∨ other = name := by
  rw [Dict.get?_set, @eq_comm _ other]
  split <;> simp_all

theorem isSome_addDoomed :
    ((addDoomed doomed issue).get? name).isSome = true ↔
      (doomed.get? name).isSome = true ∨ doomedName? issue = some name := by
  cases issue
  case unreadableSnapshot other detail =>
    unfold addDoomed doomedName?
    simp only [Option.some.injEq]
    split
    · rename_i count already
      constructor
      · exact .inl
      · rintro (before | rfl)
        · exact before
        · rw [already]
          rfl
    · exact isSome_set
  all_goals simp [addDoomed, doomedName?, isSome_set]

theorem isSome_foldl_addDoomed :
    ((issues.foldl addDoomed doomed).get? name).isSome = true ↔
      (doomed.get? name).isSome = true ∨ ∃ issue ∈ issues, doomedName? issue = some name := by
  induction issues generalizing doomed with
  | nil => simp
  | cons issue issues ih =>
    rw [List.foldl_cons, ih, isSome_addDoomed, or_assoc]
    simp

theorem isSome_addNewlyMissing {snapshot : String × Finset ChunkId} :
    ((addNewlyMissing corrupt removed doomed snapshot).get? name).isSome = true ↔
      (doomed.get? name).isSome = true ∨
        name = snapshot.1 ∧ name ∉ corrupt ∧ ∃ id ∈ snapshot.2, id ∈ removed := by
  have newly : 0 < (snapshot.2.filter fun id => id ∈ removed).card ↔
      ∃ id ∈ snapshot.2, id ∈ removed := by
    rw [Finset.card_pos]
    simp [Finset.Nonempty]
  unfold addNewlyMissing
  simp only
  split
  · rename_i known
    constructor
    · exact .inl
    · rintro (before | ⟨rfl, unknown, -⟩)
      · exact before
      · exact absurd known unknown
  · rename_i unknown
    split
    · rename_i missing
      rw [isSome_set]
      refine or_congr_right ⟨?_, fun doomed => doomed.1.symm⟩
      rintro rfl
      exact ⟨rfl, unknown, newly.mp missing⟩
    · rename_i nothing
      constructor
      · exact .inl
      · rintro (before | ⟨-, -, missing⟩)
        · exact before
        · exact absurd (newly.mpr missing) nothing

theorem isSome_foldl_addNewlyMissing {refs : List (String × Finset ChunkId)} :
    ((refs.foldl (addNewlyMissing corrupt removed) doomed).get? name).isSome = true ↔
      (doomed.get? name).isSome = true ∨
        name ∉ corrupt ∧ ∃ ids, (name, ids) ∈ refs ∧ ∃ id ∈ ids, id ∈ removed := by
  induction refs generalizing doomed with
  | nil => simp
  | cons snapshot refs ih =>
    rw [List.foldl_cons, ih, isSome_addNewlyMissing, or_assoc]
    refine or_congr_right ?_
    constructor
    · rintro (⟨rfl, unknown, missing⟩ | ⟨unknown, ids, later, missing⟩)
      · exact ⟨unknown, snapshot.2, List.mem_cons_self, missing⟩
      · exact ⟨unknown, ids, List.mem_cons_of_mem _ later, missing⟩
    · rintro ⟨unknown, ids, listed, missing⟩
      rcases List.mem_cons.mp listed with rfl | later
      · exact .inl ⟨rfl, unknown, missing⟩
      · exact .inr ⟨unknown, ids, later, missing⟩

theorem isSome_doomedSnapshots :
    ((doomedSnapshots issues corrupt removed refs).get? name).isSome = true ↔
      (∃ issue ∈ issues, doomedName? issue = some name) ∨
        name ∉ corrupt ∧ ∃ ids, refs.get? name = some ids ∧ ∃ id ∈ ids, id ∈ removed := by
  unfold doomedSnapshots
  simp only
  split
  · rename_i nothing
    rw [isSome_foldl_addDoomed]
    simp [List.isEmpty_iff.mp nothing]
  · rw [isSome_foldl_addNewlyMissing, isSome_foldl_addDoomed]
    simp [Dict.get?_eq_some_iff]

theorem mem_foldl_collectRefs :
    (∃ ids, (seen.foldl (fun refs snapshot =>
        refs.set snapshot.1 ((refs.get? snapshot.1).getD ∅ ∪ snapshot.2.toFinset)) refs).get? name =
          some ids ∧ id ∈ ids) ↔
      (∃ ids, refs.get? name = some ids ∧ id ∈ ids) ∨ ∃ ids, (name, ids) ∈ seen ∧ id ∈ ids := by
  induction seen generalizing refs with
  | nil => simp
  | cons snapshot seen ih =>
    rw [List.foldl_cons, ih, Dict.get?_set]
    by_cases same : name = snapshot.1
    · subst same
      cases found : refs.get? snapshot.1 <;>
        simp [Prod.ext_iff, or_and_right, exists_or, or_assoc]
    · simp [same, Prod.ext_iff]

theorem mem_collectRefs :
    (∃ ids, (collectRefs seen).get? name = some ids ∧ id ∈ ids) ↔
      ∃ ids, (name, ids) ∈ seen ∧ id ∈ ids := by
  rw [collectRefs, mem_foldl_collectRefs]
  simp

end Doomed

section Actions

theorem corrupt_mem_actions {id : SnapshotId} {name : Option String} :
    .removeCorruptSnapshot id name ∈ (buildRepairPlan index scan).actions ↔
      .removeCorruptSnapshot id name ∈ snapshotActions scan.issues := by
  simp [buildRepairPlan]

theorem invalid_mem_actions :
    .removeInvalidSnapshotKey key ∈ (buildRepairPlan index scan).actions ↔
      .invalidSnapshotKey key ∈ scan.issues := by
  simp [buildRepairPlan, invalid_mem_snapshotActions]

theorem not_mem_snapshotActions (notCorrupt : ∀ id name, action ≠ .removeCorruptSnapshot id name)
    (notInvalid : ∀ key, action ≠ .removeInvalidSnapshotKey key) :
    action ∉ snapshotActions issues := by
  intro listed
  rcases snapshotAction_kind listed with ⟨id, name, same⟩ | ⟨key, same⟩
  · exact notCorrupt id name same
  · exact notInvalid key same

theorem doomed_mem_actions :
    (∃ count, .removeDanglingSnapshot name count ∈ (buildRepairPlan index scan).actions) ↔
      name ∉ corruptNames (snapshotActions scan.issues) ∧
        ((∃ issue ∈ scan.issues, doomedName? issue = some name) ∨
          ∃ ids, scan.snapshotChunkRefs.get? name = some ids ∧
            ∃ id ∈ ids, id ∈ removedChunks index scan.issues) := by
  have isDoomed := @isSome_doomedSnapshots scan.issues name
    (corruptNames (snapshotActions scan.issues)) (removedChunks index scan.issues)
    scan.snapshotChunkRefs
  have listed {count : Nat} :
      .removeDanglingSnapshot name count ∈ (buildRepairPlan index scan).actions ↔
        (doomedSnapshots scan.issues (corruptNames (snapshotActions scan.issues))
          (removedChunks index scan.issues) scan.snapshotChunkRefs).get? name = some count ∧
          name ∉ corruptNames (snapshotActions scan.issues) := by
    have other : .removeDanglingSnapshot name count ∉ snapshotActions scan.issues :=
      not_mem_snapshotActions (by simp) (by simp)
    simp [buildRepairPlan, removedChunks, Dict.get?_eq_some_iff, other]
  simp only [listed, exists_and_right, ← Option.isSome_iff_exists, isDoomed]
  rw [and_comm]
  refine and_congr_right fun known => or_congr_right ?_
  rw [and_iff_right known]

def Drops (action : RepairAction) (id : ChunkId) (entry : ChunkIndexEntry) : Prop :=
  match action with
  | .removeDanglingIndexEntries packId _ | .removeCorruptPack packId _ => entry.packId = packId
  | .removeCorruptChunks _ ids => id ∈ ids
  | _ => False

theorem dangling_mem_actions :
    (∃ count, .removeDanglingIndexEntries packId count ∈ (buildRepairPlan index scan).actions) ↔
      packId ∈ missingPacks scan.issues := by
  have other {count : Nat} :
      .removeDanglingIndexEntries packId count ∉ snapshotActions scan.issues :=
    not_mem_snapshotActions (by simp) (by simp)
  simp [buildRepairPlan, other]

theorem pack_mem_actions :
    (∃ count, .removeCorruptPack packId count ∈ (buildRepairPlan index scan).actions) ↔
      packId ∈ (corruptData scan.issues).packs ∧ packId ∉ missingPacks scan.issues := by
  have other {count : Nat} : .removeCorruptPack packId count ∉ snapshotActions scan.issues :=
    not_mem_snapshotActions (by simp) (by simp)
  simp [buildRepairPlan, other]

theorem chunks_mem_actions {ids : List ChunkId} :
    .removeCorruptChunks packId ids ∈ (buildRepairPlan index scan).actions ↔
      (corruptData scan.issues).chunks.get? packId = some ids := by
  have other : .removeCorruptChunks packId ids ∉ snapshotActions scan.issues :=
    not_mem_snapshotActions (by simp) (by simp)
  simp [buildRepairPlan, other, Dict.get?_eq_some_iff]

theorem exists_drops_iff (found : index.get? id = some entry) :
    (∃ action ∈ (buildRepairPlan index scan).actions, Drops action id entry) ↔
      id ∈ removedChunks index scan.issues := by
  rw [removedChunks, mem_chunksToRemove]
  constructor
  · rintro ⟨action, listed, drops⟩
    cases action
    case removeDanglingIndexEntries packId count =>
      obtain rfl : entry.packId = packId := drops
      exact .inl ⟨entry, found, .inl (dangling_mem_actions.mp ⟨count, listed⟩)⟩
    case removeCorruptPack packId count =>
      obtain rfl : entry.packId = packId := drops
      exact .inl ⟨entry, found, .inr (pack_mem_actions.mp ⟨count, listed⟩).1⟩
    case removeCorruptChunks packId ids =>
      exact .inr ⟨packId, ids, chunks_mem_actions.mp listed, drops⟩
    all_goals exact drops.elim
  · rintro (⟨same, sameFound, givenUp⟩ | ⟨packId, ids, listed, among⟩)
    · cases found.symm.trans sameFound
      by_cases missing : entry.packId ∈ missingPacks scan.issues
      · obtain ⟨count, isAction⟩ := dangling_mem_actions.mpr missing
        exact ⟨_, isAction, rfl⟩
      · obtain ⟨count, isAction⟩ :=
          pack_mem_actions.mpr ⟨givenUp.resolve_left missing, missing⟩
        exact ⟨_, isAction, rfl⟩
    · exact ⟨_, chunks_mem_actions.mpr listed, among⟩

end Actions

end Vykar.Check

import Vykar.Check.Plan

/-!
What the execution of a repair plan does.

Each step is described by what it keeps: which objects and which index entries are
left, and which snapshots are still listed.  The reference counts are those of the
snapshots that can be read at the end.
-/

namespace Vykar.Check

open Index Pack Snapshot

variable {external : External} {storage : Storage} {faults : String → Option VykarError}
  {actions : List RepairAction} {state : Repairing} {manifest : List SnapshotEntry}
  {name key : String} {entry : SnapshotEntry} {blob : Bytes} {next : Repairing}

theorem foldl_fixed {State Action Value : Type} {step : State → Action → State}
    {field : State → Value} (fixed : ∀ state action, field (step state action) = field state)
    (actions : List Action) (state : State) : field (actions.foldl step state) = field state := by
  induction actions generalizing state with
  | nil => rfl
  | cons action actions ih =>
    rw [List.foldl_cons, ih, fixed]

section Manifest

def NamesDistinct (manifest : List SnapshotEntry) : Prop :=
  (manifest.map SnapshotEntry.name).Nodup

theorem NamesDistinct.sublist {shorter : List SnapshotEntry} (distinct : NamesDistinct manifest)
    (part : shorter.Sublist manifest) : NamesDistinct shorter :=
  List.Nodup.sublist (part.map _) distinct

theorem NamesDistinct.eq_of_name (distinct : NamesDistinct manifest) {first second : SnapshotEntry}
    (firstListed : first ∈ manifest) (secondListed : second ∈ manifest)
    (same : first.name = second.name) : first = second :=
  List.inj_on_of_nodup_map distinct firstListed secondListed same

theorem NamesDistinct.findSnapshot (distinct : NamesDistinct manifest) :
    findSnapshot manifest name = some entry ↔ entry ∈ manifest ∧ entry.name = name := by
  constructor
  · exact mem_of_findSnapshot
  · rintro ⟨listed, rfl⟩
    obtain ⟨found, isFound, -⟩ := exists_findSnapshot listed
    obtain ⟨isListed, sameName⟩ := mem_of_findSnapshot isFound
    rw [isFound, distinct.eq_of_name isListed listed sameName]

theorem removeSnapshot_sublist (manifest : List SnapshotEntry) (name : String) :
    (removeSnapshot manifest name).Sublist manifest := List.eraseP_sublist

theorem mem_removeSnapshot (distinct : NamesDistinct manifest) :
    entry ∈ removeSnapshot manifest name ↔ entry ∈ manifest ∧ entry.name ≠ name := by
  induction manifest with
  | nil => simp [removeSnapshot]
  | cons head manifest ih =>
    obtain ⟨fresh, rest⟩ := List.nodup_cons.mp distinct
    rw [removeSnapshot, List.eraseP_cons]
    by_cases same : head.name = name
    · subst same
      simp only [decide_true, cond_true, List.mem_cons]
      constructor
      · intro listed
        refine ⟨.inr listed, fun sameName => fresh ?_⟩
        rw [← sameName]
        exact List.mem_map_of_mem listed
      · rintro ⟨rfl | listed, differs⟩
        · exact absurd rfl differs
        · exact listed
    · simp only [same, decide_false, cond_false, List.mem_cons]
      rw [← removeSnapshot, ih rest]
      constructor
      · rintro (rfl | ⟨listed, differs⟩)
        · exact ⟨.inl rfl, same⟩
        · exact ⟨.inr listed, differs⟩
      · rintro ⟨rfl | listed, differs⟩
        · exact .inl rfl
        · exact .inr ⟨listed, differs⟩

end Manifest

section Corrupt

/-- Whatever happens, step 1 removes nothing but objects that the plan names. -/
theorem removeCorrupt_kept (stored : state.snapshots.get? key = some blob)
    (unnamed : ∀ id name, .removeCorruptSnapshot id name ∈ actions → toHex id ≠ key) :
    (removeCorrupt faults actions state).1.snapshots.get? key = some blob := by
  induction actions generalizing state with
  | nil => exact stored
  | cons action actions ih =>
    have later := fun id name listed => unnamed id name (List.mem_cons_of_mem action listed)
    unfold removeCorrupt
    split
    · rename_i id name
      split
      · exact stored
      · apply ih _ later
        rw [Dict.get?_remove, if_neg (Ne.symm (unnamed id name List.mem_cons_self))]
        exact stored
    · exact ih stored later

def applyCorrupt (state : Repairing) (action : RepairAction) : Repairing :=
  match action with
  | .removeCorruptSnapshot id name =>
    { state with
      snapshots := state.snapshots.remove (toHex id)
      manifest :=
        match name with
        | some name => removeSnapshot state.manifest name
        | none => state.manifest
      applied := state.applied ++ [action] }
  | _ => state

theorem removeCorrupt_done (done : (removeCorrupt faults actions state).2 = none) :
    (removeCorrupt faults actions state).1 = actions.foldl applyCorrupt state := by
  induction actions generalizing state with
  | nil => rfl
  | cons action actions ih =>
    unfold removeCorrupt at done ⊢
    split at done
    · split at done
      · cases done
      · exact ih done
    · rename_i other
      rw [ih done, List.foldl_cons]
      cases action <;> first | rfl | exact absurd rfl (other _ _)

theorem removeCorrupt_of_unhit (unhit : ∀ key, faults key = none) :
    (removeCorrupt faults actions state).2 = none := by
  induction actions generalizing state with
  | nil => rfl
  | cons action actions ih =>
    unfold removeCorrupt
    split
    · rw [unhit]
      exact ih
    · exact ih

theorem foldl_applyCorrupt_snapshots :
    (actions.foldl applyCorrupt state).snapshots.get? key = some blob ↔
      state.snapshots.get? key = some blob ∧
        ∀ action ∈ actions, ¬ ∃ id name, action = .removeCorruptSnapshot id name ∧
          toHex id = key := by
  refine Dict.get?_foldl_drop Repairing.snapshots
    (fun action key _ => ∃ id name, action = .removeCorruptSnapshot id name ∧ toHex id = key)
    (fun state action key blob => ?_) actions state key blob
  cases action
  case removeCorruptSnapshot id name =>
    simp only [applyCorrupt, Dict.get?_remove, RepairAction.removeCorruptSnapshot.injEq]
    split
    · rename_i same
      subst same
      simp
    · rename_i differs
      simp [Ne.symm differs]
  all_goals simp [applyCorrupt]

theorem foldl_applyCorrupt_manifest (distinct : NamesDistinct state.manifest) :
    (actions.foldl applyCorrupt state).manifest.Sublist state.manifest ∧
      ∀ entry, entry ∈ (actions.foldl applyCorrupt state).manifest ↔
        entry ∈ state.manifest ∧ entry.name ∉ corruptNames actions := by
  induction actions generalizing state with
  | nil => simp [corruptNames]
  | cons action actions ih =>
    have step : (applyCorrupt state action).manifest.Sublist state.manifest ∧
        ∀ entry, entry ∈ (applyCorrupt state action).manifest ↔
          entry ∈ state.manifest ∧ entry.name ∉ corruptNames [action] := by
      cases action
      case removeCorruptSnapshot id name =>
        cases name with
        | none => exact ⟨.refl _, fun entry => by simp [applyCorrupt, corruptNames]⟩
        | some name =>
          exact ⟨removeSnapshot_sublist _ _, fun entry => by
            simp [applyCorrupt, corruptNames, mem_removeSnapshot distinct]⟩
      all_goals exact ⟨.refl _, fun entry => by simp [applyCorrupt, corruptNames]⟩
    obtain ⟨part, members⟩ := ih (distinct.sublist step.1)
    refine ⟨part.trans step.1, fun entry => ?_⟩
    have split : corruptNames (action :: actions) = corruptNames [action] ++
        corruptNames actions := by
      rw [corruptNames, corruptNames, corruptNames, ← List.filterMap_append]
      rfl
    rw [List.foldl_cons, members, step.2, split, List.mem_append, not_or, and_assoc]

end Corrupt

section Clean

theorem foldl_removeInvalid_snapshots :
    (actions.foldl (removeInvalid faults) state).snapshots.get? key = some blob ↔
      state.snapshots.get? key = some blob ∧
        ∀ action ∈ actions, ¬ (action = .removeInvalidSnapshotKey key ∧ faults key = none) := by
  refine Dict.get?_foldl_drop Repairing.snapshots
    (fun action key _ => action = .removeInvalidSnapshotKey key ∧ faults key = none)
    (fun state action key blob => ?_) actions state key blob
  cases action
  case removeInvalidSnapshotKey invalid =>
    unfold removeInvalid
    simp only [RepairAction.removeInvalidSnapshotKey.injEq]
    split
    · rename_i failure hit
      simp only [iff_self_and]
      rintro - ⟨rfl, unhit⟩
      rw [hit] at unhit
      cases unhit
    · rename_i unhit
      rw [Dict.get?_remove]
      split
      · rename_i same
        simp [same, unhit]
      · rename_i differs
        simp [Ne.symm differs]
  all_goals simp [removeInvalid]

theorem foldl_removeInvalid_others :
    (actions.foldl (removeInvalid faults) state).manifest = state.manifest ∧
      (actions.foldl (removeInvalid faults) state).index = state.index ∧
      (actions.foldl (removeInvalid faults) state).deleted = state.deleted := by
  let others (state : Repairing) := (state.manifest, state.index, state.deleted)
  have fixed (state : Repairing) (action : RepairAction) :
      others (removeInvalid faults state action) = others state := by
    unfold removeInvalid
    split
    · split <;> rfl
    · rfl
  simpa [others] using foldl_fixed fixed actions state

variable {index : ChunkIndex} {id : ChunkId}

theorem get?_removeByPack {packId : PackId} {entry : ChunkIndexEntry} :
    (index.removeByPack packId).get? id = some entry ↔
      index.get? id = some entry ∧ entry.packId ≠ packId := by
  rw [ChunkIndex.removeByPack, Dict.get?_retain, Option.bind_eq_some_iff]
  constructor
  · rintro ⟨same, found, kept⟩
    split at kept
    · rename_i elsewhere
      cases kept
      exact ⟨found, elsewhere⟩
    · cases kept
  · rintro ⟨found, elsewhere⟩
    exact ⟨entry, found, if_pos elsewhere⟩

theorem foldl_drop_index {entry : ChunkIndexEntry} :
    (actions.foldl dropCorrupt (actions.foldl dropDangling state)).index.get? id = some entry ↔
      state.index.get? id = some entry ∧ ∀ action ∈ actions, ¬ Drops action id entry := by
  rw [Dict.get?_foldl_drop Repairing.index
      (fun action id entry => Drops action id entry ∧
        ∀ packId count, action ≠ .removeDanglingIndexEntries packId count),
    Dict.get?_foldl_drop Repairing.index
      (fun action id entry => Drops action id entry ∧
        ∃ packId count, action = .removeDanglingIndexEntries packId count), and_assoc]
  · refine and_congr_right fun _ => ?_
    rw [← forall₂_and]
    refine forall₂_congr fun action _ => ?_
    cases action <;> simp
  · intro state action id entry
    cases action
    case removeDanglingIndexEntries => simp [dropDangling, Drops, get?_removeByPack]
    all_goals simp [dropDangling]
  · intro state action id entry
    cases action
    case removeCorruptPack => simp [dropCorrupt, Drops, get?_removeByPack]
    case removeCorruptChunks => simp [dropCorrupt, Drops, Dict.get?_foldl_remove]
    all_goals simp [dropCorrupt, Drops]

theorem foldl_drop_others :
    (actions.foldl dropCorrupt (actions.foldl dropDangling state)).manifest = state.manifest ∧
      (actions.foldl dropCorrupt (actions.foldl dropDangling state)).snapshots =
        state.snapshots ∧
      (actions.foldl dropCorrupt (actions.foldl dropDangling state)).deleted = state.deleted := by
  let others (state : Repairing) := (state.manifest, state.snapshots, state.deleted)
  have dangling (state : Repairing) (action : RepairAction) :
      others (dropDangling state action) = others state := by
    cases action <;> rfl
  have corrupt (state : Repairing) (action : RepairAction) :
      others (dropCorrupt state action) = others state := by
    cases action <;> rfl
  simpa [others] using (foldl_fixed corrupt actions _).trans (foldl_fixed dangling actions state)

def Deletes (faults : String → Option VykarError) (actions : List RepairAction)
    (entry : SnapshotEntry) : Prop :=
  (∃ count, .removeDanglingSnapshot entry.name count ∈ actions) ∧ faults (toHex entry.id) = none

theorem deletes_cons {action : RepairAction} :
    Deletes faults (action :: actions) entry ↔
      Deletes faults [action] entry ∨ Deletes faults actions entry := by
  simp [Deletes, exists_or, or_and_right]

structure AfterDoomed (faults : String → Option VykarError) (actions : List RepairAction)
    (state next : Repairing) : Prop where
  part : next.manifest.Sublist state.manifest
  manifest : ∀ entry, entry ∈ next.manifest ↔
    entry ∈ state.manifest ∧ ¬ Deletes faults actions entry
  snapshots : ∀ key blob, next.snapshots.get? key = some blob ↔
    state.snapshots.get? key = some blob ∧
      ∀ entry ∈ state.manifest, Deletes faults actions entry → toHex entry.id ≠ key
  index : next.index = state.index
  deleted : (∀ entry ∈ state.manifest, entry.name ∉ state.deleted) →
    ∀ entry ∈ next.manifest, entry.name ∉ next.deleted

theorem AfterDoomed.of_none (manifest : next.manifest = state.manifest)
    (snapshots : next.snapshots = state.snapshots) (index : next.index = state.index)
    (deleted : next.deleted = state.deleted)
    (nothing : ∀ entry ∈ state.manifest, ¬ Deletes faults actions entry) :
    AfterDoomed faults actions state next where
  part := manifest ▸ .refl _
  manifest entry := by
    rw [manifest]
    exact ⟨fun listed => ⟨listed, nothing entry listed⟩, And.left⟩
  snapshots key blob := by
    rw [snapshots]
    exact ⟨fun stored => ⟨stored, fun entry listed deletes =>
      absurd deletes (nothing entry listed)⟩, And.left⟩
  index := index
  deleted fresh := by
    rw [manifest, deleted]
    exact fresh

theorem removeDoomed_step (distinct : NamesDistinct state.manifest) (action : RepairAction) :
    AfterDoomed faults [action] state (removeDoomed faults state action) := by
  cases action
  case removeDanglingSnapshot name count =>
    have deletes {entry : SnapshotEntry} :
        Deletes faults [.removeDanglingSnapshot name count] entry ↔
          entry.name = name ∧ faults (toHex entry.id) = none := by
      simp [Deletes]
    unfold removeDoomed
    simp only
    split
    · rename_i unlisted
      refine .of_none rfl rfl rfl rfl fun entry listed deleted => ?_
      rw [(distinct.findSnapshot).mpr ⟨listed, (deletes.mp deleted).1⟩] at unlisted
      cases unlisted
    · rename_i found isFound
      obtain ⟨isListed, rfl⟩ := mem_of_findSnapshot isFound
      have only {entry : SnapshotEntry} (listed : entry ∈ state.manifest)
          (same : entry.name = found.name) : entry = found :=
        distinct.eq_of_name listed isListed same
      split
      · rename_i failure hit
        refine .of_none rfl rfl rfl rfl fun entry listed deleted => ?_
        obtain ⟨same, unhit⟩ := deletes.mp deleted
        rw [only listed same, hit] at unhit
        cases unhit
      · rename_i unhit
        constructor
        · exact removeSnapshot_sublist _ _
        · intro entry
          rw [mem_removeSnapshot distinct, deletes]
          refine and_congr_right fun listed => not_congr ⟨fun same => ⟨same, ?_⟩, And.left⟩
          rw [only listed same]
          exact unhit
        · intro key blob
          rw [Dict.get?_remove]
          constructor
          · intro stored
            split at stored
            · cases stored
            · rename_i differs
              refine ⟨stored, fun entry listed deleted => ?_⟩
              rw [only listed (deletes.mp deleted).1]
              exact Ne.symm differs
          · rintro ⟨stored, kept⟩
            rw [if_neg (Ne.symm (kept found isListed (deletes.mpr ⟨rfl, unhit⟩)))]
            exact stored
        · rfl
        · intro fresh entry listed
          obtain ⟨before, differs⟩ := (mem_removeSnapshot distinct).mp listed
          rw [List.mem_append, List.mem_singleton, not_or]
          exact ⟨fresh entry before, differs⟩
  all_goals exact .of_none rfl rfl rfl rfl fun entry _ => by simp [Deletes]

theorem removeDoomed_run (distinct : NamesDistinct state.manifest) :
    AfterDoomed faults actions state (actions.foldl (removeDoomed faults) state) := by
  induction actions generalizing state with
  | nil => exact .of_none rfl rfl rfl rfl fun entry _ => by simp [Deletes]
  | cons action actions ih =>
    have first := @removeDoomed_step faults state distinct action
    have rest := ih (distinct.sublist first.part)
    rw [List.foldl_cons]
    constructor
    · exact rest.part.trans first.part
    · intro entry
      rw [rest.manifest, first.manifest, and_assoc, ← not_or, ← deletes_cons]
    · intro key blob
      rw [rest.snapshots, first.snapshots, and_assoc]
      refine and_congr_right fun _ => ⟨?_, ?_⟩
      · rintro ⟨early, late⟩ entry listed deletes
        by_cases now : Deletes faults [action] entry
        · exact early entry listed now
        · exact late entry ((first.manifest entry).mpr ⟨listed, now⟩)
            ((deletes_cons.mp deletes).resolve_left now)
      · intro kept
        exact ⟨fun entry listed deletes => kept entry listed (deletes_cons.mpr (.inl deletes)),
          fun entry listed deletes => kept entry ((first.manifest entry).mp listed).1
            (deletes_cons.mpr (.inr deletes))⟩
    · exact rest.index.trans first.index
    · exact fun fresh => rest.deleted (first.deleted fresh)

structure Cleaned (faults : String → Option VykarError) (actions : List RepairAction)
    (storage : Storage) (manifest : List SnapshotEntry) (next : Repairing) : Prop where
  part : next.manifest.Sublist manifest
  listed : ∀ entry, entry ∈ next.manifest ↔
    entry ∈ manifest ∧ entry.name ∉ corruptNames actions ∧ ¬ Deletes faults actions entry
  snapshots : ∀ key blob, next.snapshots.get? key = some blob ↔
    storage.snapshots.get? key = some blob ∧
      (∀ id name, .removeCorruptSnapshot id name ∈ actions → toHex id ≠ key) ∧
      (.removeInvalidSnapshotKey key ∈ actions → faults key ≠ none) ∧
      ∀ entry ∈ manifest, entry.name ∉ corruptNames actions → Deletes faults actions entry →
        toHex entry.id ≠ key
  index : ∀ id entry, next.index.get? id = some entry ↔
    storage.index.get? id = some entry ∧ ∀ action ∈ actions, ¬ Drops action id entry
  deleted : ∀ entry ∈ next.manifest, entry.name ∉ next.deleted

theorem foldl_applyCorrupt_others :
    (actions.foldl applyCorrupt state).index = state.index ∧
      (actions.foldl applyCorrupt state).deleted = state.deleted := by
  let others (state : Repairing) := (state.index, state.deleted)
  have fixed (state : Repairing) (action : RepairAction) :
      others (applyCorrupt state action) = others state := by
    cases action <;> rfl
  simpa [others] using foldl_fixed fixed actions state

theorem cleaned (distinct : NamesDistinct manifest) :
    Cleaned faults actions storage manifest
      ((actions.foldl applyCorrupt (.start storage manifest)).clean faults actions) := by
  obtain ⟨part, members⟩ :=
    @foldl_applyCorrupt_manifest actions (.start storage manifest) distinct
  obtain ⟨sameIndex, sameDeleted⟩ := @foldl_applyCorrupt_others actions (.start storage manifest)
  have objects := @foldl_applyCorrupt_snapshots actions (.start storage manifest)
  generalize actions.foldl applyCorrupt (.start storage manifest) = first at *
  dsimp only [Repairing.start] at part members sameIndex sameDeleted objects
  obtain ⟨secondManifest, secondIndex, secondDeleted⟩ :=
    @foldl_removeInvalid_others faults actions first
  have secondObjects := @foldl_removeInvalid_snapshots faults actions first
  unfold Repairing.clean
  simp only
  generalize actions.foldl (removeInvalid faults) first = second at *
  obtain ⟨thirdManifest, thirdObjects, thirdDeleted⟩ := @foldl_drop_others actions second
  have thirdIndex := @foldl_drop_index actions second
  generalize actions.foldl dropCorrupt (actions.foldl dropDangling second) = third at *
  have sameManifest : third.manifest = first.manifest := thirdManifest.trans secondManifest
  have last := @removeDoomed_run faults actions third
    (sameManifest ▸ distinct.sublist part)
  constructor
  · exact last.part.trans (sameManifest ▸ part)
  · intro entry
    rw [last.manifest, sameManifest, members, and_assoc]
  · intro key blob
    rw [last.snapshots, thirdObjects, secondObjects, objects, sameManifest, and_assoc, and_assoc]
    refine and_congr_right fun _ => and_congr ?_ (and_congr ?_ ?_)
    · constructor
      · intro kept id name listed same
        exact kept _ listed ⟨id, name, rfl, same⟩
      · rintro kept action listed ⟨id, name, rfl, same⟩
        exact kept id name listed same
    · constructor
      · intro kept listed unhit
        exact kept _ listed ⟨rfl, unhit⟩
      · rintro kept action listed ⟨rfl, unhit⟩
        exact kept listed unhit
    · constructor
      · intro kept entry listed unnamed
        exact kept entry ((members entry).mpr ⟨listed, unnamed⟩)
      · intro kept entry listed
        exact kept entry ((members entry).mp listed).1 ((members entry).mp listed).2
  · intro id entry
    rw [last.index, thirdIndex, secondIndex, sameIndex]
  · refine last.deleted fun entry _ => ?_
    rw [thirdDeleted, secondDeleted, sameDeleted]
    simp

end Clean

section Rebuild

variable {index : ChunkIndex} {ids : List ChunkId} {id : ChunkId}

theorem countChunks_append (index : ChunkIndex) (counts : Dict ChunkId Nat)
    (first second : List ChunkId) :
    countChunks index counts (first ++ second) =
      countChunks index (countChunks index counts first) second :=
  List.foldl_append

theorem countChunks_get? :
    (countChunks index ∅ ids).get? id =
      if index.contains id = true ∧ id ∈ ids then some (ids.count id % 2 ^ 32) else none := by
  induction ids using List.reverseRecOn with
  | nil => simp [countChunks]
  | append_singleton ids last ih =>
    have step : countChunks index ∅ (ids ++ [last]) =
        if index.contains last then (countChunks index ∅ ids).set last
          (addU32 (((countChunks index ∅ ids).get? last).getD 0) 1)
        else countChunks index ∅ ids := countChunks_append index ∅ ids [last]
    rw [step]
    by_cases same : id = last
    · subst same
      by_cases indexed : index.contains id = true
      · have before : (if id ∈ ids then some (ids.count id % 2 ^ 32) else none).getD 0 =
            ids.count id % 2 ^ 32 := by
          split
          · rfl
          · rename_i absent
            rw [List.count_eq_zero.mpr absent]
            rfl
        rw [if_pos indexed, Dict.get?_set_self, if_pos ⟨indexed, by simp⟩, ih]
        simp only [indexed, true_and]
        rw [before, addU32, Nat.mod_add_mod, List.count_append, List.count_singleton_self]
      · simp [indexed, ih]
    · have unchanged : (if index.contains last then (countChunks index ∅ ids).set last
            (addU32 (((countChunks index ∅ ids).get? last).getD 0) 1)
          else countChunks index ∅ ids).get? id = (countChunks index ∅ ids).get? id := by
        split
        · rw [Dict.get?_set, if_neg same]
        · rfl
      rw [unchanged, ih]
      simp [same, Ne.symm same]

def listedRefs (external : External) (storage : Storage) (manifest : List SnapshotEntry)
    (name : String) : Option (List ChunkId) :=
  (findSnapshot manifest name).bind fun found => references external storage (toHex found.id)

variable {cache : BlobCache} {plain : ChunkId → Option Bytes} {loadFaults : LoadFaults}
  {counts : Dict ChunkId Nat} {rebuildFaults : Nat → LoadFaults} {position : Nat}
  {entries : List SnapshotEntry}

section

variable (located : Located external storage plain)

include located

section

variable (cacheSound : CacheSound plain cache)

include cacheSound

theorem rebuildSnapshot_ok :
    CacheSound plain
        (rebuildSnapshot external loadFaults storage manifest cache counts entry).1 ∧
      ∀ result, (rebuildSnapshot external loadFaults storage manifest cache counts entry).2 =
          .ok result →
        ∃ ids, listedRefs external storage manifest entry.name = some ids ∧
          result = countChunks storage.index counts ids := by
  unfold rebuildSnapshot
  simp only
  split
  · exact ⟨cacheSound, fun result done => by cases done⟩
  · rename_i snapshot loaded
    obtain ⟨next, result⟩ := @loadSnapshotItemStream_ok external storage manifest cache plain
      located cacheSound loadFaults entry.name
    split
    · rename_i failed
      rw [failed] at next
      exact ⟨next, fun result done => by cases done⟩
    · rename_i stream read
      rw [read] at next result
      split
      · exact ⟨next, fun result done => by cases done⟩
      · rename_i items decoded
        refine ⟨next, fun counted done => ?_⟩
        cases done
        obtain ⟨found, isFound⟩ := findSnapshot_of_loadSnapshotMeta loaded
        obtain ⟨again, reloaded, -, isStream⟩ := result stream rfl
        have isSnapshot := ((loadSnapshotMeta_eq_ok isFound).mp loaded).2
        obtain rfl := Option.some.inj
          (isSnapshot.symm.trans ((loadSnapshotMeta_eq_ok isFound).mp reloaded).2)
        refine ⟨snapshot.itemPtrs ++ fileChunks items, ?_, (countChunks_append _ _ _ _).symm⟩
        rw [listedRefs, isFound, Option.bind_some]
        exact references_eq_some.mpr ⟨snapshot, stream, items, isSnapshot, isStream, decoded, rfl⟩

theorem exists_rebuildSnapshot (flat : FlatStreams external storage)
    (unhit : ∀ failure, ¬ LoadHit loadFaults failure)
    (readable : (listedRefs external storage manifest entry.name).isSome = true) :
    ∃ result, (rebuildSnapshot external loadFaults storage manifest cache counts entry).2 =
      .ok result := by
  obtain ⟨ids, isRefs⟩ := Option.isSome_iff_exists.mp readable
  obtain ⟨found, isFound, isRefs⟩ := Option.bind_eq_some_iff.mp isRefs
  obtain ⟨snapshot, stream, items, isSnapshot, isStream, decoded, -⟩ :=
    references_eq_some.mp isRefs
  have loaded := (@loadSnapshotMeta_readable external storage manifest found snapshot
    _ loadFaults.metadata isFound isSnapshot).resolve_right
    fun ⟨failure, hit, _⟩ => unhit failure (.inl hit)
  have read := (@loadSnapshotItemStream_readable external storage loadFaults manifest cache found
    plain snapshot entry.name located cacheSound flat isFound isSnapshot stream
    isStream).resolve_right fun ⟨failure, hit, _⟩ => unhit failure hit
  unfold rebuildSnapshot
  simp only [loaded]
  split
  · rename_i failed
    rw [failed] at read
    cases read
  · rename_i same load
    rw [load] at read
    cases read
    rw [decoded]
    exact ⟨_, rfl⟩

theorem rebuildCounts_ok {result : Dict ChunkId Nat}
    (done : rebuildCounts external rebuildFaults storage manifest position cache counts entries =
      .ok result) :
    (∀ entry ∈ entries, (listedRefs external storage manifest entry.name).isSome = true) ∧
      result = countChunks storage.index counts (entries.flatMap fun entry =>
        (listedRefs external storage manifest entry.name).getD []) := by
  induction entries generalizing position cache counts with
  | nil =>
    cases done
    exact ⟨by simp, rfl⟩
  | cons entry entries ih =>
    rw [rebuildCounts] at done
    obtain ⟨nextSound, counted⟩ := @rebuildSnapshot_ok external storage manifest entry cache plain
      (rebuildFaults position) counts located cacheSound
    split at done
    · cases done
    · rename_i next nextCounts rebuilt
      rw [rebuilt] at nextSound counted
      obtain ⟨ids, isRefs, rfl⟩ := counted nextCounts rfl
      obtain ⟨readable, rfl⟩ := ih nextSound done
      constructor
      · rw [List.forall_mem_cons]
        exact ⟨by rw [isRefs]; rfl, readable⟩
      · rw [List.flatMap_cons, countChunks_append, isRefs]
        rfl

theorem exists_rebuildCounts (flat : FlatStreams external storage)
    (unhit : ∀ position failure, ¬ LoadHit (rebuildFaults position) failure)
    (readable : ∀ entry ∈ entries, (listedRefs external storage manifest entry.name).isSome =
      true) :
    ∃ result, rebuildCounts external rebuildFaults storage manifest position cache counts entries =
      .ok result := by
  induction entries generalizing position cache counts with
  | nil => exact ⟨counts, rfl⟩
  | cons entry entries ih =>
    obtain ⟨first, rest⟩ := List.forall_mem_cons.mp readable
    obtain ⟨result, counted⟩ := @exists_rebuildSnapshot external storage manifest entry cache plain
      (rebuildFaults position) counts located cacheSound flat (unhit position) first
    have nextSound := (@rebuildSnapshot_ok external storage manifest entry cache plain
      (rebuildFaults position) counts located cacheSound).1
    rw [rebuildCounts]
    split
    · rename_i failed
      rw [failed] at counted
      cases counted
    · rename_i next nextCounts rebuilt
      rw [rebuilt] at nextSound
      exact ih nextSound rest

end

end

end Rebuild

end Vykar.Check

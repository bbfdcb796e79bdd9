import Vykar.Compact.Execution

/-!
A successful compaction keeps the chunks readable exactly when it does not
remove a pack it has written.

New packs are named by their contents, and packs without index entries are
removed in the same pass.  If an unreferenced pack is the very pack that an
earlier pack of the pass is rewritten to, the pass removes it again, together
with the chunks that have just been moved there.
-/

namespace Vykar.Compact

open Index Pack ContentStore WriteLog

def outcomeOf (hash : Bytes → PackId) (backend : Backend) (storage : Storage) :
    PackAnalysis → Except CompactError Outcome :=
  match backend with
  | .plain => clientOutcome hash storage
  | .server _ => serverOutcome hash storage

def newPack (hash : Bytes → PackId) (backend : Backend) (storage : Storage)
    (analysis : PackAnalysis) : Option (PackId × Bytes) :=
  match outcomeOf hash backend storage analysis with
  | .ok (.repacked packId file _) => some (packId, file)
  | .ok .skipped | .ok .emptied | .error _ => none

/-- A selected pack is removed if nothing in it is live or if it is replaced. -/
def isRemoved (hash : Bytes → PackId) (backend : Backend) (storage : Storage)
    (analysis : PackAnalysis) : Bool :=
  analysis.liveEntries.isEmpty || (newPack hash backend storage analysis).isSome

/-- The hash does not confuse the new packs with each other or with stored packs. -/
structure CollisionFree (hash : Bytes → PackId) (backend : Backend) (storage : Storage)
    (selected : List PackAnalysis) : Prop where
  stored : ∀ analysis ∈ selected, ∀ new ∈ newPack hash backend storage analysis,
    ∀ old ∈ storage.packs.get? new.1, old = new.2
  new : ∀ first ∈ selected, ∀ second ∈ selected,
    ∀ firstNew ∈ newPack hash backend storage first,
    ∀ secondNew ∈ newPack hash backend storage second,
      firstNew.1 = secondNew.1 → firstNew.2 = secondNew.2

/-- A removed pack is not one that the pass has written, unless it is written again later. -/
def NewPacksKept (hash : Bytes → PackId) (backend : Backend) (storage : Storage)
    (selected : List PackAnalysis) : Prop :=
  ∀ front removed back, selected = front ++ removed :: back →
    isRemoved hash backend storage removed = true →
    (∃ earlier ∈ front ++ [removed], ∃ file,
      newPack hash backend storage earlier = some (removed.packId, file)) →
    ∃ later ∈ back, ∃ file, newPack hash backend storage later = some (removed.packId, file)

variable {hash : Bytes → PackId} {backend : Backend} {storage : Storage}
  {selected : List PackAnalysis} {analysis : PackAnalysis} {step : Step} {steps : List Step}

theorem newPack_eq_some {packId : PackId} {file : Bytes} :
    newPack hash backend storage analysis = some (packId, file) ↔
      ∃ placed, outcomeOf hash backend storage analysis = .ok (.repacked packId file placed) := by
  unfold newPack
  split
  · rename_i found
    simp [found]
  · rename_i found
    simp [found]
  · rename_i found
    simp [found]
  · rename_i found
    simp [found]

theorem outcomeOf_valid {outcome : Outcome}
    (entries : analysis.liveEntries.Perm (liveEntriesOf storage.index analysis.packId))
    (found : outcomeOf hash backend storage analysis = .ok outcome) :
    Step.Valid storage ⟨analysis, outcome⟩ ∧
      ∀ packId file placed, outcome = .repacked packId file placed → packId = hash file := by
  cases backend with
  | plain => exact clientOutcome_valid entries found
  | server server => exact serverOutcome_valid entries found

def contentOf (hash : Bytes → PackId) (backend : Backend) (storage : Storage)
    (selected : List PackAnalysis) (packId : PackId) : Bytes :=
  match (selected.filterMap (newPack hash backend storage)).find? fun new => new.1 = packId with
  | some new => new.2
  | none => (storage.packs.get? packId).getD []

theorem CollisionFree.contentOf_new (free : CollisionFree hash backend storage selected)
    (listed : analysis ∈ selected) {packId : PackId} {file : Bytes}
    (new : newPack hash backend storage analysis = some (packId, file)) :
    file = contentOf hash backend storage selected packId := by
  unfold contentOf
  split
  · rename_i other found
    obtain ⟨second, secondListed, secondNew⟩ :=
      List.mem_filterMap.mp (List.mem_of_find?_eq_some found)
    obtain rfl : other.1 = packId := by simpa using List.find?_some found
    exact free.new analysis listed second secondListed _ new _ secondNew rfl
  · rename_i missing
    rw [List.find?_eq_none] at missing
    exact absurd (missing _ (List.mem_filterMap.mpr ⟨analysis, listed, new⟩)) (by simp)

theorem CollisionFree.contentOf_stored (free : CollisionFree hash backend storage selected) :
    Agrees (contentOf hash backend storage selected) storage.packs := by
  intro packId old stored
  unfold contentOf
  split
  · rename_i other found
    obtain ⟨second, secondListed, secondNew⟩ :=
      List.mem_filterMap.mp (List.mem_of_find?_eq_some found)
    obtain rfl : other.1 = packId := by simpa using List.find?_some found
    exact free.stored second secondListed _ secondNew old stored
  · rw [stored]
    rfl

/-- Distinct stored packs with the live entries that the index has for them. -/
structure Selected (storage : Storage) (selected : List PackAnalysis) : Prop where
  distinct : (selected.map PackAnalysis.packId).Nodup
  stored : ∀ analysis ∈ selected, (storage.packs.get? analysis.packId).isSome = true
  entries : ∀ analysis ∈ selected,
    analysis.liveEntries.Perm (liveEntriesOf storage.index analysis.packId)

theorem selectPacks_selected (wasteful : Nat → Nat → Bool) (cap : Option UInt64)
    {discovered : List PackId} (distinct : discovered.Nodup) (storage : Storage) :
    Selected storage (selectPacks wasteful cap discovered storage.index storage.packs) :=
  ⟨selectPacks_nodup distinct, fun _ listed => (mem_selectPacks listed).1,
    fun _ listed => (mem_selectPacks listed).2⟩

theorem Selected.ahead (chosen : Selected storage selected) :
    Ahead storage.packs storage.packs selected :=
  ⟨chosen.distinct, chosen.stored, fun _ _ => rfl⟩

theorem CollisionFree.noOverwrite (free : CollisionFree hash backend storage selected) :
    NoOverwrite (outcomeOf hash backend storage) storage.packs selected := by
  intro analysis listed packId file placed found
  exact free.stored analysis listed (packId, file) (newPack_eq_some.mpr ⟨placed, found⟩)

theorem Selected.plan (chosen : Selected storage selected)
    (free : CollisionFree hash backend storage selected) :
    Plan (contentOf hash backend storage selected) storage
      (planSteps (outcomeOf hash backend storage) selected).1 where
  distinct := by
    have sublist := (planSteps_sublist (outcomeOf hash backend storage) selected).map
      PackAnalysis.packId
    rw [List.map_map] at sublist
    exact chosen.distinct.sublist sublist
  valid step listed := by
    obtain ⟨among, found⟩ := mem_planSteps listed
    exact (outcomeOf_valid (chosen.entries _ among) found).1
  agrees := free.contentOf_stored
  writes move listed packId file target := by
    obtain ⟨step, among, moved⟩ := List.mem_filterMap.mp listed
    obtain ⟨ofSelected, found⟩ := mem_planSteps among
    unfold Step.move at moved
    split at moved
    · cases moved
    · cases moved
      cases target
    · rename_i repacked
      cases moved
      cases target
      exact free.contentOf_new ofSelected (newPack_eq_some.mpr ⟨_, repacked ▸ found⟩)

theorem outcomeOf_of_no_live (noLive : analysis.liveEntries.isEmpty = true) :
    outcomeOf hash backend storage analysis = .ok .emptied := by
  cases backend with
  | plain =>
    simp only [outcomeOf, clientOutcome, repackPack]
    rw [if_pos noLive]
  | server server =>
    simp only [outcomeOf, serverOutcome]
    rw [if_pos noLive]

theorem isRemoved_iff {outcome : Outcome}
    (entries : analysis.liveEntries.Perm (liveEntriesOf storage.index analysis.packId))
    (found : outcomeOf hash backend storage analysis = .ok outcome) :
    isRemoved hash backend storage analysis = true ↔
      (Step.move ⟨analysis, outcome⟩).isSome = true := by
  unfold isRemoved newPack
  rw [found]
  cases outcome with
  | skipped =>
    have live : analysis.liveEntries.isEmpty = false := by
      by_contra noLive
      rw [Bool.not_eq_false] at noLive
      rw [outcomeOf_of_no_live noLive] at found
      cases found
    simp [Step.move, live]
  | emptied =>
    have noLive : analysis.liveEntries = [] := (outcomeOf_valid entries found).1.2
    simp [Step.move, noLive]
  | repacked packId file placed => simp [Step.move]

theorem written_moves_iff
    (outcomes : ∀ step ∈ steps, outcomeOf hash backend storage step.analysis = .ok step.outcome)
    {packId : PackId} :
    Written packId (moves steps) ↔ ∃ analysis ∈ steps.map Step.analysis, ∃ file,
      newPack hash backend storage analysis = some (packId, file) := by
  constructor
  · intro ⟨move, listed, file, target⟩
    obtain ⟨step, among, moved⟩ := List.mem_filterMap.mp listed
    obtain ⟨placed, repacked⟩ := (Step.target_of_move moved).mp target
    refine ⟨step.analysis, List.mem_map_of_mem among, file, newPack_eq_some.mpr ⟨placed, ?_⟩⟩
    rw [outcomes step among, repacked]
  · intro ⟨analysis, listed, file, new⟩
    obtain ⟨step, among, rfl⟩ := List.mem_map.mp listed
    obtain ⟨placed, found⟩ := newPack_eq_some.mp new
    rw [outcomes step among] at found
    exact ⟨_, mem_moves_of_repacked among (Except.ok.inj found), file, rfl⟩

theorem Selected.rewritten_iff (chosen : Selected storage selected)
    (complete : (planSteps (outcomeOf hash backend storage) selected).2 = none) :
    (∀ packId, Written packId (moves (planSteps (outcomeOf hash backend storage) selected).1) →
      Rewritten packId (moves (planSteps (outcomeOf hash backend storage) selected).1)) ↔
      NewPacksKept hash backend storage selected := by
  have analyses := planSteps_analyses complete
  have outcomes (step : Step)
      (listed : step ∈ (planSteps (outcomeOf hash backend storage) selected).1) :=
    (mem_planSteps listed).2
  have entries := chosen.entries
  generalize (planSteps (outcomeOf hash backend storage) selected).1 = steps at *
  subst analyses
  constructor
  · intro survives front removed back split isRemoved earlier
    obtain ⟨before, rest, rfl, rfl, restEq⟩ := List.map_eq_append_iff.mp split
    obtain ⟨step, after, rfl, rfl, rfl⟩ := List.map_eq_cons_iff.mp restEq
    have stepListed : step ∈ before ++ step :: after := by simp
    obtain ⟨move, moved⟩ := Option.isSome_iff_exists.mp ((isRemoved_iff
      (entries _ (List.mem_map_of_mem stepListed)) (outcomes step stepListed)).mp isRemoved)
    have written : Written step.analysis.packId (moves (before ++ step :: after)) := by
      obtain ⟨writer, listed, new⟩ := earlier
      refine (written_moves_iff outcomes).mpr ⟨writer, ?_, new⟩
      simp only [List.map_append, List.map_cons, List.mem_append, List.mem_cons,
        List.not_mem_nil, or_false] at listed ⊢
      tauto
    have movesEq : moves (before ++ step :: after) = moves before ++ move :: moves after := by
      rw [moves_append, moves, moves, List.filterMap_cons_some moved]
      rfl
    have later := survives _ written _ move _ movesEq (Step.source_of_move moved)
    exact (written_moves_iff fun other listed => outcomes other (by simp [listed])).mp later
  · intro kept packId written front move back split same
    obtain ⟨before, step, after, rfl, rfl, moved, rfl⟩ := exists_of_moves_eq split
    obtain rfl : step.analysis.packId = packId := (Step.source_of_move moved).symm.trans same
    have stepListed : step ∈ before ++ step :: after := by simp
    have outcomesAfter : ∀ other ∈ after,
        outcomeOf hash backend storage other.analysis = .ok other.outcome :=
      fun other listed => outcomes other (by simp [listed])
    obtain ⟨writer, listed, new⟩ := (written_moves_iff outcomes).mp written
    by_cases inAfter : writer ∈ after.map Step.analysis
    · exact (written_moves_iff outcomesAfter).mpr ⟨writer, inAfter, new⟩
    · have isRemoved := (isRemoved_iff (entries _ (List.mem_map_of_mem stepListed))
        (outcomes step stepListed)).mpr (by rw [moved]; rfl)
      have earlier : writer ∈ before.map Step.analysis ++ [step.analysis] := by
        simp only [List.map_append, List.map_cons, List.mem_append, List.mem_cons,
          List.not_mem_nil, or_false] at listed ⊢
        tauto
      exact (written_moves_iff outcomesAfter).mpr (kept (before.map Step.analysis) step.analysis
        (after.map Step.analysis) (by simp) isRemoved ⟨writer, earlier, new⟩)

section Run

variable {wasteful : Nat → Nat → Bool} {cap : Option UInt64} {discovered : List PackId}

theorem compactRepo_ok (distinct : discovered.Nodup)
    (free : CollisionFree hash backend storage
      (selectPacks wasteful cap discovered storage.index storage.packs))
    (succeeded : (compactRepo hash backend wasteful cap discovered storage
      ⟨storage.index, false⟩).2 = .ok ()) :
    (planSteps (outcomeOf hash backend storage)
        (selectPacks wasteful cap discovered storage.index storage.packs)).2 = none ∧
      applyAll Storage.apply storage (compactRepo hash backend wasteful cap discovered storage
          ⟨storage.index, false⟩).1 =
        afterSteps storage (planSteps (outcomeOf hash backend storage)
          (selectPacks wasteful cap discovered storage.index storage.packs)).1 := by
  have ahead := (selectPacks_selected wasteful cap distinct storage).ahead
  have noOverwrite := free.noOverwrite
  cases backend with
  | plain =>
    have run := compactClient_eq hash ahead noOverwrite {}
    unfold compactRepo selectPacks at succeeded ⊢
    simp only [run] at succeeded ⊢
    refine ⟨?_, applyAll_clientWrites storage _⟩
    change (planSteps (clientOutcome hash storage) _).2 = none
    split at succeeded
    · cases succeeded
    · rename_i complete
      exact complete
  | server server => exact compactServer_ok ahead noOverwrite succeeded

/-- After a successful compaction, by either path, every chunk is readable with the same bytes
exactly when no pack was removed after the pass had written it for the last time. -/
theorem compact_preserved_iff (distinct : discovered.Nodup)
    (readable : ∀ id, storage.index.contains id = true → (storage.read id).isSome = true)
    (free : CollisionFree hash backend storage
      (selectPacks wasteful cap discovered storage.index storage.packs))
    (succeeded : (compactRepo hash backend wasteful cap discovered storage
      ⟨storage.index, false⟩).2 = .ok ()) :
    Preserved storage (applyAll Storage.apply storage
        (compactRepo hash backend wasteful cap discovered storage ⟨storage.index, false⟩).1) ↔
      NewPacksKept hash backend storage
        (selectPacks wasteful cap discovered storage.index storage.packs) := by
  obtain ⟨complete, final⟩ := compactRepo_ok distinct free succeeded
  have chosen := selectPacks_selected wasteful cap distinct storage
  rw [final, (chosen.plan free).preserved_iff readable, chosen.rewritten_iff complete]

theorem newPacksKept_of_unselected
    (unselected : ∀ analysis ∈ selected, ∀ new ∈ newPack hash backend storage analysis,
      new.1 ∉ selected.map PackAnalysis.packId) :
    NewPacksKept hash backend storage selected := by
  rintro front removed back rfl - ⟨earlier, listed, file, new⟩
  have among : earlier ∈ front ++ removed :: back := by
    rw [List.append_cons]
    exact List.mem_append_left back listed
  exact absurd (by simp) (unselected earlier among _ new)

end Run

/-- A hash for short files: their bytes as a number. -/
def positionalHash (file : Bytes) : PackId :=
  BitVec.ofNat 256 (file.foldl (fun value byte => value * 256 + byte.toNat) 1)

def halfDeadPack : Bytes := packBytes [[1], [2, 2]]

def storageWith (unreferenced : Bytes) : Storage where
  packs := Dict.ofList [(positionalHash halfDeadPack, halfDeadPack),
    (positionalHash unreferenced, unreferenced)]
  index := Dict.ofList [(7, ⟨1, 1, positionalHash halfDeadPack, 13⟩)]

/-- A server to which every request is a hundred bytes long. -/
def smallServer : RepackServer := ⟨false, fun _ => 100⟩

def compactStorageWith (backend : Backend) (unreferenced : Bytes) :
    List Write × Except CompactError Unit :=
  compactRepo positionalHash backend (fun dead payload => 10 * payload ≤ 100 * dead) none
    [positionalHash unreferenced, positionalHash halfDeadPack] (storageWith unreferenced)
    ⟨(storageWith unreferenced).index, false⟩

theorem storageWith_readable (unreferenced : Bytes)
    (read : ((storageWith unreferenced).read 7).isSome = true) (id : ChunkId)
    (indexed : (storageWith unreferenced).index.contains id = true) :
    ((storageWith unreferenced).read id).isSome = true := by
  have listed := Dict.mem_keysList.mpr indexed
  have onlySeven : (storageWith unreferenced).index.keysList = [7] := rfl
  rw [onlySeven, List.mem_singleton] at listed
  rw [listed]
  exact read

/-- With an unrelated unreferenced pack, a compaction keeps the live chunk. -/
theorem compact_preserved_iff_unrelated :
    (compactStorageWith .plain (packBytes [[9]])).2 = .ok () ∧
      Preserved (storageWith (packBytes [[9]])) (applyAll Storage.apply
        (storageWith (packBytes [[9]])) (compactStorageWith .plain (packBytes [[9]])).1) := by
  have succeeded : (compactStorageWith .plain (packBytes [[9]])).2 = .ok () := by decide +kernel
  refine ⟨succeeded, ?_⟩
  refine (compact_preserved_iff (by decide +kernel)
    (storageWith_readable _ (by decide +kernel)) ⟨?_, ?_⟩ succeeded).mpr
    (newPacksKept_of_unselected ?_)
  all_goals decide +kernel

/-- If the unreferenced pack is the one that the live blob is moved to, both paths remove it
and lose the chunk. -/
theorem compact_loses_moved_chunk :
    (storageWith (packBytes [[1]])).index.keysList = [7] ∧
      (storageWith (packBytes [[1]])).read 7 = some [1] ∧
      ∀ server ∈ [false, true],
        let backend := if server then Backend.server smallServer else .plain
        (compactStorageWith backend (packBytes [[1]])).2 = .ok () ∧
          (applyAll Storage.apply (storageWith (packBytes [[1]]))
            (compactStorageWith backend (packBytes [[1]])).1).read 7 = none := by
  decide +kernel

end Vykar.Compact

import Vykar.Compact.Steps

/-!
Both compaction paths carry out steps that are determined by the storage they
find.

A run reads each selected pack when it comes to it.  As packs are named by their
contents, earlier steps of the run do not change what it reads there, so the
steps can be computed from the first storage, and the writes of a run are the
writes of its steps.
-/

namespace Vykar.Compact

open Index Pack ContentStore WriteLog

variable {storage : Storage} {outcome : PackAnalysis → Except CompactError Outcome}
  {analyses : List PackAnalysis} {analysis : PackAnalysis} {base current : Storage}
  {hash : Bytes → PackId}

section Selection

variable {wasteful : Nat → Nat → Bool} {index : ChunkIndex} {packs : Dict PackId Bytes}
  {id : PackId}

theorem analyzePack_eq_some (analyzed : analyzePack wasteful index packs id = some analysis) :
    analysis.packId = id ∧ (packs.get? id).isSome = true ∧
      analysis.liveEntries.Perm (liveEntriesOf index id) := by
  obtain ⟨file, stored, rest⟩ := Option.bind_eq_some_iff.mp analyzed
  refine ⟨?_, by rw [stored]; rfl, ?_⟩
  all_goals
    simp only at rest
    split at rest
    · rename_i orphan
      split at rest <;> cases rest
      first | rfl | rw [List.isEmpty_iff.mp orphan]
    · split at rest
      · cases rest
      · split at rest
        · cases rest
        · split at rest <;> cases rest
          first | rfl | exact List.perm_insertionSort _ _

theorem selectAnalysesByCap_sublist (cap : Option UInt64) (total : Nat)
    (analyses : List PackAnalysis) :
    (selectAnalysesByCap cap total analyses).Sublist analyses := by
  induction analyses generalizing total with
  | nil => exact .slnil
  | cons analysis analyses ih =>
    rw [selectAnalysesByCap]
    split
    · exact List.nil_sublist _
    · exact (ih _).cons_cons _

variable {cap : Option UInt64} {discovered : List PackId}

theorem mem_selectPacks
    (selected : analysis ∈ selectPacks wasteful cap discovered index packs) :
    (packs.get? analysis.packId).isSome = true ∧
      analysis.liveEntries.Perm (liveEntriesOf index analysis.packId) := by
  have sorted := (selectAnalysesByCap_sublist _ _ _).subset selected
  rw [(List.perm_insertionSort _ _).mem_iff, List.mem_filterMap] at sorted
  obtain ⟨id, -, analyzed⟩ := sorted
  obtain ⟨rfl, stored, entries⟩ := analyzePack_eq_some analyzed
  exact ⟨stored, entries⟩

theorem selectPacks_nodup (distinct : discovered.Nodup) :
    ((selectPacks wasteful cap discovered index packs).map PackAnalysis.packId).Nodup := by
  have analyses : ((discovered.filterMap (analyzePack wasteful index packs)).map
      PackAnalysis.packId).Nodup := by
    have sublist : ((discovered.filterMap (analyzePack wasteful index packs)).map
        PackAnalysis.packId).Sublist discovered := by
      clear distinct
      induction discovered with
      | nil => exact .slnil
      | cons id discovered ih =>
        rw [List.filterMap_cons]
        split
        · exact ih.cons _
        · rename_i analysis analyzed
          rw [List.map_cons, (analyzePack_eq_some analyzed).1]
          exact ih.cons_cons _
    exact distinct.sublist sublist
  have sorted := ((List.perm_insertionSort (fun first second : PackAnalysis =>
    second.deadBytes ≤ first.deadBytes) _).map PackAnalysis.packId).nodup_iff.mpr analyses
  exact sorted.sublist ((selectAnalysesByCap_sublist _ _ _).map _)

end Selection

def planSteps (outcome : PackAnalysis → Except CompactError Outcome) :
    List PackAnalysis → List Step × Option CompactError
  | [] => ([], none)
  | analysis :: analyses =>
    match outcome analysis with
    | .error failure => ([], some failure)
    | .ok result =>
      let rest := planSteps outcome analyses
      (⟨analysis, result⟩ :: rest.1, rest.2)

theorem mem_planSteps {step : Step} (listed : step ∈ (planSteps outcome analyses).1) :
    step.analysis ∈ analyses ∧ outcome step.analysis = .ok step.outcome := by
  induction analyses with
  | nil => cases listed
  | cons analysis analyses ih =>
    rw [planSteps] at listed
    split at listed
    · cases listed
    · rename_i result found
      rcases List.mem_cons.mp listed with rfl | later
      · exact ⟨List.mem_cons_self, found⟩
      · obtain ⟨among, same⟩ := ih later
        exact ⟨List.mem_cons_of_mem _ among, same⟩

theorem planSteps_sublist (outcome : PackAnalysis → Except CompactError Outcome)
    (analyses : List PackAnalysis) :
    ((planSteps outcome analyses).1.map Step.analysis).Sublist analyses := by
  induction analyses with
  | nil => exact .slnil
  | cons analysis analyses ih =>
    rw [planSteps]
    split
    · exact List.nil_sublist _
    · exact ih.cons_cons _

theorem afterSteps_cons (storage : Storage) (step : Step) (steps : List Step) :
    afterSteps storage (step :: steps) = afterSteps (afterSteps storage [step]) steps := by
  obtain ⟨analysis, outcome⟩ := step
  cases outcome <;> rfl

def NoOverwrite (outcome : PackAnalysis → Except CompactError Outcome)
    (packs : Dict PackId Bytes) (analyses : List PackAnalysis) : Prop :=
  ∀ analysis ∈ analyses, ∀ packId file placed,
    outcome analysis = .ok (.repacked packId file placed) →
      ∀ old, packs.get? packId = some old → old = file

structure Ahead (base current : Dict PackId Bytes) (analyses : List PackAnalysis) : Prop where
  distinct : (analyses.map PackAnalysis.packId).Nodup
  stored : ∀ analysis ∈ analyses, (base.get? analysis.packId).isSome = true
  same : ∀ analysis ∈ analyses, current.get? analysis.packId = base.get? analysis.packId

theorem Ahead.step {base current : Dict PackId Bytes}
    (ahead : Ahead base current (analysis :: analyses))
    (noOverwrite : NoOverwrite outcome base (analysis :: analyses)) {result : Outcome}
    (found : outcome analysis = .ok result) :
    Ahead base (applyMoves current (moves [⟨analysis, result⟩])) analyses := by
  have distinct := ahead.distinct
  rw [List.map_cons, List.nodup_cons] at distinct
  refine ⟨distinct.2, fun other listed => ahead.stored other (List.mem_cons_of_mem _ listed),
    fun other listed => ?_⟩
  have different : other.packId ≠ analysis.packId := by
    intro same
    exact distinct.1 (same ▸ List.mem_map_of_mem listed)
  have same := ahead.same other (List.mem_cons_of_mem _ listed)
  cases result with
  | skipped => exact same
  | emptied =>
    refine (Dict.get?_remove _ _ _).trans ?_
    rw [if_neg different]
    exact same
  | repacked packId file placed =>
    refine (Move.get?_apply current ⟨analysis.packId, some (packId, file)⟩ _).trans ?_
    simp only [if_neg different]
    split
    · rename_i new
      obtain ⟨old, oldStored⟩ := Option.isSome_iff_exists.mp
        (ahead.stored other (List.mem_cons_of_mem _ listed))
      rw [oldStored, noOverwrite analysis List.mem_cons_self packId file placed found old
        (new ▸ oldStored)]
    · exact same

theorem NoOverwrite.tail {packs : Dict PackId Bytes}
    (noOverwrite : NoOverwrite outcome packs (analysis :: analyses)) :
    NoOverwrite outcome packs analyses :=
  fun other listed => noOverwrite other (List.mem_cons_of_mem _ listed)

section ClientPath

def clientOutcome (hash : Bytes → PackId) (storage : Storage) (analysis : PackAnalysis) :
    Except CompactError Outcome :=
  repackPack hash (storage.packs.get? analysis.packId) analysis

def clientWrites (index : ChunkIndex) : List Step → List Write
  | [] => []
  | step :: steps =>
    match step.outcome with
    | .skipped => clientWrites index steps
    | .emptied => .deletePack step.analysis.packId :: clientWrites index steps
    | .repacked packId file placed =>
      [.putPack packId file, .putIndex (relocate index packId placed),
        .deletePack step.analysis.packId] ++
          clientWrites (relocate index packId placed) steps

theorem applyAll_clientWrites (storage : Storage) (steps : List Step) :
    applyAll Storage.apply storage (clientWrites storage.index steps) =
      afterSteps storage steps := by
  induction steps generalizing storage with
  | nil => rfl
  | cons step steps ih =>
    rw [afterSteps_cons, ← ih]
    obtain ⟨analysis, outcome⟩ := step
    cases outcome <;> rfl

section Cap

variable {cap : Option UInt64} {total done : Nat}

theorem cap_not_reached (within : done ≤ total ∨ 2 ^ 64 - 1 ≤ total)
    (below : ¬ (cap.any fun cap => cap.toNat ≤ total) = true) :
    ¬ (cap.any fun cap => cap.toNat ≤ done) = true := by
  cases cap with
  | none => exact Bool.false_ne_true
  | some cap =>
    simp only [Option.any_some, decide_eq_true_eq] at below ⊢
    have small := cap.toNat_lt
    omega

theorem within_next {bytes more : Nat} (within : done ≤ total ∨ 2 ^ 64 - 1 ≤ total)
    (le : more ≤ done + bytes) :
    more ≤ min (total + bytes) (2 ^ 64 - 1) ∨ 2 ^ 64 - 1 ≤ min (total + bytes) (2 ^ 64 - 1) := by
  omega

/-- The cap was already respected by the selection. -/
theorem repackLoop_cap (hash : Bytes → PackId) (cap : Option UInt64)
    (analyses : List PackAnalysis) (storage : Storage) (client : Client) (stats : CompactStats)
    (within : done ≤ total ∨ 2 ^ 64 - 1 ≤ total) :
    repackLoop hash cap storage client done stats (selectAnalysesByCap cap total analyses) =
      repackLoop hash none storage client done stats
        (selectAnalysesByCap cap total analyses) := by
  induction analyses generalizing storage client stats total done with
  | nil => rfl
  | cons analysis analyses ih =>
    rw [selectAnalysesByCap]
    split
    · rfl
    · rename_i below
      have later (more : Nat) := @within_next total done analysis.totalBytes more within
      simp only [repackLoop, if_neg (cap_not_reached within below), Option.any_none,
        Bool.false_eq_true, if_false]
      split
      · rfl
      · exact ih _ _ _ (later _ (Nat.le_add_right _ _))
      · rw [ih _ _ _ (later _ (Nat.le_add_right _ _))]
      · rw [ih _ _ _ (later _ le_rfl)]

end Cap

theorem repackLoop_eq (hash : Bytes → PackId) (ahead : Ahead base.packs current.packs analyses)
    (noOverwrite : NoOverwrite (clientOutcome hash base) base.packs analyses) (done : Nat)
    (stats : CompactStats) :
    repackLoop hash none current ⟨current.index, false⟩ done stats analyses =
      (clientWrites current.index (planSteps (clientOutcome hash base) analyses).1,
        match (planSteps (clientOutcome hash base) analyses).2 with
        | some failure => .error failure
        | none => .ok (⟨(planSteps (clientOutcome hash base) analyses).1.foldl Step.place
            current.index, false⟩,
          (planSteps (clientOutcome hash base) analyses).1.foldl
            (fun stats step => stats.turn step.analysis step.outcome) stats)) := by
  induction analyses generalizing current done stats with
  | nil => rfl
  | cons analysis analyses ih =>
    have reads : repackPack hash (current.packs.get? analysis.packId) analysis =
        clientOutcome hash base analysis := by
      rw [ahead.same analysis List.mem_cons_self]
      rfl
    rw [repackLoop, planSteps]
    simp only [Option.any_none, Bool.false_eq_true, if_false, reads]
    cases found : clientOutcome hash base analysis with
    | error failure => rfl
    | ok result =>
      have later (done : Nat) := @ih (afterSteps current [⟨analysis, result⟩])
        (ahead.step noOverwrite found) noOverwrite.tail done (stats.turn analysis result)
      cases result with
      | skipped => exact later done
      | emptied =>
        have rest : repackLoop hash none (current.apply (.deletePack analysis.packId))
            ⟨current.index, false⟩ done (stats.turn analysis .emptied) analyses = _ := later done
        simp only [rest]
        rfl
      | repacked packId file placed =>
        have rest : repackLoop hash none (afterSteps current
            [⟨analysis, .repacked packId file placed⟩])
            ⟨relocate current.index packId placed, false⟩ (done + analysis.totalBytes)
            (stats.turn analysis (.repacked packId file placed)) analyses = _ :=
          later (done + analysis.totalBytes)
        have saved : (Client.relocate ⟨current.index, false⟩ packId placed).saveState =
          (⟨relocate current.index packId placed, false⟩,
            [.putIndex (relocate current.index packId placed)]) := rfl
        have written : applyAll Storage.apply current [.putPack packId file,
            .putIndex (relocate current.index packId placed),
            .deletePack analysis.packId] =
            afterSteps current [⟨analysis, .repacked packId file placed⟩] := rfl
        simp only [saved, List.singleton_append, written, rest]
        rfl

theorem compactClient_eq (hash : Bytes → PackId) {cap : Option UInt64}
    (ahead : Ahead storage.packs storage.packs (selectAnalysesByCap cap 0 analyses))
    (noOverwrite : NoOverwrite (clientOutcome hash storage) storage.packs
      (selectAnalysesByCap cap 0 analyses)) (stats : CompactStats) :
    compactClient hash cap storage ⟨storage.index, false⟩ stats
        (selectAnalysesByCap cap 0 analyses) =
      (clientWrites storage.index
          (planSteps (clientOutcome hash storage) (selectAnalysesByCap cap 0 analyses)).1,
        match (planSteps (clientOutcome hash storage) (selectAnalysesByCap cap 0 analyses)).2 with
        | some failure => .error failure
        | none => .ok ((planSteps (clientOutcome hash storage)
            (selectAnalysesByCap cap 0 analyses)).1.foldl
              (fun stats step => stats.turn step.analysis step.outcome) stats)) := by
  unfold compactClient
  rw [repackLoop_cap hash cap analyses storage _ _ (Or.inl le_rfl),
    repackLoop_eq hash ahead noOverwrite]
  cases (planSteps (clientOutcome hash storage) (selectAnalysesByCap cap 0 analyses)).2 with
  | some failure => rfl
  | none => simp [Client.saveState]

theorem clientOutcome_valid {outcome : Outcome}
    (entries : analysis.liveEntries.Perm (liveEntriesOf storage.index analysis.packId))
    (found : clientOutcome hash storage analysis = .ok outcome) :
    Step.Valid storage ⟨analysis, outcome⟩ ∧
      ∀ packId file placed, outcome = .repacked packId file placed → packId = hash file := by
  unfold clientOutcome repackPack at found
  split at found
  · rename_i isEmpty
    cases found
    exact ⟨⟨entries, List.isEmpty_iff.mp isEmpty⟩, by simp⟩
  · rename_i nonempty
    split at found
    · cases found
    · rename_i source stored
      split at found
      · split at found
        · cases found
        · rename_i blobs read
          cases found
          rw [repackWriter_placements _ (lengths_of_readLive read)]
          refine ⟨⟨entries, ?_, rfl, source, blobs, stored, read, rfl⟩, ?_⟩
          · exact fun isEmpty => nonempty (List.isEmpty_iff.mpr isEmpty)
          · intro packId file placed same
            cases same
            rfl
      · cases found
        exact ⟨⟨entries, trivial⟩, by simp⟩

end ClientPath

section ServerPath

def serverOutcome (hash : Bytes → PackId) (storage : Storage) (analysis : PackAnalysis) :
    Except CompactError Outcome :=
  if analysis.liveEntries.isEmpty then .ok .emptied
  else
    match (storage.packs.get? analysis.packId).bind (readLive · analysis.liveEntries) with
    | none => .error .repackFailed
    | some blobs => .ok (.repacked (hash (packBytes blobs)) (packBytes blobs)
        (placements analysis.liveEntries))

theorem serverOutcome_valid {outcome : Outcome}
    (entries : analysis.liveEntries.Perm (liveEntriesOf storage.index analysis.packId))
    (found : serverOutcome hash storage analysis = .ok outcome) :
    Step.Valid storage ⟨analysis, outcome⟩ ∧
      ∀ packId file placed, outcome = .repacked packId file placed → packId = hash file := by
  unfold serverOutcome at found
  split at found
  · rename_i isEmpty
    cases found
    exact ⟨⟨entries, List.isEmpty_iff.mp isEmpty⟩, by simp⟩
  · rename_i nonempty
    split at found
    · cases found
    · rename_i blobs readBack
      cases found
      obtain ⟨source, stored, read⟩ := Option.bind_eq_some_iff.mp readBack
      refine ⟨⟨entries, ?_, rfl, source, blobs, stored, read, rfl⟩, ?_⟩
      · exact fun isEmpty => nonempty (List.isEmpty_iff.mpr isEmpty)
      · intro packId file placed same
        cases same
        rfl

theorem applyResults_of_no_live {completed : List OperationResult} {start client : Client}
    {rest : List PackAnalysis}
    (orphans : ∀ analysis ∈ rest, analysis.liveEntries = [])
    (applied : applyResults completed start rest = .ok client) : client = start := by
  induction rest with
  | nil => exact (Except.ok.inj applied).symm
  | cons analysis rest ih =>
    obtain ⟨orphan, orphans⟩ := List.forall_mem_cons.mp orphans
    rw [applyResults] at applied
    split at applied
    · cases applied
    · rw [if_pos (by simp [orphan])] at applied
      exact ih orphans applied

def serverWrites (steps : List Step) : List Write :=
  steps.flatMap fun step =>
    match step.outcome with
    | .skipped => []
    | .emptied => [.deletePack step.analysis.packId]
    | .repacked packId file _ => [.putPack packId file, .deletePack step.analysis.packId]

def operationOf (analysis : PackAnalysis) : Operation :=
  ⟨analysis.packId, analysis.liveEntries.map fun entry => ⟨entry.offset, entry.length⟩, true⟩

def resultOf (step : Step) : OperationResult :=
  match step.outcome with
  | .skipped | .emptied => ⟨step.analysis.packId, none, [], true⟩
  | .repacked packId _ _ => ⟨step.analysis.packId, some packId,
      blobOffsets headerSize (step.analysis.liveEntries.map LiveEntry.length), true⟩

theorem copyBlobs_eq_readLive (file : Bytes) {entries : List LiveEntry}
    (positive : ∀ entry ∈ entries, entry.length ≠ 0) :
    copyBlobs file (entries.map fun entry => ⟨entry.offset, entry.length⟩) =
      readLive file entries := by
  induction entries with
  | nil => rfl
  | cons entry entries ih =>
    obtain ⟨nonzero, positive⟩ := List.forall_mem_cons.mp positive
    simp only [List.map_cons, copyBlobs, readLive, ih positive, if_neg nonzero]

theorem applyAll_serverWrites (storage : Storage) (steps : List Step) :
    applyAll Storage.apply storage (serverWrites steps) =
      ⟨applyMoves storage.packs (moves steps), storage.index⟩ := by
  induction steps generalizing storage with
  | nil => rfl
  | cons step steps ih =>
    have split : applyAll Storage.apply storage (serverWrites (step :: steps)) =
        applyAll Storage.apply (applyAll Storage.apply storage (serverWrites [step]))
          (serverWrites steps) := by
      simp only [serverWrites, List.flatMap_cons, List.flatMap_nil, List.append_nil, applyAll,
        List.foldl_append]
    rw [split, ih]
    obtain ⟨analysis, outcome⟩ := step
    cases outcome <;> rfl

theorem executeOperation_eq (hash : Bytes → PackId)
    (same : current.packs.get? analysis.packId = storage.packs.get? analysis.packId)
    (positive : ∀ entry ∈ analysis.liveEntries, entry.length ≠ 0) :
    executeOperation hash (current.packs.get? analysis.packId) (operationOf analysis) =
      match serverOutcome hash storage analysis with
      | .error _ => none
      | .ok outcome => some (serverWrites [⟨analysis, outcome⟩], resultOf ⟨analysis, outcome⟩) := by
  unfold executeOperation serverOutcome
  rw [same]
  by_cases isEmpty : analysis.liveEntries.isEmpty = true
  · have noBlobs : (operationOf analysis).keepBlobs.isEmpty = true := by
      simpa [operationOf] using isEmpty
    simp only [noBlobs, isEmpty, if_true]
    rfl
  · have blobs : ¬ (operationOf analysis).keepBlobs.isEmpty = true := by
      simpa [operationOf] using isEmpty
    rw [if_neg blobs, if_neg isEmpty]
    cases storage.packs.get? analysis.packId with
    | none => rfl
    | some file =>
      have copied := copyBlobs_eq_readLive file positive
      simp only [Option.bind_eq_bind, Option.bind_some]
      rw [show (operationOf analysis).keepBlobs = analysis.liveEntries.map
        fun entry => ⟨entry.offset, entry.length⟩ from rfl, copied]
      cases readLive file analysis.liveEntries with
      | none => rfl
      | some blobs => simp [serverWrites, resultOf, operationOf, List.map_map, Function.comp_def]

theorem executeRepack_eq (hash : Bytes → PackId) (ahead : Ahead base.packs current.packs analyses)
    (noOverwrite : NoOverwrite (serverOutcome hash base) base.packs analyses)
    (positive : ∀ analysis ∈ analyses, ∀ entry ∈ analysis.liveEntries, entry.length ≠ 0) :
    executeRepack hash current (analyses.map operationOf) =
      (serverWrites (planSteps (serverOutcome hash base) analyses).1,
        match (planSteps (serverOutcome hash base) analyses).2 with
        | some _ => none
        | none => some ((planSteps (serverOutcome hash base) analyses).1.map resultOf)) := by
  induction analyses generalizing current with
  | nil => rfl
  | cons analysis analyses ih =>
    obtain ⟨nonzero, positive⟩ := List.forall_mem_cons.mp positive
    rw [List.map_cons, executeRepack, planSteps]
    have operation := executeOperation_eq hash (ahead.same analysis List.mem_cons_self) nonzero
    rw [show (operationOf analysis).sourcePack = analysis.packId from rfl, operation]
    cases found : serverOutcome hash base analysis with
    | error failure => rfl
    | ok outcome =>
      have written := applyAll_serverWrites current [⟨analysis, outcome⟩]
      have later := @ih
        (applyAll Storage.apply current (serverWrites [⟨analysis, outcome⟩]))
        (written ▸ ahead.step noOverwrite found) noOverwrite.tail positive
      simp only [later]
      cases (planSteps (serverOutcome hash base) analyses).2 with
      | some failure => simp [serverWrites]
      | none => simp [serverWrites]

theorem find?_key_of_mem {Item Key : Type} [DecidableEq Key] {key : Item → Key}
    {items : List Item} (distinct : (items.map key).Nodup) {item : Item} (listed : item ∈ items) :
    items.find? (fun other => key other = key item) = some item := by
  induction items with
  | nil => cases listed
  | cons head items ih =>
    rw [List.map_cons, List.nodup_cons] at distinct
    rcases List.mem_cons.mp listed with rfl | later
    · simp
    · have different : key head ≠ key item := by
        intro same
        exact distinct.1 (same ▸ List.mem_map_of_mem later)
      rw [List.find?_cons_of_neg (by simpa using different)]
      exact ih distinct.2 later

def Client.place (client : Client) (step : Step) : Client :=
  match step.outcome with
  | .skipped | .emptied => client
  | .repacked packId _ placed => client.relocate packId placed

variable {steps : List Step} {server : RepackServer} {selected : List PackAnalysis}

theorem applyResults_eq {completed : List OperationResult} (client : Client)
    (lookup : ∀ step ∈ steps, completed.reverse.find? (fun result =>
      result.sourcePack = step.analysis.packId) = some (resultOf step))
    (outcomes : ∀ step ∈ steps, serverOutcome hash storage step.analysis = .ok step.outcome) :
    applyResults completed client (steps.map Step.analysis) =
      .ok (steps.foldl Client.place client) := by
  induction steps generalizing client with
  | nil => rfl
  | cons step steps ih =>
    obtain ⟨answer, lookup⟩ := List.forall_mem_cons.mp lookup
    obtain ⟨outcome, outcomes⟩ := List.forall_mem_cons.mp outcomes
    have later (client : Client) := ih client lookup outcomes
    rw [List.map_cons, applyResults, answer]
    obtain ⟨analysis, result⟩ := step
    dsimp only [serverOutcome] at outcome
    split at outcome
    · rename_i isEmpty
      cases outcome
      simp only [isEmpty, if_true]
      exact later client
    · rename_i nonempty
      split at outcome
      · cases outcome
      · cases outcome
        simp only [if_neg nonempty, resultOf, blobOffsets_length, List.length_map, ne_eq,
          not_true_eq_false, if_false]
        exact later _

theorem foldl_place_index (client : Client) (steps : List Step) :
    (steps.foldl Client.place client).index = steps.foldl Step.place client.index := by
  induction steps generalizing client with
  | nil => rfl
  | cons step steps ih =>
    rw [List.foldl_cons, ih, List.foldl_cons]
    obtain ⟨analysis, outcome⟩ := step
    cases outcome <;> rfl

theorem foldl_place_clean {client : Client}
    (clean : (steps.foldl Client.place client).dirty = false) :
    client.dirty = false ∧ steps.foldl Step.place client.index = client.index := by
  induction steps generalizing client with
  | nil => exact ⟨clean, rfl⟩
  | cons step steps ih =>
    obtain ⟨analysis, outcome⟩ := step
    cases outcome with
    | skipped | emptied => exact ih clean
    | repacked packId file placed => cases (ih clean).1

def planAccepted (server : RepackServer) (selected : List PackAnalysis) : Bool :=
  server.accepts (repackPlan selected) &&
    !(server.appendOnly && (repackPlan selected).any Operation.deleteAfter)

theorem planAccepted_positive (accepted : planAccepted server selected = true) :
    ∀ analysis ∈ selected, ∀ entry ∈ analysis.liveEntries, entry.length ≠ 0 := by
  intro analysis listed entry live
  simp only [planAccepted, RepackServer.accepts, validPlan, repackPlan, Bool.and_eq_true,
    List.all_eq_true,
    List.mem_map] at accepted
  have valid := (accepted.1.2.2 _ ⟨analysis, listed, rfl⟩).2 _
    (List.mem_map.mpr ⟨entry, live, rfl⟩)
  simp only [validBlobRef, decide_eq_true_eq] at valid
  exact valid.1

theorem planSteps_analyses (complete : (planSteps outcome analyses).2 = none) :
    (planSteps outcome analyses).1.map Step.analysis = analyses := by
  induction analyses with
  | nil => rfl
  | cons analysis analyses ih =>
    rw [planSteps] at complete ⊢
    split at complete
    · cases complete
    · rw [List.map_cons, ih complete]

theorem serverRepack_eq (hash : Bytes → PackId) (server : RepackServer)
    (ahead : Ahead storage.packs current.packs selected)
    (noOverwrite : NoOverwrite (serverOutcome hash storage) storage.packs selected) :
    serverRepack hash server current (repackPlan selected) =
      if planAccepted server selected then
        (serverWrites (planSteps (serverOutcome hash storage) selected).1,
          match (planSteps (serverOutcome hash storage) selected).2 with
          | some _ => .error .repackFailed
          | none => .ok ((planSteps (serverOutcome hash storage) selected).1.map resultOf))
      else ([], .error .repackRejected) := by
  by_cases accepted : planAccepted server selected = true
  · have executed := executeRepack_eq hash ahead noOverwrite (planAccepted_positive accepted)
    rw [if_pos accepted]
    simp only [planAccepted, Bool.and_eq_true, Bool.not_eq_true'] at accepted
    unfold serverRepack
    rw [if_pos accepted.1, accepted.2]
    simp only [Bool.false_eq_true, if_false]
    rw [show repackPlan selected = selected.map operationOf from rfl, executed]
    cases (planSteps (serverOutcome hash storage) selected).2 <;> rfl
  · rw [if_neg accepted]
    unfold serverRepack
    simp only [planAccepted, Bool.and_eq_true, Bool.not_eq_true', not_and,
      Bool.not_eq_false] at accepted
    split
    · rename_i valid
      rw [if_pos (by simpa using accepted valid)]
    · rfl

theorem resultOf_sourcePack (step : Step) :
    (resultOf step).sourcePack = step.analysis.packId := by
  obtain ⟨analysis, outcome⟩ := step
  cases outcome <;> rfl

theorem applyResults_complete (distinct : (steps.map fun step => step.analysis.packId).Nodup)
    (outcomes : ∀ step ∈ steps, serverOutcome hash storage step.analysis = .ok step.outcome)
    (client : Client) :
    applyResults (steps.map resultOf) client (steps.map Step.analysis) =
      .ok (steps.foldl Client.place client) := by
  have keys : ((steps.map resultOf).reverse.map OperationResult.sourcePack).Nodup := by
    rw [List.map_reverse, List.nodup_reverse, List.map_map]
    simpa only [Function.comp_def, resultOf_sourcePack] using distinct
  refine applyResults_eq client (fun step listed => ?_) outcomes
  rw [← resultOf_sourcePack step]
  exact find?_key_of_mem keys (List.mem_reverse.mpr (List.mem_map_of_mem listed))

theorem compactServer_eq (hash : Bytes → PackId) (server : RepackServer)
    (ahead : Ahead storage.packs storage.packs selected)
    (noOverwrite : NoOverwrite (serverOutcome hash storage) storage.packs selected) :
    compactServer hash server storage ⟨storage.index, false⟩ selected =
      if selected.isEmpty then ([], .ok ())
      else if planAccepted server selected then
        match (planSteps (serverOutcome hash storage) selected).2 with
        | some _ => (serverWrites (planSteps (serverOutcome hash storage) selected).1,
            .error .repackFailed)
        | none => (serverWrites (planSteps (serverOutcome hash storage) selected).1 ++
            ((planSteps (serverOutcome hash storage) selected).1.foldl Client.place
              ⟨storage.index, false⟩).saveState.2, .ok ())
      else ([], .error .repackRejected) := by
  unfold compactServer
  rw [serverRepack_eq hash server ahead noOverwrite]
  by_cases accepted : planAccepted server selected = true
  · simp only [if_pos accepted]
    cases complete : (planSteps (serverOutcome hash storage) selected).2 with
    | some failure => rfl
    | none =>
      have analyses := planSteps_analyses complete
      have distinct := ahead.distinct
      have outcomes (step : Step)
          (listed : step ∈ (planSteps (serverOutcome hash storage) selected).1) :=
        (mem_planSteps listed).2
      generalize (planSteps (serverOutcome hash storage) selected).1 = steps at *
      subst analyses
      rw [List.map_map] at distinct
      simp only [applyResults_complete distinct outcomes]
  · simp only [if_neg accepted]

theorem compactServer_ok (ahead : Ahead storage.packs storage.packs selected)
    (noOverwrite : NoOverwrite (serverOutcome hash storage) storage.packs selected)
    (succeeded : (compactServer hash server storage ⟨storage.index, false⟩ selected).2 =
      .ok ()) :
    (planSteps (serverOutcome hash storage) selected).2 = none ∧
      applyAll Storage.apply storage
        (compactServer hash server storage ⟨storage.index, false⟩ selected).1 =
          afterSteps storage (planSteps (serverOutcome hash storage) selected).1 := by
  rw [compactServer_eq hash server ahead noOverwrite] at succeeded ⊢
  split at succeeded
  · rename_i isEmpty
    rw [List.isEmpty_iff.mp isEmpty]
    exact ⟨rfl, rfl⟩
  · rename_i nonempty
    split at succeeded
    · rename_i accepted
      rw [if_neg nonempty, if_pos accepted]
      cases complete : (planSteps (serverOutcome hash storage) selected).2 with
      | some failure =>
        rw [complete] at succeeded
        cases succeeded
      | none =>
        refine ⟨rfl, ?_⟩
        have served := applyAll_serverWrites storage
          (planSteps (serverOutcome hash storage) selected).1
        simp only [applyAll, List.foldl_append] at served ⊢
        rw [served]
        unfold Client.saveState
        split
        · simp only [List.foldl_cons, List.foldl_nil, Storage.apply, foldl_place_index]
          rfl
        · rename_i clean
          have unchanged := (foldl_place_clean (Bool.eq_false_iff.mpr clean)).2
          simp only [List.foldl_nil, afterSteps, unchanged]
    · cases succeeded

end ServerPath

end Vykar.Compact

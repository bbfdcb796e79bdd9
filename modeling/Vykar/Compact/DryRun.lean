import Vykar.Compact.Execution

/-!
The counters of a compaction (`commands/compact.rs`).

The dry run counts over the selected packs, the client over its repack loop.  The loop also
stops at the cap and skips packs with an invalid header.  The selection has already respected
the cap, and a loop over packs with valid headers writes only such packs, so that neither
happens in a run that completes.
-/

namespace Vykar.Compact

open Index Pack WriteLog

def dryRunStats : CompactStats → List PackAnalysis → CompactStats
  | stats, [] => stats
  | stats, analysis :: analyses =>
    if analysis.liveEntries.isEmpty then
      dryRunStats (stats.deletedEmpty analysis.deadBytes) analyses
    else dryRunStats (stats.repacked analysis.deadBytes) analyses

def ValidHeaders (packs : Dict PackId Bytes) : Prop :=
  ∀ id file, packs.get? id = some file → hasValidHeader file = true

section Loop

variable {hash : Bytes → PackId} {cap : Option UInt64} {packs : Dict PackId Bytes}
  {analysis : PackAnalysis}

theorem ValidHeaders.remove (valid : ValidHeaders packs) (removed : PackId) :
    ValidHeaders (packs.remove removed) := by
  intro id file stored
  rw [Dict.get?_remove] at stored
  split at stored
  · cases stored
  · exact valid id file stored

theorem ValidHeaders.set (valid : ValidHeaders packs) {written : Bytes}
    (header : hasValidHeader written = true) (new : PackId) :
    ValidHeaders (packs.set new written) := by
  intro id file stored
  rw [Dict.get?_set] at stored
  split at stored
  · exact Option.some.inj stored ▸ header
  · exact valid id file stored

theorem ValidHeaders.repackPack (valid : ValidHeaders packs) {outcome : Outcome}
    (found : repackPack hash (packs.get? analysis.packId) analysis = .ok outcome) :
    outcome = .emptied ∧ analysis.liveEntries = [] ∨
      analysis.liveEntries ≠ [] ∧ ∃ packId file placed,
        outcome = .repacked packId file placed ∧ hasValidHeader file = true := by
  unfold Compact.repackPack at found
  split at found
  · rename_i isEmpty
    exact .inl ⟨(Except.ok.inj found).symm, List.isEmpty_iff.mp isEmpty⟩
  · rename_i nonempty
    refine .inr ⟨mt List.isEmpty_iff.mpr nonempty, ?_⟩
    split at found
    · cases found
    · rename_i file stored
      rw [if_pos (valid _ _ stored)] at found
      split at found
      · cases found
      · rename_i blobs read
        exact ⟨_, _, _, (Except.ok.inj found).symm,
          decide_eq_true (readRange_middle [] packHeader (bodyBytes blobs))⟩

theorem deadBytes_of_orphan {wasteful : Nat → Nat → Bool} {discovered : List PackId}
    {index : ChunkIndex}
    (listed : analysis ∈ discovered.filterMap (analyzePack wasteful index packs))
    (orphan : analysis.liveEntries = []) : analysis.totalBytes = analysis.deadBytes := by
  obtain ⟨id, -, analyzed⟩ := List.mem_filterMap.mp listed
  obtain ⟨rfl, -, entries⟩ := analyzePack_eq_some analyzed
  rw [orphan, List.nil_perm] at entries
  obtain ⟨file, -, rest⟩ := Option.bind_eq_some_iff.mp analyzed
  simp only [entries, List.isEmpty_nil, if_true] at rest
  split at rest
  · rw [← Option.some.inj rest]
  · cases rest

theorem repackLoop_counts {analyses : List PackAnalysis} {storage : Storage} {client : Client}
    {total done : Nat} {stats : CompactStats} {after : Client × CompactStats}
    (within : done ≤ total ∨ 2 ^ 64 - 1 ≤ total)
    (valid : ValidHeaders storage.packs)
    (orphans : ∀ analysis ∈ analyses, analysis.liveEntries = [] →
      analysis.totalBytes = analysis.deadBytes)
    (completed : (repackLoop hash cap storage client done stats
      (selectAnalysesByCap cap total analyses)).2 = .ok after) :
    after.2 = dryRunStats stats (selectAnalysesByCap cap total analyses) := by
  induction analyses generalizing storage client total done stats with
  | nil =>
    cases completed
    rfl
  | cons analysis analyses ih =>
    obtain ⟨orphan, orphans⟩ := List.forall_mem_cons.mp orphans
    rw [selectAnalysesByCap] at completed ⊢
    split at completed
    · rename_i reached
      rw [if_pos reached]
      cases completed
      rfl
    · rename_i below
      have notReached := cap_not_reached within below
      rw [if_neg below, dryRunStats]
      rw [repackLoop] at completed
      rw [if_neg notReached] at completed
      cases found : repackPack hash (storage.packs.get? analysis.packId) analysis with
      | error failure =>
        rw [found] at completed
        cases completed
      | ok outcome =>
        rw [found] at completed
        rcases valid.repackPack found with
          ⟨rfl, isEmpty⟩ | ⟨nonempty, packId, file, placed, rfl, header⟩
        · rw [if_pos (List.isEmpty_iff.mpr isEmpty), ← orphan isEmpty]
          exact ih (within_next within (Nat.le_add_right _ _))
            (valid.remove _) orphans completed
        · rw [if_neg (mt List.isEmpty_iff.mp nonempty)]
          exact @ih (applyAll Storage.apply storage [.putPack packId file,
              .putIndex (relocate client.index packId placed), .deletePack analysis.packId])
            _ _ _ _ (within_next within le_rfl)
            ((valid.set header packId).remove analysis.packId) orphans completed

end Loop

/-- For packs with valid headers, every client run that completes counts what the dry run
counts. -/
theorem compact_dry_run_exact (hash : Bytes → PackId) (wasteful : Nat → Nat → Bool)
    (cap : Option UInt64) (discovered : List PackId) (storage : Storage) (client : Client)
    (stats after : CompactStats) (valid : ValidHeaders storage.packs)
    (completed : (compactClient hash cap storage client stats
      (selectPacks wasteful cap discovered storage.index storage.packs)).2 = .ok after) :
    after =
      dryRunStats stats (selectPacks wasteful cap discovered storage.index storage.packs) := by
  unfold compactClient at completed
  split at completed
  · cases completed
  · rename_i writes client counted looped
    cases completed
    refine repackLoop_counts (.inl le_rfl) valid (fun analysis listed => ?_)
      (congrArg Prod.snd looped)
    exact deadBytes_of_orphan ((List.perm_insertionSort _ _).mem_iff.mp listed)

/-- A pack with a dead blob and a pack that the index does not know. -/
def mixedStorage : Storage :=
  ⟨Dict.set (Dict.set ∅ 1 (packBytes [[4]])) 3 (packBytes [[5], [6]]),
    Dict.ofList [(7, ⟨1, 1, 3, 13⟩)]⟩

theorem compact_dry_run_exact_mixed :
    (⟨1, 1, 0, 10⟩ : CompactStats) = dryRunStats {}
        (selectPacks (fun dead payload => payload ≤ 4 * dead) (some 100) [1, 3]
          mixedStorage.index mixedStorage.packs) := by
  have valid : ValidHeaders mixedStorage.packs := by
    refine ValidHeaders.set (ValidHeaders.set ?_ (by decide) 1) (by decide) 3
    intro id file stored
    cases stored
  exact compact_dry_run_exact (fun _ => 9) _ _ _ mixedStorage ⟨mixedStorage.index, false⟩ _ _ valid
    (by decide +kernel)

end Vykar.Compact

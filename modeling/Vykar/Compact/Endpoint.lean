import Vykar.Compact.Model
import Vykar.Server.RepackResponse

/-!
The repack request of a compaction at the endpoint that serves it.

`Vykar.Compact.Model` names packs by their ids.  The handler of the server accepts the same plans,
and a plan that it carries out leaves the packs and returns the results that the compaction
reckons with.
-/

namespace Vykar.Compact

open Index Pack Server WriteLog

def Operation.request (operation : Operation) : RepackOperation :=
  ⟨packKey operation.sourcePack, operation.keepBlobs, operation.deleteAfter⟩

def OperationResult.reply (result : OperationResult) : RepackResult :=
  ⟨packKey result.sourcePack, result.newPack.map packKey, result.newOffsets, result.deleted⟩

/-- The server holds the packs of the storage. -/
def Serves (state : ServerState) (storage : Storage) : Prop :=
  ∀ id, state.objectAt (packPath id) = storage.packs.get? id

section Validation

theorem validateBlobRef_isOk (blob : BlobRef) (context : String) :
    (validateBlobRef blob context).isOk = validBlobRef blob := by
  unfold validateBlobRef validBlobRef
  split
  · simp_all [Except.isOk, Except.toBool]
  · split
    · simp_all [Except.isOk, Except.toBool]
    · split <;> simp_all [Except.isOk, Except.toBool]

theorem validateBlobRefs_isOk (idx blobIdx : Nat) (blobs : List BlobRef) :
    (validateBlobRefs idx blobIdx blobs).isOk = blobs.all validBlobRef := by
  induction blobs generalizing blobIdx with
  | nil => rfl
  | cons blob blobs ih =>
    rw [List.all_cons, ← ih (blobIdx + 1), validateBlobRefs,
      ← validateBlobRef_isOk blob s!"operation {idx} blob {blobIdx}"]
    cases validateBlobRef blob s!"operation {idx} blob {blobIdx}" <;> rfl

theorem validateOperation_isOk (idx : Nat) (operation : Operation) :
    (validateOperation idx operation.request).isOk =
      (decide (operation.keepBlobs.length ≤ maxKeepBlobsPerOp) &&
        operation.keepBlobs.all validBlobRef) := by
  have valid : isValidPackKey operation.request.sourcePack = true := isValidPackKey_packKey _
  unfold validateOperation
  dsimp only
  rw [valid, Bool.not_true, if_neg Bool.false_ne_true, Operation.request]
  by_cases many : maxKeepBlobsPerOp < operation.keepBlobs.length
  · rw [if_pos many, decide_eq_false (not_le.mpr many)]
    rfl
  · rw [if_neg many, decide_eq_true (not_lt.mp many), Bool.true_and, validateBlobRefs_isOk]

theorem validateOperations_isOk (idx : Nat) (plan : List Operation) :
    (validateOperations idx (plan.map Operation.request)).isOk = plan.all fun operation =>
      decide (operation.keepBlobs.length ≤ maxKeepBlobsPerOp) &&
        operation.keepBlobs.all validBlobRef := by
  induction plan generalizing idx with
  | nil => rfl
  | cons operation plan ih =>
    rw [List.all_cons, ← validateOperation_isOk idx, ← ih (idx + 1), List.map_cons,
      validateOperations]
    cases validateOperation idx operation.request <;> rfl

/-- The handler and the compaction agree on which plans are valid. -/
theorem validateRepackPlan_isOk (plan : List Operation) :
    (validateRepackPlan ⟨plan.map Operation.request, 1⟩).isOk = validPlan plan := by
  have version : checkProtocolVersion 1 = .ok () := rfl
  have valid : validPlan plan = (decide (plan.length ≤ maxRepackOps) &&
      (validateOperations 0 (plan.map Operation.request)).isOk) := by
    rw [validateOperations_isOk]
    rfl
  unfold validateRepackPlan
  simp only [version, List.length_map, valid]
  by_cases many : maxRepackOps < plan.length
  · rw [if_pos many, decide_eq_false (not_le.mpr many)]
    rfl
  · rw [if_neg many, decide_eq_true (not_lt.mp many), Bool.true_and]

end Validation

section Execution

variable {hash : Bytes → PackId} {config : Config} {state next : ServerState} {storage : Storage}
  {source bytes : Bytes} {blob : BlobRef} {blobs : List BlobRef} {kept : List Bytes}

theorem copyBlobs_of_repackBlob
    (reads : List.Forall₂ (fun blob bytes => repackBlob source blob = .ok bytes) blobs kept) :
    copyBlobs source blobs = some kept := by
  induction reads with
  | nil => rfl
  | cons read _ ih =>
    obtain ⟨positive, checked⟩ := repackBlob_checked read
    simp [copyBlobs, positive, checked, ih]

theorem lengths_of_repackBlob
    (reads : List.Forall₂ (fun blob bytes => repackBlob source blob = .ok bytes) blobs kept) :
    kept.map List.length = blobs.map BlobRef.length := by
  induction reads with
  | nil => rfl
  | cons read _ ih =>
    rw [List.map_cons, List.map_cons, ih, readRange_length (repackBlob_readRange read)]

section Operation

variable {operation : Operation} {run : OperationRun}

theorem packPath_eq_iff {id other : PackId} : packPath id = packPath other ↔ id = other :=
  ⟨packPath_injective, congrArg packPath⟩

section

variable (done : Performed hash (fun _ => false) state next operation.request
  (packPath operation.sourcePack) run)

include done

/-- What the removal at the end of an operation leaves, after the new pack is in place. -/
theorem Serves.removal (serves : Serves state storage) {placed : Storage}
    (stored : ∀ id, placed.packs.get? id = run.placed hash (packPath id)
      (storage.packs.get? id)) :
    Serves next (applyAll Storage.apply placed
      (if operation.deleteAfter then [.deletePack operation.sourcePack] else [])) := by
  intro id
  rw [done.effect _ (not_isTemporary_packPath id), serves, ← stored id]
  simp only [Operation.request, packPath_eq_iff, Bool.not_false, Bool.and_true]
  cases operation.deleteAfter with
  | false => rfl
  | true =>
    change _ = (placed.packs.remove operation.sourcePack).get? id
    rw [Dict.get?_remove]
    simp only [Bool.true_and, decide_eq_true_eq]

theorem performed_reply : run.result = ⟨packKey operation.sourcePack,
    run.content.map fun content => packKey (hash content), run.result.newOffsets,
    operation.deleteAfter⟩ := by
  change RepackResult.mk run.result.sourcePack run.result.newPack run.result.newOffsets
    run.result.deleted = _
  rw [done.same, done.reports, done.deleted]
  rfl

end

theorem Serves.performs (serves : Serves state storage)
    (performed : performOperation hash config (fun _ => false) state operation.request =
      (next, .ok run)) :
    ∃ writes result, executeOperation hash (storage.packs.get? operation.sourcePack) operation =
        some (writes, result) ∧
      run.result = result.reply ∧ Serves next (applyAll Storage.apply storage writes) := by
  obtain ⟨source, -, done⟩ := performOperation_performed (isValidPackKey_packKey _) performed
  obtain rfl : packPath operation.sourcePack = source :=
    Option.some.inj ((filePath_packKey _).symm.trans done.located)
  cases built : run.content with
  | none =>
    have keepsNothing : operation.keepBlobs = [] := done.builds.mp built
    have executed : executeOperation hash (storage.packs.get? operation.sourcePack) operation =
        some (if operation.deleteAfter then [.deletePack operation.sourcePack] else [],
          ⟨operation.sourcePack, none, [], operation.deleteAfter⟩) := by
      rw [executeOperation, keepsNothing]
      rfl
    refine ⟨_, _, executed, ?_,
      serves.removal done fun id => (OperationRun.placed_of_none built).symm⟩
    rw [performed_reply done, built, done.offsets built]
    rfl
  | some content =>
    obtain ⟨read, packed⟩ := done.reads content built
    obtain ⟨kept, rfl, offsets, reads⟩ := repackContent_eq packed
    rw [serves] at read
    have keepsBlobs : operation.keepBlobs.isEmpty = false := by
      refine Bool.eq_false_iff.mpr fun keepsNothing => ?_
      rw [done.builds.mpr (List.isEmpty_iff.mp keepsNothing)] at built
      cases built
    have copied : copyBlobs run.source operation.keepBlobs = some kept :=
      copyBlobs_of_repackBlob reads
    have executed : executeOperation hash (storage.packs.get? operation.sourcePack) operation =
        some (.putPack (hash (packBytes kept)) (packBytes kept) ::
            if operation.deleteAfter then [.deletePack operation.sourcePack] else [],
          ⟨operation.sourcePack, some (hash (packBytes kept)),
            blobOffsets headerSize (operation.keepBlobs.map BlobRef.length),
            operation.deleteAfter⟩) := by
      rw [executeOperation, keepsBlobs, read]
      simp [copied]
    refine ⟨_, _, executed, ?_, serves.removal done fun id => ?_⟩
    · rw [performed_reply done, built, offsets, lengths_of_repackBlob reads]
      rfl
    · rw [OperationRun.placed_of_some built]
      change (storage.packs.set (hash (packBytes kept)) (packBytes kept)).get? id = _
      rw [Dict.get?_set]
      simp only [packPath_eq_iff]

end Operation

/-- A plan that the handler carries out is carried out by the compaction's model of it, with the
same results and the same packs. -/
theorem Serves.executeRepack (serves : Serves state storage) {plan : List Operation}
    {runs : List OperationRun}
    (executed : Server.executeRepack hash config (fun _ => false) state
      (plan.map Operation.request) = (next, .ok runs)) :
    ∃ writes results, executeRepack hash storage plan = (writes, some results) ∧
      runs.map OperationRun.result = results.map OperationResult.reply ∧
      Serves next (applyAll Storage.apply storage writes) := by
  induction plan generalizing state storage runs with
  | nil =>
    cases executed
    exact ⟨[], [], rfl, rfl, serves⟩
  | cons operation plan ih =>
    rw [List.map_cons, Server.executeRepack] at executed
    split at executed
    · cases executed
    · rename_i performed
      obtain ⟨writes, result, first, reported, served⟩ := serves.performs performed
      split at executed
      · cases executed
      · rename_i continued
        cases executed
        obtain ⟨later, results, rest, replies, final⟩ := ih served continued
        refine ⟨writes ++ later, result :: results, ?_, ?_, ?_⟩
        · rw [Compact.executeRepack, first]
          simp only [rest, Option.map_some]
        · rw [List.map_cons, List.map_cons, reported, replies]
        · rw [applyAll, List.foldl_append]
          exact final

end Execution

end Vykar.Compact

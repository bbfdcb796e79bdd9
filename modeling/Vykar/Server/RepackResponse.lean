import Vykar.Server.Quota
import Vykar.Server.RepackRun

/-!
The response to a repack request.

What is stored at a path after a plan depends only on the operations that build a
pack there or remove the one that is there, in their order.  Each operation reports
what it set out to do, so the response is true as long as no operation undoes what
another one did and every removal has something to remove.
-/

namespace Vykar.Server

open Vykar.Pack

section Conditions

variable (blake2b : Bytes → BitVec 256)

def newPack (stored : Path → Option Bytes) (operation : RepackOperation) : Option Bytes :=
  if operation.keepBlobs.isEmpty then none
  else (filePath operation.sourcePack).bind fun source =>
    (stored source).bind fun bytes =>
      (repackContent bytes operation.keepBlobs).toOption.map Prod.fst

def newPacks (stored : Path → Option Bytes) : List RepackOperation → List Bytes
  | [] => []
  | operation :: rest =>
    match newPack stored operation with
    | none => newPacks stored rest
    | some content =>
      content :: newPacks
        (Function.update stored (packPath (blake2b content)) (some content)) rest

def deletions (operations : List RepackOperation) : List Path :=
  (operations.filter RepackOperation.deleteAfter).filterMap fun operation =>
    filePath operation.sourcePack

/-- No pack is removed twice or built by the same plan, and every pack to remove is there and can
be removed. -/
structure PlanSafe (stuck : Path → Bool) (state : ServerState)
    (operations : List RepackOperation) : Prop where
  once : (deletions operations).Nodup
  there : ∀ source ∈ deletions operations,
    (state.objectAt source).isSome = true ∧ stuck source = false
  apart : ∀ content ∈ newPacks blake2b state.objectAt operations,
    packPath (blake2b content) ∉ deletions operations

/-- The report of an operation is true at the end of the request. -/
structure OperationRun.Truthful (final : ServerState) (operation : RepackOperation)
    (run : OperationRun) : Prop where
  keepsNothing : run.result.newPack = none ↔ operation.keepBlobs = []
  newPack : ∀ key ∈ run.result.newPack, ∃ path kept, filePath key = some path ∧
    final.objectAt path = some (packBytes kept) ∧
    List.Forall₂ (fun (blob : BlobRef) bytes =>
      readRange run.source blob.offset blob.length = some bytes) operation.keepBlobs kept ∧
    List.Forall₂ (fun bytes offset => readRange (packBytes kept) offset bytes.length = some bytes)
      kept run.result.newOffsets
  deleted : run.result.deleted = true ↔ run.removed = true ∧
    ∃ path, filePath operation.sourcePack = some path ∧ final.objectAt path = none

end Conditions

section Blobs

theorem repackBlob_checked {source bytes : Bytes} {blob : BlobRef}
    (read : repackBlob source blob = .ok bytes) :
    blob.length ≠ 0 ∧ readCheckedBlob source blob.offset blob.length = some bytes := by
  unfold repackBlob at read
  simp only at read
  split at read
  · cases read
  · rename_i positive
    refine ⟨positive, ?_⟩
    split at read
    · cases read
    · split at read
      · cases read
      · split at read
        · cases read
        · rename_i inside room
          split at read
          · cases read
          · rename_i same
            cases read
            have whole : ((source.drop (blob.offset - 4)).take (4 + blob.length)).length =
                4 + blob.length := by
              simp only [List.length_take, List.length_drop]
              omega
            have behind : blob.offset - 4 + 4 = blob.offset := by omega
            rw [readCheckedBlob, if_neg room, readRange, if_pos whole, Option.bind_some,
              List.take_take, Nat.min_eq_left (Nat.le_add_right _ _), if_pos (not_not.mp same),
              List.drop_take, Nat.add_sub_cancel_left, List.drop_drop, behind]

theorem repackBlob_readRange {source bytes : Bytes} {blob : BlobRef}
    (read : repackBlob source blob = .ok bytes) :
    readRange source blob.offset blob.length = some bytes :=
  readRange_of_readCheckedBlob (repackBlob_checked read).2

theorem mapM_repackBlob {source : Bytes} {blobs : List BlobRef} {kept : List Bytes}
    (read : blobs.mapM (repackBlob source) = .ok kept) :
    List.Forall₂ (fun blob bytes => repackBlob source blob = .ok bytes) blobs kept := by
  induction blobs generalizing kept with
  | nil =>
    cases read
    exact .nil
  | cons blob blobs ih =>
    rw [List.mapM_cons] at read
    cases first : repackBlob source blob with
    | error message =>
      rw [first] at read
      cases read
    | ok bytes =>
      cases others : blobs.mapM (repackBlob source) with
      | error message =>
        rw [first, others] at read
        cases read
      | ok rest =>
        rw [first, others] at read
        cases read
        exact .cons first (ih others)

theorem repackContent_eq {source content : Bytes} {blobs : List BlobRef} {offsets : List Nat}
    (packed : repackContent source blobs = .ok (content, offsets)) :
    ∃ kept, content = packBytes kept ∧ offsets = blobOffsets headerSize (kept.map List.length) ∧
      List.Forall₂ (fun blob bytes => repackBlob source blob = .ok bytes) blobs kept := by
  unfold repackContent at packed
  cases read : blobs.mapM (repackBlob source) with
  | error message =>
    rw [read] at packed
    cases packed
  | ok kept =>
    rw [read] at packed
    cases packed
    exact ⟨kept, rfl, rfl, mapM_repackBlob read⟩

end Blobs

def OperationRun.placed (blake2b : Bytes → BitVec 256) (run : OperationRun) (path : Path)
    (before : Option Bytes) : Option Bytes :=
  match run.content with
  | none => before
  | some content => if path = packPath (blake2b content) then some content else before

section Placed

variable {blake2b : Bytes → BitVec 256} {run : OperationRun} {path : Path} {before : Option Bytes}

theorem OperationRun.placed_of_none (built : run.content = none) :
    run.placed blake2b path before = before := by
  simp only [placed, built]

theorem OperationRun.placed_of_some {content : Bytes} (built : run.content = some content) :
    run.placed blake2b path before =
      if path = packPath (blake2b content) then some content else before := by
  simp only [placed, built]

end Placed

structure Performed (blake2b : Bytes → BitVec 256) (stuck : Path → Bool)
    (state next : ServerState) (operation : RepackOperation) (source : Path)
    (run : OperationRun) : Prop where
  located : filePath operation.sourcePack = some source
  builds : run.content = none ↔ operation.keepBlobs = []
  reports : run.result.newPack = run.content.map fun content => packKey (blake2b content)
  deleted : run.result.deleted = operation.deleteAfter
  same : run.result.sourcePack = operation.sourcePack
  offsets : run.content = none → run.result.newOffsets = []
  reads : ∀ content ∈ run.content, state.objectAt source = some run.source ∧
    repackContent run.source operation.keepBlobs = .ok (content, run.result.newOffsets)
  removed : run.removed = (operation.deleteAfter && !stuck source &&
    (run.placed blake2b source (state.objectAt source)).isSome)
  effect : ∀ path, isTemporary path = false → next.objectAt path =
    if operation.deleteAfter && !stuck source && decide (path = source) then none
    else run.placed blake2b path (state.objectAt path)

section Effects

variable {blake2b : Bytes → BitVec 256} {config : Config} {stuck : Path → Bool}
  {state next : ServerState} {operation : RepackOperation} {source path : Path}

theorem finishOperation_objectAt :
    (finishOperation config stuck state operation source).objectAt path =
      if operation.deleteAfter && !stuck source && decide (path = source) then none
      else state.objectAt path := by
  unfold finishOperation removeSource ServerState.objectAt
  cases operation.deleteAfter with
  | false => rfl
  | true =>
    cases stuck source with
    | true => rfl
    | false =>
      have files := (removed_discard state source).files path
      simp only [if_true, Bool.false_eq_true, if_false, Bool.not_false, Bool.true_and,
        decide_eq_true_eq]
      change (FileTree.fileAt (state.discard source).files path).map StoredFile.bytes = _
      rw [files]
      split <;> rfl

theorem publishPack_objectAt {temp target : Path} {size : Nat}
    (published : publishPack state temp target size = (next, .ok ())) (notTemp : path ≠ temp) :
    next.objectAt path = if path = target then state.objectAt temp else state.objectAt path := by
  unfold publishPack at published
  split at published
  · cases published
  · rename_i dirs made
    split at published
    · cases published
    · rename_i files renamed
      cases published
      obtain ⟨file, found, moved⟩ := FileTree.rename_eq_some renamed
      have sameFiles := FileTree.fileAt_createDirAll made
      change (files.fileAt path).map StoredFile.bytes = _
      rw [moved, if_neg notTemp, sameFiles]
      rw [sameFiles] at found
      simp only [ServerState.objectAt, found]
      split <;> rfl

theorem buildPack_ok {bytes content : Bytes} {offsets : List Nat}
    (built : buildPack blake2b state operation source bytes = (next, .ok (content, offsets))) :
    repackContent bytes operation.keepBlobs = .ok (content, offsets) ∧
      ∀ path, isTemporary path = false → next.objectAt path =
        if path = packPath (blake2b content) then some content else state.objectAt path := by
  unfold buildPack at built
  simp only at built
  split at built
  · split at built <;> cases built
  · rename_i packed
    split at built
    · cases built
    · rename_i created inode made
      split at built
      · cases built
      · rename_i published
        cases built
        refine ⟨packed, fun path plain => ?_⟩
        have notTemp : path ≠ withFileName source (repackTempName state.repackCounter) := by
          rintro rfl
          rw [isTemporary_repackTemp] at plain
          cases plain
        have written := created_create made
        rw [publishPack_objectAt published notTemp]
        simp only [ServerState.objectAt, written.files, if_neg notTemp, if_true, Option.map_some]

theorem performOperation_performed {run : OperationRun}
    (valid : isValidPackKey operation.sourcePack = true)
    (performed : performOperation blake2b config stuck state operation = (next, .ok run)) :
    ∃ source, isTemporary source = false ∧
      Performed blake2b stuck state next operation source run := by
  unfold performOperation at performed
  split at performed
  · cases performed
  · rename_i source located
    have plain : isTemporary source = false := not_isTemporary_source valid located
    refine ⟨source, plain, ?_⟩
    split at performed
    · rename_i empty
      cases performed
      have keepsNothing : operation.keepBlobs = [] := List.isEmpty_iff.mp empty
      refine ⟨located, iff_of_true rfl keepsNothing, rfl, rfl, rfl, fun _ => rfl,
        fun _ packed => (by cases packed), ?_, ?_⟩
      · simp [removes, OperationRun.placed, ServerState.objectAt]
      · intro path _
        exact finishOperation_objectAt
    · rename_i keeps
      have keepsBlobs : operation.keepBlobs ≠ [] := fun none => keeps (List.isEmpty_iff.mpr none)
      split at performed
      · cases performed
      · rename_i file found
        split at performed
        · cases performed
        · rename_i middle content offsets built
          cases performed
          obtain ⟨packed, stored⟩ := buildPack_ok built
          have placed : ∀ path, isTemporary path = false → middle.objectAt path =
              OperationRun.placed blake2b ⟨⟨operation.sourcePack,
                some (packKey (blake2b content)), offsets, operation.deleteAfter⟩, file.bytes,
                some content, removes stuck middle operation source⟩ path (state.objectAt path) :=
            stored
          have built : some content ≠ none := Option.some_ne_none content
          refine ⟨located, iff_of_false built keepsBlobs, rfl, rfl, rfl,
            fun absent => absurd absent built, ?_, ?_, ?_⟩
          · rintro _ ⟨⟩
            exact ⟨by rw [ServerState.objectAt, found, Option.map_some], packed⟩
          · rw [← placed source plain]
            simp [removes, ServerState.objectAt]
          · intro path plainPath
            rw [finishOperation_objectAt, placed path plainPath]

end Effects

structure PlanStep where
  operation : RepackOperation
  source : Path
  run : OperationRun

def PlanStep.content (step : PlanStep) : Option Bytes := step.run.content

def PlanStep.deletes (step : PlanStep) : Bool := step.operation.deleteAfter

inductive Executed (blake2b : Bytes → BitVec 256) (stuck : Path → Bool) :
    ServerState → List PlanStep → ServerState → Prop where
  | nil {state} : Executed blake2b stuck state [] state
  | cons {state next final step rest} :
      isTemporary step.source = false →
      Performed blake2b stuck state next step.operation step.source step.run →
      Executed blake2b stuck next rest final → Executed blake2b stuck state (step :: rest) final

section Plans

variable {blake2b : Bytes → BitVec 256} {config : Config} {stuck : Path → Bool}
  {state final : ServerState} {steps front back : List PlanStep} {step : PlanStep} {path : Path}

theorem executeRepack_executed {operations : List RepackOperation} {runs : List OperationRun}
    (valid : ∀ operation ∈ operations, isValidPackKey operation.sourcePack = true)
    (executed : executeRepack blake2b config stuck state operations = (final, .ok runs)) :
    ∃ steps : List PlanStep, steps.map PlanStep.operation = operations ∧
      steps.map PlanStep.run = runs ∧ Executed blake2b stuck state steps final := by
  induction operations generalizing state runs with
  | nil =>
    cases executed
    exact ⟨[], rfl, rfl, .nil⟩
  | cons operation rest ih =>
    obtain ⟨validFirst, validRest⟩ := List.forall_mem_cons.mp valid
    unfold executeRepack at executed
    split at executed
    · cases executed
    · rename_i middle run performed
      split at executed
      · cases executed
      · rename_i runs continued
        cases executed
        obtain ⟨source, plain, isPerformed⟩ := performOperation_performed validFirst performed
        obtain ⟨steps, operations, sameRuns, later⟩ := ih validRest continued
        refine ⟨⟨operation, source, run⟩ :: steps, ?_, ?_, .cons plain isPerformed later⟩
        · rw [List.map_cons, operations]
        · rw [List.map_cons, sameRuns]

theorem Executed.split (executed : Executed blake2b stuck state (front ++ step :: back) final) :
    ∃ before after, Executed blake2b stuck state front before ∧
      isTemporary step.source = false ∧
      Performed blake2b stuck before after step.operation step.source step.run ∧
      Executed blake2b stuck after back final := by
  induction front generalizing state with
  | nil =>
    cases executed with
    | cons plain performed later => exact ⟨_, _, .nil, plain, performed, later⟩
  | cons head tail ih =>
    cases executed with
    | cons plain performed later =>
      obtain ⟨before, after, first, rest⟩ := ih later
      exact ⟨before, after, .cons plain performed first, rest⟩

section

variable (executed : Executed blake2b stuck state steps final)

include executed

theorem Executed.located :
    ∀ step ∈ steps, filePath step.operation.sourcePack = some step.source := by
  induction executed with
  | nil => exact fun _ => nofun
  | cons plain performed later ih =>
    exact List.forall_mem_cons.mpr ⟨performed.located, ih⟩

/-- A pack stays when only the same bytes are built in its place and nothing removes it. -/
theorem Executed.keeps (plain : isTemporary path = false) {bytes : Bytes}
    (stored : state.objectAt path = some bytes)
    (same : ∀ step ∈ steps, ∀ content ∈ step.run.content,
      path = packPath (blake2b content) → content = bytes)
    (kept : ∀ step ∈ steps, step.deletes = true → step.source ≠ path) :
    final.objectAt path = some bytes := by
  induction executed with
  | nil => exact stored
  | @cons state next final step rest _ performed later ih =>
    obtain ⟨sameHere, sameLater⟩ := List.forall_mem_cons.mp same
    obtain ⟨keptHere, keptLater⟩ := List.forall_mem_cons.mp kept
    refine ih ?_ sameLater keptLater
    rw [performed.effect path plain, if_neg]
    · cases built : step.run.content with
      | none => exact (OperationRun.placed_of_none built).trans stored
      | some content =>
        rw [OperationRun.placed_of_some built]
        split
        · rename_i isTarget
          rw [sameHere content built isTarget]
        · exact stored
    · intro removes
      simp only [Bool.and_eq_true, decide_eq_true_eq] at removes
      exact keptHere removes.1.1 removes.2.symm

theorem Executed.stays_absent (plain : isTemporary path = false)
    (absent : state.objectAt path = none)
    (notBuilt : ∀ step ∈ steps, ∀ content ∈ step.run.content, packPath (blake2b content) ≠ path) :
    final.objectAt path = none := by
  induction executed with
  | nil => exact absent
  | @cons state next final step rest _ performed later ih =>
    obtain ⟨notHere, notLater⟩ := List.forall_mem_cons.mp notBuilt
    refine ih ?_ notLater
    rw [performed.effect path plain]
    split
    · rfl
    · cases built : step.run.content with
      | none => exact (OperationRun.placed_of_none built).trans absent
      | some content =>
        rw [OperationRun.placed_of_some built, if_neg (notHere content built).symm]
        exact absent

theorem Executed.newPacks_eq {stored : Path → Option Bytes}
    (agrees : ∀ path bytes, isTemporary path = false → state.objectAt path = some bytes →
      stored path = some bytes) :
    newPacks blake2b stored (steps.map PlanStep.operation) =
      steps.filterMap PlanStep.content := by
  induction executed generalizing stored with
  | nil => rfl
  | @cons state next final step rest plain performed later ih =>
    have after {path : Path} {bytes : Bytes} (plainPath : isTemporary path = false)
        (holds : next.objectAt path = some bytes) :
        step.run.placed blake2b path (state.objectAt path) = some bytes := by
      rw [performed.effect path plainPath] at holds
      split at holds
      · cases holds
      · exact holds
    rw [List.map_cons, newPacks]
    cases built : step.run.content with
    | none =>
      have keepsNothing := performed.builds.mp built
      have noPack : newPack stored step.operation = none := by
        rw [newPack, keepsNothing]
        rfl
      rw [noPack, List.filterMap_cons_none (show step.content = none from built)]
      refine ih fun path bytes plainPath holds => ?_
      have before := after plainPath holds
      rw [OperationRun.placed_of_none built] at before
      exact agrees path bytes plainPath before
    | some content =>
      obtain ⟨read, packed⟩ := performed.reads content built
      have keepsBlobs : step.operation.keepBlobs.isEmpty = false := by
        refine Bool.eq_false_iff.mpr fun empty => ?_
        rw [performed.builds.mpr (List.isEmpty_iff.mp empty)] at built
        cases built
      have isPack : newPack stored step.operation = some content := by
        simp only [newPack, keepsBlobs, Bool.false_eq_true, if_false, performed.located,
          Option.bind_some, agrees step.source step.run.source plain read, packed]
        rfl
      rw [isPack, List.filterMap_cons_some (show step.content = some content from built)]
      refine congrArg _ (ih fun path bytes plainPath holds => ?_)
      have before := after plainPath holds
      rw [OperationRun.placed_of_some built] at before
      rw [Function.update_apply]
      split at before
      · rename_i isTarget
        rw [if_pos isTarget, before]
      · rename_i isOther
        rw [if_neg isOther]
        exact agrees path bytes plainPath before

theorem Executed.deletions_eq :
    deletions (steps.map PlanStep.operation) =
      (steps.filter PlanStep.deletes).map PlanStep.source := by
  have located := executed.located
  clear executed
  induction steps with
  | nil => rfl
  | cons step rest ih =>
    obtain ⟨here, later⟩ := List.forall_mem_cons.mp located
    have tail := ih later
    unfold deletions at tail ⊢
    rw [List.map_cons]
    cases deletes : step.operation.deleteAfter with
    | false =>
      rw [List.filter_cons_of_neg (by simp [deletes]),
        List.filter_cons_of_neg (by simp [PlanStep.deletes, deletes])]
      exact tail
    | true =>
      have removes : step.deletes = true := deletes
      rw [List.filter_cons_of_pos deletes, List.filter_cons_of_pos removes, List.filterMap_cons,
        here, List.map_cons, tail]

end

theorem Performed.truthful_iff {before after : ServerState} {operation : RepackOperation}
    {source : Path} {run : OperationRun}
    (performed : Performed blake2b stuck before after operation source run) :
    run.Truthful final operation ↔
      (∀ content ∈ run.content, final.objectAt (packPath (blake2b content)) = some content) ∧
      (operation.deleteAfter = true → run.removed = true ∧ final.objectAt source = none) := by
  constructor
  · intro truthful
    refine ⟨fun content built => ?_, fun deletes => ?_⟩
    · have reported : run.result.newPack = some (packKey (blake2b content)) := by
        rw [performed.reports, built, Option.map_some]
      obtain ⟨path, kept, isPath, holds, keeps, -⟩ := truthful.newPack _ reported
      obtain ⟨others, isContent, -, reads⟩ := repackContent_eq (performed.reads content built).2
      rw [filePath_packKey] at isPath
      cases isPath
      rw [holds, isContent, List.right_unique_forall₂'
        (fun _ _ _ first second => Option.some.inj (first.symm.trans second)) keeps
        (reads.imp fun _ _ => repackBlob_readRange)]
    · obtain ⟨removed, path, isPath, gone⟩ :=
        truthful.deleted.mp (performed.deleted.trans deletes)
      rw [performed.located] at isPath
      cases isPath
      exact ⟨removed, gone⟩
  · rintro ⟨built, deletes⟩
    refine ⟨?_, fun key reported => ?_, ?_⟩
    · rw [performed.reports, Option.map_eq_none_iff]
      exact performed.builds
    · rw [performed.reports] at reported
      obtain ⟨content, isContent, rfl⟩ := Option.map_eq_some_iff.mp reported
      obtain ⟨kept, packed, offsets, reads⟩ :=
        repackContent_eq (performed.reads content isContent).2
      refine ⟨_, kept, filePath_packKey _, ?_, reads.imp fun _ _ => repackBlob_readRange, ?_⟩
      · rw [built content isContent, packed]
      · rw [offsets]
        exact readRange_packBytes kept
    · rw [performed.deleted]
      constructor
      · intro deleteAfter
        obtain ⟨removed, gone⟩ := deletes deleteAfter
        exact ⟨removed, source, performed.located, gone⟩
      · rintro ⟨removed, -⟩
        rw [performed.removed] at removed
        simp only [Bool.and_eq_true] at removed
        exact removed.1.1

/-- `PlanSafe` in terms of what the operations did. -/
structure StepsSafe (blake2b : Bytes → BitVec 256) (stuck : Path → Bool) (state : ServerState)
    (steps : List PlanStep) : Prop where
  once : ((steps.filter PlanStep.deletes).map PlanStep.source).Nodup
  there : ∀ step ∈ steps, step.deletes = true →
    (state.objectAt step.source).isSome = true ∧ stuck step.source = false
  apart : ∀ builder ∈ steps, ∀ content ∈ builder.content, ∀ step ∈ steps, step.deletes = true →
    packPath (blake2b content) ≠ step.source

theorem Executed.safe_iff (executed : Executed blake2b stuck state steps final) :
    PlanSafe blake2b stuck state (steps.map PlanStep.operation) ↔
      StepsSafe blake2b stuck state steps := by
  have deleted (source : Path) : source ∈ deletions (steps.map PlanStep.operation) ↔
      ∃ step ∈ steps, step.deletes = true ∧ step.source = source := by
    rw [executed.deletions_eq]
    simp [and_assoc]
  have built (content : Bytes) :
      content ∈ newPacks blake2b state.objectAt (steps.map PlanStep.operation) ↔
        ∃ step ∈ steps, step.content = some content := by
    rw [executed.newPacks_eq fun _ _ _ holds => holds, List.mem_filterMap]
  constructor
  · intro safe
    refine ⟨executed.deletions_eq ▸ safe.once, fun step listed deletes => ?_, ?_⟩
    · exact safe.there _ ((deleted _).mpr ⟨step, listed, deletes, rfl⟩)
    · intro builder isBuilder content isContent step listed deletes same
      refine safe.apart content ((built content).mpr ⟨builder, isBuilder, isContent⟩) ?_
      exact (deleted _).mpr ⟨step, listed, deletes, same.symm⟩
  · intro safe
    refine ⟨executed.deletions_eq ▸ safe.once, fun source listed => ?_, ?_⟩
    · obtain ⟨step, isStep, deletes, rfl⟩ := (deleted source).mp listed
      exact safe.there step isStep deletes
    · intro content isBuilt isDeleted
      obtain ⟨builder, isBuilder, isContent⟩ := (built content).mp isBuilt
      obtain ⟨step, listed, deletes, same⟩ := (deleted _).mp isDeleted
      exact safe.apart builder isBuilder content isContent step listed deletes same.symm

theorem Executed.truthful (executed : Executed blake2b stuck state (front ++ step :: back) final)
    (safe : StepsSafe blake2b stuck state (front ++ step :: back))
    (distinct : ∀ builder ∈ front ++ step :: back, ∀ content ∈ builder.content,
      ∀ other ∈ front ++ step :: back, ∀ otherContent ∈ other.content,
      blake2b content = blake2b otherContent → content = otherContent) :
    step.run.Truthful final step.operation := by
  obtain ⟨before, after, first, plain, performed, later⟩ := executed.split
  have isStep : step ∈ front ++ step :: back := by simp
  have inFront {other : PlanStep} (listed : other ∈ front) : other ∈ front ++ step :: back :=
    List.mem_append_left _ listed
  have inBack {other : PlanStep} (listed : other ∈ back) : other ∈ front ++ step :: back :=
    List.mem_append_right _ (List.mem_cons_of_mem _ listed)
  refine performed.truthful_iff.mpr ⟨fun content built => ?_, fun deletes => ?_⟩
  · have notDeleted (other : PlanStep) (listed : other ∈ front ++ step :: back)
        (deletes : other.deletes = true) : other.source ≠ packPath (blake2b content) :=
      (safe.apart step isStep content built other listed deletes).symm
    refine later.keeps (not_isTemporary_packPath _) ?_ ?_ ?_
    · rw [performed.effect _ (not_isTemporary_packPath _), if_neg,
        OperationRun.placed_of_some built, if_pos rfl]
      intro removes
      simp only [Bool.and_eq_true, decide_eq_true_eq] at removes
      exact notDeleted step isStep removes.1.1 removes.2.symm
    · intro other listed otherContent isContent samePath
      have sameDigest := packPath_injective samePath
      exact (distinct step isStep content built other (inBack listed) otherContent isContent
        sameDigest).symm
    · exact fun other listed => notDeleted other (inBack listed)
  · have notBuilt (other : PlanStep) (listed : other ∈ front ++ step :: back) (content : Bytes)
        (built : content ∈ other.content) : packPath (blake2b content) ≠ step.source :=
      safe.apart other listed content built step isStep deletes
    obtain ⟨present, removable⟩ := safe.there step isStep deletes
    obtain ⟨bytes, stored⟩ := Option.isSome_iff_exists.mp present
    have stillThere : before.objectAt step.source = some bytes := by
      refine first.keeps plain stored ?_ ?_
      · intro other listed content built isTarget
        exact absurd isTarget.symm (notBuilt other (inFront listed) content built)
      · intro other listed otherDeletes sameSource
        have once := safe.once
        have removes : step.deletes = true := deletes
        rw [List.filter_append, List.filter_cons_of_pos removes, List.map_append, List.map_cons,
          List.nodup_append] at once
        refine once.2.2 other.source ?_ step.source List.mem_cons_self sameSource
        exact List.mem_map_of_mem (List.mem_filter.mpr ⟨listed, otherDeletes⟩)
    have here : (step.run.placed blake2b step.source (before.objectAt step.source)).isSome =
      true := by
      cases built : step.run.content with
      | none => rw [OperationRun.placed_of_none built, stillThere, Option.isSome_some]
      | some content =>
        rw [OperationRun.placed_of_some built]
        split
        · rfl
        · rw [stillThere, Option.isSome_some]
    refine ⟨?_, later.stays_absent plain ?_ fun other listed => notBuilt other (inBack listed)⟩
    · rw [performed.removed, removable, here]
      simpa using deletes
    · rw [performed.effect _ plain, if_pos]
      simpa [removable] using deletes

/-- A pack that is there when its removal comes was there from the start, unless it was built. -/
theorem Executed.was_there (executed : Executed blake2b stuck state front final)
    (plain : isTemporary path = false) (present : (final.objectAt path).isSome = true)
    (notBuilt : ∀ step ∈ front, ∀ content ∈ step.content, packPath (blake2b content) ≠ path) :
    (state.objectAt path).isSome = true := by
  cases stored : state.objectAt path with
  | some bytes => rfl
  | none =>
    rw [executed.stays_absent plain stored notBuilt] at present
    cases present

theorem Performed.found {before after : ServerState}
    (performed : Performed blake2b stuck before after step.operation step.source step.run)
    (removed : step.run.removed = true)
    (apart : ∀ content ∈ step.content, packPath (blake2b content) ≠ step.source) :
    (before.objectAt step.source).isSome = true ∧ stuck step.source = false ∧
      (isTemporary step.source = false → after.objectAt step.source = none) := by
  rw [performed.removed] at removed
  simp only [Bool.and_eq_true, Bool.not_eq_true'] at removed
  refine ⟨?_, removed.1.2, fun plain => ?_⟩
  · cases built : step.run.content with
    | none => rw [← removed.2, OperationRun.placed_of_none built]
    | some content =>
      rw [← removed.2, OperationRun.placed_of_some built, if_neg (apart content built).symm]
  · rw [performed.effect _ plain, if_pos]
    simp [removed.1.2, removed.1.1]

theorem Executed.safe_of_truthful (executed : Executed blake2b stuck state steps final)
    (truthful : ∀ step ∈ steps, step.run.Truthful final step.operation) :
    StepsSafe blake2b stuck state steps := by
  have apart : ∀ builder ∈ steps, ∀ content ∈ builder.content, ∀ step ∈ steps,
      step.deletes = true → packPath (blake2b content) ≠ step.source := by
    intro builder isBuilder content built step listed deletes same
    obtain ⟨front, back, split⟩ := List.append_of_mem isBuilder
    obtain ⟨_, _, -, -, builds, -⟩ := (split ▸ executed).split
    obtain ⟨otherFront, otherBack, otherSplit⟩ := List.append_of_mem listed
    obtain ⟨_, _, -, -, removes, -⟩ := (otherSplit ▸ executed).split
    have there := (builds.truthful_iff.mp (truthful builder isBuilder)).1 content built
    have gone := ((removes.truthful_iff.mp (truthful step listed)).2 deletes).2
    rw [← same, there] at gone
    cases gone
  have found {step : PlanStep} (listed : step ∈ steps) (deletes : step.deletes = true)
      {before after : ServerState}
      (performed : Performed blake2b stuck before after step.operation step.source step.run) :=
    performed.found ((performed.truthful_iff.mp (truthful step listed)).2 deletes).1
      fun content built => apart step listed content built step listed deletes
  refine ⟨?_, fun step listed deletes => ?_, apart⟩
  · by_contra duplicated
    obtain ⟨source, twice⟩ := List.exists_duplicate_iff_not_nodup.mpr duplicated
    obtain ⟨pair, isSublist, sources⟩ :=
      List.sublist_map_iff.mp (List.duplicate_iff_sublist.mp twice)
    obtain ⟨first, second, rfl⟩ : ∃ first second, pair = [first, second] := by
      rcases pair with _ | ⟨first, _ | ⟨second, _ | ⟨third, rest⟩⟩⟩ <;> simp at sources
      exact ⟨first, second, rfl⟩
    have deletes : ∀ step ∈ [first, second], step.deletes = true := fun step listed =>
      (List.mem_filter.mp (isSublist.subset listed)).2
    obtain ⟨early, late, isAppend, inEarly, inLate⟩ :=
      List.cons_sublist_iff.mp (isSublist.trans List.filter_sublist)
    obtain ⟨front, middle, splitEarly⟩ := List.append_of_mem inEarly
    obtain ⟨between, back, splitLate⟩ := List.append_of_mem (List.singleton_sublist.mp inLate)
    have isSplit : steps = front ++ first :: ((middle ++ between) ++ second :: back) := by
      rw [isAppend, splitEarly, splitLate]
      simp
    have isFirst : first ∈ steps := isSplit ▸ by simp
    have isSecond : second ∈ steps := isSplit ▸ by simp
    obtain ⟨_, after, -, plain, removes, later⟩ := (isSplit ▸ executed).split
    obtain ⟨before, _, meanwhile, -, removesAgain, -⟩ := later.split
    obtain ⟨-, -, gone⟩ := found isFirst (deletes first (by simp)) removes
    obtain ⟨present, -, -⟩ := found isSecond (deletes second (by simp)) removesAgain
    have sameSource : first.source = second.source := by
      simp only [List.map_cons, List.map_nil, List.cons.injEq, and_true] at sources
      exact sources.1.symm.trans sources.2
    have back :=
      meanwhile.was_there plain (sameSource ▸ present) fun other listed content built => by
      refine apart other ?_ content built first isFirst (deletes first (by simp))
      rw [isSplit]
      exact List.mem_append_right _ (List.mem_cons_of_mem _ (List.mem_append_left _ listed))
    rw [gone plain] at back
    cases back
  · obtain ⟨front, back, isSplit⟩ := List.append_of_mem listed
    obtain ⟨before, after, first, plain, performed, -⟩ := (isSplit ▸ executed).split
    obtain ⟨present, removable, -⟩ := found listed deletes performed
    refine ⟨first.was_there plain present fun other inFront content built => ?_, removable⟩
    refine apart other ?_ content built step listed deletes
    rw [isSplit]
    exact List.mem_append_left _ inFront

end Plans

/-- A successful repack reports the truth exactly when its plan removes no pack twice, builds no
pack that it removes, and every pack to remove is there and can be removed. -/
theorem repack_response_truthful_iff {blake2b : Bytes → BitVec 256} {config : Config}
    {stuck : Path → Bool} {state final : ServerState} {plan : RepackPlan}
    {runs : List OperationRun} (valid : validateRepackPlan plan = .ok ())
    (executed : executeRepack blake2b config stuck state plan.operations = (final, .ok runs))
    (distinct : ∀ content ∈ newPacks blake2b state.objectAt plan.operations,
      ∀ other ∈ newPacks blake2b state.objectAt plan.operations,
      blake2b content = blake2b other → content = other) :
    List.Forall₂ (fun operation (run : OperationRun) => run.Truthful final operation)
        plan.operations runs ↔
      PlanSafe blake2b stuck state plan.operations := by
  obtain ⟨steps, isPlan, rfl, isExecuted⟩ :=
    executeRepack_executed (validateRepackPlan_valid valid) executed
  rw [← isPlan] at distinct ⊢
  rw [isExecuted.safe_iff, List.forall₂_map_left_iff, List.forall₂_map_right_iff, List.forall₂_same]
  constructor
  · exact isExecuted.safe_of_truthful
  · intro safe step listed
    obtain ⟨front, back, rfl⟩ := List.append_of_mem listed
    refine isExecuted.truthful safe fun builder isBuilder content built other isOther otherContent
      otherBuilt => distinct content ?_ otherContent ?_
    · rw [isExecuted.newPacks_eq fun _ _ _ holds => holds]
      exact List.mem_filterMap.mpr ⟨builder, isBuilder, built⟩
    · rw [isExecuted.newPacks_eq fun _ _ _ holds => holds]
      exact List.mem_filterMap.mpr ⟨other, isOther, otherBuilt⟩

/-- A plan that keeps every blob of its only pack, and keeps the pack. -/
theorem repack_response_truthful_keepAll :
    ∃ final runs, executeRepack (fun _ => 0#256) ⟨false, 4096⟩ (fun _ => false)
        (packServer 0#256) (keepAllPlan 0#256 false).operations = (final, .ok runs) ∧
      List.Forall₂ (fun operation (run : OperationRun) => run.Truthful final operation)
        (keepAllPlan 0#256 false).operations runs := by
  have succeeds : (executeRepack (fun _ => 0#256) ⟨false, 4096⟩ (fun _ => false)
      (packServer 0#256) (keepAllPlan 0#256 false).operations).2.isOk = true := by decide +kernel
  have single : newPacks (fun _ => 0#256) (packServer 0#256).objectAt
      (keepAllPlan 0#256 false).operations = [samplePack] := by decide +kernel
  have nothing : deletions (keepAllPlan 0#256 false).operations = [] := rfl
  have safe : PlanSafe (fun _ => 0#256) (fun _ => false) (packServer 0#256)
      (keepAllPlan 0#256 false).operations := by
    refine ⟨?_, ?_, ?_⟩ <;> simp [nothing]
  cases executed : executeRepack (fun _ => 0#256) ⟨false, 4096⟩ (fun _ => false) (packServer 0#256)
    (keepAllPlan 0#256 false).operations with
  | mk final result =>
    rw [executed] at succeeds
    cases result with
    | error error => cases succeeds
    | ok runs =>
      refine ⟨final, runs, rfl, (repack_response_truthful_iff (by decide +kernel) executed
        ?_).mpr safe⟩
      simp [single]

/-- A repack that keeps every blob and removes its source builds the same pack again and then
removes it: the pack that it reports is gone. -/
theorem identical_pack_removed_little_endian :
    validateRepackPlan (keepAllPlan (littleEndianHash samplePack) true) = .ok () ∧
    ∃ final run, executeRepack littleEndianHash ⟨true, 4096⟩ (fun _ => false)
        (packServer (littleEndianHash samplePack))
        (keepAllPlan (littleEndianHash samplePack) true).operations = (final, .ok [run]) ∧
      run.result.newPack = some (packKey (littleEndianHash samplePack)) ∧
      final.objectAt (packPath (littleEndianHash samplePack)) = none ∧
      ¬ run.Truthful final (keepAll (littleEndianHash samplePack) true) := by
  let digest := littleEndianHash samplePack
  let executed := executeRepack littleEndianHash ⟨true, 4096⟩ (fun _ => false) (packServer digest)
    (keepAllPlan digest true).operations
  have observed : executed.2.toOption.map (List.map fun run => run.result.newPack) =
      some [some (packKey digest)] ∧ executed.1.objectAt (packPath digest) = none := by
    decide +kernel
  refine ⟨by decide +kernel, ?_⟩
  cases isExecuted : executed with
  | mk final result =>
    rw [isExecuted] at observed
    obtain ⟨reported, gone⟩ := observed
    cases result with
    | error error => cases reported
    | ok runs =>
      obtain ⟨run, rfl, isNew⟩ := List.map_eq_singleton_iff.mp (Option.some.inj reported)
      refine ⟨final, run, isExecuted, isNew, gone, fun truthful => ?_⟩
      obtain ⟨path, kept, isPath, holds, -⟩ := truthful.newPack _ isNew
      rw [filePath_packKey] at isPath
      cases isPath
      cases gone.symm.trans holds

end Vykar.Server

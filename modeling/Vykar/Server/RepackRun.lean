import Vykar.Server.Alone
import Vykar.Server.Steps

/-!
A repack request from beginning to end (`execute_repack`).

`executeRepack` follows the operations of a plan while no other request is in
flight, and records for each of them which pack it read and whether its removal
took a pack away.  `executeRepack_calls` says that it is what the calls of the
request do one after another.  `stuck` are the packs that the file system refuses
to remove.
-/

namespace Vykar.Server

open Vykar.Pack

structure OperationRun where
  result : RepackResult
  /-- The bytes of the source pack. -/
  source : Bytes
  /-- The bytes of the new pack. -/
  content : Option Bytes
  /-- The source pack was there and was removed. -/
  removed : Bool

section Execution

variable (blake2b : Bytes → BitVec 256) (config : Config) (stuck : Path → Bool)

/-- The end of an operation with `delete_after`. -/
def removeSource (state : ServerState) (source : Path) : ServerState :=
  (if stuck source then state else state.discard source).subQuotaUsage
    ((metadata config state.files source).getD 0)

/-- The removal of an operation takes its source pack away. -/
def removes (state : ServerState) (operation : RepackOperation) (source : Path) : Bool :=
  operation.deleteAfter && !stuck source && (state.files.fileAt source).isSome

def finishOperation (state : ServerState) (operation : RepackOperation) (source : Path) :
    ServerState :=
  if operation.deleteAfter then removeSource config stuck state source else state

/-- The new pack in its temporary file is moved into place; the temporary file is removed when
that fails. -/
def publishPack (state : ServerState) (temp target : Path) (size : Nat) :
    ServerState × Except ServerError Unit :=
  match state.files.createDirAll target.dropLast with
  | none => (state.discard temp, .error .io)
  | some dirs =>
    match dirs.rename temp target with
    | none => ({ state with files := dirs }.discard temp, .error .io)
    | some files => ({ state with files }.addQuotaUsage size, .ok ())

def buildPack (state : ServerState) (operation : RepackOperation) (source : Path) (bytes : Bytes) :
    ServerState × Except ServerError (Bytes × List Nat) :=
  let counted := { state with repackCounter := nextId state.repackCounter }
  let temp := withFileName source (repackTempName state.repackCounter)
  match repackContent bytes operation.keepBlobs with
  | .error message =>
    match counted.create temp [] with
    | none => (counted, .error .io)
    | some (created, _) => (created.discard temp, .error (.internal message))
  | .ok (content, offsets) =>
    match counted.create temp content with
    | none => (counted, .error .io)
    | some (created, _) =>
      match publishPack created temp (packPath (blake2b content)) content.length with
      | (next, .error error) => (next, .error error)
      | (next, .ok ()) => (next, .ok (content, offsets))

/-- One turn of the loop of `execute_repack`. -/
def performOperation (state : ServerState) (operation : RepackOperation) :
    ServerState × Except ServerError OperationRun :=
  match filePath operation.sourcePack with
  | none => (state, .error (.internal "invalid pack path"))
  | some source =>
    if operation.keepBlobs.isEmpty then
      (finishOperation config stuck state operation source,
        .ok ⟨⟨operation.sourcePack, none, [], operation.deleteAfter⟩, [], none,
          removes stuck state operation source⟩)
    else
      match state.files.fileAt source with
      | none => (state, .error .io)
      | some file =>
        match buildPack blake2b state operation source file.bytes with
        | (next, .error error) => (next, .error error)
        | (next, .ok (content, offsets)) =>
          (finishOperation config stuck next operation source,
            .ok ⟨⟨operation.sourcePack, some (packKey (blake2b content)), offsets,
              operation.deleteAfter⟩, file.bytes, some content,
              removes stuck next operation source⟩)

def executeRepack (state : ServerState) : List RepackOperation →
    ServerState × Except ServerError (List OperationRun)
  | [] => (state, .ok [])
  | operation :: rest =>
    match performOperation blake2b config stuck state operation with
    | (next, .error error) => (next, .error error)
    | (next, .ok run) =>
      match executeRepack next rest with
      | (final, .error error) => (final, .error error)
      | (final, .ok runs) => (final, .ok (run :: runs))

end Execution

section Calls

variable {blake2b : Bytes → BitVec 256} {config : Config} {stuck : Path → Bool}
  {state next : ServerState} {job : RepackJob} {operation : RepackOperation} {source : Path}
  {rest operations : List RepackOperation} {completed : List RepackResult}
  {result : Except ServerError (Bytes × List Nat)}

theorem Calls.advance {phase : Phase} {after : ServerState × Outcome}
    (acted : advancePhase blake2b config state phase = some after) :
    Calls blake2b config (state, .running phase) after :=
  .single (.turn .advance acted)

def answer (rest : List RepackOperation) (completed : List RepackResult) :
    Except ServerError OperationRun → Outcome
  | .error error => failed error
  | .ok run => .running (.repacking rest (completed ++ [run.result]))

theorem repackDelete_calls (stuck : Path → Bool) :
    Calls blake2b config (state, .running (.repackDelete job))
      (removeSource config stuck state job.source,
        .running (.repacking job.rest (job.completed ++ [job.result blake2b]))) := by
  unfold removeSource
  cases stuck job.source with
  | true => exact .single (.turn .fail rfl)
  | false => exact .advance rfl

theorem repackParent_calls (stuck : Path → Bool) {result : Except ServerError Unit}
    (published : publishPack state job.temp (packPath (blake2b job.content)) job.content.length =
      (next, result)) :
    Calls blake2b config (state, .running (.repackParent job))
      (match (motive := Except ServerError Unit → ServerState × Outcome) result with
      | .error error => (next, failed error)
      | .ok () => (finishOperation config stuck next job.operation job.source,
          .running (.repacking job.rest (job.completed ++ [job.result blake2b])))) := by
  unfold publishPack at published
  split at published
  · rename_i noDirs
    cases published
    refine .advance ?_
    simp only [advancePhase, createDirs, noDirs]
  · rename_i dirs made
    have opened : Calls blake2b config (state, .running (.repackParent job))
        ({ state with files := dirs }, .running (.repackRename job)) := by
      refine .advance ?_
      simp only [advancePhase, createDirs, made]
    refine opened.trans ?_
    split at published
    · rename_i notRenamed
      cases published
      refine Calls.advance ?_
      simp only [advancePhase, repackPublish, notRenamed]
    · rename_i files renamed
      cases published
      have moved : advancePhase blake2b config { state with files := dirs } (.repackRename job) =
          some (repackPublish blake2b { state with files := dirs } job) := rfl
      refine (Calls.advance moved).trans ?_
      simp only [repackPublish, renamed, finishOperation]
      cases job.operation.deleteAfter with
      | false => exact .refl
      | true => exact repackDelete_calls stuck

theorem emptyOperation_calls (stuck : Path → Bool)
    (located : filePath operation.sourcePack = some source)
    (empty : operation.keepBlobs.isEmpty = true) :
    Calls blake2b config (state, .running (.repacking (operation :: rest) completed))
      (finishOperation config stuck state operation source, .running (.repacking rest
        (completed ++ [⟨operation.sourcePack, none, [], operation.deleteAfter⟩]))) := by
  unfold finishOperation removeSource
  cases deletes : operation.deleteAfter with
  | false =>
    refine .advance ?_
    simp only [advancePhase, repackNext, located, empty, deletes, if_true, Bool.false_eq_true,
      if_false]
  | true =>
    cases stuck source with
    | true =>
      refine .single (.turn .fail ?_)
      simp only [act, Phase.settles, failPhase, located, empty, deletes, Bool.and_self, if_true,
        Bool.false_eq_true, if_false]
    | false =>
      refine .advance ?_
      simp only [advancePhase, repackNext, located, empty, deletes, if_true, Bool.false_eq_true,
        if_false]

theorem buildPack_calls (stuck : Path → Bool) {file : StoredFile}
    (located : filePath operation.sourcePack = some source)
    (keeps : ¬ operation.keepBlobs.isEmpty = true) (found : state.files.fileAt source = some file)
    (built : buildPack blake2b state operation source file.bytes = (next, result)) :
    Calls blake2b config (state, .running (.repacking (operation :: rest) completed))
      (match (motive := Except ServerError (Bytes × List Nat) → ServerState × Outcome) result with
      | .error error => (next, failed error)
      | .ok (content, offsets) => (finishOperation config stuck next operation source,
          .running (.repacking rest (completed ++ [⟨operation.sourcePack,
            some (packKey (blake2b content)), offsets, operation.deleteAfter⟩])))) := by
  have starts : advancePhase blake2b config state (.repacking (operation :: rest) completed) =
      some (repackNext config state operation rest completed) := rfl
  refine (Calls.advance starts).trans ?_
  unfold buildPack at built
  simp only [repackNext, located, keeps, found, if_false, Bool.false_eq_true] at built ⊢
  cases packed : repackContent file.bytes operation.keepBlobs with
  | error message =>
    simp only [packed] at built ⊢
    generalize ServerState.create _ _ _ = attempt at built ⊢
    cases attempt <;> (cases built; exact .refl)
  | ok content =>
    obtain ⟨content, offsets⟩ := content
    simp only [packed] at built ⊢
    generalize ServerState.create _ _ _ = attempt at built ⊢
    cases attempt with
    | none =>
      cases built
      exact .refl
    | some created =>
      obtain ⟨created, inode⟩ := created
      dsimp only at built
      let job : RepackJob :=
        ⟨operation, source, state.repackCounter, content, offsets, rest, completed⟩
      have publishes {next : ServerState} {result : Except ServerError Unit}
          (published : publishPack created job.temp (packPath (blake2b job.content))
            job.content.length = (next, result)) :=
        @repackParent_calls blake2b config created next job stuck result published
      split at built
      · rename_i refused
        cases built
        exact publishes refused
      · rename_i published
        cases built
        exact publishes published

theorem performOperation_calls {result : Except ServerError OperationRun}
    (performed : performOperation blake2b config stuck state operation = (next, result)) :
    Calls blake2b config (state, .running (.repacking (operation :: rest) completed))
      (next, answer rest completed result) := by
  unfold performOperation at performed
  split at performed
  · rename_i unlocated
    cases performed
    refine .advance ?_
    simp only [advancePhase, repackNext, unlocated]
    rfl
  · rename_i source located
    split at performed
    · rename_i empty
      cases performed
      exact emptyOperation_calls stuck located empty
    · rename_i keeps
      split at performed
      · rename_i absent
        cases performed
        refine .advance ?_
        simp only [advancePhase, repackNext, located, keeps, absent, if_false, Bool.false_eq_true]
        rfl
      · rename_i file found
        split at performed
        · rename_i built
          cases performed
          exact buildPack_calls stuck located keeps found built
        · rename_i built
          cases performed
          exact buildPack_calls stuck located keeps found built

def planAnswer (completed : List RepackResult) : Except ServerError (List OperationRun) → Outcome
  | .error error => failed error
  | .ok runs => .finished (.repacked (completed ++ runs.map OperationRun.result))

/-- `executeRepack` is what the calls of the request do one after another. -/
theorem executeRepack_calls {result : Except ServerError (List OperationRun)}
    (executed : executeRepack blake2b config stuck state operations = (next, result)) :
    Calls blake2b config (state, .running (.repacking operations completed))
      (next, planAnswer completed result) := by
  induction operations generalizing state next completed result with
  | nil =>
    cases executed
    refine .advance ?_
    simp [advancePhase, planAnswer]
  | cons operation rest ih =>
    unfold executeRepack at executed
    split at executed
    · rename_i performed
      cases executed
      exact performOperation_calls performed
    · rename_i middle run performed
      refine (performOperation_calls performed).trans ?_
      split at executed
      · rename_i continued
        cases executed
        exact ih continued
      · rename_i runs continued
        cases executed
        have sameAnswer : planAnswer completed (.ok (run :: runs)) =
            planAnswer (completed ++ [run.result]) (.ok runs) := by
          simp [planAnswer]
        rw [sameAnswer]
        exact ih continued

end Calls

section Sample

def samplePack : Bytes := packBytes [[7]]

def packServer (digest : BitVec 256) : ServerState where
  files := ((Dict.set ∅ ["packs".toList] .dir).set
    ["packs".toList, (hexEncode digest).take 2] .dir).set (packPath digest) (.file ⟨0, samplePack⟩)
  nextInode := 1
  tempCounter := 0
  repackCounter := 0
  quotaUsed := samplePack.length
  quotaLimit := 0
  requests _ := none

def keepAll (digest : BitVec 256) (deleteAfter : Bool) : RepackOperation :=
  ⟨packKey digest, [⟨13, 1⟩], deleteAfter⟩

def keepAllPlan (digest : BitVec 256) (deleteAfter : Bool) : RepackPlan :=
  ⟨[keepAll digest deleteAfter], 1⟩

end Sample

end Vykar.Server

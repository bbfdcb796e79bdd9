import Vykar.Backup.Segments
import Vykar.Lib.PipelineProgress

/-!
The parallel pipeline of a backup (`commands/backup/pipeline.rs`).

What the workers read and what the consumer commits to the repository are parameters.  The panic
of a worker unwinds its thread only, as in a build that does not abort on panics.
-/

namespace Vykar.Backup

open OrderedPipeline

variable {Item Chunk Fault Failure Acc : Type}

/-- An item stands for the item with its path, its metadata and its cached chunks. -/
inductive WalkEntry (Item : Type) where
  | file (item : Item) (fileSize : Nat)
  | fileSegment (segment : FileSegment Item)
  | cacheHit (item : Item)
  | nonFile (item : Item)
  | skipped
  | sourceStarted (path : PathText)
  | sourceFinished (path : PathText)

def reserveBudget : WalkEntry Item → Option Nat
  | .file _ fileSize => some fileSize
  | .fileSegment segment => some segment.len
  | _ => none

inductive ProcessedEntry (Item Chunk : Type) where
  | processedFile (item : Item) (chunks : List Chunk)
  | fileSegment (segment : FileSegment Item) (chunks : List Chunk)
  | skipped
  | segmentSkipped (numSegments : Nat)
  /-- Cache hits, items without content and marks of a source go through as they are. -/
  | passed (entry : WalkEntry Item)

structure PipelineWork (Item Chunk Fault Failure Acc : Type) where
  isSoftFileError : Failure → Bool
  readChunks : WalkEntry Item → Fault → Except Failure (List Chunk)
  consumeProcessedEntry : Acc → ProcessedEntry Item Chunk → Except Failure Acc
  /-- The error for a segmented file that is not complete. -/
  incomplete : Acc → Option Failure
  interrupted : Failure

variable (work : PipelineWork Item Chunk Fault Failure Acc)

def processFileWorkerInner (entry : WalkEntry Item) (fault : Fault) :
    Except Failure (ProcessedEntry Item Chunk) :=
  match entry with
  | .file item _ => (work.readChunks entry fault).map (.processedFile item)
  | .fileSegment segment => (work.readChunks entry fault).map (.fileSegment segment)
  | .skipped => .ok .skipped
  | _ => .ok (.passed entry)

def processFileWorker (entry : WalkEntry Item) (fault : Fault) :
    Except Failure (ProcessedEntry Item Chunk) :=
  match processFileWorkerInner work entry fault with
  | .ok processed => .ok processed
  | .error failure =>
    if work.isSoftFileError failure then
      match entry with
      | .file .. => .ok .skipped
      | .fileSegment segment =>
        if segment.segmentIndex = 0 then .ok (.segmentSkipped segment.numSegments)
        else .error failure
      | _ => .error failure
    else .error failure

/-- The budget goes with the answer: its guard has been defused. -/
def keepsBudget : Except Failure (ProcessedEntry Item Chunk) → Bool
  | .ok (.processedFile ..) | .ok (.fileSegment ..) => true
  | _ => false

structure Consumed (Acc : Type) where
  errors : Nat
  segmentsToSkip : Nat
  acc : Acc

def consumeResult (consumed : Consumed Acc) (result : Except Failure (ProcessedEntry Item Chunk)) :
    Except Failure (Consumed Acc × Bool) :=
  let counted := { consumed with errors := consumed.errors + 1 }
  if 0 < consumed.segmentsToSkip then
    let skipped := { consumed with segmentsToSkip := consumed.segmentsToSkip - 1 }
    match result with
    | .ok (.fileSegment ..) => .ok (skipped, true)
    | _ => .ok (skipped, false)
  else
    match result with
    | .ok .skipped => .ok (counted, false)
    | .ok (.segmentSkipped numSegments) =>
      .ok ({ counted with segmentsToSkip := numSegments - 1 }, false)
    | .ok entry =>
      (work.consumeProcessedEntry consumed.acc entry).map fun acc =>
        ({ consumed with acc }, keepsBudget result)
    | .error failure =>
      if work.isSoftFileError failure && (work.incomplete consumed.acc).isNone then
        .ok (counted, false)
      else .error failure

def parallelPipeline (numWorkers readaheadDepth pipelineBufferBytes : Nat) :
    OrderedPipeline (WalkEntry Item) Fault (Except Failure (ProcessedEntry Item Chunk)) Failure
      (Consumed Acc) where
  capacity := pipelineBufferBytes
  workSlots := numWorkers * 2
  resultSlots := numWorkers + readaheadDepth
  workers := numWorkers
  cost := reserveBudget
  work entry fault :=
    (processFileWorker work entry fault, keepsBudget (processFileWorker work entry fault))
  consume := consumeResult work
  walkFailed consumed failure :=
    if work.isSoftFileError failure then .ok { consumed with errors := consumed.errors + 1 }
    else .error failure
  incomplete consumed := work.incomplete consumed.acc
  interrupted := work.interrupted

/-- Whatever fails, panics or asks for shutdown, the threads make a bounded number of steps.  They
wait without end only for the byte budget, and only if it is below the sum of all sizes. -/
theorem pipeline_blocks_on_budget_only (numWorkers readaheadDepth pipelineBufferBytes : Nat)
    (entries : List (Except Failure (WalkEntry Item))) (consumed : Consumed Acc)
    (events : List (Event Fault)) :
    let pipeline := parallelPipeline work numWorkers readaheadDepth pipelineBufferBytes
    ∀ final, (pipeline.system entries consumed).run
        (pipeline.start entries consumed) events = some final →
      events.countP Event.isThread ≤ 10 * entries.length + numWorkers + 4 ∧
        (Blocked pipeline final → final.isFinished = true ∨ Starved pipeline final ∧
          pipelineBufferBytes < pipeline.demand entries) := by
  intro pipeline final executed
  obtain ⟨bounded, enough⟩ := run_spec executed
  refine ⟨?_, fun blocked => (finished_or_starved blocked).imp_right fun starved =>
    ⟨starved, not_le.mp fun fits => (enough (le_min fits fits)).not_starved starved⟩⟩
  have initially : (pipeline.start entries consumed).remaining =
    10 * entries.length + 2 + numWorkers + 2 := rfl
  omega

def readableFiles : PipelineWork Unit Unit Unit Unit Unit :=
  ⟨fun _ => false, fun _ _ => .ok [()], fun _ _ => .ok (), fun _ => none, ()⟩

def threeFiles : List (Except Unit (WalkEntry Unit)) := List.replicate 3 (.ok (.file () 1))

/-- The worker of the first of three files panics, and the answer to the second, which waits for
the first, keeps the budget that the third needs. -/
def starvingRun : List (Event Unit) :=
  [.walk, .walk, .walk, .receive, .panic 0, .walk, .walk, .walk, .receive, .work 1 (), .answer 1,
    .consume, .consume, .walk]

theorem pipeline_blocks_after_panic :
    let pipeline := parallelPipeline readableFiles 2 1 1
    ∃ final, (pipeline.system threeFiles ⟨0, 0, ()⟩).run (pipeline.start threeFiles ⟨0, 0, ()⟩)
        starvingRun = some final ∧
      final.isFinished = false ∧ Blocked pipeline final ∧ Starved pipeline final := by
  refine ⟨_, rfl, rfl, and_iff_left_of_imp (fun blocked => ?_) |>.mpr ?_⟩
  · have ends := pipeline_blocks_on_budget_only readableFiles 2 1 1 threeFiles ⟨0, 0, ()⟩
    exact ((ends starvingRun _ rfl).2 blocked).resolve_left (by decide) |>.1
  · rintro (event | index) thread <;> first | rfl | cases thread

end Vykar.Backup

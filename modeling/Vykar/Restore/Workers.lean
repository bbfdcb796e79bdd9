import Vykar.Restore.PlanSoundness

/-!
A whole restore (`restore_with_filter`, `execute_parallel_restore`).

The items are streamed and the files planned as in `Vykar.Restore.Model`; then the read groups
are built and shared out, and the threads write the files in any order of their steps.  At the end
the entries of the temporary directory are moved up.

A thread that fails ends the restore; the temporary directory is then removed.  What other threads
still do until they notice is left out, and so is that the groups are already built before the
files are prepared: both can be seen only in a restore that fails.
-/

namespace Vykar.Restore

open Index Pack Snapshot

structure RestoreInput where
  includePath : List Char → Bool
  destination : Destination
  items : List Item
  index : ChunkIndex
  packs : Dict PackId Bytes
  external : External
  /-- `restore_concurrency` -/
  threads : Nat
  /-- A configuration with no connections is refused. -/
  threads_pos : 0 < threads

/-- The files that are planned for the items, with their chunks. -/
def regularFiles (includePath : List Char → Bool) (items : List Item) :
    List (Path × List ChunkRef) :=
  items.filterMap fun item =>
    if includePath item.path ∧ item.entryType = .regularFile then
      (sanitizeItemPath item.path).toOption.map fun relPath => (relPath, item.chunks)
    else none

def RestoreInput.files (input : RestoreInput) : List (Path × List ChunkRef) :=
  regularFiles input.includePath input.items

/-- `LruHandles`: open files, the one used last at the end. -/
abbrev LruHandles := List (Nat × Path)

def LruHandles.get (handles : LruHandles) (fileIdx : Nat) : Option (Path × LruHandles) :=
  (handles.find? fun entry => entry.1 = fileIdx).map fun entry =>
    (entry.2, handles.eraseP (fun entry => entry.1 = fileIdx) ++ [entry])

def LruHandles.insert (handles : LruHandles) (fileIdx : Nat) (opened : Path) : LruHandles :=
  (if maxOpenFilesPerGroup ≤ handles.length then handles.drop 1 else handles) ++
    [(fileIdx, opened)]

/-- A file that `write_buf` has opened and not yet put among the handles. -/
inductive Opening where
  | opened (path : Path)
  /-- This thread was the first to open the file. -/
  | sizing (path : Path)

structure Worker where
  groups : List ReadGroup
  calls : List WriteCall
  handles : LruHandles
  opening : Option Opening

def Worker.finished (worker : Worker) : Bool :=
  worker.groups.isEmpty && worker.calls.isEmpty

structure RestoreRun where
  base : RestoreState
  contents : Path → Bytes
  created : List Nat
  groups : List ReadGroup
  workers : List Worker
  bytesWritten : Nat

inductive WorkerEvent where
  | start
  | openFile
  | swap
  | setLen
  | write

inductive RunEvent where
  | item
  | planned
  | prepare
  | startWriting (entries : List (ChunkId × ChunkTargets))
  | worker (position : Nat) (event : WorkerEvent)
  | finishWriting
  | move (name : Name)
  | error

namespace RestoreRun

def fail (run : RestoreRun) : RestoreRun := { run with base := run.base.fail }

def setWorker (run : RestoreRun) (position : Nat) (worker : Worker) : RestoreRun :=
  { run with workers := run.workers.set position worker }

/-- A step of a thread in `process_read_group` and `write_buf`. -/
def workerStep (input : RestoreInput) (run : RestoreRun) (position : Nat) (worker : Worker) :
    WorkerEvent → Option RestoreRun
  | .start =>
    match worker.calls, worker.opening, worker.groups with
    | [], none, group :: groups =>
      match groupWrites input.external input.packs group with
      | none => some run.fail
      | some calls => some (run.setWorker position ⟨groups, calls, [], none⟩)
    | _, _, _ => none
  | .openFile =>
    match worker.calls, worker.opening with
    | call :: _, none =>
      match worker.handles.get call.file, run.base.planned[call.file]? with
      | none, some file =>
        match run.base.openPlanned input.destination.root file.relPath with
        | none => some run.fail
        | some (tree, opened) =>
          some ({ run with
            base := run.base.afterCreating tree [opened]
            contents := if (run.base.tree.node opened).isSome then run.contents
              else Function.update run.contents opened [] }.setWorker position
                { worker with opening := some (.opened opened) })
      | _, _ => none
    | _, _ => none
  | .swap =>
    match worker.calls, worker.opening with
    | call :: _, some (.opened path) =>
      if call.file ∈ run.created then
        some (run.setWorker position { worker with
          handles := worker.handles.insert call.file path, opening := none })
      else
        some ({ run with created := call.file :: run.created }.setWorker position
          { worker with opening := some (.sizing path) })
    | _, _ => none
  | .setLen =>
    match worker.calls, worker.opening with
    | call :: _, some (.sizing path) =>
      let total := ((run.base.planned[call.file]?).map PlannedFile.totalSize).getD 0
      some ({ run with
        contents := Function.update run.contents path
          (setLength 0 total (run.contents path)) }.setWorker position
            { worker with
              handles := worker.handles.insert call.file path, opening := none })
    | _, _ => none
  | .write =>
    match worker.calls, worker.opening with
    | call :: calls, none =>
      match worker.handles.get call.file with
      | none => none
      | some (path, handles) =>
        some ({ run with
          contents := Function.update run.contents path
            (writeAt 0 call.offset call.data (run.contents path))
          bytesWritten := run.bytesWritten + call.data.length }.setWorker position
            { worker with calls, handles })
    | _, _ => none

/-- The file that `File::create` makes for the next planned file, if that is empty. -/
def createdPath (input : RestoreInput) (run : RestoreRun) : Option Path :=
  match run.base.phase with
  | .preparing (file :: _) =>
    if file.totalSize = 0 then
      let root := input.destination.root
      ((run.base.prepareParent root (root ++ file.relPath.dropLast)).1.openPlanned root
        file.relPath).map Prod.snd
    else none
  | _ => none

def moveContents (contents : Path → Bytes) (source target : Path) : Path → Bytes :=
  fun path =>
    if target <+: path then contents (source ++ path.drop target.length) else contents path

def startWriting (input : RestoreInput) (run : RestoreRun)
    (entries : List (ChunkId × ChunkTargets)) : RestoreRun :=
  match buildReadGroups input.index entries with
  | none => run.fail
  | some built =>
    let groups := sortGroups built
    let buckets := if groups = [] then []
      else partitionGroups groups (min input.threads groups.length)
    { run with
      base := { run.base with phase := .writing }
      groups
      workers := buckets.map fun bucket => ⟨bucket, [], [], none⟩ }

end RestoreRun

variable (input : RestoreInput)

def runStep (run : RestoreRun) : RunEvent → Option RestoreRun
  | .item =>
    (restoreStep input.includePath input.destination run.base .item).map fun base =>
      { run with base }
  | .planned =>
    (restoreStep input.includePath input.destination run.base .planned).map fun base =>
      { run with base }
  | .prepare =>
    (restoreStep input.includePath input.destination run.base .prepare).map fun base =>
      { run with
        base
        contents := match run.createdPath input with
          | some path => Function.update run.contents path []
          | none => run.contents }
  | .startWriting entries =>
    match run.base.phase, planTargets 0 ∅ (input.files.map Prod.snd) with
    | .preparing [], some chunkTargets =>
      -- the entries are those of the map, in any order
      if entries.isPerm chunkTargets.toList then some (run.startWriting input entries)
      else none
    | _, _ => none
  | .worker position event =>
    match run.base.phase, run.workers[position]? with
    | .writing, some worker => run.workerStep input position worker event
    | _, _ => none
  | .finishWriting =>
    match run.base.phase with
    | .writing =>
      if run.workers.all Worker.finished then
        some { run with base := { run.base with phase := .moving } }
      else none
    | _ => none
  | .move name =>
    (restoreStep input.includePath input.destination run.base (.move name)).map fun base =>
      { run with
        base
        contents := match base.phase with
          | .failed => run.contents
          | _ => RestoreRun.moveContents run.contents (input.destination.root ++ [name])
              (input.destination.dest ++ [name]) }
  | .error => some run.fail

/-- Restores of the items into an empty destination. -/
def runSystem : TransitionSystem RestoreRun RunEvent where
  initial run :=
    (restoreSystem input.includePath input.destination input.items).initial run.base ∧
    (∀ path, input.destination.dest <+: path → run.contents path = []) ∧
    run.created = [] ∧ run.groups = [] ∧ run.workers = [] ∧ run.bytesWritten = 0
  step := runStep input

/-- All entries have been moved, and the temporary directory could be removed. -/
def RestoreRun.Succeeded (run : RestoreRun) : Prop :=
  run.base.phase = .moving ∧
    ∀ name, run.base.tree.node (input.destination.root ++ [name]) = none

end Vykar.Restore

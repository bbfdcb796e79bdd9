import Vykar.Server.Guard

/-!
An append-only server keeps what is stored.

`put_object` looks for an object when the request arrives and replaces what is at
the path when the body is complete, so an object that another request stored in
between is lost; a repack operation does not look at all.  While no two requests for
one immutable key overlap and no repack builds a pack that is there, the path of an
upload in flight stays free, and every object keeps its bytes.
-/

namespace Vykar.Server

open Vykar.Pack

/-- The key of a request that replaces or deletes one object. -/
def Event.key? : Event → Option Text
  | .put _ request => some request.key
  | .delete _ key => some key
  | _ => none

/-- The immutable path of an upload that arrives, or of a pack that is moved into place. -/
def ServerState.writes? (blake2b : Bytes → BitVec 256) (state : ServerState) : Event → Option Path
  | .put _ put => (filePath put.key).filter fun path => !isMutablePath path
  | .advance id =>
    match state.phase? id with
    | some (.repackRename job) => some (packPath (blake2b job.content))
    | _ => none
  | _ => none

/-- No two requests write one immutable key at the same time, no repack builds a pack that is
there, and the keys that may be overwritten or deleted have mutable paths, which `locks/` and
`sessions/` without a name have not. -/
def appendOnlyGuard (blake2b : Bytes → BitVec 256) : Guard where
  event state event :=
    (event.key?.all fun key => !isMutable key || (filePath key).all isMutablePath) &&
      match event with
      | .advance _ => (state.writes? blake2b event).all fun path => (state.objectAt path).isNone
      | _ => true
  each state event phase := state.idsApart phase &&
    (state.writes? blake2b event).all fun path =>
      match phase.task? with
      | some (.upload upload) => upload.path ≠ path
      | _ => true

section Guarded

variable {blake2b : Bytes → BitVec 256} {state : ServerState} {event : Event} {path : Path}
  {key : Text} (permits : (appendOnlyGuard blake2b).Permits state event)

include permits

theorem appendOnlyGuard_ids : state.TempIdsFresh :=
  .of_apart fun id phase running => (Bool.and_eq_true_iff.mp (permits.onEach id phase running)).1

theorem appendOnlyGuard_apart {id : Nat} {upload : Upload}
    (pursues : state.Pursues id (.upload upload))
    (writes : state.writes? blake2b event = some path) :
    upload.path ≠ path := by
  obtain ⟨phase, running, isTask⟩ := pursues
  have apart := (Bool.and_eq_true_iff.mp (permits.onEach id phase running)).2
  simpa [writes, isTask] using apart

theorem appendOnlyGuard_mutable (isKey : event.key? = some key) (located : filePath key = some path)
    (mutable : isMutable key = true) : isMutablePath path = true := by
  have named := (Bool.and_eq_true_iff.mp permits.onEvent).1
  simpa [isKey, located, mutable] using named

end Guarded

/-- The path of an upload to an immutable key is free and belongs to that upload, and only mutable
objects are about to be deleted. -/
structure ServerState.Reserved (state : ServerState) : Prop where
  free : ∀ id upload, state.Pursues id (.upload upload) → isImmutablePath upload.path = true →
    state.objectAt upload.path = none
  apart : ∀ id other upload otherUpload, state.Pursues id (.upload upload) →
    state.Pursues other (.upload otherUpload) → isImmutablePath upload.path = true →
    upload.path = otherUpload.path → id = other
  removals : ∀ id path, state.Pursues id (.removal path) → isMutablePath path = true

section Step

variable {blake2b : Bytes → BitVec 256} {config : Config} {state next : ServerState}
  {path : Path} {bytes : Bytes} {event : Event} {id : Nat}

section

variable (immutable : isImmutablePath path = true)

include immutable

theorem isImmutablePath_parts :
    isValidParts path = true ∧ isMutablePath path = false ∧ isTempFile path = false := by
  simpa [isImmutablePath, and_assoc] using immutable

theorem temp_ne_immutable (stream : Stream) :
    path ≠ stream.temp := by
  rintro rfl
  have notTemp := (isImmutablePath_parts immutable).2.2
  rw [Stream.temp, isTempFile_tempName] at notTemp
  cases notTemp

theorem invalid_ne_immutable {other : Path} (invalid : isValidParts other = false) :
    path ≠ other := by
  rintro rfl
  rw [(isImmutablePath_parts immutable).1] at invalid
  cases invalid

theorem mutable_ne_immutable {other : Path} (mutable : isMutablePath other = true) :
    path ≠ other := by
  rintro rfl
  cases mutable.symm.trans (isImmutablePath_parts immutable).2.1

variable (appendOnly : config.appendOnly = true) (reserved : state.Reserved)

include appendOnly reserved

/-- In append-only mode only temporary files and what `delete_object` may delete are removed. -/
theorem Phase.Removes.spared {phase : Phase} {gone : Path} (removes : phase.Removes gone)
    (running : state.requests id = some (.running phase)) (wellFormed : phase.WellFormed config) :
    path ≠ gone := by
  cases phase with
  | receiving stream => exact removes ▸ temp_ne_immutable immutable stream
  | removing target oldSize rest =>
    cases rest with
    | none =>
      have mutable := reserved.removals id target ⟨_, running, rfl⟩
      exact removes ▸ mutable_ne_immutable immutable mutable
    | some rest => exact nomatch (wellFormed rfl).symm.trans appendOnly
  | repacking operations completed =>
    cases operations with
    | nil => exact removes.elim
    | cons operation rest =>
      obtain ⟨source, located, deleted | ⟨id, isTemp⟩⟩ := removes
      · have kept := (wellFormed operation List.mem_cons_self).keeps appendOnly
        exact nomatch deleted.1.symm.trans kept
      · obtain ⟨shard, pack, isPack⟩ :=
          isValidPackKey_path (wellFormed operation List.mem_cons_self).valid located
        apply invalid_ne_immutable immutable
        rw [isTemp, isPack]
        exact not_isValidParts_dotted shard _
  | repackParent job => exact removes ▸ invalid_ne_immutable immutable wellFormed.temp_invalid
  | repackRename job => exact removes ▸ invalid_ne_immutable immutable wellFormed.temp_invalid
  | repackDelete job =>
    exact nomatch wellFormed.2.symm.trans (wellFormed.1.operation.keeps appendOnly)
  | createParent | createTemp | counting | uncounting | batchDeleting | cleaning | creatingDirs =>
    exact removes.elim

theorem step_object (sound : state.Sound config)
    (permits : (appendOnlyGuard blake2b).Permits state event)
    (stepped : step blake2b config state event = some next) :
    next.objectAt path = state.objectAt path ∨ state.objectAt path = none ∧
      (state.writes? blake2b event = some path ∨ ∃ id upload,
        state.Pursues id (.upload upload) ∧ upload.path = path ∧
          ∀ task, ¬ next.Pursues id task) := by
  have unchanged (same : next.files.fileAt path = state.files.fileAt path) :
      next.objectAt path = state.objectAt path := congrArg (Option.map StoredFile.bytes) same
  rcases step_cases stepped with ⟨id, phase, outcome, call⟩ | pause
  · have wellFormed := sound.wellFormed id phase call.running
    have acts := call.acts
    cases acts with
    | keeps kept follows => exact Or.inl (unchanged (kept.files path))
    | removes removable permitted removed follows =>
      have spared := removable.spared immutable appendOnly reserved call.running wellFormed
      exact Or.inl (unchanged (by rw [removed.files, if_neg spared]))
    | @opens upload _ inode created =>
      have different := temp_ne_immutable immutable ⟨upload, state.tempCounter, inode, 0⟩
      exact Or.inl (unchanged ((created.files path).trans (if_neg different)))
    | @appends stream _ count fits appended =>
      refine Or.inl (unchanged ?_)
      rw [appended.files]
      cases found : state.files.fileAt path with
      | none => rfl
      | some file =>
        rw [Option.map_some, if_neg]
        intro isOpen
        exact temp_ne_immutable immutable stream
          ((sound.stream id stream call.running).linked path file found isOpen).1
    | @publishes stream _ file advances complete checked moved =>
      have pursues : state.Pursues id (.upload stream.toUpload) := ⟨_, call.running, rfl⟩
      by_cases isTarget : stream.path = path
      · refine Or.inr ⟨isTarget ▸ reserved.free id _ pursues (isTarget ▸ immutable),
          Or.inr ⟨id, _, pursues, isTarget, ?_⟩⟩
        rintro task ⟨later, running, isTask⟩
        rcases call.running_cases running with ⟨other, -⟩ | ⟨-, isOutcome⟩
        · exact other rfl
        · cases isOutcome
          cases isTask
      · refine Or.inl (unchanged ?_)
        rw [moved.files, if_neg (Ne.symm isTarget), if_neg (temp_ne_immutable immutable stream)]
    | @writes job inode _ sameId located created =>
      obtain ⟨first, rest⟩ := List.forall_mem_cons.mp wellFormed
      have admitted : job.Admitted config := ⟨first, located, rest⟩
      refine Or.inl (unchanged ((created.files path).trans (if_neg ?_)))
      exact invalid_ne_immutable immutable admitted.temp_invalid
    | @repacks job file _ later advances moved noJob follows =>
      have writes : state.writes? blake2b event = some (packPath (blake2b job.content)) := by
        simp only [advances, ServerState.writes?, phase?_eq_some.mpr call.running]
      by_cases isTarget : packPath (blake2b job.content) = path
      · rw [isTarget] at writes
        have absent := (Bool.and_eq_true_iff.mp permits.onEvent).2
        simp only [advances] at absent writes
        rw [writes] at absent
        exact Or.inr ⟨Option.isNone_iff_eq_none.mp absent, Or.inl (advances ▸ writes)⟩
      · refine Or.inl (unchanged ?_)
        rw [moved.files, if_neg (Ne.symm isTarget),
          if_neg (invalid_ne_immutable immutable wellFormed.temp_invalid)]
  · exact Or.inl (unchanged (pause.kept.files path))

end

theorem starts_free {upload : Upload} (appendOnly : config.appendOnly = true)
    (permits : (appendOnlyGuard blake2b).Permits state event)
    (starts : Starts config state event id (.upload upload))
    (immutable : isImmutablePath upload.path = true) :
    state.files.fileAt upload.path = none ∧ state.writes? blake2b event = some upload.path ∧
      ∃ put, event = .put id put := by
  cases event with
  | put other put =>
    obtain ⟨rfl, rfl, admitted⟩ := starts
    obtain ⟨path, expected, located, free, -, same⟩ := putObject_eq_ok admitted
    have isPath : upload.path = path := congrArg Upload.path (Phase.createParent.inj same)
    have notMutable := (isImmutablePath_parts immutable).2.1
    rw [isPath] at notMutable ⊢
    refine ⟨?_, ?_, _, rfl⟩
    · have fixed : isMutable upload.put.key = false := by
        refine Bool.eq_false_iff.mpr fun mutable => ?_
        cases (appendOnlyGuard_mutable permits rfl located mutable).symm.trans notMutable
      have missing := free appendOnly fixed
      unfold metadata at missing
      split at missing
      · cases missing
      · exact Option.map_eq_none_iff.mp missing
    · simp [ServerState.writes?, located, notMutable]
  | _ => exact starts.elim

theorem ServerState.Reserved.step (reserved : state.Reserved)
    (appendOnly : config.appendOnly = true)
    (sound : state.Sound config) (permits : (appendOnlyGuard blake2b).Permits state event)
    (stepped : step blake2b config state event = some next) : next.Reserved where
  free id upload pursues immutable := by
    rcases step_pursues stepped pursues with before | starts
    · rcases step_object immutable appendOnly reserved sound permits stepped with
        same | ⟨-, writes | ⟨other, otherUpload, publishes, samePath, gone⟩⟩
      · exact same.trans (reserved.free id upload before immutable)
      · exact absurd rfl (appendOnlyGuard_apart permits before writes)
      · obtain rfl := reserved.apart id other upload otherUpload before publishes immutable
          samePath.symm
        exact (gone _ pursues).elim
    · obtain ⟨absent, -, put, rfl⟩ := starts_free appendOnly permits starts immutable
      obtain rfl := arrive_eq_some stepped
      exact Option.map_eq_none_iff.mpr absent
  apart id other upload otherUpload pursues otherPursues immutable samePath := by
    have otherImmutable : isImmutablePath otherUpload.path = true := samePath ▸ immutable
    rcases step_pursues stepped pursues with before | starts
    · rcases step_pursues stepped otherPursues with otherBefore | starts
      · exact reserved.apart id other upload otherUpload before otherBefore immutable samePath
      · have writes := (starts_free appendOnly permits starts otherImmutable).2.1
        exact absurd samePath (appendOnlyGuard_apart permits before writes)
    · obtain ⟨-, writes, put, rfl⟩ := starts_free appendOnly permits starts immutable
      rcases step_pursues stepped otherPursues with otherBefore | otherStarts
      · exact absurd samePath.symm (appendOnlyGuard_apart permits otherBefore writes)
      · exact otherStarts.1.symm
  removals id path pursues := by
    rcases step_pursues stepped pursues with before | starts
    · exact reserved.removals id path before
    · cases event with
      | delete other key =>
        obtain ⟨-, located, deletable⟩ := starts
        refine appendOnlyGuard_mutable permits rfl located ?_
        rw [isMutable, deletable appendOnly, Bool.or_true]
      | _ => exact starts.elim

end Step

def snapshotKey : Text := "snapshots/x".toList

def snapshotPath : Path := ["snapshots".toList, "x".toList]

def appendOnlyConfig : Config := ⟨true, 4096⟩

/-- Two uploads of one key are accepted, and the first of them is completed. -/
def firstUpload : List Event :=
  [.put 0 ⟨snapshotKey, none, none, [1]⟩, .put 1 ⟨snapshotKey, none, none, [2]⟩,
    .advance 0, .advance 0, .receive 0 1, .advance 0, .advance 0]

def secondUpload : List Event := [.advance 1, .advance 1, .receive 1 1, .advance 1, .advance 1]

end Vykar.Server

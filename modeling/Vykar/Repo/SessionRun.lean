import Vykar.Repo.SessionAccounting

/-!
Command dumps and whole write sessions.

A dump that fails is rolled back to the checkpoint taken when it began.  What it
stored in data packs, bumped in the delta or promoted from the recovery journal
is undone; a reference that it found in an unsealed tree pack stays counted.  A
recorded session therefore never holds fewer references than it handed out, and
never more than it was asked to store.
-/

namespace Vykar.Repo

open Index

namespace WriteSession

variable {base : ChunkIndex} {session : WriteSession} {id : ChunkId} {tracker : DumpRollbackTracker}
  {promoted : List (ChunkId × RecoveredChunkEntry)}

/-- The tracker of a running dump can undo what the dump has done. -/
structure TracksDump (session : WriteSession) (tracker : DumpRollbackTracker) : Prop where
  length_le : tracker.newEntriesLen ≤ session.delta.newEntries.length
  promoted_known : ∀ promoted ∈ tracker.promotedRecovered, promoted.1 ∈ session.known

theorem reinsert_of_not_mem {recovered : ChunkId → Option RecoveredChunkEntry}
    (notPromoted : id ∉ promoted.map Prod.fst) :
    reinsert promoted recovered id = recovered id := by
  induction promoted generalizing recovered with
  | nil => rfl
  | cons head tail ih =>
    simp only [List.map_cons, List.mem_cons, not_or] at notPromoted
    rw [reinsert_cons, ih notPromoted.2, Function.update_of_ne notPromoted.1]

theorem reinsert_congr {first second : ChunkId → Option RecoveredChunkEntry}
    (same : first id = second id) :
    reinsert promoted first id = reinsert promoted second id := by
  induction promoted generalizing first second with
  | nil => exact same
  | cons head tail ih =>
    rw [reinsert_cons, reinsert_cons]
    apply ih
    simp only [Function.update_apply, same]

theorem applySealedEntries_tracker (armed : session.tracker = some tracker)
    (entries : List NewChunkEntry) :
    (session.applySealedEntries entries).tracker = some { tracker with
      dedupInserts := tracker.dedupInserts ++ entries.map NewChunkEntry.chunkId } := by
  simp only [WriteSession.applySealedEntries, armed, Option.map_some]

theorem rollback_applySealedEntries {session : WriteSession}
    (armed : session.tracker = some tracker)
    (fits : tracker.newEntriesLen ≤ session.delta.newEntries.length)
    {entries : List NewChunkEntry}
    (unknown : ∀ id ∈ entries.map NewChunkEntry.chunkId, id ∉ session.known) :
    (session.applySealedEntries entries).rollbackDumpCheckpoint =
      session.rollbackDumpCheckpoint := by
  have sameKnown : (session.known ∪ (entries.map NewChunkEntry.chunkId).toFinset) \
      (tracker.dedupInserts ++ entries.map NewChunkEntry.chunkId).toFinset =
        session.known \ tracker.dedupInserts.toFinset := by
    ext id
    simp only [Finset.mem_sdiff, Finset.mem_union, List.mem_toFinset, List.mem_append, not_or]
    constructor
    · intro ⟨known, notBefore, notAdded⟩
      exact ⟨known.resolve_right notAdded, notBefore⟩
    · intro ⟨known, notBefore⟩
      exact ⟨Or.inl known, notBefore, fun added => unknown id added known⟩
  simp only [rollbackDumpCheckpoint, WriteSession.applySealedEntries, armed, Option.map_some,
    IndexDelta.rollback, List.take_append_of_le_length fits, sameKnown]

section

variable (armed : session.tracker = some tracker) (tracks : session.TracksDump tracker)

include armed tracks

theorem rollback_promote (consistent : Consistent base session) {entry : RecoveredChunkEntry}
    (recovered : session.recovered id = some entry) :
    (session.promote id entry).rollbackDumpCheckpoint = session.rollbackDumpCheckpoint := by
  have unknown := (consistent.recoveredNew id (by rw [recovered]; rfl)).1
  have notPromoted : id ∉ tracker.promotedRecovered.map Prod.fst := by
    intro listed
    obtain ⟨promoted, membership, rfl⟩ := List.mem_map.mp listed
    exact unknown (tracks.promoted_known promoted membership)
  have restored : reinsert (tracker.promotedRecovered ++ [(id, entry)])
      (Function.update session.recovered id none) =
        reinsert tracker.promotedRecovered session.recovered := by
    funext other
    simp only [reinsert, List.foldl_append, List.foldl_cons, List.foldl_nil]
    by_cases same : other = id
    · subst same
      rw [Function.update_self]
      exact ((reinsert_of_not_mem notPromoted).trans recovered).symm
    · rw [Function.update_of_ne same]
      exact reinsert_congr (Function.update_of_ne same _ _)
  rw [promote_eq, armed, Option.map_some, rollback_applySealedEntries rfl]
  · simp only [rollbackDumpCheckpoint, armed, restored]
  · exact tracks.length_le
  · simpa using unknown

/-- A store during a dump is undone, except for a reference counted in a tree pack. -/
theorem rollback_storeChunk (consistent : Consistent base session) (id : ChunkId)
    (storedSize : Nat) :
    (session.storeChunk id storedSize .data).rollbackDumpCheckpoint =
        session.rollbackDumpCheckpoint ∨
      (session.treeWriter.has id = true ∧
        (session.storeChunk id storedSize .data).rollbackDumpCheckpoint =
          session.rollbackDumpCheckpoint.setWriter .tree
            (session.treeWriter.incrementPending id)) := by
  rcases session.storeChunk_cases id storedSize .data with
    ⟨-, stored⟩ | ⟨-, entry, recovered, stored⟩ | ⟨-, -, pending, used, stored⟩ |
      ⟨-, -, -, -, stored⟩
  · left
    rw [stored]
    simp only [rollbackDumpCheckpoint, armed, IndexDelta.bumpRefcount, IndexDelta.rollback]
  · left
    rw [stored]
    exact rollback_promote armed tracks consistent recovered
  · rw [stored]
    cases pending with
    | data =>
      left
      simp only [rollbackDumpCheckpoint, armed, setWriter]
    | tree =>
      right
      refine ⟨used, ?_⟩
      simp only [rollbackDumpCheckpoint, armed, setWriter, writer]
  · left
    rw [stored]
    simp only [rollbackDumpCheckpoint, WriteSession.addBlob, armed, setWriter]

theorem rollback_flushWriter (consistent : Consistent base session) (packId : PackId) :
    (session.flushWriter packId .data).rollbackDumpCheckpoint =
      session.rollbackDumpCheckpoint := by
  have unknown : ∀ id ∈ (session.dataWriter.sealEntries packId).map NewChunkEntry.chunkId,
      id ∉ session.known := by
    intro id listed
    rw [PackWriter.sealEntries_chunkIds, ← consistent.dataTracked.tracked] at listed
    exact (consistent.dataNew id listed).1
  have emptied : (session.setWriter .data .empty).rollbackDumpCheckpoint =
      session.rollbackDumpCheckpoint := by
    simp only [rollbackDumpCheckpoint, armed, setWriter]
  have armedEmpty : (session.setWriter .data .empty).tracker = some tracker := armed
  exact (rollback_applySealedEntries armedEmpty tracks.length_le unknown).trans emptied

theorem storeChunk_tracker (id : ChunkId) (storedSize : Nat) (packType : PackType) :
    ∃ later, (session.storeChunk id storedSize packType).tracker = some later ∧
      (session.storeChunk id storedSize packType).TracksDump later := by
  rcases session.storeChunk_cases id storedSize packType with
    ⟨-, stored⟩ | ⟨-, entry, -, stored⟩ | ⟨-, -, pending, -, stored⟩ | ⟨-, -, -, -, stored⟩ <;>
    rw [stored]
  · exact ⟨tracker, armed, tracks.length_le, tracks.promoted_known⟩
  · rw [promote_eq, armed, Option.map_some]
    refine ⟨_, applySealedEntries_tracker rfl _, ?_, ?_⟩
    · simp only [WriteSession.applySealedEntries, List.length_append]
      exact tracks.length_le.trans (Nat.le_add_right _ _)
    · intro promoted listed
      rcases List.mem_append.mp listed with before | isNew
      · exact Finset.mem_union_left _ (tracks.promoted_known promoted before)
      · rw [List.mem_singleton.mp isNew]
        exact Finset.mem_union_right _ (by simp)
  · cases pending <;> exact ⟨tracker, armed, tracks.length_le, tracks.promoted_known⟩
  · cases packType <;> exact ⟨tracker, armed, tracks.length_le, tracks.promoted_known⟩

theorem flushWriter_tracker (packId : PackId) (packType : PackType) :
    ∃ later, (session.flushWriter packId packType).tracker = some later ∧
      (session.flushWriter packId packType).TracksDump later := by
  have armedEmpty : (session.setWriter packType .empty).tracker = some tracker := by
    cases packType <;> exact armed
  refine ⟨_, applySealedEntries_tracker armedEmpty _, ?_, ?_⟩
  · simp only [WriteSession.flushWriter, WriteSession.applySealedEntries, List.length_append]
    cases packType <;> exact tracks.length_le.trans (Nat.le_add_right _ _)
  · intro promoted listed
    apply Finset.mem_union_left
    cases packType <;> exact tracks.promoted_known promoted listed

end

theorem storeChunk_unarmed (unarmed : session.tracker = none) (id : ChunkId) (storedSize : Nat)
    (packType : PackType) : (session.storeChunk id storedSize packType).tracker = none := by
  rcases session.storeChunk_cases id storedSize packType with
    ⟨-, stored⟩ | ⟨-, entry, -, stored⟩ | ⟨-, -, pending, -, stored⟩ | ⟨-, -, -, -, stored⟩ <;>
    rw [stored]
  · exact unarmed
  · rw [WriteSession.promote, unarmed, Option.map_none]
  · cases pending <;> exact unarmed
  · cases packType <;> exact unarmed

theorem flushWriter_unarmed (unarmed : session.tracker = none) (packId : PackId)
    (packType : PackType) : (session.flushWriter packId packType).tracker = none := by
  cases packType <;>
    simp only [WriteSession.flushWriter, WriteSession.applySealedEntries, setWriter, unarmed,
      Option.map_none]

theorem rollback_unarmed (armed : session.tracker = some tracker) :
    session.rollbackDumpCheckpoint.tracker = none := by
  simp only [rollbackDumpCheckpoint, armed]

theorem rollback_treeWriter (armed : session.tracker = some tracker) :
    session.rollbackDumpCheckpoint.treeWriter = session.treeWriter := by
  simp only [rollbackDumpCheckpoint, armed]

theorem rollback_beginDumpCheckpoint (session : WriteSession) (packId : PackId) :
    (session.beginDumpCheckpoint packId).rollbackDumpCheckpoint =
      { session.flushWriter packId .data with tracker := none } := by
  simp [beginDumpCheckpoint, rollbackDumpCheckpoint, IndexDelta.rollback, reinsert,
    WriteSession.flushWriter, WriteSession.applySealedEntries, setWriter]

end WriteSession

inductive SessionOp where
  | store (id : ChunkId) (storedSize : Nat) (packType : PackType)
  | reuse (id : ChunkId)
  | flush (packId : PackId) (packType : PackType)
  | beginDump (packId : PackId)
  | commitDump
  | rollbackDump
  deriving DecidableEq

def SessionOp.stores : SessionOp → List ChunkId
  | .store id _ _ | .reuse id => [id]
  | .flush _ _ | .beginDump _ | .commitDump | .rollbackDump => []

/-- A session with the references it has handed out and not taken back, and those handed out
when the running dump began. -/
structure Recording where
  session : WriteSession
  references : List ChunkId
  checkpoint : List ChunkId

namespace Recording

open WriteSession

def start (index : ChunkIndex) (journal : ChunkId → Option RecoveredChunkEntry) : Recording :=
  ⟨.start index journal, [], []⟩

/-- A dump stores data chunks only, and dumps do not nest (`stream_dump_command`). -/
def step (recording : Recording) : SessionOp → Option Recording
  | .store id storedSize packType =>
    if recording.session.tracker.isSome ∧ packType = .tree then none
    else some { recording with
      session := recording.session.storeChunk id storedSize packType
      references := id :: recording.references }
  | .reuse id => do
      -- `reuse_cached_chunk_ref` fails for a chunk that is nowhere known
      let session ← recording.session.bumpRefIfExists id
      some { recording with session := session, references := id :: recording.references }
  | .flush packId packType =>
    if recording.session.tracker.isSome ∧ packType = .tree then none
    else some { recording with session := recording.session.flushWriter packId packType }
  | .beginDump packId =>
    if recording.session.tracker.isSome then none
    else some { recording with
      session := recording.session.beginDumpCheckpoint packId
      checkpoint := recording.references }
  | .commitDump => some { recording with session := recording.session.commitDumpCheckpoint }
  | .rollbackDump =>
    if recording.session.tracker.isSome then
      some { recording with
        session := recording.session.rollbackDumpCheckpoint
        references := recording.checkpoint }
    else none

def run (recording : Recording) : List SessionOp → Option Recording
  | [] => some recording
  | op :: ops => (recording.step op).bind fun next => next.run ops

variable {op : SessionOp}

/-- What one call does: store a chunk, seal a pack, begin a dump, commit it or roll it back. -/
theorem step_cases {recording next : Recording} (stepped : recording.step op = some next) :
    (∃ id storedSize packType, op.stores = [id] ∧
      ¬ (recording.session.tracker.isSome = true ∧ packType = .tree) ∧
      next = { recording with
        session := recording.session.storeChunk id storedSize packType
        references := id :: recording.references }) ∨
    (∃ packId packType, op.stores = [] ∧
      ¬ (recording.session.tracker.isSome = true ∧ packType = .tree) ∧
      next = { recording with session := recording.session.flushWriter packId packType }) ∨
    (∃ packId, op.stores = [] ∧ next = { recording with
      session := recording.session.beginDumpCheckpoint packId
      checkpoint := recording.references }) ∨
    (op.stores = [] ∧
      next = { recording with session := recording.session.commitDumpCheckpoint }) ∨
    ∃ tracker, op.stores = [] ∧ recording.session.tracker = some tracker ∧
      next = { recording with
        session := recording.session.rollbackDumpCheckpoint
        references := recording.checkpoint } := by
  cases op with
  | store id storedSize packType =>
    simp only [Recording.step] at stepped
    split at stepped
    · cases stepped
    · rename_i permitted
      exact Or.inl ⟨id, storedSize, packType, rfl, permitted, (Option.some.inj stepped).symm⟩
  | reuse id =>
    obtain ⟨bumped, found, rest⟩ := Option.bind_eq_some_iff.mp stepped
    have stored : recording.session.storeChunk id 0 .data = bumped := by
      simp only [WriteSession.storeChunk, found]
    refine Or.inl ⟨id, 0, .data, rfl, (fun impossible => by cases impossible.2), ?_⟩
    rw [stored]
    exact (Option.some.inj rest).symm
  | flush packId packType =>
    simp only [Recording.step] at stepped
    split at stepped
    · cases stepped
    · rename_i permitted
      exact Or.inr (Or.inl ⟨packId, packType, rfl, permitted, (Option.some.inj stepped).symm⟩)
  | beginDump packId =>
    simp only [Recording.step] at stepped
    split at stepped
    · cases stepped
    · exact Or.inr (Or.inr (Or.inl ⟨packId, rfl, (Option.some.inj stepped).symm⟩))
  | commitDump =>
    exact Or.inr (Or.inr (Or.inr (Or.inl ⟨rfl, (Option.some.inj stepped).symm⟩)))
  | rollbackDump =>
    simp only [Recording.step] at stepped
    split at stepped
    · rename_i isArmed
      obtain ⟨tracker, armed⟩ := Option.isSome_iff_exists.mp isArmed
      exact Or.inr (Or.inr (Or.inr (Or.inr
        ⟨tracker, rfl, armed, (Option.some.inj stepped).symm⟩)))
    · cases stepped

structure Between (base : ChunkIndex) (references attempted : List ChunkId)
    (session : WriteSession) : Prop where
  sound : Sound base session
  lower : ∀ id, references.count id ≤ session.held id
  upper : ∀ id, session.held id ≤ attempted.count id

/-- The invariant of a recorded session: it is within its bounds, and so is the session that
a rollback of a running dump would return to. -/
structure Covered (base : ChunkIndex) (attempted : List ChunkId) (recording : Recording) :
    Prop where
  now : Between base recording.references attempted recording.session
  dump : ∀ tracker, recording.session.tracker = some tracker →
    recording.session.TracksDump tracker ∧
      Between base recording.checkpoint attempted recording.session.rollbackDumpCheckpoint

variable {base : ChunkIndex} {references attempted : List ChunkId} {session : WriteSession}
  {recording next : Recording} {other : WriteSession} {id : ChunkId} {tracker : DumpRollbackTracker}
  {ops : List SessionOp}

theorem Between.congr (between : Between base references attempted session)
    (sound : Sound base other) (same : ∀ id, other.held id = session.held id) :
    Between base references attempted other :=
  ⟨sound, fun id => (same id).symm ▸ between.lower id, fun id => (same id).symm ▸ between.upper id⟩

theorem Between.grow {later : List ChunkId} (between : Between base references attempted session)
    (sound : Sound base other)
    (grown : ∀ third, other.held third = session.held third + if third = id then 1 else 0)
    (handedOut :
      ∀ third, later.count third ≤ references.count third + if third = id then 1 else 0) :
    Between base later (attempted ++ [id]) other := by
  refine ⟨sound, fun third => ?_, fun third => ?_⟩
  · rw [grown]
    exact (handedOut third).trans (Nat.add_le_add_right (between.lower third) _)
  · rw [grown, List.count_append]
    apply Nat.add_le_add (between.upper third)
    by_cases same : third = id
    · simp [same]
    · simp [same]

theorem count_cons_le (references : List ChunkId) (id third : ChunkId) :
    (id :: references).count third ≤ references.count third + if third = id then 1 else 0 := by
  rw [List.count_cons]
  by_cases same : third = id
  · simp [same]
  · simp [same, Ne.symm same]

section

variable (between : Between base references attempted session)

include between

theorem Between.weaken (more : List ChunkId) :
    Between base references (attempted ++ more) session :=
  ⟨between.sound, between.lower, fun third =>
    (between.upper third).trans ((List.sublist_append_left attempted more).count_le third)⟩

theorem Between.flushWriter (packId : PackId) (packType : PackType) :
    Between base references attempted (session.flushWriter packId packType) :=
  between.congr (between.sound.flushWriter packId packType)
    (between.sound.held_flushWriter packId packType)

theorem Between.withTracker (tracker : Option DumpRollbackTracker) :
    Between base references attempted { session with tracker := tracker } :=
  between.congr (between.sound.withTracker tracker) fun _ => rfl

/-- A reference that a dump counts in a tree pack stays there when the dump is rolled back. -/
theorem Between.countTree (used : session.treeWriter.has id = true)
    (fits : session.treeWriter.references id + 1 < 2 ^ 32) :
    Between base references (attempted ++ [id])
      (session.setWriter .tree (session.treeWriter.incrementPending id)) := by
  refine between.grow (between.sound.incrementPending .tree used fits) (fun third => ?_)
    fun third => Nat.le_add_right _ _
  have incremented := PackWriter.references_incrementPending used fits third
  have replaced := held_setWriter session .tree (session.treeWriter.incrementPending id) third
  simp only [writer] at replaced
  omega

end

theorem start_covered (base : ChunkIndex) (journal : ChunkId → Option RecoveredChunkEntry) :
    Covered base [] (start base journal) where
  now := by
    refine ⟨⟨start_consistent base journal, ?_⟩, fun id => by simp [start],
      fun id => by simp [start, held_start]⟩
    constructor <;> simp [start, WriteSession.start, IndexDelta.empty, PackWriter.has,
      PackWriter.empty]
  dump tracker armed := by cases armed

theorem dataOnly_of_armed {packType : PackType} (armed : session.tracker = some tracker)
    (permitted : ¬ (session.tracker.isSome = true ∧ packType = .tree)) : packType = .data := by
  cases packType with
  | data => rfl
  | tree => exact absurd ⟨by rw [armed]; rfl, rfl⟩ permitted

/-- What a rollback would return to after one more call: the same session as before, up to a
reference counted in a tree pack, or the session in which the dump just began. -/
theorem step_rollback (consistent : Consistent base recording.session)
    (tracked : ∀ tracker, recording.session.tracker = some tracker →
      recording.session.TracksDump tracker) (stepped : recording.step op = some next)
    {later : DumpRollbackTracker} (laterArmed : next.session.tracker = some later) :
    next.session.TracksDump later ∧
      ((∃ tracker, recording.session.tracker = some tracker ∧
          next.checkpoint = recording.checkpoint ∧
          (next.session.rollbackDumpCheckpoint = recording.session.rollbackDumpCheckpoint ∨
            ∃ id, op.stores = [id] ∧ recording.session.treeWriter.has id = true ∧
              next.session.rollbackDumpCheckpoint =
                recording.session.rollbackDumpCheckpoint.setWriter .tree
                  (recording.session.treeWriter.incrementPending id))) ∨
        ∃ packId, next.checkpoint = recording.references ∧
          next.session.rollbackDumpCheckpoint =
            { recording.session.flushWriter packId .data with tracker := none }) := by
  rcases step_cases stepped with ⟨id, storedSize, packType, stores, permitted, rfl⟩ |
    ⟨packId, packType, -, permitted, rfl⟩ | ⟨packId, -, rfl⟩ | ⟨-, rfl⟩ | ⟨tracker, -, armed, rfl⟩
  · cases armed : recording.session.tracker with
    | none => exact absurd (storeChunk_unarmed armed id storedSize packType ▸ laterArmed) (by simp)
    | some tracker =>
      obtain rfl := dataOnly_of_armed armed permitted
      have tracks := tracked tracker armed
      obtain ⟨same, sameArmed, tracksLater⟩ := storeChunk_tracker armed tracks id storedSize .data
      cases sameArmed.symm.trans laterArmed
      refine ⟨tracksLater, Or.inl ⟨tracker, rfl, rfl, ?_⟩⟩
      rcases rollback_storeChunk armed tracks consistent id storedSize with back | ⟨used, counted⟩
      · exact Or.inl back
      · exact Or.inr ⟨id, stores, used, counted⟩
  · cases armed : recording.session.tracker with
    | none => exact absurd (flushWriter_unarmed armed packId packType ▸ laterArmed) (by simp)
    | some tracker =>
      obtain rfl := dataOnly_of_armed armed permitted
      have tracks := tracked tracker armed
      obtain ⟨same, sameArmed, tracksLater⟩ := flushWriter_tracker armed tracks packId .data
      cases sameArmed.symm.trans laterArmed
      exact ⟨tracksLater, Or.inl ⟨tracker, rfl, rfl,
        Or.inl (rollback_flushWriter armed tracks consistent packId)⟩⟩
  · cases laterArmed
    exact ⟨⟨le_rfl, fun promoted listed => by cases listed⟩,
      Or.inr ⟨packId, rfl, rollback_beginDumpCheckpoint _ packId⟩⟩
  · cases laterArmed
  · exact absurd (rollback_unarmed armed ▸ laterArmed) (by simp)

section

variable (covered : Covered base attempted recording)

include covered

theorem Covered.step (fits : ∀ id, (attempted ++ op.stores).count id < 2 ^ 32)
    (stepped : recording.step op = some next) : Covered base (attempted ++ op.stores) next := by
  have room {id : ChunkId} (stores : op.stores = [id]) :
      recording.session.held id + 1 < 2 ^ 32 := by
    have bound := covered.now.upper id
    have fitsId := fits id
    rw [stores, List.count_append, List.count_singleton_self] at fitsId
    omega
  refine ⟨?_, fun later laterArmed => ?_⟩
  · rcases step_cases stepped with ⟨id, storedSize, packType, stores, -, rfl⟩ |
      ⟨packId, packType, -, -, rfl⟩ | ⟨packId, -, rfl⟩ | ⟨-, rfl⟩ | ⟨tracker, -, armed, rfl⟩
    · obtain ⟨sound, grown⟩ := covered.now.sound.storeChunk storedSize packType (room stores)
      rw [stores]
      exact covered.now.grow sound grown (count_cons_le recording.references id)
    · exact (covered.now.flushWriter packId packType).weaken _
    · exact ((covered.now.flushWriter packId .data).withTracker _).weaken _
    · exact (covered.now.withTracker none).weaken _
    · exact (covered.dump tracker armed).2.weaken _
  · obtain ⟨tracks, back⟩ := step_rollback covered.now.sound.toConsistent
      (fun tracker armed => (covered.dump tracker armed).1) stepped laterArmed
    refine ⟨tracks, ?_⟩
    rcases back with ⟨tracker, armed, checkpoint, same | ⟨id, stores, used, counted⟩⟩ |
      ⟨packId, checkpoint, began⟩ <;> rw [checkpoint]
    · rw [same]
      exact (covered.dump tracker armed).2.weaken _
    · have fitsTree : recording.session.treeWriter.references id + 1 < 2 ^ 32 := by
        have fitsHeld := room stores
        unfold held at fitsHeld
        omega
      rw [← rollback_treeWriter armed] at used fitsTree counted
      rw [counted, stores]
      exact (covered.dump tracker armed).2.countTree used fitsTree
    · rw [began]
      exact ((covered.now.flushWriter packId .data).withTracker none).weaken _

theorem Covered.run (fits : ∀ id, (attempted ++ ops.flatMap SessionOp.stores).count id < 2 ^ 32)
    (ran : recording.run ops = some next) :
    Covered base (attempted ++ ops.flatMap SessionOp.stores) next := by
  induction ops generalizing recording attempted with
  | nil =>
    cases ran
    rwa [List.flatMap_nil, List.append_nil]
  | cons op ops ih =>
    obtain ⟨middle, stepped, later⟩ := Option.bind_eq_some_iff.mp ran
    rw [List.flatMap_cons, ← List.append_assoc] at fits ⊢
    apply ih (covered.step ?_ stepped) fits later
    intro id
    exact lt_of_le_of_lt ((List.sublist_append_left _ _).count_le id) (fits id)

end

/-- The ids of a recorded session are consistent, and so are those of the session that a
rollback would return to.  Unlike `Covered` this asks nothing of the counts. -/
structure Kept (base : ChunkIndex) (recording : Recording) : Prop where
  now : Consistent base recording.session
  dump : ∀ tracker, recording.session.tracker = some tracker →
    recording.session.TracksDump tracker ∧
      Consistent base recording.session.rollbackDumpCheckpoint

theorem start_kept (base : ChunkIndex) (journal : ChunkId → Option RecoveredChunkEntry) :
    Kept base (start base journal) :=
  ⟨start_consistent base journal, fun tracker armed => by cases armed⟩

theorem Kept.tracked (kept : Kept base recording) :
    ∀ tracker, recording.session.tracker = some tracker → recording.session.TracksDump tracker :=
  fun tracker armed => (kept.dump tracker armed).1

theorem Kept.step (kept : Kept base recording) (stepped : recording.step op = some next) :
    Kept base next := by
  refine ⟨?_, fun later laterArmed => ?_⟩
  · rcases step_cases stepped with ⟨id, storedSize, packType, -, -, rfl⟩ |
      ⟨packId, packType, -, -, rfl⟩ | ⟨packId, -, rfl⟩ | ⟨-, rfl⟩ | ⟨tracker, -, armed, rfl⟩
    · exact kept.now.storeChunk id storedSize packType
    · exact kept.now.flushWriter packId packType
    · exact (kept.now.flushWriter packId .data).withTracker _
    · exact kept.now.withTracker none
    · exact (kept.dump tracker armed).2
  · obtain ⟨tracks, back⟩ := step_rollback kept.now kept.tracked stepped laterArmed
    refine ⟨tracks, ?_⟩
    rcases back with ⟨tracker, armed, -, same | ⟨id, -, -, counted⟩⟩ | ⟨packId, -, began⟩
    · exact same ▸ (kept.dump tracker armed).2
    · rw [counted, ← rollback_treeWriter armed]
      exact (kept.dump tracker armed).2.incrementPending .tree id
    · exact began ▸ (kept.now.flushWriter packId .data).withTracker none

theorem Kept.run (kept : Kept base recording) (ran : recording.run ops = some next) :
    Kept base next := by
  induction ops generalizing recording with
  | nil =>
    cases ran
    exact kept
  | cons op ops ih =>
    obtain ⟨middle, stepped, later⟩ := Option.bind_eq_some_iff.mp ran
    exact ih (kept.step stepped) later

end Recording

end Vykar.Repo

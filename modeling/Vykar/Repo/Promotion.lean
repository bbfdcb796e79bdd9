import Vykar.Repo.SessionRun

/-!
What becomes of the chunks that a session recovered.

A recovered chunk stays recovered until the session is first asked to store it; from then
on the delta has one new entry for it, at the place the journal gave.  Rolling back a dump
returns the chunks it promoted.
-/

namespace Vykar.Repo

open Index

def RecoveredChunkEntry.Locates (entry : RecoveredChunkEntry) (added : NewChunkEntry) : Prop :=
  added.storedSize = entry.storedSize ∧ added.packId = entry.packId ∧
    added.packOffset = entry.packOffset

namespace WriteSession

variable {origin : ChunkId → Option RecoveredChunkEntry} {session : WriteSession} {id : ChunkId}
  {entry : RecoveredChunkEntry} {base : ChunkIndex}

structure Traces (origin : ChunkId → Option RecoveredChunkEntry) (session : WriteSession) :
    Prop where
  within : ∀ id entry, session.recovered id = some entry → origin id = some entry
  promoted : ∀ id entry, origin id = some entry → session.recovered id = none →
    ∃ added ∈ session.delta.newEntries, added.chunkId = id ∧ entry.Locates added

theorem Traces.mono {next : WriteSession} (traces : Traces origin session)
    (same : next.recovered = session.recovered)
    (grows : session.delta.newEntries ⊆ next.delta.newEntries) : Traces origin next where
  within id entry recovered := traces.within id entry (same ▸ recovered)
  promoted id entry recovered gone := by
    obtain ⟨added, listed, located⟩ := traces.promoted id entry recovered (same ▸ gone)
    exact ⟨added, grows listed, located⟩

theorem start_traces (index : ChunkIndex) (journal : ChunkId → Option RecoveredChunkEntry) :
    Traces (start index journal).recovered (start index journal) where
  within _ _ recovered := recovered
  promoted id entry recovered gone := by
    rw [gone] at recovered
    cases recovered

section

variable (traces : Traces origin session)

include traces

theorem Traces.promote (recovered : session.recovered id = some entry) :
    Traces origin (session.promote id entry) where
  within other otherEntry still := by
    simp only [WriteSession.promote, Function.update_apply] at still
    split at still
    · cases still
    · exact traces.within other otherEntry still
  promoted other otherEntry isOrigin gone := by
    simp only [WriteSession.promote, Function.update_apply, IndexDelta.addNewEntry] at gone ⊢
    split at gone
    · rename_i same
      subst same
      -- the chunk promoted by this call: its place is the one recovered at the start
      rw [traces.within other entry recovered] at isOrigin
      cases isOrigin
      exact ⟨_, List.mem_append_right _ (List.mem_singleton_self _), rfl, rfl, rfl, rfl⟩
    · obtain ⟨added, listed, located⟩ := traces.promoted other otherEntry isOrigin gone
      exact ⟨added, List.mem_append_left _ listed, located⟩

theorem Traces.setWriter (packType : PackType) (writer : PackWriter) :
    Traces origin (session.setWriter packType writer) := by
  cases packType <;> exact traces.mono rfl fun _ listed => listed

theorem Traces.storeChunk (id : ChunkId) (storedSize : Nat) (packType : PackType) :
    Traces origin (session.storeChunk id storedSize packType) := by
  rcases session.storeChunk_cases id storedSize packType with
    ⟨-, stored⟩ | ⟨-, entry, recovered, stored⟩ | ⟨-, -, pending, -, stored⟩ |
      ⟨-, -, -, -, stored⟩ <;> rw [stored]
  · exact traces.mono rfl fun _ listed => listed
  · exact traces.promote recovered
  · exact traces.setWriter _ _
  · exact traces.setWriter _ _

theorem Traces.flushWriter (packId : PackId) (packType : PackType) :
    Traces origin (session.flushWriter packId packType) :=
  (traces.setWriter packType .empty).mono rfl fun _ listed => List.mem_append_left _ listed

theorem Traces.withTracker (tracker : Option DumpRollbackTracker) :
    Traces origin { session with tracker := tracker } :=
  traces.mono rfl fun _ listed => listed

/-- A chunk recovered at the start has exactly one new delta entry once it is promoted, and
none before. -/
theorem Traces.count_newEntries (consistent : Consistent base session)
    (isOrigin : origin id = some entry) :
    (session.delta.newEntries.map NewChunkEntry.chunkId).count id =
      if (session.recovered id).isSome then 0 else 1 := by
  cases gone : session.recovered id with
  | some still =>
    have unknown := (consistent.recoveredNew id (by rw [gone]; rfl)).1
    rw [consistent.known, not_or] at unknown
    rw [List.count_eq_zero_of_not_mem unknown.2]
    rfl
  | none =>
    obtain ⟨added, listed, rfl, -⟩ := traces.promoted id entry isOrigin gone
    simpa using List.count_eq_one_of_mem consistent.fresh.distinct (List.mem_map_of_mem listed)

theorem Traces.locates (consistent : Consistent base session) (isOrigin : origin id = some entry)
    {added : NewChunkEntry} (listed : added ∈ session.delta.newEntries)
    (same : added.chunkId = id) :
    entry.Locates added := by
  have known : id ∈ session.known :=
    (consistent.known id).mpr (Or.inr (same ▸ List.mem_map_of_mem listed))
  have gone : session.recovered id = none := by
    cases recovered : session.recovered id with
    | none => rfl
    | some still => exact absurd known (consistent.recoveredNew id (by rw [recovered]; rfl)).1
  obtain ⟨promoted, promotedListed, samePromoted, located⟩ :=
    traces.promoted id entry isOrigin gone
  obtain rfl := List.inj_on_of_nodup_map consistent.fresh.distinct listed promotedListed
    (same.trans samePromoted.symm)
  exact located

end

end WriteSession

namespace Recording

open WriteSession

variable {base : ChunkIndex} {origin : ChunkId → Option RecoveredChunkEntry}
  {recording next : Recording} {op : SessionOp}

structure Traced (origin : ChunkId → Option RecoveredChunkEntry) (recording : Recording) :
    Prop where
  now : Traces origin recording.session
  dump : ∀ tracker, recording.session.tracker = some tracker →
    Traces origin recording.session.rollbackDumpCheckpoint

theorem start_traced (index : ChunkIndex) (journal : ChunkId → Option RecoveredChunkEntry) :
    Traced (start index journal).session.recovered (start index journal) :=
  ⟨start_traces index journal, fun tracker armed => by cases armed⟩

theorem Traced.step (traced : Traced origin recording) (kept : Kept base recording)
    (stepped : recording.step op = some next) : Traced origin next := by
  refine ⟨?_, fun later laterArmed => ?_⟩
  · rcases step_cases stepped with ⟨id, storedSize, packType, -, -, rfl⟩ |
      ⟨packId, packType, -, -, rfl⟩ | ⟨packId, -, rfl⟩ | ⟨-, rfl⟩ | ⟨tracker, -, armed, rfl⟩
    · exact traced.now.storeChunk id storedSize packType
    · exact traced.now.flushWriter packId packType
    · exact (traced.now.flushWriter packId .data).withTracker _
    · exact traced.now.withTracker none
    · exact traced.dump tracker armed
  · rcases (step_rollback kept.now kept.tracked stepped laterArmed).2 with
      ⟨tracker, armed, -, same | ⟨id, -, -, counted⟩⟩ | ⟨packId, -, began⟩
    · exact same ▸ traced.dump tracker armed
    · exact counted ▸ (traced.dump tracker armed).setWriter .tree _
    · exact began ▸ (traced.now.flushWriter packId .data).withTracker none

end Recording

end Vykar.Repo

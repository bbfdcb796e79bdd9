import Vykar.Index.Delta
import Vykar.Pack.Layout

/-!
The reference accounting of a write session (`repo/write_session.rs`,
`repo/mod.rs`, `repo/pack.rs`).

Every chunk reference of a backup goes through `storeChunk`: a known chunk is
bumped in the delta, a chunk recovered from an interrupted session is promoted,
a chunk of an unsealed pack is counted there, and any other chunk is added to a
pack.  Sealing a pack moves its counts into the delta, and a failed command dump
rolls the session back to the checkpoint taken when it began.
-/

namespace Vykar.Repo

open Index

inductive PackType where
  | data
  | tree
  deriving DecidableEq

structure BlobMeta where
  chunkId : ChunkId
  storedSize : Nat
  deriving DecidableEq

/-- The blobs of the pack being built, and for each the stored size and references. -/
structure PackWriter where
  blobMeta : List BlobMeta
  pending : Dict ChunkId (Nat × Nat)

namespace PackWriter

def empty : PackWriter := ⟨[], ∅⟩

def addBlob (writer : PackWriter) (id : ChunkId) (storedSize : Nat) : PackWriter :=
  ⟨writer.blobMeta ++ [⟨id, storedSize⟩], writer.pending.set id (storedSize, 1)⟩

def has (writer : PackWriter) (id : ChunkId) : Bool := (writer.pending.get? id).isSome

def incrementPending (writer : PackWriter) (id : ChunkId) : PackWriter :=
  { writer with pending := writer.pending.modify id fun (size, count) => (size, addU32 count 1) }

/-- The entries of a sealed pack, with the offsets of the blobs behind their length
prefixes. -/
def sealFrom (pending : Dict ChunkId (Nat × Nat)) (packId : PackId) :
    Nat → List BlobMeta → List NewChunkEntry
  | _, [] => []
  | offset, blob :: blobs =>
    ⟨blob.chunkId, blob.storedSize, packId, offset + 4,
        ((pending.get? blob.chunkId).map Prod.snd).getD 1⟩ ::
      sealFrom pending packId (offset + 4 + blob.storedSize) blobs

def sealEntries (writer : PackWriter) (packId : PackId) : List NewChunkEntry :=
  sealFrom writer.pending packId Pack.headerSize writer.blobMeta

def references (writer : PackWriter) (id : ChunkId) : Nat :=
  ((writer.pending.get? id).map Prod.snd).getD 0

end PackWriter

structure RecoveredChunkEntry where
  storedSize : Nat
  packId : PackId
  packOffset : Nat
  deriving DecidableEq

structure DumpRollbackTracker where
  newEntriesLen : Nat
  refcountBumps : Dict ChunkId Nat
  dedupInserts : List ChunkId
  promotedRecovered : List (ChunkId × RecoveredChunkEntry)

/-- `known` stands for the tiered index or the dedup map, whichever is active; both answer
whether a chunk is in the loaded index or was added by this session. -/
structure WriteSession where
  known : Finset ChunkId
  recovered : ChunkId → Option RecoveredChunkEntry
  delta : IndexDelta
  dataWriter : PackWriter
  treeWriter : PackWriter
  tracker : Option DumpRollbackTracker

namespace WriteSession

/-- A session on a loaded index; only journal entries that the index does not have are
recovered. -/
def start (index : ChunkIndex) (journal : ChunkId → Option RecoveredChunkEntry) :
    WriteSession where
  known := index.keysList.toFinset
  recovered := fun id => if index.contains id then none else journal id
  delta := .empty
  dataWriter := .empty
  treeWriter := .empty
  tracker := none

def writer (session : WriteSession) : PackType → PackWriter
  | .data => session.dataWriter
  | .tree => session.treeWriter

def setWriter (session : WriteSession) : PackType → PackWriter → WriteSession
  | .data, writer => { session with dataWriter := writer }
  | .tree, writer => { session with treeWriter := writer }

/-- `promote_recovered_chunk` -/
def promote (session : WriteSession) (id : ChunkId) (entry : RecoveredChunkEntry) :
    WriteSession :=
  { session with
    known := insert id session.known
    recovered := Function.update session.recovered id none
    delta := session.delta.addNewEntry
      ⟨id, entry.storedSize, entry.packId, entry.packOffset, 1⟩
    tracker := session.tracker.map fun tracker =>
      { tracker with
        dedupInserts := tracker.dedupInserts ++ [id]
        promotedRecovered := tracker.promotedRecovered ++ [(id, entry)] } }

def bumpRefPending (session : WriteSession) (id : ChunkId) : Option WriteSession :=
  if session.dataWriter.has id then
    some { session with dataWriter := session.dataWriter.incrementPending id }
  else if session.treeWriter.has id then
    some { session with treeWriter := session.treeWriter.incrementPending id }
  else none

/-- `bump_ref_if_exists` in the tiered and dedup modes -/
def bumpRefIfExists (session : WriteSession) (id : ChunkId) : Option WriteSession :=
  if id ∈ session.known then some { session with delta := session.delta.bumpRefcount id }
  else
    match session.recovered id with
    | some entry => some (session.promote id entry)
    | none => session.bumpRefPending id

/-- Add a chunk that is nowhere known to a pack (`commit_prepacked_chunk`). -/
def addBlob (session : WriteSession) (id : ChunkId) (storedSize : Nat)
    (packType : PackType) : WriteSession :=
  session.setWriter packType ((session.writer packType).addBlob id storedSize)

def storeChunk (session : WriteSession) (id : ChunkId) (storedSize : Nat)
    (packType : PackType) : WriteSession :=
  match session.bumpRefIfExists id with
  | some bumped => bumped
  | none => session.addBlob id storedSize packType

def applySealedEntries (session : WriteSession) (entries : List NewChunkEntry) : WriteSession :=
  { session with
    known := session.known ∪ (entries.map NewChunkEntry.chunkId).toFinset
    delta := { session.delta with newEntries := session.delta.newEntries ++ entries }
    tracker := session.tracker.map fun tracker =>
      { tracker with
        dedupInserts := tracker.dedupInserts ++ entries.map NewChunkEntry.chunkId } }

/-- `flush_writer_async`: seal a pack whose contents hash to `packId`. -/
def flushWriter (session : WriteSession) (packId : PackId) (packType : PackType) :
    WriteSession :=
  (session.setWriter packType .empty).applySealedEntries
    ((session.writer packType).sealEntries packId)

def beginDumpCheckpoint (session : WriteSession) (packId : PackId) : WriteSession :=
  let session := session.flushWriter packId .data
  { session with
    tracker := some ⟨session.delta.newEntries.length, session.delta.refcountBumps, [], []⟩ }

def commitDumpCheckpoint (session : WriteSession) : WriteSession :=
  { session with tracker := none }

def reinsert (promoted : List (ChunkId × RecoveredChunkEntry))
    (recovered : ChunkId → Option RecoveredChunkEntry) : ChunkId → Option RecoveredChunkEntry :=
  promoted.foldl (fun recovered pair => Function.update recovered pair.1 (some pair.2)) recovered

def rollbackDumpCheckpoint (session : WriteSession) : WriteSession :=
  match session.tracker with
  | none => session
  | some tracker =>
    { known := session.known \ tracker.dedupInserts.toFinset
      recovered := reinsert tracker.promotedRecovered session.recovered
      delta := session.delta.rollback tracker.newEntriesLen tracker.refcountBumps
      dataWriter := .empty
      treeWriter := session.treeWriter
      tracker := none }

theorem reinsert_cons (pair : ChunkId × RecoveredChunkEntry)
    (promoted : List (ChunkId × RecoveredChunkEntry))
    (recovered : ChunkId → Option RecoveredChunkEntry) :
    reinsert (pair :: promoted) recovered =
      reinsert promoted (Function.update recovered pair.1 (some pair.2)) := rfl

end WriteSession

/-- A pack being built has one blob per chunk, and the chunks with a blob are the pending
ones. -/
structure PackWriter.Tracked (writer : PackWriter) : Prop where
  distinct : (writer.blobMeta.map BlobMeta.chunkId).Nodup
  tracked : ∀ id, writer.has id = true ↔ id ∈ writer.blobMeta.map BlobMeta.chunkId

structure PackWriter.Sound (writer : PackWriter) : Prop extends writer.Tracked where
  positive : ∀ id, writer.has id = true → 1 ≤ writer.references id

namespace PackWriter

variable {writer : PackWriter} {id : ChunkId}

theorem empty_tracked : PackWriter.Tracked .empty :=
  ⟨List.nodup_nil, by simp [has, empty]⟩

@[simp]
theorem references_empty (id : ChunkId) : PackWriter.empty.references id = 0 := rfl

theorem references_of_not_has (unused : writer.has id = false) : writer.references id = 0 := by
  unfold has at unused
  unfold references
  rw [Option.isSome_eq_false_iff, Option.isNone_iff_eq_none] at unused
  rw [unused]
  rfl

theorem has_addBlob (writer : PackWriter) (id : ChunkId) (storedSize : Nat) (other : ChunkId) :
    (writer.addBlob id storedSize).has other = (decide (other = id) || writer.has other) := by
  unfold has addBlob
  by_cases same : other = id <;> simp [Dict.get?_set, same]

theorem references_addBlob (unused : writer.has id = false) (storedSize : Nat)
    (other : ChunkId) :
    (writer.addBlob id storedSize).references other =
      writer.references other + if other = id then 1 else 0 := by
  by_cases same : other = id
  · subst same
    rw [references_of_not_has unused]
    simp [references, addBlob]
  · simp [references, addBlob, Dict.get?_set, same]

theorem addBlob_tracked (tracked : writer.Tracked) (unused : writer.has id = false)
    (storedSize : Nat) : (writer.addBlob id storedSize).Tracked where
  distinct := by
    have absent : id ∉ writer.blobMeta.map BlobMeta.chunkId := by
      rw [← tracked.tracked, unused]
      simp
    simp only [addBlob, List.map_append, List.map_cons, List.map_nil]
    exact tracked.distinct.append (List.nodup_singleton _) (List.disjoint_singleton.mpr absent)
  tracked other := by
    rw [has_addBlob, Bool.or_eq_true, tracked.tracked]
    simp [addBlob, or_comm]

theorem references_addBlob_pos (positive : ∀ id, writer.has id = true → 1 ≤ writer.references id)
    (unused : writer.has id = false) (storedSize : Nat) {other : ChunkId}
    (used : (writer.addBlob id storedSize).has other = true) :
    1 ≤ (writer.addBlob id storedSize).references other := by
  rw [references_addBlob unused]
  by_cases same : other = id
  · simp [same]
  · rw [has_addBlob] at used
    simp only [same, decide_false, Bool.false_or] at used
    have counted := positive other used
    omega

theorem has_incrementPending (writer : PackWriter) (id other : ChunkId) :
    (writer.incrementPending id).has other = writer.has other := by
  unfold has incrementPending
  by_cases same : other = id <;> simp [Dict.get?_modify, same]

theorem references_incrementPending (used : writer.has id = true)
    (fits : writer.references id + 1 < 2 ^ 32) (other : ChunkId) :
    (writer.incrementPending id).references other =
      writer.references other + if other = id then 1 else 0 := by
  unfold has at used
  obtain ⟨⟨size, count⟩, found⟩ := Option.isSome_iff_exists.mp used
  unfold references at *
  simp only [found, Option.map_some, Option.getD_some] at fits
  unfold incrementPending
  by_cases same : other = id
  · simp [Dict.get?_modify, same, found, addU32_of_lt fits]
  · simp [Dict.get?_modify, same]

theorem incrementPending_tracked (tracked : writer.Tracked) (id : ChunkId) :
    (writer.incrementPending id).Tracked where
  distinct := tracked.distinct
  tracked other := by
    rw [has_incrementPending]
    exact tracked.tracked other

theorem references_incrementPending_pos
    (positive : ∀ id, writer.has id = true → 1 ≤ writer.references id)
    (used : writer.has id = true) (fits : writer.references id + 1 < 2 ^ 32) {other : ChunkId}
    (usedAfter : (writer.incrementPending id).has other = true) :
    1 ≤ (writer.incrementPending id).references other := by
  rw [has_incrementPending] at usedAfter
  have counted := positive other usedAfter
  rw [references_incrementPending used fits]
  omega

theorem sealFrom_chunkIds (pending : Dict ChunkId (Nat × Nat)) (packId : PackId) (offset : Nat)
    (blobs : List BlobMeta) :
    (sealFrom pending packId offset blobs).map NewChunkEntry.chunkId =
      blobs.map BlobMeta.chunkId := by
  induction blobs generalizing offset with
  | nil => rfl
  | cons blob blobs ih => simp [sealFrom, ih]

theorem sealFrom_refcount {pending : Dict ChunkId (Nat × Nat)} {packId : PackId} {offset : Nat}
    {blobs : List BlobMeta} {entry : NewChunkEntry}
    (listed : entry ∈ sealFrom pending packId offset blobs) :
    entry.refcount = ((pending.get? entry.chunkId).map Prod.snd).getD 1 := by
  induction blobs generalizing offset with
  | nil => cases listed
  | cons blob blobs ih =>
    rcases List.mem_cons.mp listed with rfl | later
    · rfl
    · exact ih later

theorem sealEntries_chunkIds (writer : PackWriter) (packId : PackId) :
    (writer.sealEntries packId).map NewChunkEntry.chunkId =
      writer.blobMeta.map BlobMeta.chunkId :=
  sealFrom_chunkIds _ _ _ _

theorem sealEntries_refcount (sound : writer.Sound) {packId : PackId} {entry : NewChunkEntry}
    (listed : entry ∈ writer.sealEntries packId) :
    entry.refcount = writer.references entry.chunkId ∧ 1 ≤ entry.refcount := by
  have used : writer.has entry.chunkId = true := by
    rw [sound.tracked, ← sealEntries_chunkIds writer packId]
    exact List.mem_map_of_mem listed
  have same : entry.refcount = writer.references entry.chunkId := by
    rw [sealFrom_refcount listed]
    unfold has at used
    obtain ⟨counted, found⟩ := Option.isSome_iff_exists.mp used
    simp [references, found]
  exact ⟨same, same ▸ sound.positive _ used⟩

theorem newReferences_sealEntries (sound : writer.Sound) (packId : PackId) (id : ChunkId) :
    IndexDelta.newReferences (writer.sealEntries packId) id = writer.references id := by
  by_cases listed : id ∈ (writer.sealEntries packId).map NewChunkEntry.chunkId
  · obtain ⟨entry, sealed, rfl⟩ := List.mem_map.mp listed
    rw [IndexDelta.newReferences_of_mem _ sealed, (sealEntries_refcount sound sealed).1]
    rw [sealEntries_chunkIds]
    exact sound.distinct
  · rw [IndexDelta.newReferences_of_not_mem listed, references_of_not_has]
    rw [sealEntries_chunkIds, ← sound.tracked] at listed
    simpa using listed

end PackWriter

end Vykar.Repo

import Vykar.Pack.Scan
import Vykar.Repo.WriteSession

/-!
The pack writer with its buffer (`repo/pack.rs`), against the scan of the sealed pack.

`PackWriter` of the write session tracks chunks and counts only; here the buffer is added.
The buffer is a pack of the blobs added so far, whatever was added.  The counts are kept per
chunk and not per blob, so they belong to the entries only if no chunk is added twice to one
pack: the callers look a chunk up among the pending ones before they add it.
-/

namespace Vykar.Repo

open Index Pack
open Vykar.Snapshot (VykarError)

structure BufferedWriter where
  buffer : Option Bytes
  currentSize : Nat
  tracking : PackWriter

structure SealedPack where
  packId : PackId
  entries : List NewChunkEntry
  data : Bytes
  deriving DecidableEq

inductive WriterOp where
  | addBlob (id : ChunkId) (blob : Bytes)
  | incrementPending (id : ChunkId)
  deriving DecidableEq

namespace BufferedWriter

def new : BufferedWriter := ⟨none, 0, .empty⟩

/-- `PackWriter::add_blob`, with the offset that it returns. -/
def addBlob (writer : BufferedWriter) (id : ChunkId) (blob : Bytes) : BufferedWriter × Nat :=
  let blobLen := blob.length % 2 ^ 32
  -- the first blob of a pack starts a new buffer
  let buffer := if writer.tracking.blobMeta.isEmpty then packHeader else writer.buffer.getD []
  (⟨some (buffer ++ (toLeBytes blobLen ++ blob)), writer.currentSize + (4 + blob.length),
    writer.tracking.addBlob id blobLen⟩, headerSize + writer.currentSize + 4)

def incrementPending (writer : BufferedWriter) (id : ChunkId) : BufferedWriter :=
  { writer with tracking := writer.tracking.incrementPending id }

/-- `PackWriter::seal` -/
def sealPack (computeId : Bytes → PackId) (writer : BufferedWriter) :
    BufferedWriter × Except VykarError SealedPack :=
  if writer.tracking.blobMeta.isEmpty then
    (writer, .error (.other "cannot seal empty pack writer"))
  else
    let data := writer.buffer.getD []
    let packId := computeId data
    (new, .ok ⟨packId, writer.tracking.sealEntries packId, data⟩)

def apply (writer : BufferedWriter) : WriterOp → BufferedWriter
  | .addBlob id blob => (writer.addBlob id blob).1
  | .incrementPending id => writer.incrementPending id

def run (ops : List WriterOp) : BufferedWriter := ops.foldl apply new

end BufferedWriter

def additions (ops : List WriterOp) : List (ChunkId × Bytes) :=
  ops.filterMap fun
    | .addBlob id blob => some (id, blob)
    | .incrementPending _ => none

/-- For every blob, one and the increments of its chunk after the blob was added. -/
def expectedRefcounts : List WriterOp → List Nat
  | [] => []
  | .addBlob id _ :: ops => (1 + ops.count (.incrementPending id)) :: expectedRefcounts ops
  | .incrementPending _ :: ops => expectedRefcounts ops

def incrementsSince (id : ChunkId) : List WriterOp → Nat
  | [] => 0
  | .addBlob other _ :: ops =>
    if other = id then ops.count (.incrementPending id) else incrementsSince id ops
  | .incrementPending _ :: ops => incrementsSince id ops

section Counting

variable {id : ChunkId} {ops : List WriterOp}

theorem additions_append (first second : List WriterOp) :
    additions (first ++ second) = additions first ++ additions second :=
  List.filterMap_append

theorem additions_cons_addBlob (id : ChunkId) (blob : Bytes) (ops : List WriterOp) :
    additions (.addBlob id blob :: ops) = (id, blob) :: additions ops := rfl

theorem incrementsSince_concat_addBlob (blob : Bytes)
    (absent : id ∉ (additions ops).map Prod.fst) :
    incrementsSince id (ops ++ [.addBlob id blob]) = 0 := by
  induction ops with
  | nil => simp [incrementsSince]
  | cons op ops ih =>
    cases op with
    | addBlob other held =>
      rw [additions_cons_addBlob, List.map_cons, List.mem_cons, not_or] at absent
      rw [List.cons_append, incrementsSince, if_neg fun same => absent.1 same.symm]
      exact ih absent.2
    | incrementPending other => exact ih absent

theorem incrementsSince_concat (op : WriterOp) (added : id ∈ (additions ops).map Prod.fst) :
    incrementsSince id (ops ++ [op]) =
      incrementsSince id ops + if op = .incrementPending id then 1 else 0 := by
  induction ops with
  | nil => cases added
  | cons head ops ih =>
    cases head with
    | addBlob other blob =>
      by_cases same : other = id
      · simp only [List.cons_append, incrementsSince, if_pos same, List.count_append,
          List.count_singleton, beq_iff_eq]
      · have later : id ∈ (additions ops).map Prod.fst := by
          rcases List.mem_cons.mp added with isHead | among
          · exact absurd isHead.symm same
          · exact among
        simp only [List.cons_append, incrementsSince, if_neg same, ih later]
    | incrementPending other => exact ih added

theorem incrementsSince_le_count (id : ChunkId) (ops : List WriterOp) :
    incrementsSince id ops ≤ ops.count (.incrementPending id) := by
  induction ops with
  | nil => exact Nat.le_refl _
  | cons op ops ih =>
    have more : ops.count (.incrementPending id) ≤ (op :: ops).count (.incrementPending id) :=
      (List.sublist_cons_self op ops).count_le _
    cases op with
    | addBlob other blob =>
      rw [incrementsSince]
      split
      · exact more
      · exact ih.trans more
    | incrementPending other => exact ih.trans more

/-- If no chunk is added twice, counts per chunk are counts per blob. -/
theorem expectedRefcounts_eq (distinct : ((additions ops).map Prod.fst).Nodup) :
    expectedRefcounts ops =
      ((additions ops).map Prod.fst).map fun id => 1 + incrementsSince id ops := by
  induction ops with
  | nil => rfl
  | cons op ops ih =>
    cases op with
    | addBlob id blob =>
      obtain ⟨absent, later⟩ := List.nodup_cons.mp distinct
      have others : ((additions ops).map Prod.fst).map (fun other =>
          1 + incrementsSince other (.addBlob id blob :: ops)) =
            ((additions ops).map Prod.fst).map fun other => 1 + incrementsSince other ops := by
        refine List.map_congr_left fun other listed => ?_
        rw [incrementsSince, if_neg]
        rintro rfl
        exact absent listed
      rw [expectedRefcounts, ih later, ← others]
      rw [additions_cons_addBlob, List.map_cons, List.map_cons, incrementsSince, if_pos rfl]
    | incrementPending id => exact ih distinct

end Counting

section Buffer

theorem bodyBytes_concat (blobs : List Bytes) (blob : Bytes) :
    bodyBytes (blobs ++ [blob]) = bodyBytes blobs ++ (toLeBytes blob.length ++ blob) := by
  induction blobs with
  | nil => simp [bodyBytes]
  | cons first blobs ih =>
    rw [List.cons_append, bodyBytes_cons, bodyBytes_cons, ih]
    simp only [List.append_assoc]

theorem toLeBytes_mod (value : Nat) : toLeBytes (value % 2 ^ 32) = toLeBytes value := by
  simp only [toLeBytes, List.cons.injEq, and_true]
  refine ⟨?_, ?_, ?_, ?_⟩ <;>
    · apply UInt8.toNat.inj
      rw [UInt8.toNat_ofNat', UInt8.toNat_ofNat']
      omega

structure BufferedWriter.Holds (writer : BufferedWriter) (ops : List WriterOp) : Prop where
  blobMeta : writer.tracking.blobMeta =
    (additions ops).map fun (id, blob) => ⟨id, blob.length % 2 ^ 32⟩
  buffer : additions ops ≠ [] → writer.buffer = some (packBytes ((additions ops).map Prod.snd))
  counts : ((additions ops).map Prod.fst).Nodup → ∀ id,
    (writer.tracking.pending.get? id).map Prod.snd =
      if id ∈ (additions ops).map Prod.fst then some ((1 + incrementsSince id ops) % 2 ^ 32)
      else none

namespace BufferedWriter.Holds

variable {writer : BufferedWriter} {ops : List WriterOp}

theorem isEmpty_eq (holds : writer.Holds ops) :
    writer.tracking.blobMeta.isEmpty = (additions ops).isEmpty := by
  rw [holds.blobMeta, List.isEmpty_map]

theorem addBlob (holds : writer.Holds ops) (id : ChunkId) (blob : Bytes) :
    (writer.addBlob id blob).1.Holds (ops ++ [.addBlob id blob]) := by
  have more : additions (ops ++ [.addBlob id blob]) = additions ops ++ [(id, blob)] :=
    additions_append _ _
  refine ⟨?_, fun _ => ?_, fun distinct other => ?_⟩
  · rw [more, List.map_append, ← holds.blobMeta]
    rfl
  · have started : (if writer.tracking.blobMeta.isEmpty then packHeader
        else writer.buffer.getD []) = packBytes ((additions ops).map Prod.snd) := by
      rw [holds.isEmpty_eq]
      by_cases none : additions ops = []
      · simp [none, packBytes, bodyBytes]
      · rw [if_neg (by simpa using none), holds.buffer none, Option.getD_some]
    simp only [BufferedWriter.addBlob, started, more, List.map_append, List.map_cons,
      List.map_nil, toLeBytes_mod]
    rw [packBytes, packBytes, bodyBytes_concat, List.append_assoc]
  · rw [more, List.map_append] at distinct ⊢
    obtain ⟨before, -, apart⟩ := List.nodup_append.mp distinct
    have absent : id ∉ (additions ops).map Prod.fst := fun listed =>
      apart id listed id (by simp) rfl
    simp only [BufferedWriter.addBlob, PackWriter.addBlob, Dict.get?_set]
    by_cases same : other = id
    · subst same
      rw [incrementsSince_concat_addBlob blob absent]
      simp
    · rw [if_neg same, holds.counts before other]
      by_cases listed : other ∈ (additions ops).map Prod.fst
      · rw [if_pos listed, if_pos (List.mem_append_left _ listed),
          incrementsSince_concat _ listed, if_neg (by simp)]
        rfl
      · rw [if_neg listed, if_neg (by simpa [same] using listed)]

theorem incrementPending (holds : writer.Holds ops) (id : ChunkId) :
    (writer.incrementPending id).Holds (ops ++ [.incrementPending id]) := by
  have same : additions (ops ++ [.incrementPending id]) = additions ops := by
    rw [additions_append]
    exact List.append_nil _
  refine ⟨?_, ?_, ?_⟩
  · rw [same]
    exact holds.blobMeta
  · rw [same]
    exact holds.buffer
  · rw [same]
    intro distinct other
    have before := holds.counts distinct
    simp only [BufferedWriter.incrementPending, PackWriter.incrementPending, Dict.get?_modify]
    by_cases listed : other ∈ (additions ops).map Prod.fst
    · rw [if_pos listed, incrementsSince_concat _ listed]
      have held := before other
      rw [if_pos listed] at held
      by_cases isOther : other = id
      · subst isOther
        obtain ⟨⟨size, count⟩, found, isCount⟩ := Option.map_eq_some_iff.mp held
        simp only at isCount
        simp only [found, if_true, Option.map_some, isCount, addU32, Nat.mod_add_mod]
        rfl
      · rw [if_neg isOther, held, if_neg]
        · rfl
        · intro isOp
          exact isOther (WriterOp.incrementPending.inj isOp).symm
    · have held := before other
      rw [if_neg listed] at held ⊢
      by_cases isOther : other = id
      · subst isOther
        simp [Option.map_eq_none_iff.mp held]
      · rw [if_neg isOther, held]

end BufferedWriter.Holds

theorem BufferedWriter.holds_run (ops : List WriterOp) : (run ops).Holds ops := by
  induction ops using List.reverseRecOn with
  | nil =>
    refine ⟨rfl, fun filled => absurd rfl filled, fun _ id => ?_⟩
    simp [run, new, PackWriter.empty, additions]
  | append_singleton ops op ih =>
    rw [run, List.foldl_append]
    cases op with
    | addBlob id blob => exact ih.addBlob id blob
    | incrementPending id => exact ih.incrementPending id

end Buffer

section Sealing

variable (pending : Dict ChunkId (Nat × Nat)) (packId : PackId)

def entryRange (entry : NewChunkEntry) : Nat × Nat := (entry.packOffset, entry.storedSize)

theorem sealFrom_ranges (start : Nat) (blobs : List BlobMeta) :
    (PackWriter.sealFrom pending packId start blobs).map entryRange =
      (blobOffsets start (blobs.map BlobMeta.storedSize)).zip
        (blobs.map BlobMeta.storedSize) := by
  induction blobs generalizing start with
  | nil => rfl
  | cons blob blobs ih =>
    rw [PackWriter.sealFrom, List.map_cons, ih, List.map_cons, blobOffsets,
      List.zip_cons_cons]
    rfl

theorem sealFrom_refcounts (start : Nat) (blobs : List BlobMeta) :
    (PackWriter.sealFrom pending packId start blobs).map NewChunkEntry.refcount =
      (blobs.map BlobMeta.chunkId).map fun id => ((pending.get? id).map Prod.snd).getD 1 := by
  induction blobs generalizing start with
  | nil => rfl
  | cons blob blobs ih =>
    rw [PackWriter.sealFrom, List.map_cons, ih, List.map_cons, List.map_cons]

variable {ops : List WriterOp}

theorem sealPack_run (computeId : Bytes → PackId) (filled : additions ops ≠ []) :
    ∃ pack, (BufferedWriter.run ops).sealPack computeId = (.new, .ok pack) ∧
      pack.data = packBytes ((additions ops).map Prod.snd) ∧
      pack.entries = (BufferedWriter.run ops).tracking.sealEntries pack.packId := by
  have holds := BufferedWriter.holds_run ops
  let data := packBytes ((additions ops).map Prod.snd)
  refine ⟨⟨computeId data, (BufferedWriter.run ops).tracking.sealEntries (computeId data), data⟩,
    ?_, rfl, rfl⟩
  rw [BufferedWriter.sealPack, if_neg (by rw [holds.isEmpty_eq]; simpa using filled),
    holds.buffer filled]
  rfl

theorem storedSizes_run (small : Prefixable ((additions ops).map Prod.snd)) :
    (BufferedWriter.run ops).tracking.blobMeta.map BlobMeta.storedSize =
      ((additions ops).map Prod.snd).map List.length := by
  rw [(BufferedWriter.holds_run ops).blobMeta, List.map_map, List.map_map]
  refine List.map_congr_left fun added listed => ?_
  exact Nat.mod_eq_of_lt (small _ (List.mem_map_of_mem listed))

theorem chunkIds_run :
    (BufferedWriter.run ops).tracking.blobMeta.map BlobMeta.chunkId =
      (additions ops).map Prod.fst := by
  rw [(BufferedWriter.holds_run ops).blobMeta, List.map_map]
  rfl

theorem sealEntries_ranges (small : Prefixable ((additions ops).map Prod.snd)) :
    ((BufferedWriter.run ops).tracking.sealEntries packId).map entryRange =
      blobRanges headerSize ((additions ops).map Prod.snd) := by
  rw [PackWriter.sealEntries, sealFrom_ranges, storedSizes_run small]
  rfl

theorem sealEntries_refcounts (distinct : ((additions ops).map Prod.fst).Nodup)
    (few : ∀ id, ops.count (.incrementPending id) + 1 < 2 ^ 32) :
    ((BufferedWriter.run ops).tracking.sealEntries packId).map NewChunkEntry.refcount =
      expectedRefcounts ops := by
  rw [PackWriter.sealEntries, sealFrom_refcounts, chunkIds_run, expectedRefcounts_eq distinct]
  refine List.map_congr_left fun id listed => ?_
  have bound := incrementsSince_le_count id ops
  have fits := few id
  rw [(BufferedWriter.holds_run ops).counts distinct id, if_pos listed, Option.getD_some,
    Nat.mod_eq_of_lt (by omega)]

end Sealing

/-- Scanning a sealed pack returns its entries, each with its blob and its references, if no
chunk is added twice and lengths and counts fit into 32 bits.  Of all byte strings the scan
accepts exactly the packs, and these are rebuilt from what it returns. -/
theorem pack_codec (computeId : Bytes → PackId) (ops : List WriterOp) :
    (((additions ops).map Prod.fst).Nodup → Prefixable ((additions ops).map Prod.snd) →
      (∀ id, ops.count (.incrementPending id) + 1 < 2 ^ 32) → additions ops ≠ [] →
      ∃ pack, (BufferedWriter.run ops).sealPack computeId = (.new, .ok pack) ∧
        scanPackBlobsBytes pack.data = .ok (pack.entries.map entryRange) ∧
        pack.entries.map NewChunkEntry.chunkId = (additions ops).map Prod.fst ∧
        blobsAt pack.data (pack.entries.map entryRange) = (additions ops).map Prod.snd ∧
        pack.entries.map NewChunkEntry.refcount = expectedRefcounts ops) ∧
      ∀ packData : Bytes,
        ((∃ ranges, scanPackBlobsBytes packData = .ok ranges) ↔
          ∃ blobs, Prefixable blobs ∧ packData = packBytes blobs) ∧
        ∀ ranges, scanPackBlobsBytes packData = .ok ranges →
          packBytes (blobsAt packData ranges) = packData := by
  refine ⟨fun distinct small few filled => ?_, fun packData => ⟨?_, ?_⟩⟩
  · obtain ⟨pack, isSealed, data, entries⟩ := sealPack_run computeId filled
    refine ⟨pack, isSealed, ?_⟩
    rw [entries, data, sealEntries_ranges _ small]
    refine ⟨scanPackBlobsBytes_packBytes small, ?_, blobsAt_packBytes _,
      sealEntries_refcounts _ distinct few⟩
    rw [PackWriter.sealEntries_chunkIds, chunkIds_run]
  · constructor
    · rintro ⟨ranges, scanned⟩
      obtain ⟨blobs, small, whole, -⟩ := scanPackBlobsBytes_ok_iff.mp scanned
      exact ⟨blobs, small, whole⟩
    · rintro ⟨blobs, small, rfl⟩
      exact ⟨_, scanPackBlobsBytes_packBytes small⟩
  · intro ranges scanned
    obtain ⟨blobs, -, rfl, rfl⟩ := scanPackBlobsBytes_ok_iff.mp scanned
    rw [blobsAt_packBytes]

/-- Two blobs, the first of them referenced three times. -/
theorem pack_codec_two_blobs :
    ∃ pack, (BufferedWriter.run [.addBlob 1 [7], .incrementPending 1, .addBlob 2 [8, 9],
        .incrementPending 1]).sealPack (fun _ => 0) = (.new, .ok pack) ∧
      scanPackBlobsBytes pack.data = .ok (pack.entries.map entryRange) ∧
      pack.entries.map NewChunkEntry.refcount = [3, 1] := by
  obtain ⟨pack, isSealed, scanned, -, -, refcounts⟩ := (pack_codec (fun _ => 0)
    [.addBlob 1 [7], .incrementPending 1, .addBlob 2 [8, 9], .incrementPending 1]).1
      (by decide +kernel) (by unfold Prefixable; decide +kernel)
      (fun id => by
        have bound := @List.count_le_length _ _ (WriterOp.incrementPending id)
          [.addBlob 1 [7], .incrementPending 1, .addBlob 2 [8, 9], .incrementPending 1]
        simp only [List.length_cons, List.length_nil] at bound
        omega) (by decide +kernel)
  exact ⟨pack, isSealed, scanned, refcounts.trans (by decide +kernel)⟩

/-- A chunk that is added again while it is pending loses the reference counted before. -/
theorem pending_chunk_added_again :
    ((BufferedWriter.run [.addBlob 1 [7], .incrementPending 1, .addBlob 1 [7]]).sealPack
        (fun _ => 0)).2.toOption.map (fun pack => pack.entries.map NewChunkEntry.refcount) =
      some [1, 1] ∧
    expectedRefcounts [.addBlob 1 [7], .incrementPending 1, .addBlob 1 [7]] = [2, 1] := by
  decide +kernel

end Vykar.Repo

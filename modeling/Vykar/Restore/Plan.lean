import Vykar.Lib.PositionedWrites
import Vykar.Restore.Model
import Vykar.Snapshot.Reading

/-!
Planning the writes of a restore (`commands/restore.rs`).

Every chunk of the planned files is listed with the places it has to be written to.  The chunks
are looked up in the index and those that are close together in a pack are read at once.  The
read groups are shared out among threads, and each group turns into writes, in which places of
one file that follow each other are put together.

The maps over chunks and packs are iterated in an unspecified order; the chunks are given as a
list in any order here.
-/

namespace Vykar.Restore

open Index Pack Snapshot

def maxCoalesceGap : Nat := 256 * 1024

def maxReadSize : Nat := 16 * 1024 * 1024

def maxOpenFilesPerGroup : Nat := 16

def maxWriteBatch : Nat := 1024 * 1024

structure WriteTarget where
  fileIdx : Nat
  fileOffset : Nat
  deriving DecidableEq

structure ChunkTargets where
  expectedSize : Nat
  targets : List WriteTarget
  deriving DecidableEq

structure PlannedBlob where
  chunkId : ChunkId
  packOffset : Nat
  storedSize : Nat
  expectedSize : Nat
  targets : List WriteTarget
  deriving DecidableEq

structure ReadGroup where
  packId : PackId
  readStart : Nat
  readEnd : Nat
  blobs : List PlannedBlob
  deriving DecidableEq

/-- The chunks of one file in `stream_and_plan`. -/
def addTargets (fileIdx : Nat) : Nat → Dict ChunkId ChunkTargets → List ChunkRef →
    Option (Dict ChunkId ChunkTargets)
  | _, chunkTargets, [] => some chunkTargets
  | fileOffset, chunkTargets, chunk :: chunks =>
    let entry := (chunkTargets.get? chunk.id).getD ⟨chunk.size, []⟩
    if entry.expectedSize = chunk.size then
      addTargets fileIdx (fileOffset + chunk.size)
        (chunkTargets.set chunk.id
          { entry with targets := entry.targets ++ [⟨fileIdx, fileOffset⟩] }) chunks
    else none

/-- The chunks of all files, from the given index on. -/
def planTargets : Nat → Dict ChunkId ChunkTargets → List (List ChunkRef) →
    Option (Dict ChunkId ChunkTargets)
  | _, chunkTargets, [] => some chunkTargets
  | fileIdx, chunkTargets, chunks :: files => do
      let next ← addTargets fileIdx 0 chunkTargets chunks
      planTargets (fileIdx + 1) next files

/-- Extend a group by the blobs that follow it, or start a new one. -/
def extendGroup (current : ReadGroup) : List PlannedBlob → List ReadGroup
  | [] => [current]
  | blob :: blobs =>
    let blobEnd := blob.packOffset + blob.storedSize
    if blob.packOffset - current.readEnd ≤ maxCoalesceGap ∧
        blobEnd - current.readStart ≤ maxReadSize then
      extendGroup { current with readEnd := blobEnd, blobs := current.blobs ++ [blob] } blobs
    else
      current :: extendGroup ⟨current.packId, blob.packOffset, blobEnd, [blob]⟩ blobs

def packGroups (packId : PackId) (blobs : List PlannedBlob) : List ReadGroup :=
  match blobs.insertionSort fun first second => first.packOffset ≤ second.packOffset with
  | [] => []
  | first :: rest =>
    extendGroup ⟨packId, first.packOffset, first.packOffset + first.storedSize, [first]⟩ rest

/-- The place of a chunk in the index; `ChunkNotInIndex` if it has none. -/
def locate (index : ChunkIndex) (entry : ChunkId × ChunkTargets) :
    Option (PackId × PlannedBlob) :=
  (index.get? entry.1).map fun found =>
    (found.packId, ⟨entry.1, found.packOffset, found.storedSize, entry.2.expectedSize,
      entry.2.targets⟩)

def buildReadGroups (index : ChunkIndex) (entries : List (ChunkId × ChunkTargets)) :
    Option (List ReadGroup) := do
  let located ← entries.mapM (locate index)
  some ((located.map Prod.fst).dedup.flatMap fun packId =>
    packGroups packId ((located.filter fun entry => entry.1 = packId).map Prod.snd))

def sortGroups (groups : List ReadGroup) : List ReadGroup :=
  groups.insertionSort fun first second =>
    first.packId < second.packId ∨
      first.packId = second.packId ∧ first.readStart ≤ second.readStart

/-- `lightest_bucket`: the first of those with the fewest bytes. -/
def lightestBucket (bucketBytes : List Nat) : Nat :=
  bucketBytes.findIdx fun bytes => bucketBytes.all fun other => bytes ≤ other

structure Buckets where
  buckets : List (List ReadGroup)
  bucketBytes : List Nat
  packAffinity : Dict PackId Nat

def Buckets.dest (state : Buckets) (cap : Nat) (group : ReadGroup) : Nat :=
  match state.packAffinity.get? group.packId with
  | some affinity =>
    if (state.bucketBytes[affinity]?).getD 0 + (group.readEnd - group.readStart) ≤ cap then
      affinity
    else lightestBucket state.bucketBytes
  | none => lightestBucket state.bucketBytes

def Buckets.assign (cap : Nat) (state : Buckets) (group : ReadGroup) : Buckets :=
  let dest := state.dest cap group
  { buckets := state.buckets.modify dest fun bucket => bucket ++ [group]
    bucketBytes := state.bucketBytes.modify dest fun bytes =>
      bytes + (group.readEnd - group.readStart)
    packAffinity := state.packAffinity.set group.packId dest }

def partitionGroups (groups : List ReadGroup) (numThreads : Nat) : List (List ReadGroup) :=
  let totalBytes := (groups.map fun group => group.readEnd - group.readStart).sum
  let cap := totalBytes / numThreads * 13 / 10
  let start : Buckets := ⟨List.replicate numThreads [], List.replicate numThreads 0, ∅⟩
  (groups.foldl (Buckets.assign cap) start).buckets.filter fun bucket => bucket ≠ []

abbrev WriteCall := PositionedWrite Nat UInt8

/-- The write accumulator; `target` is the file and the start of an active sequence. -/
structure PendingWrite where
  target : Option (Nat × Nat)
  buf : Bytes

namespace PendingWrite

def reset : PendingWrite := ⟨none, []⟩

/-- `flush_pending` -/
def flush (pending : PendingWrite) : List WriteCall :=
  match pending.target with
  | some (fileIdx, start) => if pending.buf = [] then [] else [⟨fileIdx, start, pending.buf⟩]
  | none => []

def contiguous (pending : PendingWrite) (target : WriteTarget) : Bool :=
  pending.target.any fun (fileIdx, start) =>
    fileIdx = target.fileIdx ∧ target.fileOffset = start + pending.buf.length

/-- One target of a blob: append to the accumulator, or flush it and start again. -/
def writeTarget (pending : PendingWrite) (data : Bytes) (target : WriteTarget) :
    PendingWrite × List WriteCall :=
  if pending.contiguous target ∧ pending.buf.length + data.length ≤ maxWriteBatch then
    let appended := { pending with buf := pending.buf ++ data }
    if maxWriteBatch ≤ appended.buf.length then (reset, appended.flush) else (appended, [])
  else if pending.contiguous target ∨ maxWriteBatch ≤ data.length then
    (reset, pending.flush ++ [⟨target.fileIdx, target.fileOffset, data⟩])
  else (⟨some (target.fileIdx, target.fileOffset), data⟩, pending.flush)

def writeTargets (data : Bytes) : PendingWrite → List WriteTarget →
    PendingWrite × List WriteCall
  | pending, [] => (pending, [])
  | pending, target :: targets =>
    let (next, calls) := pending.writeTarget data target
    let (last, later) := writeTargets data next targets
    (last, calls ++ later)

end PendingWrite

section Decode

variable (external : External)

/-- `decompress_into_with_hint`, with the expected size as hint. -/
def decompressWithHint (data : Bytes) (expectedSize : Nat) : Except VykarError Bytes :=
  match data with
  | 2 :: payload => do
      let cap := min (max expectedSize 1) External.maxDecompressSize
      let output ← (external.zstd payload (cap + 1)).mapError fun message =>
        VykarError.decompression s!"zstd: {message}"
      if cap < output.length then
        .error (.decompression "zstd: Destination buffer is too small")
      else .ok output
  | _ => external.decompress data

/-- The plaintext of a chunk from its stored bytes; it must have the expected size. -/
def decodeChunk (chunkId : ChunkId) (expectedSize : Nat) (raw : Bytes) : Option Bytes :=
  match external.unpackObject .chunkData (idBytes chunkId) raw >>= fun compressed =>
      decompressWithHint external compressed expectedSize with
  | .ok data => if data.length = expectedSize then some data else none
  | .error _ => none

/-- The plaintext of a chunk that is stored where the index says. -/
def plaintext (packs : Dict PackId Bytes) (index : ChunkIndex) (chunk : ChunkRef) :
    Option Bytes := do
  let entry ← index.get? chunk.id
  let file ← packs.get? entry.packId
  let raw ← readRange file entry.packOffset entry.storedSize
  decodeChunk external chunk.id chunk.size raw

/-- The blobs of a group, taken out of the bytes read for it. -/
def blobWrites (readStart : Nat) (data : Bytes) : PendingWrite → List PlannedBlob →
    Option (List WriteCall)
  | pending, [] => some pending.flush
  | pending, blob :: blobs => do
      let localOffset := blob.packOffset - readStart
      if data.length < localOffset + blob.storedSize then none
      else
        let raw := (data.drop localOffset).take blob.storedSize
        let decoded ← decodeChunk external blob.chunkId blob.expectedSize raw
        let (next, calls) := pending.writeTargets decoded blob.targets
        let later ← blobWrites readStart data next blobs
        some (calls ++ later)

/-- The writes of `process_read_group`. -/
def groupWrites (packs : Dict PackId Bytes) (group : ReadGroup) : Option (List WriteCall) := do
  let file ← packs.get? group.packId
  let data ← readRange file group.readStart (group.readEnd - group.readStart)
  blobWrites external group.readStart data .reset group.blobs

end Decode

end Vykar.Restore

import Vykar.Index.CommitOrder

/-!
The fast path of a commit (`try_fast_path_commit`, `index/dedup_cache.rs`).

When the stored index object equals the cached copy of the session's generation,
the commit merges the local full index cache with the delta and publishes the
result without decoding the stored index.  Counts in the cache file are `u32`, and
an index object is read back through `decompress_metadata`, which refuses more than
4 GiB.
-/

namespace Vykar.Index

/-- The length of a serialized `IndexBlob`, as far as it matters here: the order of the entries does
not change it, and every entry takes at least a byte. -/
structure BlobSize where
  bytes : Nat → List (ChunkId × ChunkIndexEntry) → Nat
  bytes_perm {first second : List (ChunkId × ChunkIndexEntry)} (perm : first.Perm second)
    (generation : Nat) : bytes generation first = bytes generation second
  length_lt (generation : Nat) (entries : List (ChunkId × ChunkIndexEntry)) :
    entries.length < bytes generation entries

def maxMetadataDecompressSize : Nat := 4 * 1024 * 1024 * 1024

/-- A packed `IndexBlob`: what the ciphertext stands for and the nonce it was made with. -/
structure IndexObject where
  nonce : Nat
  generation : Nat
  chunks : ChunkIndex
  deriving DecidableEq

/-- `decode_raw_index_blob` -/
def IndexObject.decode (size : BlobSize) (object : IndexObject) : Option ChunkIndex :=
  if size.bytes object.generation object.chunks.toList ≤ maxMetadataDecompressSize then
    some object.chunks
  else none

/-- The file behind `MmapFullIndexCache`. -/
structure FullIndexFile where
  generation : Nat
  entryCount : Nat
  entries : List (ChunkId × ChunkIndexEntry)

namespace FullIndexFile

/-- `MmapFullIndexCache::open_path`; the file is as long as its entries. -/
def openPath (file : Option FullIndexFile) (expectedGeneration : Nat) : Option FullIndexFile := do
  let file ← file
  if expectedGeneration ≠ 0 ∧ file.generation = expectedGeneration ∧
      file.entries.length = file.entryCount then some file
  else none

/-- `build_full_index_cache` -/
def build (index : ChunkIndex) (generation : Nat) : FullIndexFile :=
  ⟨generation, index.toList.length % 2 ^ 32, fullIndexCache index⟩

/-- `merge_full_index_cache` -/
def merge (old : FullIndexFile) (delta : IndexDelta) (generation : Nat) : FullIndexFile :=
  ⟨generation, addU32 old.entryCount (delta.newEntries.length % 2 ^ 32),
    mergeFullIndexCache old.entries delta⟩

end FullIndexFile

/-- The cache files of one machine: the index blob cache with its generation, and the full
index cache. -/
structure LocalCaches where
  indexBlob : Option (Nat × IndexObject)
  fullIndex : Option FullIndexFile

/-- `read_index_blob_cache` -/
def LocalCaches.readIndexBlob (caches : LocalCaches) (expectedGeneration : Nat) :
    Option IndexObject := do
  let (generation, object) ← caches.indexBlob
  if expectedGeneration ≠ 0 ∧ generation = expectedGeneration then some object else none

inductive CommitFailure where
  | reconcile (error : CommitError)
  | indexUndecodable
  | packsMissing
  | mergedCacheUnreadable
  deriving DecidableEq

/-- `verify_delta_packs` -/
def IndexDelta.packsStored (delta : IndexDelta) (stored : PackId → Bool) : Bool :=
  delta.newEntries.all fun entry => stored entry.packId

def fastPathCache (caches : LocalCaches) (generation : Nat) (raw : IndexObject) :
    Option FullIndexFile :=
  if caches.readIndexBlob generation = some raw then
    FullIndexFile.openPath caches.fullIndex generation
  else none

/-- `try_fast_path_commit`: the object to publish and the merged cache, or `none` when it
declines. -/
def tryFastPathCommit (caches : LocalCaches) (generation : Nat) (raw : IndexObject)
    (delta : IndexDelta) (stored : PackId → Bool) (newGeneration nonce : Nat) :
    Except CommitFailure (Option (IndexObject × FullIndexFile)) :=
  match fastPathCache caches generation raw with
  | none => .ok none
  | some old =>
    if delta.packsStored stored then
      match FullIndexFile.openPath (some (old.merge delta newGeneration)) newGeneration with
      | none => .error .mergedCacheUnreadable
      | some merged =>
        .ok (some (⟨nonce, newGeneration, Dict.ofList merged.entries⟩, merged))
    else .error .packsMissing

def slowPathCommit (size : BlobSize) (raw : IndexObject) (delta : IndexDelta)
    (stored : PackId → Bool) : Except CommitFailure ChunkIndex :=
  match raw.decode size with
  | none => .error .indexUndecodable
  | some fresh =>
    match delta.reconcile fresh with
    | .error failure => .error (.reconcile failure)
    | .ok reconciled =>
      if reconciled.packsStored stored then .ok (reconciled.applyTo fresh)
      else .error .packsMissing

/-- The fast path declines, or publishes an object that decodes to the index of the slow path,
or fails where the slow path fails. -/
def Agrees (size : BlobSize) (fast : Except CommitFailure (Option (IndexObject × FullIndexFile)))
    (slow : Except CommitFailure ChunkIndex) : Prop :=
  match fast with
  | .ok none => True
  | .ok (some (object, _)) => ∃ decoded applied, object.decode size = some decoded ∧
      slow = .ok applied ∧ ∀ id, decoded.get? id = applied.get? id
  | .error _ => ∃ failure, slow = .error failure

namespace IndexDelta

variable {index : ChunkIndex} {delta : IndexDelta} {id : ChunkId}

theorem Fresh.reconcile (fresh : delta.Fresh index) (known : delta.BumpsKnown index) :
    delta.reconcile index = .ok delta := by
  have stillNew : delta.newEntries.filter (fun entry => !index.contains entry.chunkId) =
      delta.newEntries :=
    List.filter_eq_self.mpr fun entry listed => by rw [fresh.absent entry listed]; rfl
  have noneKnown : delta.newEntries.filter (fun entry => index.contains entry.chunkId) = [] :=
    List.filter_eq_nil_iff.mpr fun entry listed => by rw [fresh.absent entry listed]; simp
  obtain ⟨result, succeeds, -⟩ := exists_reconcile known
  rw [succeeds]
  unfold IndexDelta.reconcile at succeeds
  simp only [stillNew, noneKnown, List.foldl_nil] at succeeds
  split at succeeds
  · exact succeeds.symm
  · cases succeeds

/-- The count that `apply_to` gives a new chunk. -/
def appliedCount (refcount : Nat) : Nat := if 1 < refcount then addU32 1 (refcount - 1) else 1

theorem appliedCount_of_pos {refcount : Nat} (positive : 1 ≤ refcount)
    (bounded : refcount < 2 ^ 32) : appliedCount refcount = refcount := by
  unfold appliedCount
  split
  · rw [addU32_of_lt (by omega)]
    omega
  · omega

theorem applyNew_get?_of_ne {new : NewChunkEntry} (different : id ≠ new.chunkId) :
    (applyNew index new).get? id = index.get? id := by
  unfold applyNew ChunkIndex.add ChunkIndex.incrementRefcountBy
  cases index.get? new.chunkId <;> by_cases several : 1 < new.refcount <;>
    simp [several, different, Dict.get?_modify, Dict.get?_set]

theorem applyNew_get?_of_absent {new : NewChunkEntry} (absent : index.get? new.chunkId = none) :
    (applyNew index new).get? new.chunkId =
      some ⟨appliedCount new.refcount, new.storedSize, new.packId, new.packOffset⟩ := by
  unfold applyNew ChunkIndex.add ChunkIndex.incrementRefcountBy appliedCount
  rw [absent]
  by_cases several : 1 < new.refcount <;> simp [several, Dict.get?_modify]

theorem incrementRefcountBy_get?_of_ne {other : ChunkId} (different : id ≠ other) (amount : Nat) :
    (index.incrementRefcountBy other amount).get? id = index.get? id := by
  unfold ChunkIndex.incrementRefcountBy
  rw [Dict.get?_modify, if_neg different]

theorem foldl_bumps_get? (bumps : Dict ChunkId Nat) (index : ChunkIndex) (id : ChunkId) :
    (bumps.toList.foldl (fun index (id, count) => index.incrementRefcountBy id count) index).get?
        id = (index.get? id).map fun entry => (bumpEntry bumps id entry).2 := by
  have frame (index : ChunkIndex) (bump : ChunkId × Nat) (id : ChunkId) (different : id ≠ bump.1) :
      (index.incrementRefcountBy bump.1 bump.2).get? id = index.get? id :=
    incrementRefcountBy_get?_of_ne different bump.2
  cases bumped : bumps.get? id with
  | none =>
    have absent : id ∉ bumps.toList.map Prod.fst := by
      rw [bumps.toList_keys, Dict.mem_keysList, bumped]
      exact Bool.false_ne_true
    refine (Dict.get?_foldl_of_not_mem frame index absent).trans ?_
    simp [bumpEntry, bumped]
  | some bump =>
    obtain ⟨before, same, reached⟩ := Dict.get?_foldl_of_mem frame index
      (bumps.toList_keys ▸ bumps.keysList_nodup) (Dict.get?_eq_some_iff.mp bumped)
    refine reached.trans ?_
    unfold ChunkIndex.incrementRefcountBy
    rw [Dict.get?_modify, if_pos rfl]
    simp only at same
    rw [same]
    simp [bumpEntry, bumped]

theorem applyTo_get? (delta : IndexDelta) (index : ChunkIndex) (id : ChunkId) :
    (delta.applyTo index).get? id = ((delta.newEntries.foldl applyNew index).get? id).map
      fun entry => (bumpEntry delta.refcountBumps id entry).2 :=
  foldl_bumps_get? _ _ _

theorem applyTo_get?_of_not_new (notNew : id ∉ delta.newEntries.map NewChunkEntry.chunkId) :
    (delta.applyTo index).get? id = (index.get? id).map
      fun entry => (bumpEntry delta.refcountBumps id entry).2 := by
  rw [applyTo_get?, Dict.get?_foldl_of_not_mem (fun _ _ _ => applyNew_get?_of_ne) _ notNew]

theorem Fresh.get?_eq_none (fresh : delta.Fresh index) {new : NewChunkEntry}
    (listed : new ∈ delta.newEntries) : index.get? new.chunkId = none := by
  have absent := fresh.absent new listed
  rwa [ChunkIndex.contains, Option.isSome_eq_false_iff, Option.isNone_iff_eq_none] at absent

theorem Fresh.applyTo_get?_of_new (fresh : delta.Fresh index) {new : NewChunkEntry}
    (listed : new ∈ delta.newEntries) :
    (delta.applyTo index).get? new.chunkId = some (bumpNewEntry delta.refcountBumps
      { new with refcount := appliedCount new.refcount }).2 := by
  obtain ⟨before, same, reached⟩ := Dict.get?_foldl_of_mem
    (fun _ _ _ => applyNew_get?_of_ne) index fresh.distinct listed
  rw [applyTo_get?, reached, applyNew_get?_of_absent (same.trans (fresh.get?_eq_none listed))]
  rfl

end IndexDelta

section Agreement

variable {index : ChunkIndex} {delta : IndexDelta} {cached : List (ChunkId × ChunkIndexEntry)}

/-- The merged cache is the applied delta, while no new chunk has lost its count. -/
theorem mergedIndex_get?_eq (same : cached.Perm index.toList) (fresh : delta.Fresh index)
    (counted : ∀ new ∈ delta.newEntries, 1 ≤ new.refcount)
    (bounded : ∀ new ∈ delta.newEntries, new.refcount < 2 ^ 32) (id : ChunkId) :
    (mergedIndex cached delta).get? id = (delta.applyTo index).get? id := by
  by_cases isNew : id ∈ delta.newEntries.map NewChunkEntry.chunkId
  · obtain ⟨new, listed, rfl⟩ := List.mem_map.mp isNew
    rw [mergedIndex_get?_of_new same fresh listed, fresh.applyTo_get?_of_new listed,
      IndexDelta.appliedCount_of_pos (counted new listed) (bounded new listed)]
  · rw [IndexDelta.applyTo_get?_of_not_new isNew]
    cases found : index.get? id with
    | none => exact mergedIndex_get?_of_neither same found isNew
    | some entry => exact mergedIndex_get?_of_indexed same fresh found

/-- A new chunk whose count is zero is counted once on the slow path only. -/
theorem mergedIndex_get?_ne (same : cached.Perm index.toList) (fresh : delta.Fresh index)
    {new : NewChunkEntry} (listed : new ∈ delta.newEntries) (uncounted : new.refcount = 0) :
    (mergedIndex cached delta).get? new.chunkId ≠ (delta.applyTo index).get? new.chunkId := by
  rw [mergedIndex_get?_of_new same fresh listed, fresh.applyTo_get?_of_new listed]
  intro equal
  have counts := congrArg ChunkIndexEntry.refcount (Option.some.inj equal)
  have applied : IndexDelta.appliedCount 0 = 1 := rfl
  simp only [bumpNewEntry, bumpEntry, uncounted, applied] at counts
  cases bumped : delta.refcountBumps.get? new.chunkId with
  | none => simp [bumped] at counts
  | some bump =>
    simp only [bumped, addU32] at counts
    omega

variable {caches : LocalCaches} {generation newGeneration nonce : Nat} {raw : IndexObject}
  {stored : PackId → Bool} {old : FullIndexFile} {size : BlobSize}

theorem openPath_eq_some {file : Option FullIndexFile} {opened : FullIndexFile}
    (found : FullIndexFile.openPath file generation = some opened) :
    file = some opened ∧ generation ≠ 0 ∧ opened.generation = generation ∧
      opened.entries.length = opened.entryCount := by
  obtain ⟨inner, rfl, guarded⟩ := Option.bind_eq_some_iff.mp found
  split at guarded
  · rename_i valid
    cases guarded
    exact ⟨rfl, valid⟩
  · cases guarded

theorem openPath_merge (counted : old.entries.length = old.entryCount)
    (usable : newGeneration ≠ 0) :
    FullIndexFile.openPath (some (old.merge delta newGeneration)) newGeneration =
      if old.entries.length + delta.newEntries.length < 2 ^ 32 then
        some (old.merge delta newGeneration)
      else none := by
  have length : (mergeFullIndexCache old.entries delta).length =
      old.entries.length + delta.newEntries.length := by
    rw [mergeFullIndexCache, (mergeEntries_perm _ _ _).length_eq]
    simp
  simp only [FullIndexFile.openPath, FullIndexFile.merge, Option.bind_eq_bind, Option.bind_some,
    length, usable, ne_eq, not_false_iff, true_and, ← counted, addU32]
  by_cases fits : old.entries.length + delta.newEntries.length < 2 ^ 32
  · rw [if_pos (by omega), if_pos fits]
  · rw [if_neg (by omega), if_neg fits]

/-- The fast path agrees with the slow path exactly when no new chunk has a zero count and the
merged index can be read back. -/
theorem tryFastPathCommit_agrees_iff (opened : fastPathCache caches generation raw = some old)
    (same : old.entries.Perm raw.chunks.toList) (decodes : raw.decode size = some raw.chunks)
    (fresh : delta.Fresh raw.chunks) (known : delta.BumpsKnown raw.chunks)
    (bounded : ∀ new ∈ delta.newEntries, new.refcount < 2 ^ 32) (usable : newGeneration ≠ 0) :
    Agrees size (tryFastPathCommit caches generation raw delta stored newGeneration nonce)
        (slowPathCommit size raw delta stored) ↔
      (delta.packsStored stored = true → (∀ new ∈ delta.newEntries, 1 ≤ new.refcount) ∧
        size.bytes newGeneration (bumpedEntries raw.chunks delta) ≤ maxMetadataDecompressSize) := by
  have slow : slowPathCommit size raw delta stored = if delta.packsStored stored then
      .ok (delta.applyTo raw.chunks) else .error .packsMissing := by
    simp only [slowPathCommit, decodes, fresh.reconcile known]
  have counted : old.entries.length = old.entryCount := by
    unfold fastPathCache at opened
    split at opened
    · exact (openPath_eq_some opened).2.2.2
    · cases opened
  rw [tryFastPathCommit, opened, slow]
  simp only [openPath_merge counted usable]
  cases packs : delta.packsStored stored with
  | false => simp [Agrees]
  | true =>
    have merged := mergeFullIndexCache_perm same delta
    have length : (bumpedEntries raw.chunks delta).length =
        old.entries.length + delta.newEntries.length := by
      simp [bumpedEntries, same.length_eq]
    by_cases fits : old.entries.length + delta.newEntries.length < 2 ^ 32
    · have sameSize : size.bytes newGeneration (mergedIndex old.entries delta).toList =
          size.bytes newGeneration (bumpedEntries raw.chunks delta) :=
        size.bytes_perm ((Dict.toList_ofList (mergeFullIndexCache_keys_nodup same fresh)).trans
          merged) _
      have published : (⟨nonce, newGeneration, mergedIndex old.entries delta⟩ :
          IndexObject).decode size = if size.bytes newGeneration (bumpedEntries raw.chunks delta) ≤
            maxMetadataDecompressSize then some (mergedIndex old.entries delta) else none := by
        simp only [IndexObject.decode, sameSize]
      simp only [if_pos fits, if_true, forall_const]
      constructor
      · rintro ⟨decoded, applied, decodes, ok, equal⟩
        cases ok
        have decoding := published.symm.trans decodes
        split at decoding
        · rename_i small
          cases decoding
          refine ⟨fun new listed => ?_, small⟩
          by_contra uncounted
          exact mergedIndex_get?_ne same fresh listed (by omega) (equal new.chunkId)
        · cases decoding
      · rintro ⟨positive, small⟩
        refine ⟨_, _, published.trans (if_pos small), rfl, ?_⟩
        exact mergedIndex_get?_eq same fresh positive bounded
    · -- The header cannot hold the count: the fast path fails, the slow path does not.
      have large := size.length_lt newGeneration (bumpedEntries raw.chunks delta)
      simp only [if_neg fits, if_true, forall_const]
      constructor
      · rintro ⟨failure, impossible⟩
        cases impossible
      · rintro ⟨-, small⟩
        unfold maxMetadataDecompressSize at small
        omega

end Agreement

end Vykar.Index

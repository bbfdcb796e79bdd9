import Vykar.Index.FastPath
import Vykar.Snapshot.Object

/-!
The bytes of the full index cache (`index/dedup_cache.rs`).

A merged cache and a cache built from the index after the delta hold the same entries.  Both
are sorted by chunk id and no id occurs twice, so they hold them in the same order, and the
files are equal byte for byte.
-/

namespace Vykar.Index

open Pack
open Vykar.Snapshot (idBytes)

/-- `u64::to_le_bytes` -/
def toLeBytes64 (value : Nat) : Bytes := toLeBytes value ++ toLeBytes (value / 2 ^ 32)

/-- `FULL_MAGIC`: the text `VGFULL` and two zero bytes. -/
def fullMagic : Bytes := [86, 71, 70, 85, 76, 76, 0, 0]

def fullVersion : Nat := 1

/-- `write_full_header` -/
def fullHeaderBytes (generation entryCount : Nat) : Bytes :=
  fullMagic ++ toLeBytes fullVersion ++ toLeBytes64 generation ++ toLeBytes entryCount ++
    toLeBytes 0

/-- `write_full_entry` -/
def fullEntryBytes (entry : ChunkId × ChunkIndexEntry) : Bytes :=
  idBytes entry.1 ++ toLeBytes entry.2.refcount ++ toLeBytes entry.2.storedSize ++
    idBytes entry.2.packId ++ toLeBytes64 entry.2.packOffset

def FullIndexFile.bytes (file : FullIndexFile) : Bytes :=
  fullHeaderBytes file.generation file.entryCount ++ file.entries.flatMap fullEntryBytes

section Merge

variable {bumps : Dict ChunkId Nat} {cached : List (ChunkId × ChunkIndexEntry)}
  {entries : List NewChunkEntry} {index : ChunkIndex} {delta : IndexDelta}

theorem le_of_mem_mergeEntries {bound : ChunkId} (old : ∀ entry ∈ cached, bound ≤ entry.1)
    (new : ∀ entry ∈ entries, bound ≤ entry.chunkId) :
    ∀ entry ∈ mergeEntries bumps cached entries, bound ≤ entry.1 := by
  intro entry listed
  rcases List.mem_append.mp ((mergeEntries_perm bumps cached entries).mem_iff.mp listed) with
    isOld | isNew
  · obtain ⟨source, among, rfl⟩ := List.mem_map.mp isOld
    exact old source among
  · obtain ⟨source, among, rfl⟩ := List.mem_map.mp isNew
    exact new source among

theorem mergeEntries_sorted (old : cached.Pairwise fun first second => first.1 ≤ second.1)
    (new : entries.Pairwise fun first second => first.chunkId ≤ second.chunkId) :
    (mergeEntries bumps cached entries).Pairwise fun first second => first.1 ≤ second.1 := by
  induction cached, entries using mergeEntries.induct with
  | case1 =>
    rw [mergeEntries]
    exact .nil
  | case2 entry entries ih =>
    obtain ⟨least, later⟩ := List.pairwise_cons.mp new
    rw [mergeEntries]
    exact .cons (le_of_mem_mergeEntries (List.forall_mem_nil _) least) (ih old later)
  | case3 id entry cached ih =>
    obtain ⟨least, later⟩ := List.pairwise_cons.mp old
    rw [mergeEntries]
    exact .cons (le_of_mem_mergeEntries least (List.forall_mem_nil _)) (ih later new)
  | case4 id entry cached added entries first ih =>
    obtain ⟨least, later⟩ := List.pairwise_cons.mp old
    rw [mergeEntries, if_pos first]
    refine .cons (le_of_mem_mergeEntries least ?_) (ih later new)
    exact List.forall_mem_cons.mpr
      ⟨first, fun other listed =>
        BitVec.le_trans first ((List.pairwise_cons.mp new).1 other listed)⟩
  | case5 id entry cached added entries later ih =>
    obtain ⟨least, rest⟩ := List.pairwise_cons.mp new
    have before : added.chunkId ≤ id := BitVec.le_of_lt (BitVec.not_le.mp later)
    rw [mergeEntries, if_neg later]
    refine .cons (le_of_mem_mergeEntries ?_ least) (ih old rest)
    exact List.forall_mem_cons.mpr
      ⟨before, fun other listed =>
        BitVec.le_trans before ((List.pairwise_cons.mp old).1 other listed)⟩

theorem insertionSort_sorted {Entry : Type} (key : Entry → ChunkId) (entries : List Entry) :
    (entries.insertionSort fun first second => key first ≤ key second).Pairwise
      fun first second => key first ≤ key second := by
  have total : Std.Total fun first second => key first ≤ key second :=
    ⟨fun first second => BitVec.le_total (key first) (key second)⟩
  have trans : IsTrans Entry fun first second => key first ≤ key second :=
    ⟨fun _ _ _ => BitVec.le_trans⟩
  exact List.pairwise_insertionSort _ _

theorem fullIndexCache_sorted (index : ChunkIndex) :
    (fullIndexCache index).Pairwise fun first second => first.1 ≤ second.1 :=
  insertionSort_sorted Prod.fst _

theorem mergeFullIndexCache_sorted
    (sorted : cached.Pairwise fun first second => first.1 ≤ second.1) :
    (mergeFullIndexCache cached delta).Pairwise fun first second => first.1 ≤ second.1 :=
  mergeEntries_sorted sorted (insertionSort_sorted NewChunkEntry.chunkId _)

theorem toList_perm_of_get?_eq {first second : ChunkIndex}
    (same : ∀ id, first.get? id = second.get? id) : first.toList.Perm second.toList := by
  have distinct (index : ChunkIndex) : index.toList.Nodup :=
    List.Nodup.of_map Prod.fst (index.toList_keys.symm ▸ index.keysList_nodup)
  refine (List.perm_ext_iff_of_nodup (distinct first) (distinct second)).mpr fun entry => ?_
  rw [← Dict.get?_eq_some_iff, ← Dict.get?_eq_some_iff, same]

theorem mergeFullIndexCache_eq (same : cached.Perm index.toList)
    (sorted : cached.Pairwise fun first second => first.1 ≤ second.1) (fresh : delta.Fresh index)
    (counted : ∀ new ∈ delta.newEntries, 1 ≤ new.refcount)
    (bounded : ∀ new ∈ delta.newEntries, new.refcount < 2 ^ 32) :
    mergeFullIndexCache cached delta = fullIndexCache (delta.applyTo index) := by
  have distinct := mergeFullIndexCache_keys_nodup same fresh
  have perm : (mergeFullIndexCache cached delta).Perm (fullIndexCache (delta.applyTo index)) :=
    (Dict.toList_ofList distinct).symm.trans
      ((toList_perm_of_get?_eq (mergedIndex_get?_eq same fresh counted bounded)).trans
        (fullIndexCache_perm _).symm)
  refine List.Perm.eq_of_pairwise ?_ (mergeFullIndexCache_sorted sorted)
    (fullIndexCache_sorted _) perm
  -- entries with one key are equal, as no key occurs twice
  intro first second listed otherListed le ge
  exact List.inj_on_of_nodup_map distinct listed (perm.mem_iff.mpr otherListed)
    (BitVec.le_antisymm le ge)

end Merge

/-- Merging a delta into a sorted cache writes the file that is built from the index after the
delta, if every new entry is counted at least once. -/
theorem merge_bytes_eq_build (generation newGeneration : Nat)
    (cached : List (ChunkId × ChunkIndexEntry)) (delta : IndexDelta)
    (sorted : cached.Pairwise fun first second => first.1 < second.1)
    (fresh : delta.Fresh (Dict.ofList cached))
    (counted : ∀ new ∈ delta.newEntries, 1 ≤ new.refcount)
    (bounded : ∀ new ∈ delta.newEntries, new.refcount < 2 ^ 32) :
    (FullIndexFile.merge ⟨generation, cached.length, cached⟩ delta newGeneration).bytes =
      (FullIndexFile.build (delta.applyTo (Dict.ofList cached)) newGeneration).bytes := by
  have distinct : (cached.map Prod.fst).Nodup :=
    List.pairwise_map.mpr (sorted.imp fun before => BitVec.ne_of_lt before)
  have entries := mergeFullIndexCache_eq (Dict.toList_ofList distinct).symm
    (sorted.imp fun before => BitVec.le_of_lt before) fresh counted bounded
  have lengths : (delta.applyTo (Dict.ofList cached)).toList.length =
      cached.length + delta.newEntries.length := by
    rw [← (fullIndexCache_perm _).length_eq, ← entries, (mergeFullIndexCache_perm
      (Dict.toList_ofList distinct).symm delta).length_eq, bumpedEntries, List.length_append,
      List.length_map, List.length_map, (Dict.toList_ofList distinct).length_eq]
  unfold FullIndexFile.merge FullIndexFile.build FullIndexFile.bytes
  rw [entries, lengths, addU32, Nat.add_mod_mod]

/-- A new chunk in front of a cached one that is bumped. -/
theorem merge_bytes_eq_build_bumped :
    (FullIndexFile.merge ⟨1, 1, [(5, ⟨1, 10, 0, 13⟩)]⟩
        ⟨[⟨3, 20, 1, 13, 2⟩], Dict.ofList [(5, 4)]⟩ 2).bytes =
      (FullIndexFile.build (IndexDelta.applyTo ⟨[⟨3, 20, 1, 13, 2⟩], Dict.ofList [(5, 4)]⟩
        (Dict.ofList [(5, ⟨1, 10, 0, 13⟩)])) 2).bytes :=
  merge_bytes_eq_build 1 2 [(5, ⟨1, 10, 0, 13⟩)] ⟨[⟨3, 20, 1, 13, 2⟩], Dict.ofList [(5, 4)]⟩
    (List.pairwise_singleton _ _) ⟨by decide +kernel, by simp; decide +kernel⟩
    (by simp) (by simp)

/-- A new entry that is not counted is written with no reference by the merge, and with one
when the delta is applied. -/
theorem uncounted_entry_merged :
    (FullIndexFile.merge ⟨1, 0, []⟩ ⟨[⟨3, 20, 1, 13, 0⟩], ∅⟩ 2).bytes ≠
      (FullIndexFile.build (IndexDelta.applyTo ⟨[⟨3, 20, 1, 13, 0⟩], ∅⟩ (Dict.ofList [])) 2).bytes
    := by
  decide +kernel

end Vykar.Index

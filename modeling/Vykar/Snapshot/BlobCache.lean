import Vykar.Snapshot.Coalesced

/-!
The byte counter of the blob cache.

The cache counts the bytes it holds and drops its oldest entries when the count would
exceed the maximum.  Inserting a chunk that is still held replaces its data but counts it
again, and nothing takes the first count back.  The counter is therefore exact as long as
no chunk is inserted while it is held, which a coalesced read of a repeated chunk does.
-/

namespace Vykar.Snapshot

open Index Pack

namespace BlobCache

def new (maxBytes : Nat) : BlobCache := ⟨∅, [], 0, maxBytes⟩

inductive Call where
  | get (id : ChunkId)
  | insert (id : ChunkId) (data : Bytes)

def call (cache : BlobCache) : Call → BlobCache
  | .get _ => cache
  | .insert id data => cache.insert id data

def run (cache : BlobCache) (calls : List Call) : BlobCache := calls.foldl call cache

/-- The data of the last insertion of a chunk; data larger than the whole cache is not
inserted. -/
def lastInserted (maxBytes : Nat) (id : ChunkId) : List Call → Option Bytes
  | [] => none
  | .get _ :: calls => lastInserted maxBytes id calls
  | .insert other data :: calls =>
    (lastInserted maxBytes id calls).or
      (if other = id ∧ data.length ≤ maxBytes then some data else none)

def heldBytes (entries : Dict ChunkId Bytes) : Nat := entries.total fun _ data => data.length

/-- The counter is exact and within the maximum, and what is held was inserted last. -/
structure Balanced (cache : BlobCache) (calls : List Call) : Prop where
  counted : cache.currentBytes = heldBytes cache.entries
  bounded : cache.currentBytes ≤ cache.maxBytes
  latest : ∀ id data, cache.get? id = some data →
    lastInserted cache.maxBytes id calls = some data

def roomFor (cache : BlobCache) (data : Bytes) : List ChunkId × Dict ChunkId Bytes × Nat :=
  evict data.length cache.maxBytes cache.order cache.entries cache.currentBytes

/-- An insertion does not replace data that is held and counted. -/
def Fresh (cache : BlobCache) : Call → Prop
  | .get _ => True
  | .insert id data => data.length ≤ cache.maxBytes →
      ∀ old, (cache.roomFor data).2.1.get? id = some old → old = []

structure Tracked (order : List ChunkId) (entries : Dict ChunkId Bytes) (currentBytes : Nat) :
    Prop where
  counted : currentBytes = heldBytes entries
  ordered : ∀ id data, entries.get? id = some data → id ∈ order

section Eviction

variable {length maxBytes currentBytes : Nat} {order : List ChunkId}
  {entries : Dict ChunkId Bytes}

theorem heldBytes_remove {id : ChunkId} {data : Bytes} (held : entries.get? id = some data) :
    heldBytes entries = data.length + heldBytes (entries.remove id) :=
  Dict.total_remove held _

theorem Tracked.drop {oldest : ChunkId} (tracked : Tracked (oldest :: order) entries currentBytes)
    {data : Bytes} (held : entries.get? oldest = some data) :
    Tracked order (entries.remove oldest) (currentBytes - data.length) := by
  have removed := heldBytes_remove held
  have counted := tracked.counted
  refine ⟨by omega, fun id stored found => ?_⟩
  rw [Dict.get?_remove] at found
  split at found
  · cases found
  · rename_i different
    exact (List.mem_cons.mp (tracked.ordered id stored found)).resolve_left different

theorem Tracked.skip {oldest : ChunkId} (tracked : Tracked (oldest :: order) entries currentBytes)
    (missing : entries.get? oldest = none) : Tracked order entries currentBytes := by
  refine ⟨tracked.counted, fun id stored found => ?_⟩
  refine (List.mem_cons.mp (tracked.ordered id stored found)).resolve_left ?_
  rintro rfl
  rw [missing] at found
  cases found

theorem Tracked.currentBytes_of_nil (tracked : Tracked [] entries currentBytes) :
    currentBytes = 0 := by
  have empty : entries = ∅ := by
    apply AList.ext
    rw [AList.empty_entries, List.eq_nil_iff_forall_not_mem]
    intro entry listed
    have found : entries.get? entry.1 = some entry.2 := AList.mem_lookup_iff.mpr listed
    cases tracked.ordered _ _ found
  rw [tracked.counted, empty]
  rfl

/-- Dropping the oldest entries keeps the counter exact and makes room. -/
theorem Tracked.evict (tracked : Tracked order entries currentBytes) (fits : length ≤ maxBytes) :
    let left := BlobCache.evict length maxBytes order entries currentBytes
    Tracked left.1 left.2.1 left.2.2 ∧ left.2.2 + length ≤ maxBytes := by
  induction order generalizing entries currentBytes with
  | nil =>
    have nothing := tracked.currentBytes_of_nil
    exact ⟨tracked, by simpa [BlobCache.evict, nothing] using fits⟩
  | cons oldest order ih =>
    rw [BlobCache.evict]
    split
    · rename_i room
      exact ⟨tracked, room⟩
    · split
      · rename_i missing
        exact ih (tracked.skip missing)
      · rename_i data held
        exact ih (tracked.drop held)

end Eviction

variable {cache : BlobCache} {calls : List Call}

theorem insert_of_fits {id : ChunkId} {data : Bytes} (fits : data.length ≤ cache.maxBytes) :
    cache.insert id data =
      ⟨(cache.roomFor data).2.1.set id data, (cache.roomFor data).1 ++ [id],
        (cache.roomFor data).2.2 + data.length, cache.maxBytes⟩ := by
  unfold insert
  rw [if_neg (Nat.not_lt.mpr fits)]
  rfl

theorem insert_of_large {id : ChunkId} {data : Bytes} (large : cache.maxBytes < data.length) :
    cache.insert id data = cache := by
  unfold insert
  rw [if_pos large]

theorem call_maxBytes (cache : BlobCache) (made : Call) :
    (cache.call made).maxBytes = cache.maxBytes := by
  cases made with
  | get => rfl
  | insert id data =>
    rcases Nat.lt_or_ge cache.maxBytes data.length with large | fits
    · rw [call, insert_of_large large]
    · rw [call, insert_of_fits fits]

theorem run_concat (cache : BlobCache) (calls : List Call) (made : Call) :
    cache.run (calls ++ [made]) = (cache.run calls).call made := by
  rw [run, List.foldl_append]
  rfl

theorem lastInserted_append (maxBytes : Nat) (id : ChunkId) (first second : List Call) :
    lastInserted maxBytes id (first ++ second) =
      (lastInserted maxBytes id second).or (lastInserted maxBytes id first) := by
  induction first with
  | nil => simp [lastInserted]
  | cons made first ih =>
    cases made with
    | get => exact ih
    | insert other data =>
      rw [List.cons_append, lastInserted, lastInserted, ih, Option.or_assoc]

theorem heldBytes_set (entries : Dict ChunkId Bytes) (id : ChunkId) (data : Bytes) :
    heldBytes (entries.set id data) + ((entries.get? id).map List.length).getD 0 =
      heldBytes entries + data.length := by
  cases held : entries.get? id with
  | none =>
    have grown : heldBytes (entries.set id data) = data.length + heldBytes entries :=
      Dict.total_set_of_absent held data _
    simp only [Option.map_none, Option.getD_none]
    omega
  | some old =>
    have removed := heldBytes_remove held
    have replaced := heldBytes_remove (Dict.get?_set_self entries id data)
    have same : (entries.set id data).remove id = entries.remove id := by
      apply AList.ext
      simp [Dict.set, Dict.remove, AList.insert, AList.erase, List.kinsert_def]
    rw [same] at replaced
    simp only [Option.map_some, Option.getD_some]
    omega

theorem latest_call (latest : ∀ id data, cache.get? id = some data →
      lastInserted cache.maxBytes id calls = some data) (made : Call) (id : ChunkId) (data : Bytes)
    (held : (cache.call made).get? id = some data) :
    lastInserted cache.maxBytes id (calls ++ [made]) = some data := by
  rw [lastInserted_append]
  cases made with
  | get other => simpa [lastInserted] using latest id data held
  | insert other inserted =>
    rcases Nat.lt_or_ge cache.maxBytes inserted.length with large | fits
    · rw [call, insert_of_large large] at held
      simpa [lastInserted, Nat.not_le.mpr large] using latest id data held
    · rw [call, insert_of_fits fits] at held
      simp only [get?, Dict.get?_set] at held
      simp only [lastInserted, Option.none_or, fits, and_true, eq_comm (a := other)]
      split at held
      · rename_i same
        rw [if_pos same, ← held]
        rfl
      · rename_i different
        rw [if_neg different, Option.none_or]
        exact latest id data (get?_evict held)

/-- The invariant behind `Balanced`. -/
structure Kept (cache : BlobCache) (calls : List Call) : Prop where
  balanced : cache.Balanced calls
  ordered : ∀ id data, cache.entries.get? id = some data → id ∈ cache.order

theorem new_kept (maxBytes : Nat) : (new maxBytes).Kept [] where
  balanced := ⟨rfl, Nat.zero_le _, nofun⟩
  ordered := nofun

/-- A call keeps the counter exact just if it does not replace counted data. -/
theorem Kept.call (kept : cache.Kept calls) (made : Call) :
    (cache.Fresh made → (cache.call made).Kept (calls ++ [made])) ∧
      ((cache.call made).currentBytes = heldBytes (cache.call made).entries →
        cache.Fresh made) := by
  have tracked : Tracked cache.order cache.entries cache.currentBytes :=
    ⟨kept.balanced.counted, kept.ordered⟩
  have latest : ∀ id data, (cache.call made).get? id = some data →
      lastInserted (cache.call made).maxBytes id (calls ++ [made]) = some data := by
    intro id data held
    rw [call_maxBytes]
    exact latest_call kept.balanced.latest made id data held
  cases made with
  | get id =>
    exact ⟨fun _ => ⟨⟨kept.balanced.counted, kept.balanced.bounded, latest⟩, kept.ordered⟩,
      fun _ => trivial⟩
  | insert id data =>
    rcases Nat.lt_or_ge cache.maxBytes data.length with large | fits
    · have same : cache.call (.insert id data) = cache := insert_of_large large
      rw [same] at latest ⊢
      exact ⟨fun _ => ⟨⟨kept.balanced.counted, kept.balanced.bounded, latest⟩, kept.ordered⟩,
        fun _ accepted => absurd accepted (Nat.not_le.mpr large)⟩
    · have inserted : cache.call (.insert id data) = _ := insert_of_fits fits
      obtain ⟨left, room⟩ := tracked.evict fits
      have counted : (cache.roomFor data).2.2 = heldBytes (cache.roomFor data).2.1 :=
        left.counted
      have change := heldBytes_set (cache.roomFor data).2.1 id data
      rw [inserted] at latest ⊢
      constructor
      · intro fresh
        have nothing : (((cache.roomFor data).2.1.get? id).map List.length).getD 0 = 0 := by
          cases held : (cache.roomFor data).2.1.get? id with
          | none => rfl
          | some old => simp [fresh fits old held]
        refine ⟨⟨?_, room, latest⟩, fun other stored found => ?_⟩
        · show (cache.roomFor data).2.2 + data.length =
            heldBytes ((cache.roomFor data).2.1.set id data)
          omega
        · simp only [Dict.get?_set] at found
          split at found
          · rename_i same
            simp [same]
          · exact List.mem_append_left _ (left.ordered other stored found)
      · intro balanced _ old held
        rw [held] at change
        have after : (cache.roomFor data).2.2 + data.length =
          heldBytes ((cache.roomFor data).2.1.set id data) := balanced
        simp only [Option.map_some, Option.getD_some] at change
        exact List.eq_nil_of_length_eq_zero (by omega)

theorem kept_run (maxBytes : Nat) (calls : List Call)
    (fresh : ∀ earlier made, earlier ++ [made] <+: calls →
      ((new maxBytes).run earlier).Kept earlier → ((new maxBytes).run earlier).Fresh made) :
    ((new maxBytes).run calls).Kept calls := by
  induction calls using List.reverseRecOn with
  | nil => exact new_kept maxBytes
  | append_singleton calls made ih =>
    have kept := ih fun earlier before listed =>
      fresh earlier before (listed.trans (List.prefix_append _ _))
    rw [run_concat]
    exact (kept.call made).1 (fresh calls made (List.prefix_refl _) kept)

theorem kept_of_counted (maxBytes : Nat) (calls : List Call)
    (counted : ∀ earlier, earlier <+: calls →
      ((new maxBytes).run earlier).currentBytes =
        heldBytes ((new maxBytes).run earlier).entries) :
    ((new maxBytes).run calls).Kept calls := by
  refine kept_run maxBytes calls fun earlier made listed kept => (kept.call made).2 ?_
  have balanced := counted _ listed
  rwa [run_concat] at balanced

/-- The counter of a cache is exact and bounded after all calls of a sequence just if none
of them inserts a chunk while data of it is held. -/
theorem balanced_iff_fresh (maxBytes : Nat) (calls : List Call) :
    (∀ earlier, earlier <+: calls → ((new maxBytes).run earlier).Balanced earlier) ↔
      ∀ earlier made, earlier ++ [made] <+: calls → ((new maxBytes).run earlier).Fresh made := by
  constructor
  · intro balanced earlier made listed
    have kept := kept_of_counted maxBytes earlier fun before within =>
      (balanced before (within.trans ((List.prefix_append _ _).trans listed))).counted
    have after := (balanced _ listed).counted
    rw [run_concat] at after
    exact (kept.call made).2 after
  · intro fresh earlier listed
    exact (kept_run maxBytes earlier fun before made within _ =>
      fresh before made (within.trans listed)).balanced

theorem fresh_of_absent {id : ChunkId} {data : Bytes}
    (absent : (cache.roomFor data).2.1.get? id = none) : cache.Fresh (.insert id data) := by
  intro _ old held
  cases absent.symm.trans held

/-- The second insertion drops the chunk of the first one, which then comes back. -/
theorem balanced_iff_fresh_dropped :
    ((new 4).run [.insert 1 [7, 8], .insert 2 [9, 9, 9], .get 1, .insert 1 [7, 8]]).Balanced
      [.insert 1 [7, 8], .insert 2 [9, 9, 9], .get 1, .insert 1 [7, 8]] := by
  refine (balanced_iff_fresh 4 _).mpr ?_ _ (List.prefix_refl _)
  rintro earlier made ⟨later, same⟩
  rcases earlier with _ | ⟨first, _ | ⟨second, _ | ⟨third, _ | ⟨fourth, rest⟩⟩⟩⟩ <;>
    simp only [List.nil_append, List.cons_append, List.cons.injEq] at same
  · rw [same.1]
    exact fresh_of_absent rfl
  · rw [same.1, same.2.1]
    exact fresh_of_absent (by decide +kernel)
  · rw [same.2.2.1]
    trivial
  · rw [same.1, same.2.1, same.2.2.1, same.2.2.2.1]
    exact fresh_of_absent (by decide +kernel)
  · simp at same

section Reads

variable {external : External} {faults : PackId → Nat → Option VykarError}
  {packs : Dict PackId Bytes}

theorem run_append (cache : BlobCache) (first second : List Call) :
    cache.run (first ++ second) = (cache.run first).run second :=
  List.foldl_append

theorem readGroupBlobs_calls (packId : PackId) (readStart : Nat) (raw : Bytes)
    (blobs : List CoalescedBlob) (cache : BlobCache) (slots : List (Option Bytes)) :
    ∃ calls, (readGroupBlobs external packId readStart raw blobs cache slots).1 =
      cache.run calls := by
  induction blobs generalizing cache slots with
  | nil => exact ⟨[], rfl⟩
  | cons blob blobs ih =>
    rw [readGroupBlobs]
    simp only
    split
    · exact ⟨[], rfl⟩
    · split
      · exact ⟨[], rfl⟩
      · rename_i plaintext _
        obtain ⟨calls, later⟩ := ih (cache.insert blob.chunkId plaintext)
          (slots.set blob.resultIdx (some plaintext))
        exact ⟨.insert blob.chunkId plaintext :: calls, later⟩

theorem readGroups_calls (groups : List CoalescedGroup) (cache : BlobCache)
    (slots : List (Option Bytes)) :
    ∃ calls, (readGroups external faults packs groups cache slots).1 = cache.run calls := by
  induction groups generalizing cache slots with
  | nil => exact ⟨[], rfl⟩
  | cons group groups ih =>
    rw [readGroups]
    split
    · exact ⟨[], rfl⟩
    · exact ⟨[], rfl⟩
    · rename_i raw _
      obtain ⟨calls, inserted⟩ := @readGroupBlobs_calls external group.packId group.readStart raw
        group.blobs cache slots
      split
      · rename_i blobs
        rw [blobs] at inserted
        exact ⟨calls, inserted⟩
      · rename_i between filled blobs
        rw [blobs] at inserted
        obtain ⟨more, later⟩ := ih between filled
        refine ⟨calls ++ more, ?_⟩
        rw [later, run_append, ← inserted]

theorem readChunksCoalesced_calls (cache : BlobCache) (chunks : List ChunkLocation) :
    ∃ calls, (readChunksCoalesced external faults packs cache chunks).1 = cache.run calls := by
  obtain ⟨calls, read⟩ := @readGroups_calls external faults packs
    (coalesce (misses cache chunks)) cache (chunks.map fun location => cache.get? location.chunkId)
  refine ⟨calls, ?_⟩
  unfold readChunksCoalesced
  split
  · rename_i groups
    rw [← read, groups]
  · rename_i groups
    rw [← read, groups]

end Reads

/-- One coalesced read of a chunk of two bytes at two positions. -/
def repeatedRead : BlobCache × Except VykarError Bytes :=
  readChunksCoalesced .bare (fun _ _ => none) (Dict.ofList [(0, [3, 0, 7, 8])]) .empty
    [⟨1, 0, 0, 4⟩, ⟨1, 0, 0, 4⟩]

/-- The read succeeds and counts its chunk twice.  In a small cache the lost bytes push the
counter beyond the maximum. -/
theorem repeated_chunk_counted_twice :
    repeatedRead.2 = .ok [7, 8, 7, 8] ∧ repeatedRead.1.currentBytes = 4 ∧
      heldBytes repeatedRead.1.entries = 2 ∧
      ((new 4).run [.insert 1 [7, 8], .insert 1 [7, 8], .insert 2 [7, 8, 9]]).currentBytes = 5 := by
  decide +kernel

end BlobCache

end Vykar.Snapshot

import Vykar.Snapshot.Contents
import Vykar.Snapshot.BlobCache

/-!
Coalesced reads against single reads (`read_chunk_at`).

A coalesced read fills one slot for each chunk of the list.  The slots of cached chunks are
filled at once, and every other slot by the bytes that a single read of the chunk would
return, wherever its group was placed.  If the chunks of a pack do not overlap, each range
read is long enough for all blobs of its group, so that the coalesced read fails only if a
single read does.
-/

namespace Vykar.Snapshot

open Index Pack

section Definitions

variable (external : External)

def readChunkAt (fault : Option VykarError) (packs : Dict PackId Bytes) (cache : BlobCache)
    (location : ChunkLocation) : BlobCache × Except VykarError Bytes :=
  match cache.get? location.chunkId with
  | some cached => (cache, .ok cached)
  | none =>
    match readBlobFromPack external fault packs location.packId location.packOffset
        location.storedSize with
    | .error failure => (cache, .error failure)
    | .ok blob =>
      match external.readChunk location.chunkId blob with
      | .error failure => (cache, .error failure)
      | .ok plaintext => (cache.insert location.chunkId plaintext, .ok plaintext)

/-- Single reads one after the other, each with the cache that the reads before it left. -/
def readChunksSingly (packs : Dict PackId Bytes) :
    BlobCache → List ChunkLocation → BlobCache × Except VykarError Bytes
  | cache, [] => (cache, .ok [])
  | cache, location :: chunks =>
    match readChunkAt external none packs cache location with
    | (cache, .error failure) => (cache, .error failure)
    | (cache, .ok data) =>
      match readChunksSingly packs cache chunks with
      | (cache, .error failure) => (cache, .error failure)
      | (cache, .ok rest) => (cache, .ok (data ++ rest))

end Definitions

/-- Chunks of one pack are the same range or do not overlap. -/
def NonOverlapping (chunks : List ChunkLocation) : Prop :=
  ∀ first ∈ chunks, ∀ second ∈ chunks, first.packId = second.packId →
    (first.packOffset = second.packOffset ∧ first.storedSize = second.storedSize) ∨
      first.stop ≤ second.packOffset ∨ second.stop ≤ first.packOffset

variable {external : External} {packs : Dict PackId Bytes} {cache : BlobCache}
  {chunks : List ChunkLocation} {slots : List (Option Bytes)} {location : ChunkLocation}
  {result : List (Option Bytes)}

section Single

theorem readBlobFromPack_toOption (packId : PackId) (offset length : Nat) :
    (readBlobFromPack external none packs packId offset length).toOption =
      (packs.get? packId).bind fun file =>
        if length = 0 then none else readRange file offset length := by
  unfold readBlobFromPack getRange
  cases packs.get? packId with
  | none => rfl
  | some file =>
    simp only [Option.bind_some]
    by_cases empty : length = 0
    · simp [empty, Except.toOption]
    · simp only [empty, if_false]
      cases read : readRange file offset length with
      | none => rfl
      | some data =>
        simp only
        rw [if_pos (readRange_length read)]
        rfl

/-- No object is empty, so there is nothing to read in an empty range. -/
theorem plainAt_eq (location : ChunkLocation) :
    plainAt external packs location =
      ((readBlobFromPack external none packs location.packId location.packOffset
        location.storedSize).toOption).bind fun raw =>
          (external.readChunk location.chunkId raw).toOption := by
  rw [readBlobFromPack_toOption, plainAt]
  cases packs.get? location.packId with
  | none => rfl
  | some file =>
    simp only [Option.bind_some]
    by_cases empty : location.storedSize = 0
    · rw [if_pos empty, empty, Option.bind_none]
      rfl
    · rw [if_neg empty]

theorem readChunkAt_toOption (location : ChunkLocation) :
    (readChunkAt external none packs cache location).2.toOption =
      (cache.get? location.chunkId).or (plainAt external packs location) := by
  unfold readChunkAt
  rw [plainAt_eq]
  cases cache.get? location.chunkId with
  | some cached => rfl
  | none =>
    simp only [Option.none_or]
    cases readBlobFromPack external none packs location.packId location.packOffset
        location.storedSize with
    | error failure => rfl
    | ok blob =>
      simp only [Except.toOption, Option.bind_some]
      cases external.readChunk location.chunkId blob <;> rfl

theorem readChunkAt_fault (failure : VykarError) (location : ChunkLocation) :
    (readChunkAt external (some failure) packs cache location).2.toOption =
      cache.get? location.chunkId := by
  unfold readChunkAt
  cases cache.get? location.chunkId <;> rfl

variable {plain : ChunkId → Option Bytes}

theorem readChunkAt_sound (located : plainAt external packs location = plain location.chunkId)
    (sound : CacheSound plain cache) :
    CacheSound plain (readChunkAt external none packs cache location).1 ∧
      (readChunkAt external none packs cache location).2.toOption = plain location.chunkId := by
  have returned := @readChunkAt_toOption external packs cache location
  have same : (cache.get? location.chunkId).or (plainAt external packs location) =
      plain location.chunkId := by
    cases cached : cache.get? location.chunkId with
    | none => exact located
    | some data => exact (sound _ _ cached).symm
  refine ⟨?_, returned.trans same⟩
  rw [same] at returned
  unfold readChunkAt at returned ⊢
  split
  · exact sound
  · rename_i missing
    simp only [missing] at returned
    split
    · exact sound
    · rename_i blob read
      simp only [read] at returned
      split
      · exact sound
      · rename_i plaintext decoded
        simp only [decoded] at returned
        exact sound.insert returned.symm

theorem readChunksSingly_toOption
    (located : ∀ location ∈ chunks, plainAt external packs location = plain location.chunkId)
    (sound : CacheSound plain cache) :
    (readChunksSingly external packs cache chunks).2.toOption =
      (chunks.mapM fun location => plain location.chunkId).map List.flatten := by
  induction chunks generalizing cache with
  | nil => rfl
  | cons location chunks ih =>
    obtain ⟨nextSound, returned⟩ :=
      readChunkAt_sound (located location List.mem_cons_self) sound
    have later := ih
      (fun other listed => located other (List.mem_cons_of_mem _ listed)) nextSound
    rw [readChunksSingly, List.mapM_cons, ← returned]
    generalize readChunkAt external none packs cache location = first at later ⊢
    obtain ⟨next, result⟩ := first
    cases result with
    | error failure => rfl
    | ok data =>
      simp only at later ⊢
      generalize chunks.mapM (fun location => plain location.chunkId) = plains at later ⊢
      generalize readChunksSingly external packs next chunks = rest at later ⊢
      obtain ⟨last, result⟩ := rest
      cases plains with
      | none =>
        cases result with
        | error failure => rfl
        | ok bytes => cases later
      | some datas =>
        cases result with
        | error failure => cases later
        | ok bytes =>
          cases later
          rfl

end Single

section Slots

variable {groups : List CoalescedGroup} {blobs : List CoalescedBlob}

def fillSlot (external : External) (packs : Dict PackId Bytes) (slots : List (Option Bytes))
    (blob : CoalescedBlob) : List (Option Bytes) :=
  slots.set blob.resultIdx (plainAt external packs blob.toChunkLocation)

theorem readGroupBlobs_ok {packId : PackId} {readStart length : Nat} {file raw : Bytes}
    (stored : packs.get? packId = some file) (read : readRange file readStart length = some raw)
    (inPack : ∀ blob ∈ blobs, blob.packId = packId)
    (starts : ∀ blob ∈ blobs, readStart ≤ blob.packOffset)
    (done : (readGroupBlobs external packId readStart raw blobs cache slots).2 = .ok result) :
    result = blobs.foldl (fillSlot external packs) slots ∧
      ∀ blob ∈ blobs, (plainAt external packs blob.toChunkLocation).isSome = true := by
  induction blobs generalizing cache slots with
  | nil => exact ⟨(Except.ok.inj done).symm, nofun⟩
  | cons blob blobs ih =>
    obtain ⟨here, inPack⟩ := List.forall_mem_cons.mp inPack
    obtain ⟨start, starts⟩ := List.forall_mem_cons.mp starts
    rw [readGroupBlobs] at done
    simp only at done
    split at done
    · cases done
    · rename_i within
      split at done
      · cases done
      · rename_i data decoded
        have part := readRange_inside read start (Nat.le_of_not_lt within)
        have stand : plainAt external packs blob.toChunkLocation = some data :=
          plainAt_of_readChunk (here ▸ stored) part decoded
        obtain ⟨filled, readable⟩ := ih inPack starts done
        refine ⟨?_, List.forall_mem_cons.mpr ⟨by rw [stand]; rfl, readable⟩⟩
        rw [filled, List.foldl_cons, fillSlot, stand]

theorem readGroups_ok {faults : PackId → Nat → Option VykarError}
    (spans : ∀ group ∈ groups, Spans group.packId group)
    (inPack : ∀ group ∈ groups, ∀ blob ∈ group.blobs, blob.packId = group.packId)
    (done : (readGroups external faults packs groups cache slots).2 = .ok result) :
    result = (groups.flatMap CoalescedGroup.blobs).foldl (fillSlot external packs) slots ∧
      ∀ group ∈ groups, faults group.packId group.readStart = none ∧ ∀ blob ∈ group.blobs,
        (plainAt external packs blob.toChunkLocation).isSome = true := by
  induction groups generalizing cache slots with
  | nil => exact ⟨(Except.ok.inj done).symm, nofun⟩
  | cons group groups ih =>
    obtain ⟨span, spans⟩ := List.forall_mem_cons.mp spans
    obtain ⟨inOwn, inPack⟩ := List.forall_mem_cons.mp inPack
    rw [readGroups] at done
    split at done
    · cases done
    · cases done
    · rename_i raw read
      obtain ⟨file, stored, part⟩ := getRange_eq_some read
      have answered : faults group.packId group.readStart = none := by
        cases hit : faults group.packId group.readStart with
        | none => rfl
        | some failure =>
          rw [hit] at read
          cases read
      split at done
      · cases done
      · rename_i between filled blobs
        have here := @readGroupBlobs_ok external packs cache slots filled group.blobs _ _ _ _ _
          stored part inOwn span.start (by rw [blobs])
        obtain ⟨later, readable⟩ := ih spans inPack done
        refine ⟨?_, List.forall_mem_cons.mpr ⟨⟨answered, here.2⟩, readable⟩⟩
        rw [later, List.flatMap_cons, List.foldl_append, here.1]

theorem foldl_fillSlot
    (stands : ∀ blob ∈ blobs, chunks[blob.resultIdx]? = some blob.toChunkLocation)
    (lengths : slots.length = chunks.length) {position : Nat}
    (here : chunks[position]? = some location) :
    (blobs.foldl (fillSlot external packs) slots)[position]? =
      if ∃ blob ∈ blobs, blob.resultIdx = position then some (plainAt external packs location)
      else slots[position]? := by
  induction blobs generalizing slots with
  | nil => simp
  | cons blob blobs ih =>
    have inside : position < slots.length := by
      rw [lengths]
      exact (List.getElem?_eq_some_iff.mp here).1
    rw [List.foldl_cons, ih
      (fun other listed => stands other (List.mem_cons_of_mem _ listed))
      (by rw [fillSlot, List.length_set, lengths])]
    by_cases later : ∃ other ∈ blobs, other.resultIdx = position
    · obtain ⟨other, listed, same⟩ := later
      rw [if_pos ⟨other, listed, same⟩, if_pos ⟨other, List.mem_cons_of_mem _ listed, same⟩]
    · rw [if_neg later]
      by_cases same : blob.resultIdx = position
      · subst same
        have isLocation := (stands blob List.mem_cons_self).symm.trans here
        rw [if_pos ⟨blob, List.mem_cons_self, rfl⟩, fillSlot, List.getElem?_set_self inside,
          Option.some.inj isLocation]
      · rw [if_neg, fillSlot, List.getElem?_set_ne same]
        rintro ⟨other, listed, isPosition⟩
        rcases List.mem_cons.mp listed with rfl | among
        · exact same isPosition
        · exact later ⟨other, among, isPosition⟩

theorem exists_map_some {Value : Type} {values : List (Option Value)}
    (every : ∀ value ∈ values, value.isSome = true) :
    ∃ filled : List Value, values = filled.map some := by
  refine ⟨values.filterMap id, ?_⟩
  induction values with
  | nil => rfl
  | cons value values ih =>
    obtain ⟨present, later⟩ := List.forall_mem_cons.mp every
    obtain ⟨held, rfl⟩ := Option.isSome_iff_exists.mp present
    exact congrArg (some held :: ·) (ih later)

theorem mapM_congr_map {Input Output : Type} {first second : Input → Option Output}
    {inputs : List Input} (same : inputs.map first = inputs.map second) :
    inputs.mapM first = inputs.mapM second := by
  apply Option.ext
  intro outputs
  rw [mapM_eq_some_iff, mapM_eq_some_iff, same]

theorem drainReady_map_some (datas : List Bytes) :
    drainReady (datas.map some) = datas.flatten := by
  induction datas with
  | nil => rfl
  | cons data datas ih =>
    rw [List.map_cons, drainReady, ih]
    rfl

end Slots

section Coalesced

variable {down : PackId → Option VykarError}

theorem misses_stand :
    ∀ blob ∈ (coalesce (misses cache chunks)).flatMap CoalescedGroup.blobs,
      chunks[blob.resultIdx]? = some blob.toChunkLocation := by
  intro blob listed
  obtain ⟨group, inGroups, among⟩ := List.mem_flatMap.mp listed
  exact (mem_misses.mp (mem_blobs_of_mem_coalesce inGroups among).1).1

theorem length_foldl_fillSlot (blobs : List CoalescedBlob) :
    (blobs.foldl (fillSlot external packs) slots).length = slots.length := by
  induction blobs generalizing slots with
  | nil => rfl
  | cons blob blobs ih =>
    rw [List.foldl_cons, ih, fillSlot, List.length_set]

theorem foldl_fillSlot_misses :
    ((coalesce (misses cache chunks)).flatMap CoalescedGroup.blobs).foldl
        (fillSlot external packs) (chunks.map fun location => cache.get? location.chunkId) =
      chunks.map fun location =>
        (cache.get? location.chunkId).or (plainAt external packs location) := by
  apply List.ext_getElem?
  intro position
  cases here : chunks[position]? with
  | none =>
    have outside := List.getElem?_eq_none_iff.mp here
    rw [List.getElem?_eq_none (by rw [length_foldl_fillSlot, List.length_map]; exact outside),
      List.getElem?_eq_none (by rw [List.length_map]; exact outside)]
  | some location =>
    rw [foldl_fillSlot misses_stand (by rw [List.length_map]) here, List.getElem?_map,
      List.getElem?_map, here, Option.map_some, Option.map_some]
    cases cached : cache.get? location.chunkId with
    | some data =>
      -- a cached chunk is not among the blobs that are fetched
      rw [if_neg, Option.some_or]
      rintro ⟨blob, listed, rfl⟩
      obtain ⟨group, inGroups, among⟩ := List.mem_flatMap.mp listed
      obtain ⟨isBlob, missing⟩ := mem_misses.mp (mem_blobs_of_mem_coalesce inGroups among).1
      rw [here] at isBlob
      rw [Option.some.inj isBlob, missing] at cached
      cases cached
    | none =>
      rw [if_pos, Option.none_or]
      obtain ⟨group, inGroups, among⟩ := @exists_group (misses cache chunks)
        ⟨location, position⟩ (mem_misses.mpr ⟨here, cached⟩)
      exact ⟨_, List.mem_flatMap.mpr ⟨group, inGroups, among⟩, rfl⟩

/-- A chunk that is not cached can be fetched: its pack answers and holds it. -/
def Fetchable (external : External) (down : PackId → Option VykarError)
    (packs : Dict PackId Bytes) (cache : BlobCache) (chunks : List ChunkLocation) : Prop :=
  ∀ location ∈ chunks, cache.get? location.chunkId = none →
    down location.packId = none ∧ (plainAt external packs location).isSome = true

/-- A coalesced read of chunks that can be fetched and do not overlap ends well. -/
theorem readGroups_succeeds (layout : NonOverlapping chunks)
    (fetchable : Fetchable external down packs cache chunks) :
    ∃ result, (readGroups external (fun packId _ => down packId) packs
      (coalesce (misses cache chunks)) cache
      (chunks.map fun location => cache.get? location.chunkId)).2 = .ok result := by
  have ofMiss {blob : CoalescedBlob} (missed : blob ∈ misses cache chunks) :
      blob.toChunkLocation ∈ chunks ∧ down blob.packId = none ∧
        (plainAt external packs blob.toChunkLocation).isSome = true := by
    obtain ⟨here, missing⟩ := mem_misses.mp missed
    exact ⟨List.mem_of_getElem? here, fetchable _ (List.mem_of_getElem? here) missing⟩
  cases result : (readGroups external (fun packId _ => down packId) packs
      (coalesce (misses cache chunks)) cache
      (chunks.map fun location => cache.get? location.chunkId)).2 with
  | ok filled => exact ⟨filled, rfl⟩
  | error failure =>
    obtain ⟨group, listed, isFault⟩ := readGroups_fault_at
      (fun group listed => spans_of_mem_coalesce listed)
      (fun group listed blob among => (ofMiss (mem_blobs_of_mem_coalesce listed among).1).2.2)
      (fun group listed blob among => (mem_blobs_of_mem_coalesce listed among).2)
      (fun group listed blob among => by
        obtain ⟨packId, -, inPack⟩ := mem_coalesce.mp listed
        refine stop_le_of_mem_coalescePack ?_ inPack among
        intro first firstListed second secondListed before
        obtain ⟨firstMissed, firstPack⟩ := List.mem_filter.mp firstListed
        obtain ⟨secondMissed, secondPack⟩ := List.mem_filter.mp secondListed
        have samePack := (of_decide_eq_true firstPack).trans (of_decide_eq_true secondPack).symm
        obtain ⟨-, -, -, -, nonempty, -⟩ := exists_file_of_plainAt (ofMiss secondMissed).2.2
        have apart := layout _ (ofMiss firstMissed).1 _ (ofMiss secondMissed).1 samePack
        unfold ChunkLocation.stop at apart ⊢
        omega) result
    -- a group has a blob, and the pack of that blob answers
    obtain ⟨blob, among, -⟩ := (spans_of_mem_coalesce listed).stop
    obtain ⟨missed, samePack⟩ := mem_blobs_of_mem_coalesce listed among
    have answers := (ofMiss missed).2.1
    rw [samePack, isFault] at answers
    cases answers

theorem fetchable_of_ok (done : (readGroups external (fun packId _ => down packId) packs
      (coalesce (misses cache chunks)) cache
      (chunks.map fun location => cache.get? location.chunkId)).2 = .ok result) :
    Fetchable external down packs cache chunks := by
  intro location listed missing
  obtain ⟨position, here⟩ := List.mem_iff_getElem?.mp listed
  obtain ⟨group, inGroups, among⟩ := @exists_group (misses cache chunks) ⟨location, position⟩
    (mem_misses.mpr ⟨here, missing⟩)
  obtain ⟨answers, readable⟩ := (readGroups_ok
    (fun group listed => spans_of_mem_coalesce listed)
    (fun group listed blob among => (mem_blobs_of_mem_coalesce listed among).2) done).2
      group inGroups
  refine ⟨?_, readable _ among⟩
  rw [← (mem_blobs_of_mem_coalesce inGroups among).2] at answers
  exact answers

theorem readChunkAt_of_fetchable (fetchable : Fetchable external down packs cache chunks)
    (listed : location ∈ chunks) :
    (readChunkAt external (down location.packId) packs cache location).2.toOption =
      (cache.get? location.chunkId).or (plainAt external packs location) := by
  cases cached : cache.get? location.chunkId with
  | some data => simp [readChunkAt, cached, Except.toOption]
  | none => rw [(fetchable location listed cached).1, readChunkAt_toOption, cached]

theorem fetchable_of_reads {datas : List Bytes}
    (reads : (chunks.map fun location =>
      (readChunkAt external (down location.packId) packs cache location).2.toOption) =
        datas.map some) : Fetchable external down packs cache chunks := by
  intro location listed missing
  have returned : (readChunkAt external (down location.packId) packs cache location).2.toOption ∈
      datas.map some := by
    rw [← reads]
    exact List.mem_map_of_mem listed
  obtain ⟨data, -, isData⟩ := List.mem_map.mp returned
  cases hit : down location.packId with
  | some failure =>
    rw [hit, readChunkAt_fault, missing] at isData
    cases isData
  | none =>
    rw [hit, readChunkAt_toOption, missing, Option.none_or] at isData
    exact ⟨rfl, by rw [← isData]; rfl⟩

theorem readChunksCoalesced_toOption (layout : NonOverlapping chunks) :
    (readChunksCoalesced external (fun packId _ => down packId) packs cache chunks).2.toOption =
      (chunks.mapM fun location =>
        (readChunkAt external (down location.packId) packs cache location).2.toOption).map
          List.flatten := by
  cases reads : chunks.mapM fun location =>
      (readChunkAt external (down location.packId) packs cache location).2.toOption with
  | some datas =>
    rw [mapM_eq_some_iff] at reads
    have fetchable := fetchable_of_reads reads
    obtain ⟨result, done⟩ := readGroups_succeeds layout fetchable
    have filled := (readGroups_ok (fun group listed => spans_of_mem_coalesce listed)
      (fun group listed blob among => (mem_blobs_of_mem_coalesce listed among).2) done).1
    rw [foldl_fillSlot_misses, ← List.map_congr_left fun location listed =>
      readChunkAt_of_fetchable fetchable listed, reads] at filled
    unfold readChunksCoalesced
    generalize readGroups external (fun packId _ => down packId) packs
      (coalesce (misses cache chunks)) cache
      (chunks.map fun location => cache.get? location.chunkId) = ran at done
    obtain ⟨last, outcome⟩ := ran
    cases done
    simp only [filled, drainReady_map_some]
    rfl
  | none =>
    unfold readChunksCoalesced
    cases ran : readGroups external (fun packId _ => down packId) packs
      (coalesce (misses cache chunks)) cache
      (chunks.map fun location => cache.get? location.chunkId) with
    | mk last outcome =>
      cases outcome with
      | error failure => rfl
      | ok result =>
        -- then every chunk could be fetched, and no single read would fail
        have fetchable := fetchable_of_ok (by rw [ran])
        have every : ∀ value ∈ chunks.map (fun location =>
            (readChunkAt external (down location.packId) packs cache location).2.toOption),
            value.isSome = true := by
          intro value listed
          obtain ⟨location, among, rfl⟩ := List.mem_map.mp listed
          rw [readChunkAt_of_fetchable fetchable among]
          cases cached : cache.get? location.chunkId with
          | some data => rfl
          | none => exact (fetchable location among cached).2
        obtain ⟨datas, isDatas⟩ := exists_map_some every
        rw [mapM_eq_some_iff.mpr isDatas] at reads
        cases reads

end Coalesced

/-- A coalesced read returns the concatenation of the single reads, and fails if one of them
does.  Each single read may start from the cache that the coalesced read starts from; if the
cache agrees with the stored chunks, the single reads may also run one after the other. -/
theorem readChunksCoalesced_eq_single_reads (external : External)
    (down : PackId → Option VykarError) (packs : Dict PackId Bytes) (cache : BlobCache)
    (chunks : List ChunkLocation) (layout : NonOverlapping chunks) :
    (readChunksCoalesced external (fun packId _ => down packId) packs cache chunks).2.toOption =
        (chunks.mapM fun location =>
          (readChunkAt external (down location.packId) packs cache location).2.toOption).map
            List.flatten ∧
      ∀ plain : ChunkId → Option Bytes,
        (∀ location ∈ chunks, plainAt external packs location = plain location.chunkId) →
        CacheSound plain cache →
        (readChunksCoalesced external (fun _ _ => none) packs cache chunks).2.toOption =
          (readChunksSingly external packs cache chunks).2.toOption := by
  refine ⟨readChunksCoalesced_toOption layout, ?_⟩
  intro plain located sound
  rw [readChunksSingly_toOption located sound,
    @readChunksCoalesced_toOption external packs cache chunks (fun _ => none) layout]
  have same : chunks.map (fun location =>
      (readChunkAt external none packs cache location).2.toOption) =
        chunks.map fun location => plain location.chunkId :=
    List.map_congr_left fun location listed =>
      (readChunkAt_sound (located location listed) sound).2
  exact congrArg (Option.map List.flatten) (mapM_congr_map same)

/-- Two adjacent blobs of one pack, the second of them asked for twice. -/
theorem readChunksCoalesced_eq_single_reads_repeated :
    NonOverlapping [⟨2, 0, 4, 4⟩, ⟨1, 0, 0, 4⟩, ⟨2, 0, 4, 4⟩] ∧
      (readChunksCoalesced External.bare (fun _ _ => none)
        (Dict.ofList [(0, [3, 0, 7, 8, 3, 0, 9, 9])]) .empty
        [⟨2, 0, 4, 4⟩, ⟨1, 0, 0, 4⟩, ⟨2, 0, 4, 4⟩]).2.toOption = some [9, 9, 7, 8, 9, 9] := by
  have layout : NonOverlapping [⟨2, 0, 4, 4⟩, ⟨1, 0, 0, 4⟩, ⟨2, 0, 4, 4⟩] := by
    unfold NonOverlapping
    decide
  have single := (readChunksCoalesced_eq_single_reads External.bare (fun _ => none)
    (Dict.ofList [(0, [3, 0, 7, 8, 3, 0, 9, 9])]) .empty _ layout).2
      (fun id => if id = 1 then some [7, 8] else some [9, 9])
  refine ⟨layout, (single ?_ ?_).trans (by decide +kernel)⟩
  · decide +kernel
  · intro id data cached
    cases cached

end Vykar.Snapshot

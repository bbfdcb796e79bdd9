import Vykar.Snapshot.Reading

/-!
Coalesced reads (`read_chunks_coalesced_into`).

The blobs of a pack that are close together are fetched by one range read.  A
read that succeeds returns the plaintexts of the chunks in order, whatever the
cache holds.  Readable chunks can be missed for two reasons only: a call fails,
or the range of one of them is nested in the range of another, in which case the
range read is cut too short.
-/

namespace Vykar.Snapshot

open Index Pack

structure ChunkLocation where
  chunkId : ChunkId
  packId : PackId
  packOffset : Nat
  storedSize : Nat

def ChunkLocation.stop (location : ChunkLocation) : Nat :=
  location.packOffset + location.storedSize

structure CoalescedBlob extends ChunkLocation where
  resultIdx : Nat

structure CoalescedGroup where
  packId : PackId
  readStart : Nat
  readEnd : Nat
  blobs : List CoalescedBlob

def coalesceGap : Nat := 256 * 1024

def coalesceMax : Nat := 16 * 1024 * 1024

def misses (cache : BlobCache) (chunks : List ChunkLocation) : List CoalescedBlob :=
  chunks.zipIdx.filterMap fun (location, position) =>
    if (cache.get? location.chunkId).isSome then none else some ⟨location, position⟩

/-- Extend a group by the blobs that follow it, or start a new one. -/
def coalesceFrom (packId : PackId) (start stop : Nat) (current : List CoalescedBlob) :
    List CoalescedBlob → List CoalescedGroup
  | [] => [⟨packId, start, stop, current⟩]
  | blob :: blobs =>
    if blob.packOffset - stop ≤ coalesceGap ∧ blob.stop - start ≤ coalesceMax then
      coalesceFrom packId start blob.stop (current ++ [blob]) blobs
    else
      ⟨packId, start, stop, current⟩ ::
        coalesceFrom packId blob.packOffset blob.stop [blob] blobs

def coalescePack (packId : PackId) (blobs : List CoalescedBlob) : List CoalescedGroup :=
  match blobs.insertionSort fun first second => first.packOffset ≤ second.packOffset with
  | [] => []
  | first :: rest => coalesceFrom packId first.packOffset first.stop [first] rest

def CoalescedGroup.earliest (group : CoalescedGroup) : Nat :=
  ((group.blobs.map CoalescedBlob.resultIdx).min?).getD 0

def coalesce (blobs : List CoalescedBlob) : List CoalescedGroup :=
  ((blobs.map fun blob => blob.packId).dedup.flatMap fun packId =>
    coalescePack packId (blobs.filter fun blob => blob.packId = packId)).insertionSort
      fun first second => first.earliest ≤ second.earliest

section Read

variable (external : External)

/-- The blobs of a group, taken out of the bytes read for it. -/
def readGroupBlobs (packId : PackId) (readStart : Nat) (raw : Bytes) :
    List CoalescedBlob → BlobCache → List (Option Bytes) →
      BlobCache × Except VykarError (List (Option Bytes))
  | [], cache, slots => (cache, .ok slots)
  | blob :: blobs, cache, slots =>
    let localOffset := blob.packOffset - readStart
    if raw.length < localOffset + blob.storedSize then
      let shown := shownId packId
      (cache, .error (.other s!"blob extends beyond downloaded range in pack {shown}"))
    else
      match external.readChunk blob.chunkId ((raw.drop localOffset).take blob.storedSize) with
      | .error failure => (cache, .error failure)
      | .ok plaintext =>
        readGroupBlobs packId readStart raw blobs (cache.insert blob.chunkId plaintext)
          (slots.set blob.resultIdx (some plaintext))

def readGroups (faults : PackId → Nat → Option VykarError) (packs : Dict PackId Bytes) :
    List CoalescedGroup → BlobCache → List (Option Bytes) →
      BlobCache × Except VykarError (List (Option Bytes))
  | [], cache, slots => (cache, .ok slots)
  | group :: groups, cache, slots =>
    match getRange external (faults group.packId group.readStart) packs group.packId
        group.readStart (group.readEnd - group.readStart) with
    | .error failure => (cache, .error failure)
    | .ok none => (cache, .error (packNotFound group.packId))
    | .ok (some raw) =>
      match readGroupBlobs external group.packId group.readStart raw group.blobs cache
          slots with
      | (cache, .error failure) => (cache, .error failure)
      | (cache, .ok slots) => readGroups faults packs groups cache slots

/-- The output: the slots in order, up to the first that is not filled. -/
def drainReady : List (Option Bytes) → Bytes
  | some data :: slots => data ++ drainReady slots
  | _ => []

/-- `read_chunks_coalesced_into` -/
def readChunksCoalesced (faults : PackId → Nat → Option VykarError) (packs : Dict PackId Bytes)
    (cache : BlobCache) (chunks : List ChunkLocation) : BlobCache × Except VykarError Bytes :=
  match readGroups external faults packs (coalesce (misses cache chunks)) cache
      (chunks.map fun location => cache.get? location.chunkId) with
  | (cache, .error failure) => (cache, .error failure)
  | (cache, .ok slots) => (cache, .ok (drainReady slots))

def plainAt (packs : Dict PackId Bytes) (location : ChunkLocation) : Option Bytes :=
  ((packs.get? location.packId).bind fun file =>
    readRange file location.packOffset location.storedSize).bind fun raw =>
      (external.readChunk location.chunkId raw).toOption

end Read

section Groups

variable {packId : PackId} {start stop : Nat} {current blobs : List CoalescedBlob}
  {group : CoalescedGroup} {blob : CoalescedBlob}

theorem coalesceFrom_blobs (packId : PackId) (start stop : Nat)
    (current blobs : List CoalescedBlob) :
    (coalesceFrom packId start stop current blobs).flatMap CoalescedGroup.blobs =
      current ++ blobs := by
  induction blobs generalizing start stop current with
  | nil => simp [coalesceFrom]
  | cons blob blobs ih =>
    rw [coalesceFrom]
    split
    · rw [ih, List.append_assoc]
      rfl
    · rw [List.flatMap_cons, ih]
      rfl

theorem coalescePack_blobs (packId : PackId) (blobs : List CoalescedBlob) :
    ((coalescePack packId blobs).flatMap CoalescedGroup.blobs).Perm blobs := by
  have sorted := List.perm_insertionSort
    (fun first second : CoalescedBlob => first.packOffset ≤ second.packOffset) blobs
  unfold coalescePack
  split
  · rename_i nothing
    rw [nothing] at sorted
    exact sorted
  · rename_i first rest split
    rw [coalesceFrom_blobs, List.singleton_append, ← split]
    exact sorted

structure Spans (packId : PackId) (group : CoalescedGroup) : Prop where
  pack : group.packId = packId
  start : ∀ blob ∈ group.blobs, group.readStart ≤ blob.packOffset
  stop : ∃ blob ∈ group.blobs, group.readEnd = blob.stop

theorem spans_of_mem_coalesceFrom
    (sorted : (current ++ blobs).Pairwise fun first second =>
      first.packOffset ≤ second.packOffset)
    (starts : ∀ blob ∈ current, start ≤ blob.packOffset)
    (stops : ∃ blob ∈ current, stop = blob.stop)
    (listed : group ∈ coalesceFrom packId start stop current blobs) : Spans packId group := by
  induction blobs generalizing start stop current with
  | nil =>
    obtain rfl := List.mem_singleton.mp listed
    exact ⟨rfl, starts, stops⟩
  | cons blob blobs ih =>
    rw [coalesceFrom] at listed
    split at listed
    · refine ih (by simpa using sorted) ?_ ⟨blob, by simp, rfl⟩ listed
      intro other among
      rcases List.mem_append.mp among with earlier | here
      · exact starts other earlier
      · obtain rfl := List.mem_singleton.mp here
        obtain ⟨first, inCurrent, -⟩ := stops
        exact (starts first inCurrent).trans
          ((List.pairwise_append.mp sorted).2.2 first inCurrent other (by simp))
    · rcases List.mem_cons.mp listed with rfl | later
      · exact ⟨rfl, starts, stops⟩
      · refine ih (List.pairwise_append.mp sorted).2.1 ?_
          ⟨blob, by simp, rfl⟩ later
        intro other here
        rw [List.mem_singleton.mp here]

def NotNested (blobs : List CoalescedBlob) : Prop :=
  ∀ first ∈ blobs, ∀ second ∈ blobs, first.packOffset ≤ second.packOffset →
    first.stop ≤ second.stop

theorem stop_le_of_mem_coalesceFrom (flat : NotNested (current ++ blobs))
    (sorted : (current ++ blobs).Pairwise fun first second =>
      first.packOffset ≤ second.packOffset)
    (ends : ∀ blob ∈ current, blob.stop ≤ stop)
    (listed : group ∈ coalesceFrom packId start stop current blobs)
    (among : blob ∈ group.blobs) : blob.stop ≤ group.readEnd := by
  induction blobs generalizing start stop current with
  | nil =>
    obtain rfl := List.mem_singleton.mp listed
    exact ends blob among
  | cons next blobs ih =>
    rw [coalesceFrom] at listed
    split at listed
    · refine ih (by simpa using flat) (by simpa using sorted) ?_ listed
      intro other inGroup
      rcases List.mem_append.mp inGroup with earlier | here
      · exact flat other (by simp [earlier]) next (by simp)
          ((List.pairwise_append.mp sorted).2.2 other earlier next (by simp))
      · rw [List.mem_singleton.mp here]
    · rcases List.mem_cons.mp listed with rfl | later
      · exact ends blob among
      · refine ih ?_ (List.pairwise_append.mp sorted).2.1 ?_ later
        · intro first firstListed second secondListed
          exact flat first (List.mem_append_right _ firstListed) second
            (List.mem_append_right _ secondListed)
        · intro other here
          rw [List.mem_singleton.mp here]

theorem spans_of_mem_coalescePack (listed : group ∈ coalescePack packId blobs) :
    Spans packId group := by
  have sorted := List.pairwise_insertionSort
    (fun first second : CoalescedBlob => first.packOffset ≤ second.packOffset) blobs
  unfold coalescePack at listed
  split at listed
  · cases listed
  · rename_i first rest split
    rw [split] at sorted
    refine spans_of_mem_coalesceFrom sorted ?_ ⟨first, by simp, rfl⟩ listed
    intro other here
    rw [List.mem_singleton.mp here]

theorem stop_le_of_mem_coalescePack (flat : NotNested blobs)
    (listed : group ∈ coalescePack packId blobs) (among : blob ∈ group.blobs) :
    blob.stop ≤ group.readEnd := by
  have sorted := List.pairwise_insertionSort
    (fun first second : CoalescedBlob => first.packOffset ≤ second.packOffset) blobs
  have same := List.perm_insertionSort
    (fun first second : CoalescedBlob => first.packOffset ≤ second.packOffset) blobs
  unfold coalescePack at listed
  split at listed
  · cases listed
  · rename_i first rest split
    rw [split] at sorted same
    refine stop_le_of_mem_coalesceFrom ?_ sorted ?_ listed among
    · intro one oneListed other otherListed
      exact flat one (same.mem_iff.mp oneListed) other (same.mem_iff.mp otherListed)
    · intro other here
      rw [List.mem_singleton.mp here]

theorem mem_coalesce :
    group ∈ coalesce blobs ↔ ∃ packId, (∃ blob ∈ blobs, blob.packId = packId) ∧
      group ∈ coalescePack packId (blobs.filter fun blob => blob.packId = packId) := by
  unfold coalesce
  rw [(List.perm_insertionSort _ _).mem_iff, List.mem_flatMap]
  simp only [List.mem_dedup, List.mem_map]

theorem spans_of_mem_coalesce (listed : group ∈ coalesce blobs) : Spans group.packId group := by
  obtain ⟨packId, -, inPack⟩ := mem_coalesce.mp listed
  have spans := spans_of_mem_coalescePack inPack
  exact ⟨rfl, spans.start, spans.stop⟩

theorem mem_blobs_of_mem_coalesce (listed : group ∈ coalesce blobs)
    (among : blob ∈ group.blobs) : blob ∈ blobs ∧ blob.packId = group.packId := by
  obtain ⟨packId, -, inPack⟩ := mem_coalesce.mp listed
  have inFilter := (coalescePack_blobs packId _).mem_iff.mp
    (List.mem_flatMap.mpr ⟨group, inPack, among⟩)
  obtain ⟨given, same⟩ := List.mem_filter.mp inFilter
  exact ⟨given, (of_decide_eq_true same).trans (spans_of_mem_coalescePack inPack).pack.symm⟩

theorem exists_group (listed : blob ∈ blobs) :
    ∃ group ∈ coalesce blobs, blob ∈ group.blobs := by
  have inFilter : blob ∈ blobs.filter fun other => other.packId = blob.packId :=
    List.mem_filter.mpr ⟨listed, by simp⟩
  obtain ⟨group, inPack, among⟩ := List.mem_flatMap.mp
    ((coalescePack_blobs blob.packId _).mem_iff.mpr inFilter)
  exact ⟨group, mem_coalesce.mpr ⟨blob.packId, ⟨blob, listed, rfl⟩, inPack⟩, among⟩

end Groups

variable {file raw : Bytes} {length offset : Nat}

theorem readRange_inside {start size : Nat} (read : readRange file start length = some raw)
    (after : start ≤ offset) (within : offset - start + size ≤ raw.length) :
    readRange file offset size = some ((raw.drop (offset - start)).take size) := by
  have long := readRange_length read
  unfold readRange at read
  simp only at read
  split at read
  · cases read
    have shifted : ((file.drop start).take length).drop (offset - start) =
        (file.drop offset).take (length - (offset - start)) := by
      rw [List.drop_take, List.drop_drop, Nat.add_sub_cancel' after]
    rw [shifted, List.take_take, Nat.min_eq_left (by omega)]
    unfold readRange
    simp only
    rw [if_pos]
    simp only [List.length_take, List.length_drop] at long ⊢
    omega
  · cases read

section Result

variable {external : External} {packs : Dict PackId Bytes} {chunks : List ChunkLocation}
  {plain : ChunkId → Option Bytes} {cache : BlobCache} {slots : List (Option Bytes)} {data : Bytes}
  {blob : CoalescedBlob} {location : ChunkLocation} {packId : PackId} {readStart : Nat}
  {blobs : List CoalescedBlob} {faults : PackId → Nat → Option VykarError}
  {groups : List CoalescedGroup} {failure : VykarError}

def CacheSound (plain : ChunkId → Option Bytes) (cache : BlobCache) : Prop :=
  ∀ id data, cache.get? id = some data → plain id = some data

theorem CacheSound.insert (sound : CacheSound plain cache) {id : ChunkId}
    (isPlain : plain id = some data) : CacheSound plain (cache.insert id data) := by
  intro other stored found
  rcases BlobCache.get?_insert found with ⟨rfl, rfl⟩ | before
  · exact isPlain
  · exact sound other stored before

structure SlotsSound (plain : ChunkId → Option Bytes) (chunks : List ChunkLocation)
    (slots : List (Option Bytes)) : Prop where
  length : slots.length = chunks.length
  sound : ∀ (position : Nat) (location : ChunkLocation) (data : Bytes),
    chunks[position]? = some location → slots[position]? = some (some data) →
      plain location.chunkId = some data

def Filled (slots : List (Option Bytes)) (position : Nat) : Prop :=
  ∃ data, slots[position]? = some (some data)

structure Stands (external : External) (packs : Dict PackId Bytes)
    (chunks : List ChunkLocation) (plain : ChunkId → Option Bytes) (blob : CoalescedBlob) :
    Prop where
  position : chunks[blob.resultIdx]? = some blob.toChunkLocation
  plain : plainAt external packs blob.toChunkLocation = plain blob.chunkId

theorem Filled.set {position other : Nat} (filled : Filled slots position) (data : Bytes) :
    Filled (slots.set other (some data)) position := by
  obtain ⟨stored, here⟩ := filled
  by_cases same : other = position
  · subst same
    refine ⟨data, ?_⟩
    rw [List.getElem?_set_self]
    exact (List.getElem?_eq_some_iff.mp here).1
  · exact ⟨stored, by rw [List.getElem?_set_ne same, here]⟩

theorem SlotsSound.set (sound : SlotsSound plain chunks slots)
    (position : chunks[blob.resultIdx]? = some blob.toChunkLocation)
    (isPlain : plain blob.chunkId = some data) :
    SlotsSound plain chunks (slots.set blob.resultIdx (some data)) ∧
      Filled (slots.set blob.resultIdx (some data)) blob.resultIdx := by
  have inside : blob.resultIdx < slots.length := by
    rw [sound.length]
    exact (List.getElem?_eq_some_iff.mp position).1
  refine ⟨⟨by rw [List.length_set, sound.length], ?_⟩,
    data, by rw [List.getElem?_set_self inside]⟩
  intro other location stored isLocation found
  by_cases same : blob.resultIdx = other
  · subst same
    rw [List.getElem?_set_self inside] at found
    cases Option.some.inj found
    cases position.symm.trans isLocation
    exact isPlain
  · rw [List.getElem?_set_ne same] at found
    exact sound.sound other location stored isLocation found

theorem plainAt_of_readChunk (stored : packs.get? location.packId = some file)
    (read : readRange file location.packOffset location.storedSize = some raw)
    (decoded : external.readChunk location.chunkId raw = .ok data) :
    plainAt external packs location = some data := by
  rw [plainAt, stored, Option.bind_some, read, Option.bind_some, decoded]
  rfl

theorem readGroupBlobs_sound (stored : packs.get? packId = some file)
    (read : readRange file readStart length = some raw)
    (stands : ∀ blob ∈ blobs, Stands external packs chunks plain blob)
    (inPack : ∀ blob ∈ blobs, blob.packId = packId)
    (starts : ∀ blob ∈ blobs, readStart ≤ blob.packOffset) (cacheSound : CacheSound plain cache)
    (slotsSound : SlotsSound plain chunks slots) :
    CacheSound plain (readGroupBlobs external packId readStart raw blobs cache slots).1 ∧
      ∀ result, (readGroupBlobs external packId readStart raw blobs cache slots).2 = .ok result →
        SlotsSound plain chunks result ∧ (∀ position, Filled slots position →
          Filled result position) ∧ ∀ blob ∈ blobs, Filled result blob.resultIdx := by
  induction blobs generalizing cache slots with
  | nil =>
    refine ⟨cacheSound, fun result done => ?_⟩
    cases done
    exact ⟨slotsSound, fun _ filled => filled, fun blob listed => by cases listed⟩
  | cons blob blobs ih =>
    obtain ⟨stand, stands⟩ := List.forall_mem_cons.mp stands
    obtain ⟨here, inPack⟩ := List.forall_mem_cons.mp inPack
    obtain ⟨start, starts⟩ := List.forall_mem_cons.mp starts
    rw [readGroupBlobs]
    simp only
    split
    · exact ⟨cacheSound, fun result done => by cases done⟩
    · rename_i within
      split
      · exact ⟨cacheSound, fun result done => by cases done⟩
      · rename_i data decoded
        have part := readRange_inside read start (Nat.le_of_not_lt within)
        have isPlain : plain blob.chunkId = some data :=
          stand.plain.symm.trans (plainAt_of_readChunk (here ▸ stored) part decoded)
        obtain ⟨nextSound, nextFilled⟩ := slotsSound.set stand.position isPlain
        obtain ⟨later, laterSlots⟩ := ih stands inPack starts
          (cacheSound.insert isPlain) nextSound
        refine ⟨later, fun result done => ?_⟩
        obtain ⟨sound, kept, filled⟩ := laterSlots result done
        refine ⟨sound, fun position before => kept position (before.set data), ?_⟩
        intro other listed
        rcases List.mem_cons.mp listed with rfl | among
        · exact kept _ nextFilled
        · exact filled other among

theorem getRange_eq_some {fault : Option VykarError}
    (read : getRange external fault packs packId offset length = .ok (some raw)) :
    ∃ file, packs.get? packId = some file ∧ readRange file offset length = some raw := by
  unfold getRange at read
  split at read
  · cases read
  · split at read
    · cases read
    · rename_i file stored
      split at read
      · cases read
      · split at read
        · cases read
        · rename_i part found
          cases read
          exact ⟨file, stored, found⟩

theorem readGroups_sound (spans : ∀ group ∈ groups, Spans group.packId group)
    (stands : ∀ group ∈ groups, ∀ blob ∈ group.blobs, Stands external packs chunks plain blob)
    (inPack : ∀ group ∈ groups, ∀ blob ∈ group.blobs, blob.packId = group.packId)
    (cacheSound : CacheSound plain cache) (slotsSound : SlotsSound plain chunks slots) :
    CacheSound plain (readGroups external faults packs groups cache slots).1 ∧
      ∀ result, (readGroups external faults packs groups cache slots).2 = .ok result →
        SlotsSound plain chunks result ∧
          (∀ position, Filled slots position → Filled result position) ∧
          ∀ group ∈ groups, ∀ blob ∈ group.blobs, Filled result blob.resultIdx := by
  induction groups generalizing cache slots with
  | nil =>
    refine ⟨cacheSound, fun result done => ?_⟩
    cases done
    exact ⟨slotsSound, fun _ filled => filled, fun group listed => by cases listed⟩
  | cons group groups ih =>
    obtain ⟨span, spans⟩ := List.forall_mem_cons.mp spans
    obtain ⟨stand, stands⟩ := List.forall_mem_cons.mp stands
    obtain ⟨here, inPack⟩ := List.forall_mem_cons.mp inPack
    rw [readGroups]
    split
    · exact ⟨cacheSound, fun result done => by cases done⟩
    · exact ⟨cacheSound, fun result done => by cases done⟩
    · rename_i raw read
      obtain ⟨file, stored, part⟩ := getRange_eq_some read
      obtain ⟨groupCache, groupSlots⟩ := readGroupBlobs_sound stored part stand here
        span.start cacheSound slotsSound
      split
      · rename_i nextCache failure blobs
        rw [blobs] at groupCache
        exact ⟨groupCache, fun result done => by cases done⟩
      · rename_i nextCache nextSlots blobs
        rw [blobs] at groupCache groupSlots
        obtain ⟨nextSound, nextKept, nextFilled⟩ := groupSlots nextSlots rfl
        obtain ⟨later, laterSlots⟩ := ih spans stands inPack
          groupCache nextSound
        refine ⟨later, fun result done => ?_⟩
        obtain ⟨sound, kept, filled⟩ := laterSlots result done
        refine ⟨sound, fun position before => kept position (nextKept position before), ?_⟩
        intro other listed blob among
        rcases List.mem_cons.mp listed with rfl | inRest
        · exact kept _ (nextFilled blob among)
        · exact filled other inRest blob among

theorem mem_misses :
    blob ∈ misses cache chunks ↔
      chunks[blob.resultIdx]? = some blob.toChunkLocation ∧ cache.get? blob.chunkId = none := by
  simp only [misses, List.mem_filterMap, Prod.exists, List.mem_zipIdx_iff_getElem?]
  constructor
  · rintro ⟨location, position, here, made⟩
    split at made
    · cases made
    · rename_i absent
      cases made
      exact ⟨here, by simpa using absent⟩
  · rintro ⟨here, absent⟩
    exact ⟨blob.toChunkLocation, blob.resultIdx, here, by simp [absent]⟩

theorem drainReady_of_filled (filled : ∀ position < slots.length, Filled slots position) :
    ∃ datas : List Bytes, slots = datas.map some ∧ drainReady slots = datas.flatten := by
  induction slots with
  | nil => exact ⟨[], rfl, rfl⟩
  | cons slot slots ih =>
    obtain ⟨data, here⟩ := filled 0 (by simp)
    obtain rfl : slot = some data := by simpa using here
    obtain ⟨datas, rfl, drained⟩ := ih fun position inside => by
      obtain ⟨other, found⟩ := filled (position + 1) (by simpa using inside)
      exact ⟨other, by simpa using found⟩
    exact ⟨data :: datas, rfl, by rw [drainReady, drained]; rfl⟩

theorem SlotsSound.map_plain {datas : List Bytes}
    (sound : SlotsSound plain chunks (datas.map some)) :
    chunks.map (fun location => plain location.chunkId) = datas.map some := by
  have lengths := sound.length
  rw [List.length_map] at lengths
  apply List.ext_getElem
  · rw [List.length_map, List.length_map, lengths]
  · intro position inChunks inDatas
    rw [List.length_map] at inChunks inDatas
    rw [List.getElem_map, List.getElem_map]
    exact sound.sound position chunks[position] datas[position] (by simp) (by simp [inDatas])

theorem stands_of_mem_misses
    (located : ∀ location ∈ chunks, plainAt external packs location = plain location.chunkId)
    (missed : blob ∈ misses cache chunks) :
    Stands external packs chunks plain blob := by
  have here := (mem_misses.mp missed).1
  exact ⟨here, located _ (List.mem_of_getElem? here)⟩

theorem readChunksCoalesced_ok
    (located : ∀ location ∈ chunks, plainAt external packs location = plain location.chunkId)
    (cacheSound : CacheSound plain cache) :
    CacheSound plain (readChunksCoalesced external faults packs cache chunks).1 ∧
      ∀ out, (readChunksCoalesced external faults packs cache chunks).2 = .ok out →
        ∃ datas : List Bytes,
          chunks.map (fun location => plain location.chunkId) = datas.map some ∧
          out = datas.flatten := by
  have startSound : SlotsSound plain chunks
      (chunks.map fun location => cache.get? location.chunkId) := by
    refine ⟨by simp, fun position location data here found => ?_⟩
    rw [List.getElem?_map, here, Option.map_some] at found
    exact cacheSound _ _ (Option.some.inj found)
  obtain ⟨laterCache, laterSlots⟩ := @readGroups_sound external packs chunks plain cache _ faults
    (coalesce (misses cache chunks)) (fun group listed => spans_of_mem_coalesce listed)
    (fun group listed blob among =>
      stands_of_mem_misses located (mem_blobs_of_mem_coalesce listed among).1)
    (fun group listed blob among => (mem_blobs_of_mem_coalesce listed among).2)
    cacheSound startSound
  unfold readChunksCoalesced
  split
  · rename_i failed
    rw [failed] at laterCache
    exact ⟨laterCache, fun out done => by cases done⟩
  · rename_i slots done
    rw [done] at laterCache laterSlots
    refine ⟨laterCache, fun out isOut => ?_⟩
    obtain ⟨sound, kept, filled⟩ := laterSlots slots rfl
    have allFilled : ∀ position < slots.length, Filled slots position := by
      intro position inside
      rw [sound.length] at inside
      cases cached : cache.get? chunks[position].chunkId with
      | some data => exact kept position ⟨data, by simp [inside, cached]⟩
      | none =>
        obtain ⟨group, listed, among⟩ := @exists_group (misses cache chunks)
          ⟨chunks[position], position⟩ (mem_misses.mpr ⟨by simp [inside], cached⟩)
        exact filled group listed _ among
    obtain ⟨datas, slotsEq, drained⟩ := drainReady_of_filled allFilled
    exact ⟨datas, (slotsEq ▸ sound).map_plain, (Except.ok.inj isOut).symm.trans drained⟩

theorem readRange_eq (inside : offset + length ≤ file.length) :
    readRange file offset length = some ((file.drop offset).take length) := by
  unfold readRange
  simp only
  rw [if_pos]
  simp only [List.length_take, List.length_drop]
  omega

theorem exists_file_of_plainAt (readable : (plainAt external packs location).isSome = true) :
    ∃ file raw data, packs.get? location.packId = some file ∧ location.storedSize ≠ 0 ∧
      location.stop ≤ file.length ∧
      readRange file location.packOffset location.storedSize = some raw ∧
      external.readChunk location.chunkId raw = .ok data := by
  obtain ⟨data, isPlain⟩ := Option.isSome_iff_exists.mp readable
  obtain ⟨raw, part, decoded⟩ := Option.bind_eq_some_iff.mp isPlain
  obtain ⟨file, stored, read⟩ := Option.bind_eq_some_iff.mp part
  have chunk : external.readChunk location.chunkId raw = .ok data := by
    cases result : external.readChunk location.chunkId raw with
    | error failure =>
      rw [result] at decoded
      cases decoded
    | ok plaintext =>
      rw [result] at decoded
      rw [Option.some.inj decoded]
  have size := readRange_length read
  have nonempty : location.storedSize ≠ 0 := by
    intro zero
    rw [zero, List.length_eq_zero_iff] at size
    rw [size] at chunk
    cases chunk
  refine ⟨file, raw, data, stored, nonempty, ?_, read, chunk⟩
  unfold readRange at read
  simp only at read
  split at read
  · rename_i enough
    simp only [List.length_take, List.length_drop] at enough
    unfold ChunkLocation.stop
    omega
  · cases read

theorem readGroupBlobs_complete {readEnd : Nat} (stored : packs.get? packId = some file)
    (read : readRange file readStart (readEnd - readStart) = some raw)
    (readable : ∀ blob ∈ blobs, (plainAt external packs blob.toChunkLocation).isSome = true)
    (inPack : ∀ blob ∈ blobs, blob.packId = packId)
    (starts : ∀ blob ∈ blobs, readStart ≤ blob.packOffset)
    (stops : ∀ blob ∈ blobs, blob.stop ≤ readEnd) (cache : BlobCache)
    (slots : List (Option Bytes)) :
    ∃ result, (readGroupBlobs external packId readStart raw blobs cache slots).2 = .ok result := by
  induction blobs generalizing cache slots with
  | nil => exact ⟨slots, rfl⟩
  | cons blob blobs ih =>
    obtain ⟨isReadable, readable⟩ := List.forall_mem_cons.mp readable
    obtain ⟨here, inPack⟩ := List.forall_mem_cons.mp inPack
    obtain ⟨start, starts⟩ := List.forall_mem_cons.mp starts
    obtain ⟨stop, stops⟩ := List.forall_mem_cons.mp stops
    have size := readRange_length read
    unfold ChunkLocation.stop at stop
    have within : blob.packOffset - readStart + blob.storedSize ≤ raw.length := by omega
    obtain ⟨same, part, data, sameStored, -, -, partRead, decoded⟩ :=
      exists_file_of_plainAt isReadable
    rw [here] at sameStored
    cases stored.symm.trans sameStored
    cases (readRange_inside read start within).symm.trans partRead
    rw [readGroupBlobs]
    simp only
    rw [if_neg (Nat.not_lt.mpr within), decoded]
    exact ih readable inPack starts stops _ _

theorem readGroups_fault_at (spans : ∀ group ∈ groups, Spans group.packId group)
    (readable : ∀ group ∈ groups, ∀ blob ∈ group.blobs,
      (plainAt external packs blob.toChunkLocation).isSome = true)
    (inPack : ∀ group ∈ groups, ∀ blob ∈ group.blobs, blob.packId = group.packId)
    (stops : ∀ group ∈ groups, ∀ blob ∈ group.blobs, blob.stop ≤ group.readEnd)
    (failed : (readGroups external faults packs groups cache slots).2 = .error failure) :
    ∃ group ∈ groups, faults group.packId group.readStart = some failure := by
  induction groups generalizing cache slots with
  | nil => cases failed
  | cons group groups ih =>
    rw [readGroups] at failed
    cases hit : faults group.packId group.readStart with
    | some fault =>
      rw [hit] at failed
      obtain rfl := Except.error.inj failed
      exact ⟨group, List.mem_cons_self, hit⟩
    | none =>
      obtain ⟨span, spans⟩ := List.forall_mem_cons.mp spans
      obtain ⟨areReadable, readable⟩ := List.forall_mem_cons.mp readable
      obtain ⟨here, inPack⟩ := List.forall_mem_cons.mp inPack
      obtain ⟨stop, stops⟩ := List.forall_mem_cons.mp stops
      obtain ⟨last, among, isEnd⟩ := span.stop
      obtain ⟨file, -, -, stored, nonempty, inside, -⟩ :=
        exists_file_of_plainAt (areReadable last among)
      rw [here last among] at stored
      have start := span.start last among
      rw [← isEnd] at inside
      unfold ChunkLocation.stop at isEnd
      obtain ⟨raw, read⟩ : ∃ raw, readRange file group.readStart
          (group.readEnd - group.readStart) = some raw := ⟨_, readRange_eq (by omega)⟩
      have fetched : getRange external none packs group.packId group.readStart
          (group.readEnd - group.readStart) = .ok (some raw) := by
        simp only [getRange, stored, read]
        rw [if_neg (by omega)]
      obtain ⟨result, done⟩ := readGroupBlobs_complete stored read areReadable here span.start
        stop cache slots
      rw [hit, fetched] at failed
      simp only at failed
      split at failed
      · rename_i error blobs
        rw [blobs] at done
        cases done
      · obtain ⟨faulty, listed, isFault⟩ :=
          ih spans readable inPack stops failed
        exact ⟨faulty, List.mem_cons_of_mem _ listed, isFault⟩

/-- The ranges of chunks of one pack are not nested: what starts earlier ends earlier. -/
def Flat (chunks : List ChunkLocation) : Prop :=
  ∀ first ∈ chunks, ∀ second ∈ chunks, first.packId = second.packId →
    first.packOffset ≤ second.packOffset → first.stop ≤ second.stop

/-- Readable chunks with flat ranges are missed only if a call fails. -/
theorem readChunksCoalesced_fault (flat : Flat chunks)
    (readable : ∀ location ∈ chunks, (plainAt external packs location).isSome = true)
    (failed : (readChunksCoalesced external faults packs cache chunks).2 = .error failure) :
    ∃ packId start, faults packId start = some failure := by
  have ofChunk {blob : CoalescedBlob} (missed : blob ∈ misses cache chunks) :
      blob.toChunkLocation ∈ chunks := List.mem_of_getElem? (mem_misses.mp missed).1
  suffices reached : ∃ group ∈ coalesce (misses cache chunks),
      faults group.packId group.readStart = some failure by
    obtain ⟨group, -, isFault⟩ := reached
    exact ⟨group.packId, group.readStart, isFault⟩
  refine @readGroups_fault_at external packs cache
    (chunks.map fun location => cache.get? location.chunkId) faults
    (coalesce (misses cache chunks)) failure (fun group listed => spans_of_mem_coalesce listed)
    (fun group listed blob among =>
      readable _ (ofChunk (mem_blobs_of_mem_coalesce listed among).1))
    (fun group listed blob among => (mem_blobs_of_mem_coalesce listed among).2) ?_ ?_
  · intro group listed blob among
    obtain ⟨packId, -, inPack⟩ := mem_coalesce.mp listed
    refine stop_le_of_mem_coalescePack ?_ inPack among
    intro first firstListed second secondListed
    obtain ⟨firstMissed, firstPack⟩ := List.mem_filter.mp firstListed
    obtain ⟨secondMissed, secondPack⟩ := List.mem_filter.mp secondListed
    exact flat _ (ofChunk firstMissed) _ (ofChunk secondMissed)
      ((of_decide_eq_true firstPack).trans (of_decide_eq_true secondPack).symm)
  · unfold readChunksCoalesced at failed
    split at failed
    · rename_i groups
      rw [groups]
      exact congrArg _ (Except.error.inj failed)
    · cases failed

end Result

end Vykar.Snapshot

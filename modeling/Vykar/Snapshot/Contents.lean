import Vykar.Snapshot.Listing

/-!
What a snapshot consists of, and how the loaders relate to it.

`references` lists the chunks of a snapshot, read directly from the storage: its
item pointers and the chunks of its regular files.  A snapshot is intact if it
can be decoded and all these chunks verify.  The loaders return these contents
when they succeed; with flat chunk ranges they fail on an intact snapshot only if
a call fails.
-/

namespace Vykar.Snapshot

open Index Pack

section Definitions

variable (external : External)

def indexedPlain (storage : Storage) (id : ChunkId) : Option Bytes :=
  (storage.index.get? id).bind fun entry => plainAt external storage.packs (locationOf id entry)

def streamOf (storage : Storage) (itemPtrs : List ChunkId) : Option Bytes :=
  (itemPtrs.mapM (indexedPlain external storage)).map List.flatten

def snapshotAt (snapshots : Dict String Bytes) (key : String) : Option SnapshotMeta :=
  (fromHex? key).bind fun id => (snapshots.get? key).bind fun blob =>
    (external.readMeta id blob).toOption

def itemsOf (storage : Storage) (snapshot : SnapshotMeta) : Option (List Item) :=
  (streamOf external storage snapshot.itemPtrs).bind fun stream =>
    match external.forEachDecodedItem stream with
    | (items, none) => some items
    | (_, some _) => none

def references (storage : Storage) (key : String) : Option (List ChunkId) :=
  (snapshotAt external storage.snapshots key).bind fun snapshot =>
    (itemsOf external storage snapshot).map fun items => snapshot.itemPtrs ++ fileChunks items

/-- The chunk is indexed, and its bytes decrypt, decompress and hash to its id. -/
def ChunkIntact (storage : Storage) (id : ChunkId) : Prop :=
  ∃ data, indexedPlain external storage id = some data ∧ external.computeId data = id

def SnapshotIntact (storage : Storage) (key : String) : Prop :=
  ∃ ids, references external storage key = some ids ∧ ∀ id ∈ ids, ChunkIntact external storage id

end Definitions

/-- The ranges of the given chunks in one pack are not nested in each other. -/
def FlatPtrs (index : ChunkIndex) (ids : List ChunkId) : Prop :=
  ∀ first ∈ ids, ∀ second ∈ ids, ∀ firstEntry secondEntry, index.get? first = some firstEntry →
    index.get? second = some secondEntry → firstEntry.packId = secondEntry.packId →
    firstEntry.packOffset ≤ secondEntry.packOffset →
    firstEntry.packOffset + firstEntry.storedSize ≤
      secondEntry.packOffset + secondEntry.storedSize

def FlatStreams (external : External) (storage : Storage) : Prop :=
  ∀ key snapshot, snapshotAt external storage.snapshots key = some snapshot →
    FlatPtrs storage.index snapshot.itemPtrs

theorem mapM_eq_some_iff {Input Output : Type} {make : Input → Option Output}
    {inputs : List Input} {outputs : List Output} :
    inputs.mapM make = some outputs ↔ inputs.map make = outputs.map some := by
  induction inputs generalizing outputs with
  | nil => cases outputs <;> simp
  | cons input inputs ih =>
    cases outputs with
    | nil => simp [List.mapM_cons, Option.bind_eq_some_iff]
    | cons output outputs =>
      simp [List.mapM_cons, Option.bind_eq_some_iff, ih]

variable {external : External} {storage : Storage} {manifest : List SnapshotEntry}
  {entry : SnapshotEntry} {name : String} {cache : BlobCache} {ids : List ChunkId}
  {locations : List ChunkLocation}

theorem resolvePtrs_ok (resolved : resolvePtrs storage.index ids = .ok locations) :
    locations.map ChunkLocation.chunkId = ids ∧ ∀ location ∈ locations, ∃ entry,
      storage.index.get? location.chunkId = some entry ∧
        location = locationOf location.chunkId entry := by
  induction ids generalizing locations with
  | nil =>
    cases resolved
    exact ⟨rfl, fun location listed => by cases listed⟩
  | cons id ids ih =>
    rw [resolvePtrs] at resolved
    split at resolved
    · cases resolved
    · rename_i entry found
      split at resolved
      · cases resolved
      · rename_i rest later
        cases resolved
        obtain ⟨same, all⟩ := ih later
        refine ⟨by simp [same, locationOf], fun location listed => ?_⟩
        rcases List.mem_cons.mp listed with rfl | among
        · exact ⟨entry, found, rfl⟩
        · exact all location among

theorem exists_resolvePtrs (indexed : ∀ id ∈ ids, storage.index.contains id = true) :
    ∃ locations, resolvePtrs storage.index ids = .ok locations := by
  induction ids with
  | nil => exact ⟨[], rfl⟩
  | cons id ids ih =>
    obtain ⟨entry, found⟩ := Option.isSome_iff_exists.mp (indexed id List.mem_cons_self)
    obtain ⟨rest, later⟩ := ih fun other listed =>
      indexed other (List.mem_cons_of_mem _ listed)
    exact ⟨locationOf id entry :: rest, by rw [resolvePtrs, found, later]⟩

theorem loadSnapshotMeta_eq_ok {fault : Option VykarError} {snapshot : SnapshotMeta}
    (found : findSnapshot manifest name = some entry) :
    loadSnapshotMeta external fault storage.snapshots manifest name = .ok snapshot ↔
      fault = none ∧ snapshotAt external storage.snapshots (toHex entry.id) = some snapshot := by
  unfold loadSnapshotMeta snapshotAt getObject
  rw [found, fromHex?_toHex]
  cases fault with
  | some failure => simp
  | none =>
    simp only [true_and, Option.bind_some]
    cases storage.snapshots.get? (toHex entry.id) with
    | none => simp
    | some blob =>
      simp only [Option.bind_some]
      cases external.readMeta entry.id blob <;> simp [Except.toOption]

variable {plain : ChunkId → Option Bytes}

def Located (external : External) (storage : Storage) (plain : ChunkId → Option Bytes) : Prop :=
  ∀ id entry, storage.index.get? id = some entry →
    plainAt external storage.packs (locationOf id entry) = plain id

theorem located_indexedPlain (external : External) (storage : Storage) :
    Located external storage (indexedPlain external storage) := by
  intro id entry found
  rw [indexedPlain, found, Option.bind_some]

theorem Located.indexedPlain (located : Located external storage plain) {id : ChunkId}
    (indexed : storage.index.contains id = true) :
    indexedPlain external storage id = plain id := by
  obtain ⟨entry, found⟩ := Option.isSome_iff_exists.mp indexed
  rw [Snapshot.indexedPlain, found, Option.bind_some]
  exact located id entry found

theorem loadItemStreamFromPtrs_ok (located : Located external storage plain)
    (cacheSound : CacheSound plain cache) (faults : PackId → Nat → Option VykarError) :
    CacheSound plain (loadItemStreamFromPtrs external faults storage cache ids).1 ∧
      ∀ stream, (loadItemStreamFromPtrs external faults storage cache ids).2 = .ok stream →
        (∀ id ∈ ids, storage.index.contains id = true) ∧
          streamOf external storage ids = some stream := by
  unfold loadItemStreamFromPtrs
  split
  · exact ⟨cacheSound, fun stream done => by cases done⟩
  · rename_i locations resolved
    obtain ⟨chunkIds, all⟩ := resolvePtrs_ok resolved
    obtain ⟨nextSound, result⟩ := @readChunksCoalesced_ok external storage.packs locations plain
      cache faults (fun location listed => by
        obtain ⟨entry, found, same⟩ := all location listed
        rw [same]
        exact located _ entry found) cacheSound
    refine ⟨nextSound, fun stream done => ?_⟩
    have indexed : ∀ id ∈ ids, storage.index.contains id = true := by
      intro id listed
      rw [← chunkIds] at listed
      obtain ⟨location, among, rfl⟩ := List.mem_map.mp listed
      obtain ⟨entry, found, -⟩ := all location among
      rw [ChunkIndex.contains, found]
      rfl
    refine ⟨indexed, ?_⟩
    obtain ⟨datas, plains, rfl⟩ := result stream done
    refine Option.map_eq_some_iff.mpr ⟨datas, mapM_eq_some_iff.mpr ?_, rfl⟩
    rw [← plains, ← chunkIds, List.map_map]
    refine List.map_congr_left fun location listed => ?_
    exact located.indexedPlain (indexed _ (chunkIds ▸ List.mem_map_of_mem listed))

theorem contains_of_indexedPlain {id : ChunkId}
    (readable : (indexedPlain external storage id).isSome = true) :
    storage.index.contains id = true := by
  obtain ⟨data, isPlain⟩ := Option.isSome_iff_exists.mp readable
  obtain ⟨entry, found, -⟩ := Option.bind_eq_some_iff.mp isPlain
  rw [ChunkIndex.contains, found]
  rfl

theorem indexedPlain_of_streamOf {stream : Bytes}
    (isStream : streamOf external storage ids = some stream) :
    ∀ id ∈ ids, (indexedPlain external storage id).isSome = true := by
  obtain ⟨datas, plains, -⟩ := Option.map_eq_some_iff.mp isStream
  rw [mapM_eq_some_iff] at plains
  intro id listed
  have member : indexedPlain external storage id ∈ datas.map some :=
    plains ▸ List.mem_map_of_mem listed
  obtain ⟨data, -, same⟩ := List.mem_map.mp member
  rw [← same]
  rfl

theorem loadItemStreamFromPtrs_fault (flat : FlatPtrs storage.index ids)
    (readable : (streamOf external storage ids).isSome = true)
    {faults : PackId → Nat → Option VykarError} {failure : VykarError}
    (failed : (loadItemStreamFromPtrs external faults storage cache ids).2 = .error failure) :
    ∃ packId start, faults packId start = some failure := by
  obtain ⟨stream, isStream⟩ := Option.isSome_iff_exists.mp readable
  have chunkPlain := indexedPlain_of_streamOf isStream
  have indexed : ∀ id ∈ ids, storage.index.contains id = true :=
    fun id listed => contains_of_indexedPlain (chunkPlain id listed)
  obtain ⟨locations, resolved⟩ := exists_resolvePtrs indexed
  obtain ⟨chunkIds, all⟩ := resolvePtrs_ok resolved
  rw [loadItemStreamFromPtrs, resolved] at failed
  refine readChunksCoalesced_fault ?_ ?_ failed
  · intro first firstListed second secondListed samePack
    obtain ⟨firstEntry, firstFound, firstSame⟩ := all first firstListed
    obtain ⟨secondEntry, secondFound, secondSame⟩ := all second secondListed
    rw [firstSame, secondSame] at samePack ⊢
    have listed {location : ChunkLocation} (among : location ∈ locations) :
        location.chunkId ∈ ids := chunkIds ▸ List.mem_map_of_mem among
    exact flat _ (listed firstListed) _ (listed secondListed) _ _ firstFound secondFound samePack
  · intro location listed
    obtain ⟨entry, found, same⟩ := all location listed
    have isPlain := chunkPlain location.chunkId (chunkIds ▸ List.mem_map_of_mem listed)
    rw [indexedPlain, found, Option.bind_some, ← same] at isPlain
    exact isPlain

theorem SnapshotIntact.indexed {key : String} (intact : SnapshotIntact external storage key) :
    ∃ ids, references external storage key = some ids ∧
      ∀ id ∈ ids, storage.index.contains id = true := by
  obtain ⟨ids, isRefs, chunks⟩ := intact
  refine ⟨ids, isRefs, fun id isRef => ?_⟩
  obtain ⟨data, isPlain, -⟩ := chunks id isRef
  exact contains_of_indexedPlain (by rw [isPlain]; rfl)

section Smaller

/-- Every chunk of the smaller index is in the larger one, at the same place. -/
def Within (smaller larger : ChunkIndex) : Prop :=
  ∀ id entry, smaller.get? id = some entry → ∃ same, larger.get? id = some same ∧
    locationOf id same = locationOf id entry

theorem FlatPtrs.within {smaller larger : ChunkIndex} {ids : List ChunkId}
    (flat : FlatPtrs larger ids) (within : Within smaller larger) : FlatPtrs smaller ids := by
  intro first isFirst second isSecond firstEntry secondEntry firstFound secondFound samePack order
  obtain ⟨firstLarger, firstLocated, firstSame⟩ := within first firstEntry firstFound
  obtain ⟨secondLarger, secondLocated, secondSame⟩ := within second secondEntry secondFound
  simp only [locationOf, ChunkLocation.mk.injEq, true_and] at firstSame secondSame
  have nested := flat _ isFirst _ isSecond _ _ firstLocated secondLocated
  rw [firstSame.1, firstSame.2.1, firstSame.2.2, secondSame.1, secondSame.2.1,
    secondSame.2.2] at nested
  exact nested samePack order

variable {smaller larger : Storage} {key : String}

section

variable (within : Within smaller.index larger.index)

include within

theorem Within.indexedPlain (samePacks : smaller.packs = larger.packs) {id : ChunkId}
    (indexed : smaller.index.contains id = true) :
    indexedPlain external smaller id = indexedPlain external larger id := by
  obtain ⟨entry, found⟩ := Option.isSome_iff_exists.mp indexed
  obtain ⟨same, foundLarger, sameLocation⟩ := within id entry found
  rw [Snapshot.indexedPlain, Snapshot.indexedPlain, found, foundLarger, samePacks,
    Option.bind_some, Option.bind_some, sameLocation]

theorem Within.located (samePacks : smaller.packs = larger.packs) :
    Located external smaller (Snapshot.indexedPlain external larger) := by
  intro id entry found
  rw [← within.indexedPlain samePacks (by rw [ChunkIndex.contains, found]; rfl),
    Snapshot.indexedPlain, found, Option.bind_some]

theorem Within.streamOf (samePacks : smaller.packs = larger.packs)
    (indexed : ∀ id ∈ ids, smaller.index.contains id = true) :
    streamOf external smaller ids = streamOf external larger ids := by
  have samePlain : ids.map (Snapshot.indexedPlain external smaller) =
      ids.map (Snapshot.indexedPlain external larger) :=
    List.map_congr_left fun id listed => within.indexedPlain samePacks (indexed id listed)
  have sameDatas : ids.mapM (Snapshot.indexedPlain external smaller) =
      ids.mapM (Snapshot.indexedPlain external larger) := by
    apply Option.ext
    intro datas
    rw [mapM_eq_some_iff, mapM_eq_some_iff, samePlain]
  rw [Snapshot.streamOf, Snapshot.streamOf, sameDatas]

end

theorem snapshotAt_congr {snapshots others : Dict String Bytes}
    (same : snapshots.get? key = others.get? key) :
    snapshotAt external snapshots key = snapshotAt external others key := by
  rw [snapshotAt, snapshotAt, same]

theorem Within.references_smaller (within : Within smaller.index larger.index)
    (samePacks : smaller.packs = larger.packs)
    (sameObject : smaller.snapshots.get? key = larger.snapshots.get? key)
    (isRefs : references external larger key = some ids)
    (indexed : ∀ id ∈ ids, smaller.index.contains id = true) :
    references external smaller key = some ids := by
  obtain ⟨snapshot, loaded, rest⟩ := Option.bind_eq_some_iff.mp isRefs
  obtain ⟨items, decoded, rfl⟩ := Option.map_eq_some_iff.mp rest
  have pointers := fun id listed => indexed id (List.mem_append_left _ listed)
  rw [references, snapshotAt_congr sameObject, loaded, Option.bind_some, itemsOf,
    within.streamOf samePacks pointers, ← itemsOf, decoded]
  rfl

end Smaller

end Vykar.Snapshot

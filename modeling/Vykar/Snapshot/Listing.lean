import Vykar.Snapshot.Coalesced

/-!
The list of snapshots and their contents (`repo/snapshot_cache.rs`,
`repo/manifest.rs`, `commands/list.rs`).

The list is kept in a local cache keyed by the text behind `snapshots/`; objects
that are not in the cache are downloaded and decoded.  Snapshots are then looked
up by name and loaded by the canonical key of their id.
-/

namespace Vykar.Snapshot

open Index Pack

/-- Snapshot objects by the text behind `snapshots/`, packs, and the decoded index. -/
structure Storage where
  snapshots : Dict String Bytes
  packs : Dict PackId Bytes
  index : ChunkIndex

structure SnapshotEntry where
  name : String
  id : SnapshotId
  time : Int
  deriving DecidableEq

section Listing

variable (external : External)

def entryOf (id : SnapshotId) (snapshot : SnapshotMeta) : SnapshotEntry :=
  ⟨snapshot.name, id, snapshot.time⟩

/-- One listed key of `refresh_snapshot_cache`. -/
def refreshEntry (strict : Bool) (fault : String → Option VykarError)
    (snapshots : Dict String Bytes) (cache : Dict String SnapshotEntry) (key : String) :
    Except VykarError (Dict String SnapshotEntry) :=
  match cache.get? key with
  | some _ => .ok cache
  | none =>
    match fromHex? key with
    | none => .ok cache
    | some id =>
      match getObject (fault key) snapshots key with
      | .ok (some blob) =>
        match external.readMeta id blob with
        | .ok snapshot => .ok (cache.set key (entryOf id snapshot))
        | .error _ => .ok cache
      | .ok none =>
        if strict then
          .error (.other s!"snapshot {key} listed but not found (strict I/O mode)")
        else .ok cache
      | .error failure =>
        if strict then
          .error (.other s!"failed to fetch snapshot {key}: {failure} (strict I/O mode)")
        else .ok cache

def listedKeys (snapshots : Dict String Bytes) : List String :=
  snapshots.keysList.filter fun key => key ≠ ""

def refreshSnapshotCache (strict : Bool) (faults : String → Option VykarError)
    (snapshots : Dict String Bytes) (cache : Dict String SnapshotEntry) :
    Except VykarError (Dict String SnapshotEntry) :=
  (listedKeys snapshots).foldlM (refreshEntry external strict faults snapshots)
    (cache.retain fun key entry => if key ∈ listedKeys snapshots then some entry else none)

def decodedEntry (snapshots : Dict String Bytes) (key : String) : Option SnapshotEntry :=
  (fromHex? key).bind fun id => (snapshots.get? key).bind fun blob =>
    (external.readMeta id blob).toOption.map (entryOf id)

end Listing

def findSnapshot (manifest : List SnapshotEntry) (name : String) : Option SnapshotEntry :=
  manifest.find? fun entry => entry.name = name

def removeSnapshot (manifest : List SnapshotEntry) (name : String) : List SnapshotEntry :=
  manifest.eraseP fun entry => entry.name = name

section Refresh

variable {external : External} {strict : Bool} {faults : String → Option VykarError}
  {snapshots : Dict String Bytes} {cache result : Dict String SnapshotEntry} {key : String}

theorem mem_listedKeys :
    key ∈ listedKeys snapshots ↔ key ≠ "" ∧ (snapshots.get? key).isSome = true := by
  simp [listedKeys, Dict.mem_keysList, and_comm]

theorem refreshEntry_get? (noted : strict = true ∨ faults key = none)
    (done : refreshEntry external strict faults snapshots cache key = .ok result)
    (other : String) :
    result.get? other =
      if other = key then (cache.get? key).or (decodedEntry external snapshots key)
      else cache.get? other := by
  unfold refreshEntry at done
  split at done
  · rename_i entry cached
    cases done
    split
    · rename_i same
      rw [same, cached]
      rfl
    · rfl
  · rename_i uncached
    have decoded : (cache.get? key).or (decodedEntry external snapshots key) =
        decodedEntry external snapshots key := by rw [uncached, Option.none_or]
    rw [decoded]
    unfold decodedEntry
    split at done
    · rename_i invalid
      cases done
      split
      · rename_i same
        rw [same, uncached, invalid]
        rfl
      · rfl
    · rename_i id valid
      rw [valid, Option.bind_some]
      split at done
      · rename_i blob fetched
        rw [(getObject_eq_ok.mp fetched).2, Option.bind_some]
        split at done
        · rename_i snapshot read
          cases done
          rw [read, Dict.get?_set]
          rfl
        · rename_i failure read
          cases done
          rw [read]
          split
          · rename_i same
            rw [same, uncached]
            rfl
          · rfl
      · rename_i fetched
        rw [(getObject_eq_ok.mp fetched).2, Option.bind_none]
        split at done
        · cases done
        · cases done
          split
          · rename_i same
            rw [same, uncached]
          · rfl
      · rename_i failure fetched
        split at done
        · cases done
        · rename_i lenient
          rw [getObject_eq_error, noted.resolve_left lenient] at fetched
          cases fetched

theorem foldlM_refreshEntry_get? {keys : List String}
    (noted : ∀ key ∈ keys, strict = true ∨ faults key = none)
    (done : keys.foldlM (refreshEntry external strict faults snapshots) cache = .ok result)
    (key : String) :
    result.get? key =
      if key ∈ keys then (cache.get? key).or (decodedEntry external snapshots key)
      else cache.get? key := by
  induction keys generalizing cache with
  | nil =>
    cases done
    rfl
  | cons head keys ih =>
    rw [List.foldlM_cons] at done
    cases next : refreshEntry external strict faults snapshots cache head with
    | error failure =>
      rw [next] at done
      cases done
    | ok following =>
      rw [next] at done
      rw [ih (fun other listed => noted other (List.mem_cons_of_mem _ listed))
        done]
      have step := refreshEntry_get? (noted head List.mem_cons_self) next key
      by_cases same : key = head
      · subst same
        rw [step, if_pos rfl, if_pos List.mem_cons_self]
        split
        · rw [Option.or_assoc, Option.or_self]
        · rfl
      · rw [step, if_neg same]
        simp [same]

/-- The refreshed cache has an entry for every listed object that is cached or decodable. -/
theorem refreshSnapshotCache_get?
    (noted : ∀ key ∈ listedKeys snapshots, strict = true ∨ faults key = none)
    (done : refreshSnapshotCache external strict faults snapshots cache = .ok result)
    (key : String) :
    result.get? key =
      if key ∈ listedKeys snapshots then (cache.get? key).or (decodedEntry external snapshots key)
      else none := by
  rw [foldlM_refreshEntry_get? noted done key, Dict.get?_retain]
  split
  · congr 1
    cases cache.get? key <;> rfl
  · cases cache.get? key <;> rfl

theorem exists_refreshEntry (stored : (snapshots.get? key).isSome = true)
    (unhit : faults key = none) :
    ∃ next, refreshEntry external strict faults snapshots cache key = .ok next := by
  obtain ⟨blob, found⟩ := Option.isSome_iff_exists.mp stored
  unfold refreshEntry getObject
  rw [unhit, found]
  simp only
  split
  · exact ⟨_, rfl⟩
  · split
    · exact ⟨_, rfl⟩
    · split <;> exact ⟨_, rfl⟩

theorem exists_refreshSnapshotCache (unhit : ∀ key, faults key = none) :
    ∃ next, refreshSnapshotCache external strict faults snapshots cache = .ok next := by
  have all (keys : List String) (stored : ∀ key ∈ keys, (snapshots.get? key).isSome = true)
      (cache : Dict String SnapshotEntry) :
      ∃ next, keys.foldlM (refreshEntry external strict faults snapshots) cache = .ok next := by
    induction keys generalizing cache with
    | nil => exact ⟨cache, rfl⟩
    | cons head keys ih =>
      obtain ⟨next, done⟩ := @exists_refreshEntry external strict faults snapshots cache head
        (stored head List.mem_cons_self) (unhit head)
      rw [List.foldlM_cons, done]
      exact ih
        (fun other listed => stored other (List.mem_cons_of_mem _ listed)) next
  exact all _ (fun key listed => (mem_listedKeys.mp listed).2) _

end Refresh

def CachedIds (cache : Dict String SnapshotEntry) : Prop :=
  ∀ key entry, cache.get? key = some entry → fromHex? key = some entry.id

theorem decodedEntry_id {external : External} {snapshots : Dict String Bytes} {key : String}
    {entry : SnapshotEntry} (decoded : decodedEntry external snapshots key = some entry) :
    fromHex? key = some entry.id := by
  obtain ⟨id, valid, rest⟩ := Option.bind_eq_some_iff.mp decoded
  obtain ⟨blob, -, made⟩ := Option.bind_eq_some_iff.mp rest
  obtain ⟨snapshot, -, rfl⟩ := Option.map_eq_some_iff.mp made
  exact valid

section Loading

variable (external : External)

/-- The failures that hit the calls made for one snapshot: the first and the second download of
its metadata, and the range reads of its item stream. -/
structure LoadFaults where
  metadata : Option VykarError
  again : Option VykarError
  range : PackId → Nat → Option VykarError

def LoadFaults.none : LoadFaults := ⟨.none, .none, fun _ _ => .none⟩

def loadSnapshotMeta (fault : Option VykarError) (snapshots : Dict String Bytes)
    (manifest : List SnapshotEntry) (name : String) : Except VykarError SnapshotMeta :=
  match findSnapshot manifest name with
  | none => .error (.snapshotNotFound name)
  | some entry =>
    match getObject fault snapshots (toHex entry.id) with
    | .error failure => .error failure
    | .ok none => .error (.snapshotNotFound name)
    | .ok (some blob) => external.readMeta entry.id blob

def locationOf (id : ChunkId) (entry : ChunkIndexEntry) : ChunkLocation :=
  ⟨id, entry.packId, entry.packOffset, entry.storedSize⟩

/-- The locations of item pointers; an error for the first that is not in the index. -/
def resolvePtrs (index : ChunkIndex) : List ChunkId → Except VykarError (List ChunkLocation)
  | [] => .ok []
  | id :: ids =>
    match index.get? id with
    | none =>
      let shown := shownId id
      .error (.other s!"chunk not found: {shown}")
    | some entry =>
      match resolvePtrs index ids with
      | .error failure => .error failure
      | .ok locations => .ok (locationOf id entry :: locations)

def loadItemStreamFromPtrs (faults : PackId → Nat → Option VykarError) (storage : Storage)
    (cache : BlobCache) (itemPtrs : List ChunkId) : BlobCache × Except VykarError Bytes :=
  match resolvePtrs storage.index itemPtrs with
  | .error failure => (cache, .error failure)
  | .ok locations => readChunksCoalesced external faults storage.packs cache locations

def loadSnapshotItemStream (faults : LoadFaults) (storage : Storage)
    (manifest : List SnapshotEntry) (cache : BlobCache) (name : String) :
    BlobCache × Except VykarError Bytes :=
  match loadSnapshotMeta external faults.again storage.snapshots manifest name with
  | .error failure => (cache, .error failure)
  | .ok snapshot => loadItemStreamFromPtrs external faults.range storage cache snapshot.itemPtrs

end Loading

end Vykar.Snapshot

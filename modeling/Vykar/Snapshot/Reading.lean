import Vykar.Snapshot.Object

/-!
Reading chunks (`repo/mod.rs`, `repo/pack.rs`).

Every storage call takes the failure that hits it, if one does.  Plaintexts of
chunks are kept in a cache of bounded size.
-/

namespace Vykar.Snapshot

open Index Pack

/-- `StorageBackend::get` -/
def getObject {Key : Type} [DecidableEq Key] (fault : Option VykarError) (objects : Dict Key Bytes)
    (key : Key) : Except VykarError (Option Bytes) :=
  match fault with
  | some failure => .error failure
  | none => .ok (objects.get? key)

theorem getObject_eq_ok {Key : Type} [DecidableEq Key] {fault : Option VykarError}
    {objects : Dict Key Bytes} {key : Key} {result : Option Bytes} :
    getObject fault objects key = .ok result ↔ fault = none ∧ objects.get? key = result := by
  cases fault <;> simp [getObject]

theorem getObject_eq_error {Key : Type} [DecidableEq Key] {fault : Option VykarError}
    {objects : Dict Key Bytes} {key : Key} {failure : VykarError} :
    getObject fault objects key = .error failure ↔ fault = some failure := by
  cases fault <;> simp [getObject]

/-- `StorageBackend::get_range`: exactly the bytes asked for, or an error. -/
def getRange (external : External) (fault : Option VykarError) (packs : Dict PackId Bytes)
    (packId : PackId) (offset length : Nat) : Except VykarError (Option Bytes) :=
  match fault with
  | some failure => .error failure
  | none =>
    match packs.get? packId with
    | none => .ok none
    | some file =>
      -- zero-length reads are not allowed by the contract of the backends
      if length = 0 then .error (external.rangeError packId offset length)
      else
        match readRange file offset length with
        | none => .error (external.rangeError packId offset length)
        | some part => .ok (some part)

def packNotFound (packId : PackId) : VykarError :=
  let shown := shownId packId
  .other s!"pack not found: {shown}"

def readBlobFromPack (external : External) (fault : Option VykarError)
    (packs : Dict PackId Bytes) (packId : PackId) (offset length : Nat) :
    Except VykarError Bytes :=
  match getRange external fault packs packId offset length with
  | .error failure => .error failure
  | .ok none => .error (packNotFound packId)
  | .ok (some data) =>
    if data.length = length then .ok data
    else
      let shown := shownId packId
      let size := data.length
      .error (.other
        s!"short read from pack {shown} at offset {offset}: expected {length} bytes, got {size}")

/-- `BlobCache`: plaintexts of chunks, dropped in the order of insertion. -/
structure BlobCache where
  entries : Dict ChunkId Bytes
  order : List ChunkId
  currentBytes : Nat
  maxBytes : Nat

namespace BlobCache

/-- `BLOB_CACHE_MAX_BYTES` -/
def capacity : Nat := 32 * 1024 * 1024

def empty : BlobCache := ⟨∅, [], 0, capacity⟩

def get? (cache : BlobCache) (id : ChunkId) : Option Bytes := cache.entries.get? id

/-- The loop of `insert` that drops the oldest entries until `length` bytes fit. -/
def evict (length maxBytes : Nat) :
    List ChunkId → Dict ChunkId Bytes → Nat → List ChunkId × Dict ChunkId Bytes × Nat
  | [], entries, currentBytes => ([], entries, currentBytes)
  | oldest :: order, entries, currentBytes =>
    if currentBytes + length ≤ maxBytes then (oldest :: order, entries, currentBytes)
    else
      match entries.get? oldest with
      | none => evict length maxBytes order entries currentBytes
      | some data =>
        evict length maxBytes order (entries.remove oldest) (currentBytes - data.length)

def insert (cache : BlobCache) (id : ChunkId) (data : Bytes) : BlobCache :=
  if cache.maxBytes < data.length then cache
  else
    let (order, entries, currentBytes) :=
      evict data.length cache.maxBytes cache.order cache.entries cache.currentBytes
    ⟨entries.set id data, order ++ [id], currentBytes + data.length, cache.maxBytes⟩

theorem get?_evict {length maxBytes : Nat} {order : List ChunkId} {entries : Dict ChunkId Bytes}
    {currentBytes : Nat} {id : ChunkId} {data : Bytes}
    (found : (evict length maxBytes order entries currentBytes).2.1.get? id = some data) :
    entries.get? id = some data := by
  induction order generalizing entries currentBytes with
  | nil => exact found
  | cons oldest order ih =>
    rw [evict] at found
    split at found
    · exact found
    · split at found
      · exact ih found
      · have kept := ih found
        rw [Dict.get?_remove] at kept
        split at kept
        · cases kept
        · exact kept

theorem get?_insert {cache : BlobCache} {id other : ChunkId} {data stored : Bytes}
    (found : (cache.insert id data).get? other = some stored) :
    (other = id ∧ stored = data) ∨ cache.get? other = some stored := by
  unfold insert at found
  split at found
  · exact .inr found
  · simp only [get?, Dict.get?_set] at found
    split at found
    · rename_i same
      exact .inl ⟨same, (Option.some.inj found).symm⟩
    · exact .inr (get?_evict found)

end BlobCache

end Vykar.Snapshot

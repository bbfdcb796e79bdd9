import Vykar.Lib.Dict

/-!
The chunk index (`index/mod.rs`).

Reference counts are `u32` values and additions on them wrap, as they do in a
release build.  The lemmas describe each operation by the reference counts
afterwards; a chunk without an entry counts as referenced zero times.
-/

namespace Vykar.Index

/-- 32 bytes, ordered as the bytes are, that is as a big-endian number. -/
abbrev ChunkId := BitVec 256

/-- 32 bytes: the hash of a pack file's contents. -/
abbrev PackId := BitVec 256

/-- 32 random bytes. -/
abbrev SnapshotId := BitVec 256

instance : LawfulBEq ChunkId := inferInstance

/-- `u32` addition without overflow checks. -/
def addU32 (a b : Nat) : Nat := (a + b) % 2 ^ 32

theorem addU32_of_lt {a b : Nat} (fits : a + b < 2 ^ 32) : addU32 a b = a + b :=
  Nat.mod_eq_of_lt fits

structure ChunkIndexEntry where
  refcount : Nat
  storedSize : Nat
  packId : PackId
  packOffset : Nat
  deriving DecidableEq

/-- `ChunkIndex`: a map from chunk ids to entries. -/
abbrev ChunkIndex := Dict ChunkId ChunkIndexEntry

namespace ChunkIndex

def contains (index : ChunkIndex) (id : ChunkId) : Bool := (index.get? id).isSome

def add (index : ChunkIndex) (id : ChunkId) (storedSize : Nat) (packId : PackId)
    (packOffset : Nat) : ChunkIndex :=
  match index.get? id with
  | some entry => index.set id { entry with refcount := addU32 entry.refcount 1 }
  | none => index.set id ⟨1, storedSize, packId, packOffset⟩

def incrementRefcountBy (index : ChunkIndex) (id : ChunkId) (amount : Nat) : ChunkIndex :=
  index.modify id fun entry => { entry with refcount := addU32 entry.refcount amount }

/-- The index after `decrement`, and the new refcount with the stored size if the chunk was
present. -/
def decrement (index : ChunkIndex) (id : ChunkId) : ChunkIndex × Option (Nat × Nat) :=
  match index.get? id with
  | some entry =>
    let refcount := entry.refcount - 1
    (if refcount = 0 then index.remove id else index.set id { entry with refcount := refcount },
      some (refcount, entry.storedSize))
  | none => (index, none)

def updateLocation (index : ChunkIndex) (id : ChunkId) (packId : PackId) (packOffset : Nat)
    (storedSize : Nat) : ChunkIndex :=
  index.modify id fun entry =>
    { entry with packId := packId, packOffset := packOffset, storedSize := storedSize }

def removeByPack (index : ChunkIndex) (packId : PackId) : ChunkIndex :=
  index.retain fun _ entry => if entry.packId ≠ packId then some entry else none

/-- Entries without references are dropped. -/
def rebuildRefcounts (index : ChunkIndex) (refcounts : Dict ChunkId Nat) : ChunkIndex :=
  index.retain fun id entry =>
    (refcounts.get? id).map fun refcount => { entry with refcount := refcount }

def refcount (index : ChunkIndex) (id : ChunkId) : Nat :=
  ((index.get? id).map ChunkIndexEntry.refcount).getD 0

theorem contains_of_refcount_pos {index : ChunkIndex} {id : ChunkId}
    (positive : 0 < index.refcount id) : index.contains id = true := by
  unfold refcount at positive
  unfold contains
  cases found : index.get? id with
  | none => simp [found] at positive
  | some entry => rfl

@[simp]
theorem refcount_empty (id : ChunkId) : refcount ∅ id = 0 := rfl

theorem refcount_add {index : ChunkIndex} {id : ChunkId} (fits : index.refcount id + 1 < 2 ^ 32)
    (storedSize : Nat) (packId : PackId) (packOffset : Nat) (other : ChunkId) :
    (index.add id storedSize packId packOffset).refcount other =
      index.refcount other + if other = id then 1 else 0 := by
  unfold add refcount at *
  cases found : index.get? id with
  | none =>
    by_cases same : other = id
    · simp [same, found]
    · simp [Dict.get?_set, same]
  | some entry =>
    simp only [found, Option.map_some, Option.getD_some] at fits
    by_cases same : other = id
    · simp [same, found, addU32_of_lt fits]
    · simp [Dict.get?_set, same]

theorem contains_add (index : ChunkIndex) (id : ChunkId) (storedSize : Nat) (packId : PackId)
    (packOffset : Nat) (other : ChunkId) :
    (index.add id storedSize packId packOffset).contains other =
      (decide (other = id) || index.contains other) := by
  unfold add contains
  cases found : index.get? id <;> by_cases same : other = id <;>
    simp [Dict.get?_set, same]

theorem contains_incrementRefcountBy (index : ChunkIndex) (id : ChunkId) (amount : Nat)
    (other : ChunkId) :
    (index.incrementRefcountBy id amount).contains other = index.contains other := by
  unfold incrementRefcountBy contains
  by_cases same : other = id <;> simp [Dict.get?_modify, same]

theorem refcount_incrementRefcountBy {index : ChunkIndex} {id : ChunkId} {amount : Nat}
    (present : index.contains id = true) (fits : index.refcount id + amount < 2 ^ 32)
    (other : ChunkId) :
    (index.incrementRefcountBy id amount).refcount other =
      index.refcount other + if other = id then amount else 0 := by
  unfold contains at present
  unfold incrementRefcountBy refcount at *
  obtain ⟨entry, found⟩ := Option.isSome_iff_exists.mp present
  simp only [found, Option.map_some, Option.getD_some] at fits
  by_cases same : other = id
  · simp [Dict.get?_modify, same, found, addU32_of_lt fits]
  · simp [Dict.get?_modify, same]

theorem refcount_decrement (index : ChunkIndex) (id other : ChunkId) :
    (index.decrement id).1.refcount other =
      index.refcount other - if other = id then 1 else 0 := by
  unfold decrement refcount
  cases found : index.get? id with
  | none =>
    by_cases same : other = id
    · simp [same, found]
    · simp [same]
  | some entry =>
    by_cases last : entry.refcount - 1 = 0 <;> by_cases same : other = id <;>
      simp [last, same, Dict.get?_remove, Dict.get?_set, found]

def decrementAll (index : ChunkIndex) (ids : List ChunkId) : ChunkIndex :=
  ids.foldl (fun index id => (index.decrement id).1) index

theorem refcount_decrementAll (index : ChunkIndex) (ids : List ChunkId) (id : ChunkId) :
    (index.decrementAll ids).refcount id = index.refcount id - ids.count id := by
  induction ids generalizing index with
  | nil => simp [decrementAll]
  | cons head tail ih =>
    have unfolded : index.decrementAll (head :: tail) =
        (index.decrement head).1.decrementAll tail := rfl
    rw [unfolded, ih, refcount_decrement, List.count_cons]
    by_cases same : head = id
    · simp only [same, if_true, beq_self_eq_true]
      omega
    · simp [same, Ne.symm same]

end ChunkIndex

end Vykar.Index

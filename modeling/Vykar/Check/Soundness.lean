import Vykar.Check.Findings

/-!
What a check without errors says about the repository.

The check looks at the snapshots of the list, by name.  An object that the list
leaves out, because it cannot be decoded and is not in the local cache, because
another snapshot has its name, or because its key is not written in lower case, is
not looked at; `check_sound_iff` says when that makes a difference.
-/

namespace Vykar.Check

open Index Pack Snapshot

def openManifest (external : External) (schedule : Schedule) (snapshots : Dict String Bytes)
    (snapshotCache : Dict String SnapshotEntry) : List SnapshotEntry :=
  match refreshSnapshotCache external false (fun _ => none) snapshots snapshotCache with
  | .error _ => []
  | .ok listed => manifestOf schedule listed

variable {external : External} {schedule : Schedule} {storage : Storage}
  {snapshotCache : Dict String SnapshotEntry}

theorem run_eq (external : External) (schedule : Schedule) (storage : Storage)
    (snapshotCache : Dict String SnapshotEntry) :
    run external schedule .none true storage snapshotCache =
      .ok (((scanSnapshots external Faults.none.scan storage
          (openManifest external schedule storage.snapshots snapshotCache) 0 .empty
          (openManifest external schedule storage.snapshots snapshotCache)).2.1 ++
        scanPacks external schedule .none true storage).map IntegrityIssue.toCheckError) := by
  obtain ⟨listed, opened⟩ := @exists_refreshSnapshotCache external false (fun _ => none)
    storage.snapshots snapshotCache fun _ => rfl
  have manifest : openManifest external schedule storage.snapshots snapshotCache =
      manifestOf schedule listed := by
    rw [openManifest, opened]
  rw [manifest]
  unfold run
  rw [show Faults.none.listed = fun _ => none from rfl, opened]
  rfl

theorem intact_of_run (clean : run external schedule .none true storage snapshotCache = .ok []) :
    (∀ key, LookedAt (openManifest external schedule storage.snapshots snapshotCache) key →
        SnapshotIntact external storage key) ∧
      ∀ id entry, storage.index.get? id = some entry → ChunkSound external storage id entry := by
  rw [run_eq, Except.ok.injEq, List.map_eq_nil_iff, List.append_eq_nil_iff] at clean
  have chunks : ∀ id entry, storage.index.get? id = some entry →
      ChunkSound external storage id entry := by
    intro id entry found
    by_contra damaged
    have reported := @exists_issue_of_not_sound external storage id entry schedule .none found
      rfl rfl rfl damaged
    rw [clean.2] at reported
    simp at reported
  refine ⟨?_, chunks⟩
  intro key lookedAt
  obtain ⟨ids, isRefs, indexed⟩ := references_of_quiet clean.1 lookedAt
  refine ⟨ids, isRefs, fun id isRef => ?_⟩
  obtain ⟨entry, isEntry⟩ := Option.isSome_iff_exists.mp (indexed id isRef)
  exact (chunkIntact_iff isEntry).mpr (chunks id entry isEntry).verifies

theorem run_of_intact (flat : FlatStreams external storage)
    (snapshots : ∀ key,
      LookedAt (openManifest external schedule storage.snapshots snapshotCache) key →
        SnapshotIntact external storage key)
    (chunks : ∀ id entry, storage.index.get? id = some entry →
      ChunkSound external storage id entry) :
    run external schedule .none true storage snapshotCache = .ok [] := by
  rw [run_eq, Except.ok.injEq, List.map_eq_nil_iff, List.append_eq_nil_iff]
  constructor
  · refine quiet_of_references flat ?_ fun key lookedAt => (snapshots key lookedAt).indexed
    rintro position failure (metadata | again | ⟨packId, start, range⟩)
    · cases metadata
    · cases again
    · cases range
  · exact scanPacks_eq_nil chunks

/-- The stored objects that the check does not look at are intact, or it has something else to
report. -/
def NothingHidden (external : External) (schedule : Schedule) (storage : Storage)
    (snapshotCache : Dict String SnapshotEntry) : Prop :=
  let manifest := openManifest external schedule storage.snapshots snapshotCache
  (∀ key id, fromHex? key = some id → (storage.snapshots.get? key).isSome = true →
      ¬ LookedAt manifest key → SnapshotIntact external storage key) ∨
    (∃ key, LookedAt manifest key ∧ ¬ SnapshotIntact external storage key) ∨
    ∃ id entry, storage.index.get? id = some entry ∧ ¬ ChunkSound external storage id entry

/-- A check without errors means that all stored snapshots are intact. -/
def CheckSound (external : External) (schedule : Schedule) (storage : Storage)
    (snapshotCache : Dict String SnapshotEntry) : Prop :=
  run external schedule .none true storage snapshotCache = .ok [] →
    ∀ key id, fromHex? key = some id → (storage.snapshots.get? key).isSome = true →
      SnapshotIntact external storage key

/-- The check can be trusted if nothing is hidden from it; when the chunk ranges of the item
streams are flat, then only if. -/
theorem check_sound_iff (external : External) (schedule : Schedule) (storage : Storage)
    (snapshotCache : Dict String SnapshotEntry) :
    (NothingHidden external schedule storage snapshotCache →
        CheckSound external schedule storage snapshotCache) ∧
      (FlatStreams external storage → CheckSound external schedule storage snapshotCache →
        NothingHidden external schedule storage snapshotCache) := by
  constructor
  · intro nothingHidden clean key id valid stored
    obtain ⟨snapshots, chunks⟩ := intact_of_run clean
    rcases nothingHidden with unseen | ⟨other, lookedAt, damaged⟩ | ⟨chunk, entry, found, damaged⟩
    · by_cases lookedAt :
          LookedAt (openManifest external schedule storage.snapshots snapshotCache) key
      · exact snapshots key lookedAt
      · exact unseen key id valid stored lookedAt
    · exact absurd (snapshots other lookedAt) damaged
    · exact absurd (chunks chunk entry found) damaged
  · intro flat sound
    by_cases snapshots : ∀ key,
        LookedAt (openManifest external schedule storage.snapshots snapshotCache) key →
          SnapshotIntact external storage key
    · by_cases chunks : ∀ id entry, storage.index.get? id = some entry →
          ChunkSound external storage id entry
      · have clean := run_of_intact flat snapshots chunks
        exact .inl fun key id valid stored _ => sound clean key id valid stored
      · push Not at chunks
        exact .inr (.inr chunks)
    · push Not at snapshots
      exact .inr (.inl snapshots)

/-- The chunk with one byte, in a repository that numbers bytes instead of hashing them. -/
def byteChunk (byte : UInt8) : ChunkId := BitVec.ofNat 256 (256 + byte.toNat)

/-- An unencrypted repository in which every byte of a snapshot object after its name is an item
pointer and every byte of an item stream a file with one chunk. -/
def byteExternal : External :=
  { External.bare with
    computeId := fun data =>
      BitVec.ofNat 256 (data.foldl (fun value byte => 256 * value + byte.toNat) 1)
    decodeMeta := fun bytes =>
      match bytes with
      | [] => .error (.deserialization "no name")
      | name :: itemPtrs => .ok ⟨toString name.toNat, name.toNat, itemPtrs.map byteChunk⟩
    decodeItem := fun stream =>
      match stream with
      | [] => .error (.deserialization "no item")
      | byte :: rest => .ok (⟨"file".toList, .regularFile, none, [⟨byteChunk byte, 1⟩]⟩, rest)
    decodeItem_shorter := by
      intro stream rest item decoded
      cases stream with
      | nil => cases decoded
      | cons byte bytes =>
        cases decoded
        simp }

def byteBlob (byte : UInt8) : Bytes := [3, 0, byte]

def byteSnapshot (name : UInt8) (itemPtrs : Bytes) : Bytes := 2 :: name :: itemPtrs

def oneSnapshot : Storage where
  snapshots := Dict.ofList [(toHex 1, byteSnapshot 7 [5])]
  packs := Dict.ofList [(9, packBytes [byteBlob 5])]
  index := Dict.ofList [(byteChunk 5, ⟨2, 3, 9, 13⟩)]

theorem check_sound_iff_oneSnapshot :
    run byteExternal .inOrder .none true oneSnapshot ∅ = .ok [] ∧
      SnapshotIntact byteExternal oneSnapshot (toHex 1) := by
  have clean : run byteExternal .inOrder .none true oneSnapshot ∅ = .ok [] := by decide +kernel
  refine ⟨clean, (check_sound_iff byteExternal .inOrder oneSnapshot ∅).1 (.inl ?_) clean _ 1
    (fromHex?_toHex 1) (by decide +kernel)⟩
  intro key id valid stored unseen
  have onlyKey : oneSnapshot.snapshots.keysList = [toHex 1] := rfl
  have listed := Dict.mem_keysList.mpr stored
  rw [onlyKey, List.mem_singleton] at listed
  exact absurd ⟨⟨"7", 1, 7⟩, by decide +kernel, listed⟩ unseen

def emptyObject : Storage where
  snapshots := Dict.ofList [(toHex 1, [])]
  packs := ∅
  index := ∅

/-- The check does not report a snapshot object that cannot be decoded. -/
theorem check_misses_undecodable_snapshot :
    run byteExternal .inOrder .none true emptyObject ∅ = .ok [] ∧
      fromHex? (toHex 1) = some 1 ∧ (emptyObject.snapshots.get? (toHex 1)).isSome = true ∧
      snapshotAt byteExternal emptyObject.snapshots (toHex 1) = none ∧
      ¬ SnapshotIntact byteExternal emptyObject (toHex 1) := by
  have undecodable : snapshotAt byteExternal emptyObject.snapshots (toHex 1) = none := by
    decide +kernel
  refine ⟨by decide +kernel, fromHex?_toHex 1, by decide +kernel, undecodable, ?_⟩
  rintro ⟨ids, isRefs, -⟩
  rw [references, undecodable] at isRefs
  cases isRefs

end Vykar.Check

import Vykar.Index.Delta

/-!
Commits of several deltas, one after the other.

Each session reconciles its delta with the index it finds and applies it
(`IndexDelta::reconcile`, `IndexDelta::apply_to`).  Reconciliation turns a chunk
that another session has committed in the meantime into a bump, so what a delta
does depends on who came first; the chunks and reference counts afterwards do not.
-/

namespace Vykar.Index

def ChunkIndexEntry.location (entry : ChunkIndexEntry) : PackId × Nat × Nat :=
  (entry.packId, entry.packOffset, entry.storedSize)

def NewChunkEntry.location (entry : NewChunkEntry) : PackId × Nat × Nat :=
  (entry.packId, entry.packOffset, entry.storedSize)

namespace ChunkIndex

/-- `later` has the locations of `index`, and otherwise locations given by `entries`. -/
def LocatedBy (index : ChunkIndex) (entries : List NewChunkEntry) (later : ChunkIndex) : Prop :=
  ∀ id entry, later.get? id = some entry →
    (∃ old, index.get? id = some old ∧ entry.location = old.location) ∨
      ∃ new ∈ entries, new.chunkId = id ∧ entry.location = new.location

variable {index middle later : ChunkIndex} {first second entries : List NewChunkEntry}

theorem LocatedBy.refl (index : ChunkIndex) : index.LocatedBy entries index :=
  fun _ entry found => Or.inl ⟨entry, found, rfl⟩

theorem LocatedBy.trans (before : index.LocatedBy first middle)
    (after : middle.LocatedBy second later) : index.LocatedBy (first ++ second) later := by
  intro id entry found
  rcases after id entry found with ⟨old, foundOld, same⟩ | ⟨new, listed, sameId, same⟩
  · rcases before id old foundOld with
      ⟨oldest, foundOldest, sameOld⟩ | ⟨new, listed, sameId, sameNew⟩
    · exact Or.inl ⟨oldest, foundOldest, same.trans sameOld⟩
    · exact Or.inr ⟨new, List.mem_append_left _ listed, sameId, same.trans sameNew⟩
  · exact Or.inr ⟨new, List.mem_append_right _ listed, sameId, same⟩

theorem LocatedBy.mono (located : index.LocatedBy first later) (among : first ⊆ second) :
    index.LocatedBy second later := by
  intro id entry found
  rcases located id entry found with old | ⟨new, listed, same⟩
  · exact Or.inl old
  · exact Or.inr ⟨new, among listed, same⟩

theorem locatedBy_incrementRefcountBy (index : ChunkIndex) (id : ChunkId) (amount : Nat) :
    index.LocatedBy [] (index.incrementRefcountBy id amount) := by
  intro other entry found
  rw [incrementRefcountBy, Dict.get?_modify] at found
  split at found
  · rename_i same
    obtain ⟨old, foundOld, rfl⟩ := Option.map_eq_some_iff.mp found
    exact Or.inl ⟨old, same ▸ foundOld, rfl⟩
  · exact Or.inl ⟨entry, found, rfl⟩

theorem locatedBy_add (index : ChunkIndex) (new : NewChunkEntry) :
    index.LocatedBy [new] (index.add new.chunkId new.storedSize new.packId new.packOffset) := by
  intro other entry found
  unfold add at found
  cases known : index.get? new.chunkId with
  | some old =>
    rw [known, Dict.get?_set] at found
    split at found
    · rename_i same
      cases found
      exact Or.inl ⟨old, same ▸ known, rfl⟩
    · exact Or.inl ⟨entry, found, rfl⟩
  | none =>
    rw [known, Dict.get?_set] at found
    split at found
    · rename_i same
      cases found
      exact Or.inr ⟨new, List.mem_singleton_self _, same.symm, rfl⟩
    · exact Or.inl ⟨entry, found, rfl⟩

end ChunkIndex

namespace IndexDelta

theorem locatedBy_applyNew (index : ChunkIndex) (new : NewChunkEntry) :
    index.LocatedBy [new] (applyNew index new) := by
  have added := ChunkIndex.locatedBy_add index new
  unfold applyNew
  simp only
  split
  · exact added.trans (ChunkIndex.locatedBy_incrementRefcountBy _ _ _)
  · exact added

theorem locatedBy_foldl_applyNew (entries : List NewChunkEntry) (index : ChunkIndex) :
    index.LocatedBy entries (entries.foldl applyNew index) := by
  induction entries generalizing index with
  | nil => exact .refl index
  | cons head tail ih =>
    exact (locatedBy_applyNew index head).trans (ih _)

theorem foldl_bumps_spec (bumps : List (ChunkId × Nat)) (index : ChunkIndex) :
    index.LocatedBy []
        (bumps.foldl (fun index (id, count) => index.incrementRefcountBy id count) index) ∧
      ∀ id, (bumps.foldl (fun index (id, count) => index.incrementRefcountBy id count)
        index).contains id = index.contains id := by
  induction bumps generalizing index with
  | nil => exact ⟨.refl index, fun _ => rfl⟩
  | cons head tail ih =>
    obtain ⟨located, contained⟩ := ih (index.incrementRefcountBy head.1 head.2)
    refine ⟨(ChunkIndex.locatedBy_incrementRefcountBy _ _ _).trans located, fun id => ?_⟩
    rw [List.foldl_cons, contained, ChunkIndex.contains_incrementRefcountBy]

theorem locatedBy_applyTo (delta : IndexDelta) (index : ChunkIndex) :
    index.LocatedBy delta.newEntries (delta.applyTo index) := by
  have located := (locatedBy_foldl_applyNew delta.newEntries index).trans
    (foldl_bumps_spec delta.refcountBumps.toList _).1
  rwa [List.append_nil] at located

theorem contains_applyTo (delta : IndexDelta) (index : ChunkIndex) (id : ChunkId) :
    (delta.applyTo index).contains id =
      (index.contains id || delta.newEntries.any fun entry => entry.chunkId = id) := by
  unfold applyTo
  rw [(foldl_bumps_spec _ _).2, contains_foldl_applyNew]

theorem mem_keysList_foldl_bumpBy {entries : List NewChunkEntry} {bumps : Dict ChunkId Nat}
    {id : ChunkId}
    (bumped : id ∈ (entries.foldl (fun bumps entry => bumpBy bumps entry.chunkId entry.refcount)
      bumps).keysList) :
    id ∈ bumps.keysList ∨ ∃ entry ∈ entries, entry.chunkId = id := by
  induction entries generalizing bumps with
  | nil => exact Or.inl bumped
  | cons head tail ih =>
    rcases ih bumped with before | ⟨entry, listed, same⟩
    · unfold bumpBy at before
      rw [Dict.mem_keysList, Dict.get?_set] at before
      split at before
      · rename_i same
        exact Or.inr ⟨head, List.mem_cons_self, same.symm⟩
      · exact Or.inl (Dict.mem_keysList.mpr before)
    · exact Or.inr ⟨entry, List.mem_cons_of_mem _ listed, same⟩

/-- Reconciliation succeeds while every bumped chunk is in the fresh index or new, and what it
no longer counts as new is in the fresh index. -/
theorem exists_reconcile {delta : IndexDelta} {fresh : ChunkIndex}
    (known : delta.BumpsKnown fresh) :
    ∃ result, delta.reconcile fresh = .ok result ∧
      result.newEntries = delta.newEntries.filter fun entry => !fresh.contains entry.chunkId := by
  have ofNew {entry : NewChunkEntry} (listed : entry ∈ delta.newEntries) :
      fresh.contains entry.chunkId = true ∨ ∃ new ∈ delta.newEntries.filter fun entry =>
        !fresh.contains entry.chunkId, decide (new.chunkId = entry.chunkId) = true := by
    cases present : fresh.contains entry.chunkId with
    | true => exact Or.inl rfl
    | false => exact Or.inr ⟨entry, List.mem_filter.mpr ⟨listed, by simp [present]⟩, by simp⟩
  have checked : ∀ id ∈ ((delta.newEntries.filter fun entry =>
      fresh.contains entry.chunkId).foldl (fun bumps entry =>
        bumpBy bumps entry.chunkId entry.refcount) delta.refcountBumps).keysList,
      (fresh.contains id || (delta.newEntries.filter fun entry =>
        !fresh.contains entry.chunkId).any fun entry => entry.chunkId = id) = true := by
    intro id bumped
    rw [Bool.or_eq_true, List.any_eq_true]
    rcases mem_keysList_foldl_bumpBy bumped with before | ⟨entry, listed, rfl⟩
    · rcases known id before with present | ⟨entry, listed, rfl⟩
      · exact Or.inl present
      · exact ofNew listed
    · exact Or.inl (List.mem_filter.mp listed).2
  exact ⟨_, if_pos (List.all_eq_true.mpr checked), rfl⟩

end IndexDelta

/-- A commit on the slow path: reconcile the delta with the current index and apply it. -/
def commit (index : ChunkIndex) (delta : IndexDelta) : Except CommitError ChunkIndex := do
  let reconciled ← delta.reconcile index
  .ok (reconciled.applyTo index)

def commitAll (index : ChunkIndex) (deltas : List IndexDelta) : Except CommitError ChunkIndex :=
  deltas.foldlM commit index

structure Committed (index : ChunkIndex) (deltas : List IndexDelta) (result : ChunkIndex) :
    Prop where
  chunks : ∀ id, result.contains id = true ↔ index.contains id = true ∨
    ∃ delta ∈ deltas, ∃ entry ∈ delta.newEntries, entry.chunkId = id
  refcounts : ∀ id, result.refcount id =
    index.refcount id + (deltas.map fun delta => delta.references id).sum
  locations : index.LocatedBy (deltas.flatMap IndexDelta.newEntries) result

structure IndexDelta.Committable (delta : IndexDelta) (index : ChunkIndex) : Prop where
  known : delta.BumpsKnown index
  positive : ∀ entry ∈ delta.newEntries, 1 ≤ entry.refcount

theorem IndexDelta.Committable.mono {delta : IndexDelta} {index larger : ChunkIndex}
    (committable : delta.Committable index)
    (grows : ∀ id, index.contains id = true → larger.contains id = true) :
    delta.Committable larger :=
  ⟨fun id bumped => (committable.known id bumped).imp_left (grows id), committable.positive⟩

section Commit

variable {index : ChunkIndex} {delta : IndexDelta} {deltas : List IndexDelta}

theorem commit_committed (committable : delta.Committable index)
    (fits : ∀ id, index.refcount id + delta.references id < 2 ^ 32) :
    ∃ result, commit index delta = .ok result ∧ Committed index [delta] result := by
  obtain ⟨reconciled, succeeds, stillNew⟩ := IndexDelta.exists_reconcile committable.known
  obtain ⟨known, entries, same⟩ := IndexDelta.reconcile_ok
    (fun id => lt_of_le_of_lt (Nat.le_add_left _ _) (fits id)) succeeds
  refine ⟨reconciled.applyTo index, by rw [commit, succeeds]; rfl, ?_, fun id => ?_, ?_⟩
  · intro id
    rw [IndexDelta.contains_applyTo, Bool.or_eq_true, List.any_eq_true, stillNew]
    simp only [List.mem_singleton, exists_eq_left, decide_eq_true_eq]
    constructor
    · rintro (present | ⟨entry, listed, same⟩)
      · exact Or.inl present
      · exact Or.inr ⟨entry, (List.mem_filter.mp listed).1, same⟩
    · rintro (present | ⟨entry, listed, rfl⟩)
      · exact Or.inl present
      · cases present : index.contains entry.chunkId with
        | true => exact Or.inl rfl
        | false => exact Or.inr ⟨entry, List.mem_filter.mpr ⟨listed, by simp [present]⟩, rfl⟩
  · have positive := fun entry listed => committable.positive entry (entries entry listed)
    rw [IndexDelta.refcount_applyTo known positive fun id => (same id).symm ▸ fits id, same]
    simp
  · refine (IndexDelta.locatedBy_applyTo reconciled index).mono ?_
    rw [List.flatMap_singleton]
    exact entries

theorem commitAll_committed (committable : ∀ delta ∈ deltas, delta.Committable index)
    (fits : ∀ id, index.refcount id + (deltas.map fun delta => delta.references id).sum < 2 ^ 32) :
    ∃ result, commitAll index deltas = .ok result ∧ Committed index deltas result := by
  induction deltas generalizing index with
  | nil => exact ⟨index, rfl, by simp, by simp, .refl index⟩
  | cons delta deltas ih =>
    simp only [List.map_cons, List.sum_cons] at fits
    obtain ⟨middle, first, done⟩ := commit_committed (committable delta List.mem_cons_self)
      fun id => by have bound := fits id; omega
    have counted (id : ChunkId) :
        middle.refcount id = index.refcount id + delta.references id := by
      simpa using done.refcounts id
    have grows (id : ChunkId) (present : index.contains id = true) : middle.contains id = true :=
      (done.chunks id).mpr (Or.inl present)
    obtain ⟨result, rest, later⟩ := ih
      (fun other listed => (committable other (List.mem_cons_of_mem _ listed)).mono grows)
      fun id => by have bound := fits id; rw [counted]; omega
    refine ⟨result, ?_, fun id => ?_, fun id => ?_, ?_⟩
    · rw [commitAll, List.foldlM_cons, first]
      exact rest
    · rw [later.chunks, done.chunks]
      simp [or_assoc]
    · rw [later.refcounts, counted, List.map_cons, List.sum_cons, Nat.add_assoc]
    · have located := done.locations.trans later.locations
      rwa [← List.flatMap_append, List.singleton_append] at located

theorem Committed.perm {reordered : List IndexDelta} {result : ChunkIndex}
    (done : Committed index deltas result) (perm : deltas.Perm reordered) :
    Committed index reordered result where
  chunks id := by
    rw [done.chunks]
    simp only [perm.mem_iff]
  refcounts id := by
    rw [done.refcounts, (perm.map fun delta => delta.references id).sum_eq]
  locations := done.locations.mono (perm.flatMap_right _).subset

end Commit

end Vykar.Index

import Vykar.Repo.History

/-!
The removal of snapshots (`commands/snapshot_ops.rs`, `commands/delete.rs`,
`commands/prune.rs`).

A removal decrements one reference after the other.  What is left of an entry depends only on
how often its chunk was decremented, so the order of snapshots and of references does not
matter.  The dry run of a delete looks for reference counts of one, and misses a chunk whose
references are all in the snapshot when there are several.
-/

namespace Vykar.Repo

open Index WriteLog Repository

structure SnapshotChunkImpact where
  chunksDeleted : Nat
  spaceFreed : Nat
  deriving DecidableEq

def SnapshotChunkImpact.add (impact : SnapshotChunkImpact) (size : Nat) : SnapshotChunkImpact :=
  ⟨impact.chunksDeleted + 1, impact.spaceFreed + size⟩

def countSnapshotChunkImpact (index : ChunkIndex) (references : List ChunkId) :
    SnapshotChunkImpact :=
  references.foldl (fun impact id =>
    match index.get? id with
    | some entry => if entry.refcount = 1 then impact.add entry.storedSize else impact
    | none => impact) ⟨0, 0⟩

def decrementSnapshotChunkRefs (index : ChunkIndex) (references : List ChunkId) :
    ChunkIndex × SnapshotChunkImpact :=
  references.foldl (fun (index, impact) id =>
    match index.decrement id with
    | (next, some (refcount, size)) => (next, if refcount = 0 then impact.add size else impact)
    | (next, none) => (next, impact)) (index, ⟨0, 0⟩)

section Decrement

variable {index : ChunkIndex} {references front back : List ChunkId} {id : ChunkId}

def remaining (count : Nat) (entry : ChunkIndexEntry) : Option ChunkIndexEntry :=
  if count = 0 then some entry
  else if entry.refcount - count = 0 then none
  else some { entry with refcount := entry.refcount - count }

theorem remaining_bind (first second : Nat) (entry : ChunkIndexEntry) :
    (remaining first entry).bind (remaining second) = remaining (first + second) entry := by
  unfold remaining
  by_cases untouched : first = 0
  · simp [untouched]
  · by_cases gone : entry.refcount - first = 0
    · have goneLater : entry.refcount - (first + second) = 0 := by omega
      simp [untouched, gone, goneLater]
    · simp only [untouched, gone, if_false, Option.bind_some, Nat.add_eq_zero_iff, false_and,
        Nat.sub_sub]
      by_cases nothing : second = 0 <;> simp [nothing, gone]

theorem get?_decrement (index : ChunkIndex) (id other : ChunkId) :
    (index.decrement id).1.get? other =
      (index.get? other).bind (remaining (if id = other then 1 else 0)) := by
  unfold ChunkIndex.decrement
  by_cases same : id = other
  · subst same
    cases found : index.get? id with
    | none => simp [found]
    | some entry =>
      by_cases last : entry.refcount - 1 = 0 <;>
        simp [remaining, last, Dict.get?_remove]
  · have unchanged (found : Option ChunkIndexEntry) : found.bind (remaining 0) = found := by
      cases found <;> rfl
    rw [if_neg same, unchanged]
    cases index.get? id with
    | none => rfl
    | some entry =>
      simp only
      split <;> simp [Dict.get?_remove, Dict.get?_set, Ne.symm same]

theorem get?_decrementAll (index : ChunkIndex) (references : List ChunkId) (id : ChunkId) :
    (index.decrementAll references).get? id =
      (index.get? id).bind (remaining (references.count id)) := by
  induction references using List.reverseRecOn with
  | nil => cases found : index.get? id <;> simp [ChunkIndex.decrementAll, remaining, found]
  | append_singleton front last ih =>
    have stepped : (index.decrementAll (front ++ [last])).get? id =
        ((index.decrementAll front).decrement last).1.get? id := by
      simp [ChunkIndex.decrementAll]
    rw [stepped, get?_decrement, ih, Option.bind_assoc, List.count_append,
      List.count_singleton]
    simp only [remaining_bind, beq_iff_eq]

/-- Each chunk is still indexed when its turn comes. -/
def NeverMissing (index : ChunkIndex) (references : List ChunkId) : Prop :=
  ∀ front id back, references = front ++ id :: back →
    (index.decrementAll front).contains id = true

theorem neverMissing_of_covered (covered : ∀ id, references.count id ≤ index.refcount id) :
    NeverMissing index references := by
  rintro front id back rfl
  apply ChunkIndex.contains_of_refcount_pos
  have counted := covered id
  rw [List.count_append, List.count_cons_self] at counted
  rw [ChunkIndex.refcount_decrementAll]
  omega

def storedSize (index : ChunkIndex) (id : ChunkId) : Nat :=
  ((index.get? id).map ChunkIndexEntry.storedSize).getD 0

def impactOf (index : ChunkIndex) (freed : Finset ChunkId) : SnapshotChunkImpact :=
  ⟨freed.card, ∑ id ∈ freed, storedSize index id⟩

theorem impactOf_insert {freed : Finset ChunkId} (fresh : id ∉ freed) :
    impactOf index (insert id freed) = (impactOf index freed).add (storedSize index id) := by
  rw [impactOf, Finset.card_insert_of_notMem fresh, Finset.sum_insert fresh,
    Nat.add_comm (storedSize index id)]
  rfl

/-- The chunks whose references are all in a list. -/
def ownChunks (index : ChunkIndex) (references : List ChunkId) : Finset ChunkId :=
  references.toFinset.filter fun id => references.count id = index.refcount id

def singleChunks (index : ChunkIndex) (references : List ChunkId) : Finset ChunkId :=
  references.toFinset.filter fun id => index.refcount id = 1

theorem covered_append {last : ChunkId}
    (covered : ∀ id, (front ++ [last]).count id ≤ index.refcount id) :
    (∀ id, front.count id ≤ index.refcount id) ∧ front.count last < index.refcount last := by
  constructor
  · intro id
    exact ((List.sublist_append_left front [last]).count_le id).trans (covered id)
  · have counted := covered last
    rw [List.count_append, List.count_singleton_self] at counted
    exact counted

theorem ownChunks_append {last : ChunkId} (room : front.count last < index.refcount last) :
    ownChunks index (front ++ [last]) =
      if front.count last + 1 = index.refcount last then insert last (ownChunks index front)
      else ownChunks index front := by
  ext id
  by_cases same : id = last
  · subst same
    have notOwn : id ∉ ownChunks index front := by
      intro own
      exact room.ne (Finset.mem_filter.mp own).2
    split <;> simp_all [ownChunks]
  · have absent : [last].count id = 0 := List.count_eq_zero.mpr (by simpa using same)
    split <;> simp [ownChunks, same, absent]

theorem entry_decrementAll (room : front.count id < index.refcount id) :
    ∃ entry, (index.decrementAll front).get? id = some entry ∧
      entry.refcount = index.refcount id - front.count id ∧
      entry.storedSize = storedSize index id := by
  have positive : 0 < (index.decrementAll front).refcount id := by
    rw [ChunkIndex.refcount_decrementAll]
    omega
  obtain ⟨entry, found⟩ :=
    Option.isSome_iff_exists.mp (ChunkIndex.contains_of_refcount_pos positive)
  refine ⟨entry, found, ?_, ?_⟩
  · rw [← ChunkIndex.refcount_decrementAll, ChunkIndex.refcount, found]
    rfl
  · rw [get?_decrementAll] at found
    obtain ⟨old, isOld, left⟩ := Option.bind_eq_some_iff.mp found
    rw [storedSize, isOld]
    unfold remaining at left
    split_ifs at left <;> cases left <;> rfl

theorem decrementSnapshotChunkRefs_eq
    (covered : ∀ id, references.count id ≤ index.refcount id) :
    decrementSnapshotChunkRefs index references =
      (index.decrementAll references, impactOf index (ownChunks index references)) := by
  induction references using List.reverseRecOn with
  | nil => rfl
  | append_singleton front last ih =>
    obtain ⟨coveredFront, room⟩ := covered_append covered
    have before := ih coveredFront
    obtain ⟨entry, found, counted, sized⟩ := entry_decrementAll room
    have stepped : index.decrementAll (front ++ [last]) =
        ((index.decrementAll front).decrement last).1 := by
      simp [ChunkIndex.decrementAll]
    unfold decrementSnapshotChunkRefs at before ⊢
    rw [List.foldl_append, before, List.foldl_cons, List.foldl_nil, stepped,
      ownChunks_append room]
    simp only [ChunkIndex.decrement, found]
    by_cases freed : entry.refcount - 1 = 0
    · have own : front.count last + 1 = index.refcount last := by omega
      have notOwn : last ∉ ownChunks index front :=
        fun listed => room.ne (Finset.mem_filter.mp listed).2
      simp only [if_pos own, impactOf_insert notOwn, sized, if_pos freed]
    · have notOwn : front.count last + 1 ≠ index.refcount last := by omega
      simp only [if_neg notOwn, if_neg freed]

theorem countSnapshotChunkImpact_eq
    (covered : ∀ id, references.count id ≤ index.refcount id) :
    countSnapshotChunkImpact index references =
      impactOf index (singleChunks index references) := by
  induction references using List.reverseRecOn with
  | nil => rfl
  | append_singleton front last ih =>
    obtain ⟨coveredFront, room⟩ := covered_append covered
    have before := ih coveredFront
    obtain ⟨entry, found, counted, sized⟩ :=
      @entry_decrementAll index [] last (Nat.zero_lt_of_lt room)
    have single : singleChunks index (front ++ [last]) =
        if index.refcount last = 1 then insert last (singleChunks index front)
        else singleChunks index front := by
      ext id
      by_cases one : index.refcount last = 1 <;> by_cases same : id = last <;>
        simp [singleChunks, one, same]
    have known : index.get? last = some entry := found
    unfold countSnapshotChunkImpact at before ⊢
    rw [List.foldl_append, before, List.foldl_cons, List.foldl_nil, single, known]
    simp only [counted, sized, List.count_nil, Nat.sub_zero]
    by_cases one : index.refcount last = 1
    · have first : last ∉ singleChunks index front := by
        intro listed
        have among := List.mem_toFinset.mp (Finset.mem_filter.mp listed).1
        have positive := List.count_pos_iff.mpr among
        omega
      rw [if_pos one, if_pos one, impactOf_insert first]
    · rw [if_neg one, if_neg one]

end Decrement

/-- The dry run of a delete is exact if and only if no chunk with all its references in the
snapshot occurs there more than once. -/
theorem delete_dry_run_exact_iff (index : ChunkIndex) (snapshot : Snapshot)
    (covered : ∀ id, snapshot.references.count id ≤ index.refcount id) :
    countSnapshotChunkImpact index snapshot.references =
        (decrementSnapshotChunkRefs index snapshot.references).2 ↔
      ∀ id ∈ snapshot.references, snapshot.references.count id = index.refcount id →
        snapshot.references.count id = 1 := by
  rw [countSnapshotChunkImpact_eq covered, decrementSnapshotChunkRefs_eq covered]
  have counted {id : ChunkId} (listed : id ∈ snapshot.references) :=
    List.count_pos_iff.mpr listed
  have subset : singleChunks index snapshot.references ⊆ ownChunks index snapshot.references := by
    intro id single
    obtain ⟨among, one⟩ := Finset.mem_filter.mp single
    have positive := counted (List.mem_toFinset.mp among)
    have bound := covered id
    exact Finset.mem_filter.mpr ⟨among, by omega⟩
  constructor
  · intro same id listed own
    have cards := congrArg SnapshotChunkImpact.chunksDeleted same
    have equal := Finset.eq_of_subset_of_card_le subset cards.ge
    have among : id ∈ ownChunks index snapshot.references :=
      Finset.mem_filter.mpr ⟨List.mem_toFinset.mpr listed, own⟩
    rw [← equal] at among
    exact own.trans (Finset.mem_filter.mp among).2
  · intro once
    have equal : singleChunks index snapshot.references = ownChunks index snapshot.references := by
      refine subset.antisymm fun id own => ?_
      obtain ⟨among, all⟩ := Finset.mem_filter.mp own
      exact Finset.mem_filter.mpr
        ⟨among, all.symm.trans (once id (List.mem_toFinset.mp among) all)⟩
    rw [equal]

/-- One chunk of its own, next to a chunk that another snapshot refers to as well. -/
theorem delete_dry_run_exact_shared :
    countSnapshotChunkImpact (Dict.ofList [(7, ⟨1, 10, 0, 13⟩), (8, ⟨2, 20, 0, 27⟩)])
        (Snapshot.references ⟨"a", [[7, 8]], []⟩) =
      (decrementSnapshotChunkRefs (Dict.ofList [(7, ⟨1, 10, 0, 13⟩), (8, ⟨2, 20, 0, 27⟩)])
        (Snapshot.references ⟨"a", [[7, 8]], []⟩)).2 := by
  have listed {id : ChunkId} :
      id ∈ Snapshot.references ⟨"a", [[7, 8]], []⟩ ↔ id = 7 ∨ id = 8 := by
    simp [Snapshot.references]
  refine (delete_dry_run_exact_iff (Dict.ofList [(7, ⟨1, 10, 0, 13⟩), (8, ⟨2, 20, 0, 27⟩)])
    ⟨"a", [[7, 8]], []⟩ ?_).mpr ?_
  · intro id
    by_cases among : id ∈ Snapshot.references ⟨"a", [[7, 8]], []⟩
    · rcases listed.mp among with rfl | rfl <;> decide +kernel
    · rw [List.count_eq_zero_of_not_mem among]
      exact Nat.zero_le _
  · intro id among
    rcases listed.mp among with rfl | rfl <;> decide +kernel

/-- A chunk that occurs in two files of one snapshot is freed, but the dry run does not count
it. -/
theorem repeated_chunk_not_counted :
    countSnapshotChunkImpact (Dict.ofList [(7, ⟨2, 10, 0, 13⟩)])
        (Snapshot.references ⟨"a", [[7], [7]], []⟩) = ⟨0, 0⟩ ∧
      (decrementSnapshotChunkRefs (Dict.ofList [(7, ⟨2, 10, 0, 13⟩)])
        (Snapshot.references ⟨"a", [[7], [7]], []⟩)).2 = ⟨1, 10⟩ := by
  decide +kernel

def deleteAll (repo : Repository) (names : List String) : Repository :=
  names.foldl (fun repo name => applyAll Repository.apply repo (deleteWrites repo name true true))
    repo

def targetReferences (repo : Repository) (names : List String) : List ChunkId :=
  (names.filterMap repo.findSnapshot).flatMap fun target => target.2.references

/-- The refcount phase for one snapshot: its item stream can be loaded, and no chunk it
decrements is missing from the index. -/
def RefcountPhase (index : ChunkIndex) (snapshot : Snapshot) : Prop :=
  (∀ pointer ∈ snapshot.itemPtrs, index.contains pointer = true) ∧
    NeverMissing index snapshot.references

section Order

variable {repo : Repository} {index : ChunkIndex} {snapshot : Snapshot} {name : String}
  {id : SnapshotId} {names : List String}

theorem refcountPhase_of_covered
    (covered : ∀ chunk, snapshot.references.count chunk ≤ index.refcount chunk) :
    RefcountPhase index snapshot := by
  refine ⟨fun pointer listed => ?_, neverMissing_of_covered covered⟩
  apply ChunkIndex.contains_of_refcount_pos
  have among : pointer ∈ snapshot.references := List.mem_append_right _ listed
  exact lt_of_lt_of_le (List.count_pos_iff.mpr among) (covered pointer)

theorem get?_decrementAll_perm {references others : List ChunkId}
    (permuted : references.Perm others) (chunk : ChunkId) :
    (index.decrementAll references).get? chunk = (index.decrementAll others).get? chunk := by
  rw [get?_decrementAll, get?_decrementAll, permuted.count_eq]

theorem decrementAll_append (index : ChunkIndex) (front back : List ChunkId) :
    index.decrementAll (front ++ back) = (index.decrementAll front).decrementAll back :=
  List.foldl_append

theorem chunkIndex_saveDecremented (references : List ChunkId) {deleted : Repository}
    (same : deleted.index = repo.index) :
    (applyAll Repository.apply deleted (saveDecremented repo references)).chunkIndex =
      repo.chunkIndex.decrementAll references := by
  unfold saveDecremented
  split
  · rename_i none
    rw [List.isEmpty_iff.mp none]
    exact congrArg (Option.getD · ∅) same
  · rfl

theorem Repository.Accounted.findSnapshot_iff (accounted : repo.Accounted) :
    repo.findSnapshot name = some (id, snapshot) ↔
      repo.snapshots.get? id = some snapshot ∧ snapshot.name = name := by
  refine ⟨findSnapshot_eq_some, ?_⟩
  rintro ⟨stored, named⟩
  cases found : repo.findSnapshot name with
  | none => exact absurd named (name_ne_of_findSnapshot_none (by rw [found]; rfl) stored)
  | some entry =>
    obtain ⟨storedFirst, namedFirst⟩ := findSnapshot_eq_some found
    have sameId := accounted.names _ _ _ _ storedFirst stored (namedFirst.trans named.symm)
    rw [sameId] at storedFirst
    rw [← Option.some.inj (storedFirst.symm.trans stored), ← sameId]

theorem applyAll_deleteWrites (found : repo.findSnapshot name = some (id, snapshot)) :
    (applyAll apply repo (deleteWrites repo name true true)).chunkIndex =
        repo.chunkIndex.decrementAll snapshot.references ∧
      (applyAll apply repo (deleteWrites repo name true true)).snapshots =
        repo.snapshots.remove id := by
  unfold deleteWrites
  rw [found]
  constructor
  · exact chunkIndex_saveDecremented snapshot.references rfl
  · simp only [saveDecremented, applyAll, List.foldl_cons, if_true]
    split <;> rfl

theorem Repository.Accounted.findSnapshot_deleteWrites (accounted : repo.Accounted)
    {other : String} (different : other ≠ name) :
    (applyAll apply repo (Repo.deleteWrites repo name true true)).findSnapshot other =
      repo.findSnapshot other := by
  have accountedNext := (accounted.deleteWrites name true true).last
  cases found : repo.findSnapshot name with
  | none => rw [Repo.deleteWrites, found]; rfl
  | some target =>
    obtain ⟨stored, named⟩ := findSnapshot_eq_some found
    ext entry
    rw [accountedNext.findSnapshot_iff, accounted.findSnapshot_iff,
      (applyAll_deleteWrites found).2, Dict.get?_remove]
    by_cases same : entry.1 = target.1
    · rw [if_pos same, same, stored]
      constructor
      · rintro ⟨absent, -⟩
        cases absent
      · rintro ⟨theSame, otherName⟩
        rw [← Option.some.inj theSame, named] at otherName
        exact absurd otherName.symm different
    · rw [if_neg same]

theorem Repository.Accounted.deleteAll (accounted : repo.Accounted) (names : List String) :
    (deleteAll repo names).Accounted := by
  induction names generalizing repo with
  | nil => exact accounted
  | cons name names ih =>
    exact ih (accounted.deleteWrites name true true).last

theorem Repository.Accounted.findSnapshot_deleteAll (accounted : repo.Accounted)
    (spared : name ∉ names) :
    (Repo.deleteAll repo names).findSnapshot name = repo.findSnapshot name := by
  induction names generalizing repo with
  | nil => rfl
  | cons first names ih =>
    obtain ⟨different, sparedLater⟩ := not_or.mp (mt List.mem_cons.mpr spared)
    rw [← accounted.findSnapshot_deleteWrites different]
    exact ih (accounted.deleteWrites first true true).last sparedLater

theorem Repository.Accounted.chunkIndex_deleteAll (accounted : repo.Accounted)
    (distinct : names.Nodup) :
    (Repo.deleteAll repo names).chunkIndex =
      repo.chunkIndex.decrementAll (targetReferences repo names) := by
  induction names generalizing repo with
  | nil => rfl
  | cons name names ih =>
    obtain ⟨notLater, distinctLater⟩ := List.nodup_cons.mp distinct
    have later := ih (accounted.deleteWrites name true true).last distinctLater
    have sameLater : targetReferences (applyAll apply repo (Repo.deleteWrites repo name true true))
        names = targetReferences repo names := by
      unfold targetReferences
      congr 1
      apply List.filterMap_congr
      intro other listed
      exact accounted.findSnapshot_deleteWrites (ne_of_mem_of_not_mem listed notLater)
    rw [sameLater] at later
    refine later.trans ?_
    cases found : repo.findSnapshot name with
    | none =>
      rw [targetReferences, targetReferences, List.filterMap_cons_none found, Repo.deleteWrites,
        found]
      rfl
    | some target =>
      rw [(applyAll_deleteWrites found).1, ← decrementAll_append, targetReferences,
        targetReferences, List.filterMap_cons_some found, List.flatMap_cons]

theorem pruneTargets_eq (stored : ∀ name ∈ names, (repo.findSnapshot name).isSome = true) :
    pruneTargets repo names = some (names.filterMap repo.findSnapshot) := by
  induction names with
  | nil => rfl
  | cons name names ih =>
    obtain ⟨target, found⟩ := Option.isSome_iff_exists.mp (stored name List.mem_cons_self)
    rw [pruneTargets, found, List.filterMap_cons_some found,
      ih fun other listed => stored other (List.mem_cons_of_mem _ listed)]
    rfl

theorem Repository.Accounted.findSnapshot_toPrune (accounted : repo.Accounted)
    {policy : Snapshot → Bool} (listed : name ∈ toPrune repo policy) :
    ∃ id snapshot, repo.findSnapshot name = some (id, snapshot) := by
  obtain ⟨entry, selected, named⟩ := List.mem_map.mp (List.mem_reverse.mp listed)
  have stored := Dict.get?_eq_some_iff.mpr (List.mem_of_mem_filter selected)
  exact ⟨entry.1, entry.2, accounted.findSnapshot_iff.mpr ⟨stored, named⟩⟩

theorem Repository.Accounted.chunkIndex_pruneWrites (accounted : repo.Accounted)
    (policy : Snapshot → Bool) :
    (applyAll apply repo (Repo.pruneWrites repo policy true true)).chunkIndex =
      repo.chunkIndex.decrementAll (targetReferences repo (toPrune repo policy)) := by
  have targets := @pruneTargets_eq repo (toPrune repo policy) fun name listed => by
    obtain ⟨id, snapshot, found⟩ := accounted.findSnapshot_toPrune listed
    rw [found]
    rfl
  have untouched (targets : List (SnapshotId × Snapshot)) (repo : Repository) :
      (applyAll apply repo (targets.map fun target => .deleteSnapshot target.1)).index =
        repo.index := by
    induction targets generalizing repo with
    | nil => rfl
    | cons target targets ih =>
      exact ih (repo.apply (.deleteSnapshot target.1))
  rw [Repo.pruneWrites, targets]
  simp only [if_true]
  unfold applyAll
  rw [List.foldl_append]
  apply chunkIndex_saveDecremented
  exact untouched _ repo

theorem Repository.Accounted.refcountPhase (accounted : repo.Accounted)
    (found : repo.findSnapshot name = some (id, snapshot)) :
    RefcountPhase repo.chunkIndex snapshot := by
  apply refcountPhase_of_covered
  intro chunk
  exact (count_le_occurrences (findSnapshot_eq_some found).1 chunk).trans (accounted.covered chunk)

end Order

/-- A prune leaves the same index as deleting its snapshots one by one in any order, and
neither meets a chunk that is missing from the index. -/
theorem prune_eq_deletes (repo : Repository) (accounted : repo.Accounted)
    (policy : Snapshot → Bool) (order : List String) (permuted : order.Perm (toPrune repo policy)) :
    (∀ chunk,
      (applyAll apply repo (pruneWrites repo policy true true)).chunkIndex.get? chunk =
        (deleteAll repo order).chunkIndex.get? chunk) ∧
      (∀ front name back, toPrune repo policy = front ++ name :: back →
        ∃ id snapshot, repo.findSnapshot name = some (id, snapshot) ∧
          RefcountPhase (repo.chunkIndex.decrementAll (targetReferences repo front)) snapshot) ∧
      ∀ front name back, order = front ++ name :: back →
        ∃ id snapshot, (deleteAll repo front).findSnapshot name = some (id, snapshot) ∧
          RefcountPhase (deleteAll repo front).chunkIndex snapshot := by
  have distinct := accounted.toPrune_nodup policy
  have phase {front back : List String} {name : String} (names : List String)
      (same : names.Perm (toPrune repo policy)) (split : names = front ++ name :: back) :
      front.Nodup ∧ ∃ id snapshot, repo.findSnapshot name = some (id, snapshot) ∧
        (deleteAll repo front).findSnapshot name = some (id, snapshot) ∧
        RefcountPhase (deleteAll repo front).chunkIndex snapshot := by
    have listed : name ∈ names := by rw [split]; simp
    have apart := same.nodup_iff.mpr distinct
    rw [split, List.nodup_append] at apart
    obtain ⟨id, snapshot, found⟩ := accounted.findSnapshot_toPrune (same.mem_iff.mp listed)
    have spared : name ∉ front := fun early => apart.2.2 name early name List.mem_cons_self rfl
    have foundLater := (accounted.findSnapshot_deleteAll spared).trans found
    exact ⟨apart.1, id, snapshot, found, foundLater,
      (accounted.deleteAll front).refcountPhase foundLater⟩
  refine ⟨fun chunk => ?_, fun front name back split => ?_, fun front name back split => ?_⟩
  · rw [accounted.chunkIndex_pruneWrites,
      accounted.chunkIndex_deleteAll (permuted.nodup_iff.mpr distinct)]
    apply get?_decrementAll_perm
    exact ((permuted.filterMap _).flatMap_right _).symm
  · obtain ⟨apart, id, snapshot, found, -, covered⟩ := phase _ (.refl _) split
    rw [accounted.chunkIndex_deleteAll apart] at covered
    exact ⟨id, snapshot, found, covered⟩
  · obtain ⟨-, id, snapshot, -, found, covered⟩ := phase _ permuted split
    exact ⟨id, snapshot, found, covered⟩

/-- One chunk that occurs twice in a snapshot and once in another. -/
def sharedChunkRepository : Repository :=
  applyAll apply .init [.putIndex (Dict.ofList [(7, ⟨3, 10, 0, 13⟩)]),
    .putSnapshot 1 ⟨"monday", [[7], [7]], []⟩, .putSnapshot 2 ⟨"tuesday", [[7]], []⟩]

theorem sharedChunkRepository_accounted : sharedChunkRepository.Accounted where
  names first second firstSnapshot secondSnapshot firstStored secondStored sameName := by
    have stored {id : SnapshotId} {snapshot : Snapshot}
        (found : sharedChunkRepository.snapshots.get? id = some snapshot) :
        id = if snapshot.name = "tuesday" then 2 else 1 := by
      simp only [sharedChunkRepository, applyAll, List.foldl_cons, List.foldl_nil, apply,
        Dict.get?_set] at found
      split at found
      · rename_i same
        rw [same, ← Option.some.inj found, if_pos rfl]
      · split at found
        · rename_i same
          rw [same, ← Option.some.inj found, if_neg (by decide)]
        · cases found
    rw [stored firstStored, stored secondStored, sameName]
  covered chunk := by
    by_cases same : chunk = 7#256
    · subst same
      decide +kernel
    · have absent : sharedChunkRepository.occurrences chunk = 0 := by
        have counted : sharedChunkRepository.occurrences chunk =
            [7#256].count chunk + [7#256, 7#256].count chunk := rfl
        rw [counted, List.count_eq_zero.mpr, List.count_eq_zero.mpr] <;> simp [same]
      rw [absent]
      exact Nat.zero_le _
  bounded chunk := by
    by_cases same : chunk = 7#256
    · subst same
      decide +kernel
    · have absent : sharedChunkRepository.chunkIndex.get? chunk = none := by
        simp [sharedChunkRepository, applyAll, apply, chunkIndex, Dict.ofList, Dict.get?_set, same]
      rw [ChunkIndex.refcount, absent]
      decide

theorem prune_eq_deletes_shared :
    toPrune sharedChunkRepository (fun _ => true) = ["monday", "tuesday"] ∧
      (applyAll apply sharedChunkRepository
          (pruneWrites sharedChunkRepository (fun _ => true) true true)).chunkIndex.get? 7 =
        (deleteAll sharedChunkRepository ["tuesday", "monday"]).chunkIndex.get? 7 := by
  refine ⟨by decide +kernel, ?_⟩
  exact (prune_eq_deletes sharedChunkRepository sharedChunkRepository_accounted (fun _ => true)
    ["tuesday", "monday"] (by decide +kernel)).1 7

end Vykar.Repo

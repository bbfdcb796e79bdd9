import Vykar.Index.ChunkIndex

/-!
The index delta of a write session and the two ways a commit applies it
(`index/mod.rs`, `index/dedup_cache.rs`).

The slow path reconciles the delta with the fresh index and applies it entry by
entry; the fast path merges the sorted full index cache with the delta.  Both
add to every chunk the references the delta holds for it.
-/

namespace Vykar.Index

inductive CommitError where
  | snapshotAlreadyExists (name : String)
  | staleChunksDuringCommit
  | packsMissing
  deriving DecidableEq

structure NewChunkEntry where
  chunkId : ChunkId
  storedSize : Nat
  packId : PackId
  packOffset : Nat
  refcount : Nat
  deriving DecidableEq

structure IndexDelta where
  newEntries : List NewChunkEntry
  refcountBumps : Dict ChunkId Nat

/-- `*bumps.entry(id).or_insert(0) += amount` -/
def bumpBy (bumps : Dict ChunkId Nat) (id : ChunkId) (amount : Nat) : Dict ChunkId Nat :=
  bumps.set id (addU32 ((bumps.get? id).getD 0) amount)

variable {index : ChunkIndex} {delta : IndexDelta} {bumps : Dict ChunkId Nat} {id : ChunkId}
  {entry : ChunkIndexEntry}

namespace IndexDelta

def empty : IndexDelta := ⟨[], ∅⟩

def isEmpty (delta : IndexDelta) : Bool :=
  delta.newEntries.isEmpty && delta.refcountBumps.toList.isEmpty

def bumpRefcount (delta : IndexDelta) (id : ChunkId) : IndexDelta :=
  { delta with refcountBumps := bumpBy delta.refcountBumps id 1 }

def addNewEntry (delta : IndexDelta) (entry : NewChunkEntry) : IndexDelta :=
  { delta with newEntries := delta.newEntries ++ [entry] }

/-- `rollback` to a checkpoint: the length of the new entries and a copy of the bumps. -/
def rollback (delta : IndexDelta) (newEntriesLen : Nat) (bumps : Dict ChunkId Nat) :
    IndexDelta :=
  ⟨delta.newEntries.take newEntriesLen, bumps⟩

def reconcile (delta : IndexDelta) (fresh : ChunkIndex) : Except CommitError IndexDelta :=
  let stillNew := delta.newEntries.filter fun entry => !fresh.contains entry.chunkId
  let known := delta.newEntries.filter fun entry => fresh.contains entry.chunkId
  let bumps := known.foldl (fun bumps entry => bumpBy bumps entry.chunkId entry.refcount)
    delta.refcountBumps
  if bumps.keysList.all fun id =>
      fresh.contains id || stillNew.any fun entry => entry.chunkId = id then
    .ok ⟨stillNew, bumps⟩
  else .error .staleChunksDuringCommit

/-- One new entry in `apply_to`. -/
def applyNew (index : ChunkIndex) (entry : NewChunkEntry) : ChunkIndex :=
  let index := index.add entry.chunkId entry.storedSize entry.packId entry.packOffset
  if 1 < entry.refcount then index.incrementRefcountBy entry.chunkId (entry.refcount - 1)
  else index

def applyTo (delta : IndexDelta) (index : ChunkIndex) : ChunkIndex :=
  delta.refcountBumps.toList.foldl (fun index (id, count) => index.incrementRefcountBy id count)
    (delta.newEntries.foldl applyNew index)

def newReferences (entries : List NewChunkEntry) (id : ChunkId) : Nat :=
  (entries.map fun entry => if entry.chunkId = id then entry.refcount else 0).sum

def references (delta : IndexDelta) (id : ChunkId) : Nat :=
  newReferences delta.newEntries id + (delta.refcountBumps.get? id).getD 0

theorem newReferences_cons (entry : NewChunkEntry) (entries : List NewChunkEntry)
    (id : ChunkId) :
    newReferences (entry :: entries) id =
      (if entry.chunkId = id then entry.refcount else 0) + newReferences entries id := rfl

theorem newReferences_append (first second : List NewChunkEntry) (id : ChunkId) :
    newReferences (first ++ second) id = newReferences first id + newReferences second id := by
  simp [newReferences]

theorem contains_applyNew (index : ChunkIndex) (entry : NewChunkEntry) (id : ChunkId) :
    (applyNew index entry).contains id =
      (decide (id = entry.chunkId) || index.contains id) := by
  unfold applyNew
  split
  · rw [ChunkIndex.contains_incrementRefcountBy, ChunkIndex.contains_add]
  · exact ChunkIndex.contains_add _ _ _ _ _ _

theorem refcount_applyNew {entry : NewChunkEntry} (positive : 1 ≤ entry.refcount)
    (fits : index.refcount entry.chunkId + entry.refcount < 2 ^ 32) (id : ChunkId) :
    (applyNew index entry).refcount id =
      index.refcount id + if entry.chunkId = id then entry.refcount else 0 := by
  have fitsOne : index.refcount entry.chunkId + 1 < 2 ^ 32 := by omega
  have added := ChunkIndex.refcount_add fitsOne entry.storedSize entry.packId entry.packOffset
  have present : (index.add entry.chunkId entry.storedSize entry.packId
      entry.packOffset).contains entry.chunkId = true := by
    simp [ChunkIndex.contains_add]
  unfold applyNew
  simp only
  split
  · have fitsRest : (index.add entry.chunkId entry.storedSize entry.packId
        entry.packOffset).refcount entry.chunkId + (entry.refcount - 1) < 2 ^ 32 := by
      rw [added, if_pos rfl]
      omega
    rw [ChunkIndex.refcount_incrementRefcountBy present fitsRest, added]
    by_cases same : entry.chunkId = id
    · simp only [same, if_true]
      omega
    · simp [same, Ne.symm same]
  · have single : entry.refcount = 1 := by omega
    rw [added, single]
    simp only [eq_comm]

theorem contains_foldl_applyNew (entries : List NewChunkEntry) (index : ChunkIndex)
    (id : ChunkId) :
    (entries.foldl applyNew index).contains id =
      (index.contains id || entries.any fun entry => entry.chunkId = id) := by
  induction entries generalizing index with
  | nil => simp
  | cons head tail ih =>
    rw [List.foldl_cons, ih, contains_applyNew, List.any_cons]
    by_cases same : head.chunkId = id
    · simp [same]
    · simp [same, Ne.symm same]

variable {entries : List NewChunkEntry}

theorem refcount_foldl_applyNew (positive : ∀ entry ∈ entries, 1 ≤ entry.refcount)
    (fits : ∀ id, index.refcount id + newReferences entries id < 2 ^ 32) (id : ChunkId) :
    (entries.foldl applyNew index).refcount id =
      index.refcount id + newReferences entries id := by
  induction entries generalizing index with
  | nil => rfl
  | cons head tail ih =>
    have fitsHead : index.refcount head.chunkId + head.refcount < 2 ^ 32 := by
      have bound := fits head.chunkId
      rw [newReferences_cons, if_pos rfl] at bound
      omega
    have applied := refcount_applyNew (positive head List.mem_cons_self) fitsHead
    rw [List.foldl_cons, ih, applied, newReferences_cons]
    · omega
    · exact fun entry later => positive entry (List.mem_cons_of_mem _ later)
    · intro other
      have bound := fits other
      rw [newReferences_cons] at bound
      rw [applied]
      omega

def bumpReferences (bumps : List (ChunkId × Nat)) (id : ChunkId) : Nat :=
  (bumps.map fun bump => if bump.1 = id then bump.2 else 0).sum

theorem refcount_foldl_bumps {bumps : List (ChunkId × Nat)}
    (present : ∀ bump ∈ bumps, index.contains bump.1 = true)
    (fits : ∀ id, index.refcount id + bumpReferences bumps id < 2 ^ 32) (id : ChunkId) :
    (bumps.foldl (fun index (id, count) => index.incrementRefcountBy id count) index).refcount
        id = index.refcount id + bumpReferences bumps id := by
  induction bumps generalizing index with
  | nil => rfl
  | cons head tail ih =>
    have unfolded (other : ChunkId) : bumpReferences (head :: tail) other =
        (if head.1 = other then head.2 else 0) + bumpReferences tail other := rfl
    have fitsHead : index.refcount head.1 + head.2 < 2 ^ 32 := by
      have bound := fits head.1
      rw [unfolded, if_pos rfl] at bound
      omega
    have applied := ChunkIndex.refcount_incrementRefcountBy
      (present head List.mem_cons_self) fitsHead
    rw [List.foldl_cons, ih, applied, unfolded]
    · simp only [eq_comm]
      omega
    · intro bump later
      rw [ChunkIndex.contains_incrementRefcountBy]
      exact present bump (List.mem_cons_of_mem _ later)
    · intro other
      have bound := fits other
      rw [unfolded] at bound
      rw [applied]
      simp only [eq_comm] at bound ⊢
      omega

theorem bumpReferences_toList (bumps : Dict ChunkId Nat) (id : ChunkId) :
    bumpReferences bumps.toList id = (bumps.get? id).getD 0 := by
  rw [← Dict.total_pick]
  simp only [bumpReferences, Dict.toList, Dict.total, List.map_map]
  rfl

def BumpsKnown (delta : IndexDelta) (index : ChunkIndex) : Prop :=
  ∀ id ∈ delta.refcountBumps.keysList,
    index.contains id = true ∨ ∃ entry ∈ delta.newEntries, entry.chunkId = id

theorem refcount_applyTo (known : delta.BumpsKnown index)
    (positive : ∀ entry ∈ delta.newEntries, 1 ≤ entry.refcount)
    (fits : ∀ id, index.refcount id + delta.references id < 2 ^ 32) (id : ChunkId) :
    (delta.applyTo index).refcount id = index.refcount id + delta.references id := by
  have fitsNew : ∀ id, index.refcount id + newReferences delta.newEntries id < 2 ^ 32 := by
    intro other
    have bound := fits other
    unfold references at bound
    omega
  have appliedNew := refcount_foldl_applyNew positive fitsNew
  unfold applyTo
  rw [refcount_foldl_bumps, appliedNew, bumpReferences_toList, references, Nat.add_assoc]
  · intro bump listed
    rw [contains_foldl_applyNew, Bool.or_eq_true, List.any_eq_true]
    have key : bump.1 ∈ delta.refcountBumps.keysList := by
      rw [← Dict.toList_keys]
      exact List.mem_map_of_mem listed
    rcases known bump.1 key with present | ⟨entry, isNew, same⟩
    · exact Or.inl present
    · exact Or.inr ⟨entry, isNew, decide_eq_true same⟩
  · intro other
    have bound := fits other
    rw [appliedNew, bumpReferences_toList]
    unfold references at bound
    omega

theorem newReferences_filter_add (entries : List NewChunkEntry) (keep : NewChunkEntry → Bool)
    (id : ChunkId) :
    newReferences (entries.filter fun entry => !keep entry) id +
      newReferences (entries.filter keep) id = newReferences entries id := by
  induction entries with
  | nil => rfl
  | cons head tail ih =>
    cases kept : keep head <;>
      simp only [List.filter_cons, kept, Bool.not_false, Bool.not_true, if_true,
        Bool.false_eq_true, if_false, newReferences_cons] <;> omega

theorem foldl_bumpBy_getD (fits : ∀ id, (bumps.get? id).getD 0 + newReferences entries id < 2 ^ 32)
    (id : ChunkId) :
    ((entries.foldl (fun bumps entry => bumpBy bumps entry.chunkId entry.refcount)
        bumps).get? id).getD 0 = (bumps.get? id).getD 0 + newReferences entries id := by
  induction entries generalizing bumps with
  | nil => rfl
  | cons head tail ih =>
    have bumped (other : ChunkId) :
        ((bumpBy bumps head.chunkId head.refcount).get? other).getD 0 =
          (bumps.get? other).getD 0 + if head.chunkId = other then head.refcount else 0 := by
      have bound := fits head.chunkId
      rw [newReferences_cons, if_pos rfl] at bound
      unfold bumpBy
      by_cases same : other = head.chunkId
      · simp [same, addU32_of_lt (show (bumps.get? head.chunkId).getD 0 + head.refcount < 2 ^ 32
          by omega)]
      · simp [Dict.get?_set, same, Ne.symm same]
    rw [List.foldl_cons, ih, bumped, newReferences_cons, Nat.add_assoc]
    intro other
    have bound := fits other
    rw [newReferences_cons] at bound
    rw [bumped]
    omega

theorem reconcile_ok {result : IndexDelta} {fresh : ChunkIndex}
    (fits : ∀ id, delta.references id < 2 ^ 32) (reconciled : delta.reconcile fresh = .ok result) :
    result.BumpsKnown fresh ∧ (∀ entry ∈ result.newEntries, entry ∈ delta.newEntries) ∧
      ∀ id, result.references id = delta.references id := by
  unfold reconcile at reconciled
  simp only at reconciled
  split at reconciled
  · rename_i checked
    cases reconciled
    refine ⟨?_, fun entry kept => (List.mem_filter.mp kept).1, fun id => ?_⟩
    · intro id bumped
      have known := List.all_eq_true.mp checked id bumped
      rw [Bool.or_eq_true, List.any_eq_true] at known
      rcases known with present | ⟨entry, isNew, same⟩
      · exact Or.inl present
      · exact Or.inr ⟨entry, isNew, of_decide_eq_true same⟩
    · have split := newReferences_filter_add delta.newEntries
        (fun entry => fresh.contains entry.chunkId)
      have fitsKnown : ∀ other, (delta.refcountBumps.get? other).getD 0 + newReferences
          (delta.newEntries.filter fun entry => fresh.contains entry.chunkId) other < 2 ^ 32 := by
        intro other
        have bound := fits other
        have parts := split other
        unfold references at bound
        omega
      have parts := split id
      simp only [references, foldl_bumpBy_getD fitsKnown id]
      omega
  · cases reconciled

theorem newReferences_of_not_mem (absent : id ∉ entries.map NewChunkEntry.chunkId) :
    newReferences entries id = 0 := by
  refine List.sum_eq_zero fun value membership => ?_
  obtain ⟨entry, listed, rfl⟩ := List.mem_map.mp membership
  refine if_neg ?_
  rintro rfl
  exact absent (List.mem_map_of_mem listed)

theorem newReferences_of_mem (distinct : (entries.map NewChunkEntry.chunkId).Nodup)
    {entry : NewChunkEntry} (listed : entry ∈ entries) :
    newReferences entries entry.chunkId = entry.refcount := by
  induction entries with
  | nil => cases listed
  | cons head tail ih =>
    rw [List.map_cons, List.nodup_cons] at distinct
    rw [newReferences_cons]
    rcases List.mem_cons.mp listed with rfl | later
    · rw [if_pos rfl, newReferences_of_not_mem distinct.1, Nat.add_zero]
    · rw [if_neg, ih distinct.2 later, Nat.zero_add]
      intro same
      rw [same] at distinct
      exact distinct.1 (List.mem_map_of_mem later)

end IndexDelta

def bumpEntry (bumps : Dict ChunkId Nat) (id : ChunkId) (entry : ChunkIndexEntry) :
    ChunkId × ChunkIndexEntry :=
  (id, { entry with refcount := match bumps.get? id with
    | some bump => addU32 entry.refcount bump
    | none => entry.refcount })

def bumpNewEntry (bumps : Dict ChunkId Nat) (entry : NewChunkEntry) :
    ChunkId × ChunkIndexEntry :=
  bumpEntry bumps entry.chunkId
    ⟨entry.refcount, entry.storedSize, entry.packId, entry.packOffset⟩

/-- The two-pointer merge of `merge_full_index_cache`. -/
def mergeEntries (bumps : Dict ChunkId Nat) :
    List (ChunkId × ChunkIndexEntry) → List NewChunkEntry → List (ChunkId × ChunkIndexEntry)
  | [], [] => []
  | [], entry :: entries => bumpNewEntry bumps entry :: mergeEntries bumps [] entries
  | (id, entry) :: cached, [] => bumpEntry bumps id entry :: mergeEntries bumps cached []
  | (id, entry) :: cached, new :: entries =>
    if id ≤ new.chunkId then bumpEntry bumps id entry :: mergeEntries bumps cached (new :: entries)
    else bumpNewEntry bumps new :: mergeEntries bumps ((id, entry) :: cached) entries
  termination_by cached entries => cached.length + entries.length

/-- `merge_full_index_cache` on a sorted cache, with the new entries sorted first. -/
def mergeFullIndexCache (cached : List (ChunkId × ChunkIndexEntry)) (delta : IndexDelta) :
    List (ChunkId × ChunkIndexEntry) :=
  mergeEntries delta.refcountBumps cached
    (delta.newEntries.insertionSort fun first second => first.chunkId ≤ second.chunkId)

/-- The full index cache that belongs to an index: its entries sorted by chunk id. -/
def fullIndexCache (index : ChunkIndex) : List (ChunkId × ChunkIndexEntry) :=
  index.toList.insertionSort fun first second => first.1 ≤ second.1

def mergedIndex (cached : List (ChunkId × ChunkIndexEntry)) (delta : IndexDelta) : ChunkIndex :=
  Dict.ofList (mergeFullIndexCache cached delta)

/-- The index that the fast path writes: the merged cache serialized as the index blob. -/
def fastPathIndex (index : ChunkIndex) (delta : IndexDelta) : ChunkIndex :=
  Dict.ofList (mergeFullIndexCache (fullIndexCache index) delta)

theorem mergeEntries_perm (bumps : Dict ChunkId Nat)
    (cached : List (ChunkId × ChunkIndexEntry)) (entries : List NewChunkEntry) :
    (mergeEntries bumps cached entries).Perm
      (cached.map (fun entry => bumpEntry bumps entry.1 entry.2) ++
        entries.map (bumpNewEntry bumps)) := by
  induction cached, entries using mergeEntries.induct with
  | case1 => simp [mergeEntries]
  | case2 entry entries ih =>
    rw [mergeEntries]
    exact ih.cons _
  | case3 id entry cached ih =>
    rw [mergeEntries]
    exact ih.cons _
  | case4 id entry cached new entries first ih =>
    rw [mergeEntries, if_pos first]
    exact ih.cons _
  | case5 id entry cached new entries later ih =>
    rw [mergeEntries, if_neg later]
    exact (ih.cons _).trans List.perm_middle.symm

def bumpedEntries (index : ChunkIndex) (delta : IndexDelta) : List (ChunkId × ChunkIndexEntry) :=
  index.toList.map (fun entry => bumpEntry delta.refcountBumps entry.1 entry.2) ++
    delta.newEntries.map (bumpNewEntry delta.refcountBumps)

theorem mergeFullIndexCache_perm {cached : List (ChunkId × ChunkIndexEntry)}
    (same : cached.Perm index.toList) (delta : IndexDelta) :
    (mergeFullIndexCache cached delta).Perm (bumpedEntries index delta) :=
  (mergeEntries_perm _ _ _).trans
    ((same.map _).append ((List.perm_insertionSort _ _).map _))

theorem fullIndexCache_perm (index : ChunkIndex) : (fullIndexCache index).Perm index.toList :=
  List.perm_insertionSort _ _

structure IndexDelta.Fresh (delta : IndexDelta) (index : ChunkIndex) : Prop where
  distinct : (delta.newEntries.map NewChunkEntry.chunkId).Nodup
  absent : ∀ entry ∈ delta.newEntries, index.contains entry.chunkId = false

theorem bumpEntry_refcount (fits : entry.refcount + (bumps.get? id).getD 0 < 2 ^ 32) :
    (bumpEntry bumps id entry).2.refcount = entry.refcount + (bumps.get? id).getD 0 := by
  unfold bumpEntry
  cases found : bumps.get? id with
  | none => rfl
  | some bump =>
    rw [found] at fits
    exact addU32_of_lt fits

theorem bumpedEntries_keys (index : ChunkIndex) (delta : IndexDelta) :
    (bumpedEntries index delta).map Prod.fst =
      index.keysList ++ delta.newEntries.map NewChunkEntry.chunkId := by
  rw [bumpedEntries, List.map_append, List.map_map, List.map_map]
  exact congrArg (· ++ _) index.toList_keys

theorem bumpedEntries_keys_nodup (fresh : delta.Fresh index) :
    ((bumpedEntries index delta).map Prod.fst).Nodup := by
  rw [bumpedEntries_keys]
  refine List.Nodup.append index.keysList_nodup fresh.distinct ?_
  intro id old isNew
  obtain ⟨entry, listed, rfl⟩ := List.mem_map.mp isNew
  have absent := fresh.absent entry listed
  have present := Dict.mem_keysList.mp old
  unfold ChunkIndex.contains at absent
  rw [present] at absent
  cases absent

theorem refcount_of_get? (found : index.get? id = some entry) :
    index.refcount id = entry.refcount := by
  simp [ChunkIndex.refcount, found]

section FastPath

variable {cached : List (ChunkId × ChunkIndexEntry)}

section

variable (same : cached.Perm index.toList)

include same

theorem mergeFullIndexCache_keys_nodup (fresh : delta.Fresh index) :
    ((mergeFullIndexCache cached delta).map Prod.fst).Nodup :=
  ((mergeFullIndexCache_perm same delta).map Prod.fst).nodup_iff.mpr
    (bumpedEntries_keys_nodup fresh)

theorem mergedIndex_get?_of_mem (fresh : delta.Fresh index)
    (listed : (id, entry) ∈ bumpedEntries index delta) :
    (mergedIndex cached delta).get? id = some entry :=
  Dict.get?_ofList_of_mem (mergeFullIndexCache_keys_nodup same fresh)
    ((mergeFullIndexCache_perm same delta).mem_iff.mpr listed)

theorem mergedIndex_get?_of_indexed (fresh : delta.Fresh index)
    (found : index.get? id = some entry) :
    (mergedIndex cached delta).get? id = some (bumpEntry delta.refcountBumps id entry).2 :=
  mergedIndex_get?_of_mem same fresh (List.mem_append_left _
    (List.mem_map.mpr ⟨(id, entry), Dict.get?_eq_some_iff.mp found, rfl⟩))

theorem mergedIndex_get?_of_new (fresh : delta.Fresh index) {entry : NewChunkEntry}
    (listed : entry ∈ delta.newEntries) :
    (mergedIndex cached delta).get? entry.chunkId =
      some (bumpNewEntry delta.refcountBumps entry).2 :=
  mergedIndex_get?_of_mem same fresh (List.mem_append_right _
    (List.mem_map.mpr ⟨entry, listed, rfl⟩))

theorem mergedIndex_get?_of_neither (absent : index.get? id = none)
    (notNew : id ∉ delta.newEntries.map NewChunkEntry.chunkId) :
    (mergedIndex cached delta).get? id = none := by
  refine Dict.get?_ofList_of_not_mem ?_
  rw [((mergeFullIndexCache_perm same delta).map Prod.fst).mem_iff, bumpedEntries_keys,
    List.mem_append, Dict.mem_keysList, absent]
  exact not_or.mpr ⟨Bool.false_ne_true, notNew⟩

end

/-- The fast path adds to every chunk the references of the delta, as the slow path does. -/
theorem refcount_fastPathIndex (fresh : delta.Fresh index) (known : delta.BumpsKnown index)
    (fits : ∀ id, index.refcount id + delta.references id < 2 ^ 32) (id : ChunkId) :
    (fastPathIndex index delta).refcount id = index.refcount id + delta.references id := by
  have bound := fits id
  unfold IndexDelta.references at *
  cases found : index.get? id with
  | some entry =>
    have notNew : id ∉ delta.newEntries.map NewChunkEntry.chunkId := by
      intro isNew
      obtain ⟨new, listed, rfl⟩ := List.mem_map.mp isNew
      have absent := fresh.absent new listed
      simp [ChunkIndex.contains, found] at absent
    rw [IndexDelta.newReferences_of_not_mem notNew, Nat.zero_add,
      refcount_of_get? found] at bound ⊢
    have merged := mergedIndex_get?_of_indexed (fullIndexCache_perm index) fresh found
    exact (refcount_of_get? merged).trans (bumpEntry_refcount bound)
  | none =>
    have uncounted : index.refcount id = 0 := by simp [ChunkIndex.refcount, found]
    rw [uncounted, Nat.zero_add] at bound ⊢
    by_cases isNew : id ∈ delta.newEntries.map NewChunkEntry.chunkId
    · obtain ⟨entry, listed, rfl⟩ := List.mem_map.mp isNew
      rw [IndexDelta.newReferences_of_mem fresh.distinct listed] at bound ⊢
      have merged := mergedIndex_get?_of_new (fullIndexCache_perm index) fresh listed
      exact (refcount_of_get? merged).trans (bumpEntry_refcount bound)
    · have notBumped : delta.refcountBumps.get? id = none := by
        cases bumped : delta.refcountBumps.get? id with
        | none => rfl
        | some bump =>
          have key := Dict.mem_keysList.mpr (by rw [bumped]; rfl)
          rcases known id key with present | ⟨entry, listed, rfl⟩
          · simp [ChunkIndex.contains, found] at present
          · exact absurd (List.mem_map_of_mem listed) isNew
      have merged := mergedIndex_get?_of_neither (fullIndexCache_perm index) found isNew
      rw [IndexDelta.newReferences_of_not_mem isNew, notBumped, ChunkIndex.refcount]
      exact congrArg (fun entry => (Option.map ChunkIndexEntry.refcount entry).getD 0) merged

end FastPath

end Vykar.Index

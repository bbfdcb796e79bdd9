import Vykar.Restore.Plan
import Vykar.Snapshot.Coalesced

/-!
What a plan writes.

The targets of the chunks, the read groups and the buckets of the threads all hold the writes of
the files: the data of each chunk at the place where the file has it.  The writes that a group
turns into put the same bytes at the same places.
-/

namespace Vykar.Restore

open Index Pack Snapshot PositionedWrite

def fileWrites (plain : ChunkRef → Bytes) (fileIdx : Nat) : Nat → List ChunkRef → List WriteCall
  | _, [] => []
  | offset, chunk :: chunks =>
    ⟨fileIdx, offset, plain chunk⟩ :: fileWrites plain fileIdx (offset + chunk.size) chunks

def allWrites (plain : ChunkRef → Bytes) : Nat → List (List ChunkRef) → List WriteCall
  | _, [] => []
  | fileIdx, chunks :: files => fileWrites plain fileIdx 0 chunks ++
      allWrites plain (fileIdx + 1) files

def targetWrites (plain : ChunkRef → Bytes) (chunkId : ChunkId) (expectedSize : Nat)
    (targets : List WriteTarget) : List WriteCall :=
  targets.map fun target => ⟨target.fileIdx, target.fileOffset, plain ⟨chunkId, expectedSize⟩⟩

def entryWrites (plain : ChunkRef → Bytes) (entry : ChunkId × ChunkTargets) : List WriteCall :=
  targetWrites plain entry.1 entry.2.expectedSize entry.2.targets

def blobPieces (plain : ChunkRef → Bytes) (blob : PlannedBlob) : List WriteCall :=
  targetWrites plain blob.chunkId blob.expectedSize blob.targets

def groupPieces (plain : ChunkRef → Bytes) (group : ReadGroup) : List WriteCall :=
  group.blobs.flatMap (blobPieces plain)

variable {chunk : ChunkRef} {blobs : List PlannedBlob}

section Targets

variable {plain : ChunkRef → Bytes} {fileIdx offset : Nat}
  {chunkTargets next : Dict ChunkId ChunkTargets} {chunks : List ChunkRef}
  {files : List (List ChunkRef)}

theorem fileWrites_effect (sized : ∀ chunk, (plain chunk).length = chunk.size)
    (fileIdx offset : Nat) (chunks : List ChunkRef) :
    SameEffect (fileWrites plain fileIdx offset chunks)
      [⟨fileIdx, offset, chunks.flatMap plain⟩] := by
  induction chunks generalizing offset with
  | nil => exact (sameEffect_empty fileIdx offset).symm
  | cons chunk chunks ih =>
    have merged := sameEffect_merge fileIdx offset (plain chunk) (chunks.flatMap plain)
    rw [sized chunk] at merged
    rw [List.flatMap_cons]
    exact ((SameEffect.refl [_]).append (ih _)).trans merged.symm

theorem allWrites_effect (sized : ∀ chunk, (plain chunk).length = chunk.size)
    (fileIdx : Nat) (files : List (List ChunkRef)) :
    SameEffect (allWrites plain fileIdx files)
      ((files.zipIdx fileIdx).map fun entry => ⟨entry.2, 0, entry.1.flatMap plain⟩) := by
  induction files generalizing fileIdx with
  | nil => exact .refl _
  | cons chunks files ih =>
    rw [List.zipIdx_cons, List.map_cons, ← List.singleton_append]
    exact (fileWrites_effect sized fileIdx 0 chunks).append (ih _)

theorem perm_set_target {entry : ChunkTargets}
    (known : (chunkTargets.get? chunk.id).getD ⟨chunk.size, []⟩ = entry)
    (sized : entry.expectedSize = chunk.size) (target : WriteTarget) :
    ((chunkTargets.set chunk.id { entry with targets := entry.targets ++ [target] }).toList.flatMap
      (entryWrites plain)).Perm
      (chunkTargets.toList.flatMap (entryWrites plain) ++
        [⟨target.fileIdx, target.fileOffset, plain chunk⟩]) := by
  have added : entryWrites plain (chunk.id, { entry with targets := entry.targets ++ [target] }) =
      entryWrites plain (chunk.id, entry) ++
        [⟨target.fileIdx, target.fileOffset, plain chunk⟩] := by
    simp only [entryWrites, targetWrites, List.map_append, List.map_cons, List.map_nil, sized]
  have before : (chunkTargets.toList.flatMap (entryWrites plain)).Perm
      (entryWrites plain (chunk.id, entry) ++
        (chunkTargets.remove chunk.id).toList.flatMap (entryWrites plain)) := by
    cases found : chunkTargets.get? chunk.id with
    | none =>
      rw [found] at known
      subst known
      rw [Dict.remove_of_absent found]
      exact List.Perm.refl _
    | some value =>
      rw [found] at known
      subst known
      exact ((Dict.toList_perm_remove found).flatMap_right _)
  rw [Dict.toList_set, List.flatMap_cons, added]
  refine List.Perm.trans ?_ (before.symm.append_right _)
  rw [List.append_assoc, List.append_assoc]
  exact List.perm_append_comm.append_left _

theorem addTargets_writes (added : addTargets fileIdx offset chunkTargets chunks = some next) :
    (next.toList.flatMap (entryWrites plain)).Perm
      (chunkTargets.toList.flatMap (entryWrites plain) ++
        fileWrites plain fileIdx offset chunks) := by
  induction chunks generalizing offset chunkTargets with
  | nil =>
    cases added
    rw [fileWrites, List.append_nil]
  | cons chunk chunks ih =>
    simp only [addTargets] at added
    split at added
    · rename_i sized
      have first := (@perm_set_target _ plain _ _ rfl sized ⟨fileIdx, offset⟩).append_right
        (fileWrites plain fileIdx (offset + chunk.size) chunks)
      rw [List.append_assoc, List.singleton_append] at first
      exact (ih added).trans first
    · cases added

theorem planTargets_writes (planned : planTargets fileIdx chunkTargets files = some next) :
    (next.toList.flatMap (entryWrites plain)).Perm
      (chunkTargets.toList.flatMap (entryWrites plain) ++ allWrites plain fileIdx files) := by
  induction files generalizing fileIdx chunkTargets with
  | nil =>
    cases planned
    rw [allWrites, List.append_nil]
  | cons chunks files ih =>
    obtain ⟨middle, added, later⟩ := Option.bind_eq_some_iff.mp planned
    refine (ih later).trans ?_
    rw [allWrites, ← List.append_assoc]
    exact (addTargets_writes added).append_right _

theorem addTargets_get? (added : addTargets fileIdx offset chunkTargets chunks = some next) :
    (∀ id entry, chunkTargets.get? id = some entry →
      ∃ later, next.get? id = some later ∧ later.expectedSize = entry.expectedSize) ∧
    (∀ chunk ∈ chunks, ∃ entry, next.get? chunk.id = some entry ∧
      entry.expectedSize = chunk.size) ∧
    ∀ id, (next.get? id).isSome = true →
      (chunkTargets.get? id).isSome = true ∨ ∃ chunk ∈ chunks, chunk.id = id := by
  induction chunks generalizing offset chunkTargets with
  | nil =>
    cases added
    exact ⟨fun id entry found => ⟨entry, found, rfl⟩, nofun, fun id found => Or.inl found⟩
  | cons chunk chunks ih =>
    simp only [addTargets] at added
    split at added
    · rename_i sized
      obtain ⟨kept, listed, only⟩ := ih added
      have here := kept chunk.id _ (Dict.get?_set_self ..)
      refine ⟨fun id entry found => ?_, fun other among => ?_, fun id found => ?_⟩
      · by_cases same : id = chunk.id
        · subst same
          rw [found] at sized here
          exact here
        · exact kept id entry (by rw [Dict.get?_set, if_neg same, found])
      · rcases List.mem_cons.mp among with rfl | later
        · obtain ⟨entry, found, same⟩ := here
          exact ⟨entry, found, same.trans sized⟩
        · exact listed other later
      · rcases only id found with before | ⟨other, among, same⟩
        · rw [Dict.get?_set] at before
          split at before
          · rename_i same
            exact Or.inr ⟨chunk, List.mem_cons_self, same.symm⟩
          · exact Or.inl before
        · exact Or.inr ⟨other, List.mem_cons_of_mem _ among, same⟩
    · cases added

theorem planTargets_get? (planned : planTargets fileIdx chunkTargets files = some next) :
    (∀ id entry, chunkTargets.get? id = some entry →
      ∃ later, next.get? id = some later ∧ later.expectedSize = entry.expectedSize) ∧
    (∀ chunks ∈ files, ∀ chunk ∈ chunks, ∃ entry, next.get? chunk.id = some entry ∧
      entry.expectedSize = chunk.size) ∧
    ∀ id, (next.get? id).isSome = true →
      (chunkTargets.get? id).isSome = true ∨ ∃ chunks ∈ files, ∃ chunk ∈ chunks, chunk.id = id := by
  induction files generalizing fileIdx chunkTargets with
  | nil =>
    cases planned
    exact ⟨fun id entry found => ⟨entry, found, rfl⟩, nofun, fun id found => Or.inl found⟩
  | cons head files ih =>
    obtain ⟨middle, added, later⟩ := Option.bind_eq_some_iff.mp planned
    obtain ⟨keptHere, here, onlyHere⟩ := addTargets_get? added
    obtain ⟨kept, listed, only⟩ := ih later
    refine ⟨fun id entry found => ?_, fun chunks among chunk inFile => ?_, fun id found => ?_⟩
    · obtain ⟨first, foundFirst, same⟩ := keptHere id entry found
      obtain ⟨last, foundLast, sameLast⟩ := kept id first foundFirst
      exact ⟨last, foundLast, sameLast.trans same⟩
    · rcases List.mem_cons.mp among with rfl | inRest
      · obtain ⟨entry, foundHere, same⟩ := here chunk inFile
        obtain ⟨last, foundLast, sameLast⟩ := kept chunk.id entry foundHere
        exact ⟨last, foundLast, sameLast.trans same⟩
      · exact listed chunks inRest chunk inFile
    · rcases only id found with before | ⟨chunks, among, inFile⟩
      · rcases onlyHere id before with earlier | inHead
        · exact Or.inl earlier
        · exact Or.inr ⟨head, List.mem_cons_self, inHead⟩
      · exact Or.inr ⟨chunks, List.mem_cons_of_mem _ among, inFile⟩

end Targets

section Groups

variable {index : ChunkIndex} {group : ReadGroup} {blob : PlannedBlob}
  {entries : List (ChunkId × ChunkTargets)} {located : List (PackId × PlannedBlob)}
  {place : PackId × PlannedBlob}

theorem extendGroup_blobs (current : ReadGroup) (blobs : List PlannedBlob) :
    (extendGroup current blobs).flatMap ReadGroup.blobs = current.blobs ++ blobs := by
  induction blobs generalizing current with
  | nil => simp [extendGroup]
  | cons blob blobs ih =>
    rw [extendGroup]
    split
    · rw [ih, List.append_assoc, List.singleton_append]
    · rw [List.flatMap_cons, ih, List.singleton_append]

theorem mem_extendGroup {current : ReadGroup}
    (sorted : (current.blobs ++ blobs).Pairwise fun first second =>
      first.packOffset ≤ second.packOffset)
    (starts : ∀ blob ∈ current.blobs, current.readStart ≤ blob.packOffset)
    (nonempty : current.blobs ≠ []) (listed : group ∈ extendGroup current blobs) :
    group.packId = current.packId ∧ ∀ blob ∈ group.blobs, group.readStart ≤ blob.packOffset := by
  induction blobs generalizing current with
  | nil =>
    obtain rfl := List.mem_singleton.mp listed
    exact ⟨rfl, starts⟩
  | cons blob blobs ih =>
    rw [extendGroup] at listed
    split at listed
    · refine @ih { current with
        readEnd := blob.packOffset + blob.storedSize, blobs := current.blobs ++ [blob] }
        ?_ (fun other among => ?_) (by simp) listed
      · rw [List.append_assoc, List.singleton_append]
        exact sorted
      · rcases List.mem_append.mp among with before | isBlob
        · exact starts other before
        · obtain rfl := List.mem_singleton.mp isBlob
          obtain ⟨first, among⟩ := List.exists_mem_of_ne_nil _ nonempty
          exact (starts first among).trans
            ((List.pairwise_append.mp sorted).2.2 first among other List.mem_cons_self)
    · rcases List.mem_cons.mp listed with rfl | later
      · exact ⟨rfl, starts⟩
      · refine @ih ⟨current.packId, blob.packOffset,
          blob.packOffset + blob.storedSize, [blob]⟩ (List.pairwise_append.mp sorted).2.1
          (fun other among => ?_) (by simp) later
        obtain rfl := List.mem_singleton.mp among
        exact le_rfl

theorem packGroups_blobs (packId : PackId) (blobs : List PlannedBlob) :
    ((packGroups packId blobs).flatMap ReadGroup.blobs).Perm blobs := by
  have sorted := List.perm_insertionSort
    (fun first second : PlannedBlob => first.packOffset ≤ second.packOffset) blobs
  unfold packGroups
  split
  · rename_i nothing
    rw [nothing] at sorted
    exact sorted
  · rename_i first rest split
    rw [extendGroup_blobs]
    rw [split] at sorted
    exact sorted

theorem mem_packGroups {packId : PackId} (listed : group ∈ packGroups packId blobs) :
    group.packId = packId ∧ ∀ blob ∈ group.blobs, group.readStart ≤ blob.packOffset := by
  have sorted := List.pairwise_insertionSort
    (fun first second : PlannedBlob => first.packOffset ≤ second.packOffset) blobs
  unfold packGroups at listed
  split at listed
  · cases listed
  · rename_i first rest split
    rw [split] at sorted
    exact mem_extendGroup sorted (fun blob among => (List.mem_singleton.mp among).symm ▸ le_rfl)
      (by simp) listed

theorem perm_flatMap_filter {Element Key : Type} [DecidableEq Key] (keyOf : Element → Key)
    (elements : List Element) {keys : List Key} (distinct : keys.Nodup) :
    (keys.flatMap fun key => elements.filter fun element => keyOf element = key).Perm
      (elements.filter fun element => keyOf element ∈ keys) := by
  induction keys with
  | nil => simp
  | cons key keys ih =>
    rw [List.nodup_cons] at distinct
    rw [List.flatMap_cons]
    refine ((ih distinct.2).append_left _).trans ?_
    have parts := List.filter_append_perm (fun element => decide (keyOf element = key))
      (elements.filter fun element => keyOf element ∈ key :: keys)
    rw [List.filter_filter, List.filter_filter] at parts
    refine List.Perm.trans (List.Perm.of_eq ?_) parts
    congr 1
    · apply List.filter_congr
      intro element _
      by_cases same : keyOf element = key <;> simp [same]
    · apply List.filter_congr
      intro element _
      by_cases same : keyOf element = key
      · simp [same, distinct.1]
      · simp [same]

theorem buildReadGroups_spec {groups : List ReadGroup}
    (built : buildReadGroups index entries = some groups) :
    ∃ located, entries.mapM (locate index) = some located ∧
      (groups.flatMap ReadGroup.blobs).Perm (located.map Prod.snd) ∧
      ∀ group ∈ groups, ∀ blob ∈ group.blobs,
        (group.packId, blob) ∈ located ∧ group.readStart ≤ blob.packOffset := by
  obtain ⟨located, found, grouped⟩ := Option.bind_eq_some_iff.mp built
  cases grouped
  refine ⟨located, found, ?_, fun group listed blob among => ?_⟩
  · rw [List.flatMap_assoc]
    have each : ∀ packId ∈ (located.map Prod.fst).dedup,
        ((packGroups packId ((located.filter fun entry => entry.1 = packId).map
          Prod.snd)).flatMap ReadGroup.blobs).Perm
          ((located.filter fun entry => entry.1 = packId).map Prod.snd) :=
      fun packId _ => packGroups_blobs packId _
    refine (List.Perm.flatMap_left _ each).trans ?_
    rw [← List.map_flatMap]
    refine List.Perm.map _ ((perm_flatMap_filter Prod.fst located (List.nodup_dedup _)).trans ?_)
    apply List.Perm.of_eq
    rw [List.filter_eq_self]
    intro entry listed
    simpa using ⟨entry.2, listed⟩
  · obtain ⟨packId, -, inPack⟩ := List.mem_flatMap.mp listed
    obtain ⟨samePack, starts⟩ := mem_packGroups inPack
    have inFilter := (packGroups_blobs packId _).mem_iff.mp
      (List.mem_flatMap.mpr ⟨group, inPack, among⟩)
    obtain ⟨entry, filtered, rfl⟩ := List.mem_map.mp inFilter
    obtain ⟨listedEntry, same⟩ := List.mem_filter.mp filtered
    rw [samePack, ← of_decide_eq_true same]
    exact ⟨listedEntry, starts _ among⟩

theorem mem_located (found : entries.mapM (locate index) = some located)
    (listed : place ∈ located) :
    ∃ entry ∈ entries, locate index entry = some place := by
  induction entries generalizing located with
  | nil =>
    cases found
    cases listed
  | cons entry entries ih =>
    rw [List.mapM_cons] at found
    obtain ⟨first, foundFirst, rest⟩ := Option.bind_eq_some_iff.mp found
    obtain ⟨later, foundLater, same⟩ := Option.bind_eq_some_iff.mp rest
    cases same
    rcases List.mem_cons.mp listed with rfl | inLater
    · exact ⟨entry, List.mem_cons_self, foundFirst⟩
    · obtain ⟨other, among, same⟩ := ih foundLater inLater
      exact ⟨other, List.mem_cons_of_mem _ among, same⟩

theorem locate_eq_some {entry : ChunkId × ChunkTargets}
    (located : locate index entry = some place) :
    ∃ found, index.get? entry.1 = some found ∧ place = (found.packId, ⟨entry.1, found.packOffset,
      found.storedSize, entry.2.expectedSize, entry.2.targets⟩) := by
  obtain ⟨found, known, rfl⟩ := Option.map_eq_some_iff.mp located
  exact ⟨found, known, rfl⟩

theorem located_map {Result : Type} {ofEntry : ChunkId × ChunkTargets → Result}
    {ofBlob : PlannedBlob → Result}
    (same : ∀ entry place, locate index entry = some place → ofBlob place.2 = ofEntry entry)
    (found : entries.mapM (locate index) = some located) :
    (located.map Prod.snd).map ofBlob = entries.map ofEntry := by
  induction entries generalizing located with
  | nil =>
    cases found
    rfl
  | cons entry entries ih =>
    rw [List.mapM_cons] at found
    obtain ⟨first, foundFirst, rest⟩ := Option.bind_eq_some_iff.mp found
    obtain ⟨later, foundLater, sameList⟩ := Option.bind_eq_some_iff.mp rest
    cases sameList
    rw [List.map_cons, List.map_cons, List.map_cons, ih foundLater,
      same entry first foundFirst]

end Groups

section Buckets

theorem lightestBucket_lt {bucketBytes : List Nat} (nonempty : bucketBytes ≠ []) :
    lightestBucket bucketBytes < bucketBytes.length := by
  obtain ⟨first, among⟩ := List.exists_mem_of_ne_nil _ nonempty
  obtain ⟨least, isLeast, least_le⟩ := Finset.exists_min_image bucketBytes.toFinset id
    ⟨first, List.mem_toFinset.mpr among⟩
  refine List.findIdx_lt_length_of_exists ⟨least, List.mem_toFinset.mp isLeast, ?_⟩
  rw [List.all_eq_true]
  exact fun other listed => decide_eq_true (least_le other (List.mem_toFinset.mpr listed))

theorem flatten_modify_append {buckets : List (List ReadGroup)} {dest : Nat}
    (inside : dest < buckets.length) (group : ReadGroup) :
    (buckets.modify dest fun bucket => bucket ++ [group]).flatten.Perm
      (buckets.flatten ++ [group]) := by
  induction buckets generalizing dest with
  | nil => cases inside
  | cons head buckets ih =>
    cases dest with
    | zero =>
      rw [List.modify_zero_cons, List.flatten_cons, List.flatten_cons, List.append_assoc,
        List.append_assoc]
      exact List.perm_append_comm.append_left _
    | succ dest =>
      rw [List.modify_succ_cons, List.flatten_cons, List.flatten_cons, List.append_assoc]
      exact (ih (Nat.lt_of_succ_lt_succ inside)).append_left _

structure Buckets.Sized (numThreads : Nat) (state : Buckets) : Prop where
  buckets : state.buckets.length = numThreads
  bytes : state.bucketBytes.length = numThreads
  affinity : ∀ packId dest, state.packAffinity.get? packId = some dest → dest < numThreads

variable {numThreads : Nat} {state : Buckets}

theorem Buckets.Sized.dest_lt (sized : state.Sized numThreads) (some : 0 < numThreads) (cap : Nat)
    (group : ReadGroup) : state.dest cap group < numThreads := by
  have lightest : lightestBucket state.bucketBytes < numThreads := by
    rw [← sized.bytes]
    apply lightestBucket_lt
    rintro empty
    rw [← sized.bytes, empty] at some
    cases some
  unfold Buckets.dest
  split
  · rename_i dest found
    split
    · exact sized.affinity _ _ found
    · exact lightest
  · exact lightest

theorem Buckets.Sized.assign (sized : state.Sized numThreads) (some : 0 < numThreads) (cap : Nat)
    (group : ReadGroup) : (state.assign cap group).Sized numThreads := by
  refine ⟨?_, ?_, fun packId dest found => ?_⟩
  · rw [Buckets.assign, List.length_modify, sized.buckets]
  · rw [Buckets.assign, List.length_modify, sized.bytes]
  · simp only [Buckets.assign] at found
    rw [Dict.get?_set] at found
    split at found
    · cases found
      exact sized.dest_lt some cap group
    · exact sized.affinity packId dest found

theorem foldl_assign_perm (sized : state.Sized numThreads) (some : 0 < numThreads) (cap : Nat)
    (groups : List ReadGroup) :
    (groups.foldl (Buckets.assign cap) state).buckets.flatten.Perm
      (state.buckets.flatten ++ groups) := by
  induction groups generalizing state with
  | nil => rw [List.foldl_nil, List.append_nil]
  | cons group groups ih =>
    have inside : state.dest cap group < state.buckets.length := by
      rw [sized.buckets]
      exact sized.dest_lt some cap group
    have first := (flatten_modify_append inside group).append_right groups
    rw [List.append_assoc, List.singleton_append] at first
    exact (ih (sized.assign some cap group)).trans first

theorem partitionGroups_perm (groups : List ReadGroup) (some : 0 < numThreads) :
    (partitionGroups groups numThreads).flatten.Perm groups := by
  unfold partitionGroups
  rw [List.flatten_filter_ne_nil]
  refine (foldl_assign_perm ⟨List.length_replicate, List.length_replicate, fun packId dest found =>
    by simp at found⟩ some _ groups).trans (List.Perm.of_eq ?_)
  simp

end Buckets

section Writes

variable {plain : ChunkRef → Bytes} {pending : PendingWrite} {data : Bytes}

def PendingWrite.asWrite (pending : PendingWrite) : List WriteCall :=
  match pending.target with
  | some (fileIdx, start) => [⟨fileIdx, start, pending.buf⟩]
  | none => []

theorem PendingWrite.flush_asWrite (pending : PendingWrite) :
    SameEffect pending.flush pending.asWrite := by
  obtain ⟨target, buf⟩ := pending
  cases target with
  | none => exact .refl _
  | some place =>
    obtain ⟨fileIdx, start⟩ := place
    by_cases empty : buf = []
    · subst empty
      exact (sameEffect_empty fileIdx start).symm
    · simp only [flush, if_neg empty]
      exact .refl _

/-- One target: what is written now and what is still in the accumulator is what was there and
the data at its place. -/
theorem PendingWrite.writeTarget_effect (pending : PendingWrite) (data : Bytes)
    (target : WriteTarget) :
    SameEffect ((pending.writeTarget data target).2 ++ (pending.writeTarget data target).1.flush)
      (pending.flush ++ [⟨target.fileIdx, target.fileOffset, data⟩]) := by
  have appended (contiguous : pending.contiguous target = true) :
      SameEffect ({ pending with buf := pending.buf ++ data } : PendingWrite).flush
        (pending.flush ++ [⟨target.fileIdx, target.fileOffset, data⟩]) := by
    obtain ⟨place, buf⟩ := pending
    cases place with
    | none => cases contiguous
    | some place =>
      obtain ⟨fileIdx, start⟩ := place
      obtain ⟨rfl, follows⟩ : fileIdx = target.fileIdx ∧
        target.fileOffset = start + buf.length := of_decide_eq_true contiguous
      rw [follows]
      refine (PendingWrite.flush_asWrite _).trans ?_
      refine SameEffect.trans ?_ ((PendingWrite.flush_asWrite _).symm.append (.refl _))
      exact sameEffect_merge target.fileIdx start buf data
  unfold PendingWrite.writeTarget
  split
  · rename_i isAppended
    simp only
    split
    · exact (SameEffect.of_perm (List.Perm.of_eq (List.append_nil _))).trans
        (appended isAppended.1)
    · exact appended isAppended.1
  · split
    · exact SameEffect.of_perm (List.Perm.of_eq (List.append_nil _))
    · exact (SameEffect.refl _).append (PendingWrite.flush_asWrite _)

theorem PendingWrite.writeTargets_effect (data : Bytes) (pending : PendingWrite)
    (targets : List WriteTarget) :
    SameEffect ((pending.writeTargets data targets).2 ++
        (pending.writeTargets data targets).1.flush)
      (pending.flush ++ targets.map fun target =>
        ⟨target.fileIdx, target.fileOffset, data⟩) := by
  induction targets generalizing pending with
  | nil => exact SameEffect.of_perm (List.Perm.of_eq (List.append_nil _).symm)
  | cons target targets ih =>
    have later := ih (pending.writeTarget data target).1
    have now := (pending.writeTarget_effect data target).append
      (.refl (targets.map fun target => ⟨target.fileIdx, target.fileOffset, data⟩))
    rw [List.append_assoc, List.append_assoc] at now
    simp only [writeTargets, List.append_assoc]
    exact ((SameEffect.refl _).append later).trans now

variable {external : External} {packs : Dict PackId Bytes} {index : ChunkIndex}
  {calls : List WriteCall}

def plainData (external : External) (packs : Dict PackId Bytes) (index : ChunkIndex)
    (chunk : ChunkRef) : Bytes :=
  (plaintext external packs index chunk).getD (List.replicate chunk.size 0)

theorem plaintext_length (known : plaintext external packs index chunk = some data) :
    data.length = chunk.size := by
  obtain ⟨entry, -, known⟩ := Option.bind_eq_some_iff.mp known
  obtain ⟨file, -, known⟩ := Option.bind_eq_some_iff.mp known
  obtain ⟨raw, -, known⟩ := Option.bind_eq_some_iff.mp known
  unfold decodeChunk at known
  split at known
  · split at known
    · rename_i sized
      cases known
      exact sized
    · cases known
  · cases known

theorem plainData_length (chunk : ChunkRef) :
    (plainData external packs index chunk).length = chunk.size := by
  unfold plainData
  cases known : plaintext external packs index chunk with
  | none => exact List.length_replicate
  | some data => exact plaintext_length known

theorem blobWrites_effect {readStart : Nat}
    (decoded : ∀ blob ∈ blobs, blob.packOffset - readStart + blob.storedSize ≤ data.length →
      decodeChunk external blob.chunkId blob.expectedSize
        ((data.drop (blob.packOffset - readStart)).take blob.storedSize) =
      plaintext external packs index ⟨blob.chunkId, blob.expectedSize⟩)
    (written : blobWrites external readStart data pending blobs = some calls) :
    (∀ blob ∈ blobs,
      (plaintext external packs index ⟨blob.chunkId, blob.expectedSize⟩).isSome = true) ∧
    SameEffect calls
      (pending.flush ++ blobs.flatMap (blobPieces (plainData external packs index))) := by
  induction blobs generalizing pending calls with
  | nil =>
    cases written
    exact ⟨nofun, SameEffect.of_perm (List.Perm.of_eq (List.append_nil _).symm)⟩
  | cons blob blobs ih =>
    simp only [blobWrites] at written
    split at written
    · cases written
    · rename_i inside
      obtain ⟨plain, found, written⟩ := Option.bind_eq_some_iff.mp written
      obtain ⟨later, laterWritten, same⟩ := Option.bind_eq_some_iff.mp written
      cases same
      obtain ⟨plainOf, decoded⟩ := List.forall_mem_cons.mp decoded
      rw [plainOf (Nat.le_of_not_lt inside)] at found
      obtain ⟨readable, effect⟩ := ih decoded laterWritten
      have pieces : blobPieces (plainData external packs index) blob =
          blob.targets.map fun target => ⟨target.fileIdx, target.fileOffset, plain⟩ := by
        simp only [blobPieces, targetWrites, plainData, found, Option.getD_some]
      have now := (pending.writeTargets_effect plain blob.targets).append
        (.refl (blobs.flatMap (blobPieces (plainData external packs index))))
      rw [List.append_assoc, List.append_assoc] at now
      refine ⟨fun other among => ?_, ?_⟩
      · rcases List.mem_cons.mp among with rfl | inRest
        · exact Option.isSome_iff_exists.mpr ⟨plain, found⟩
        · exact readable other inRest
      · rw [List.flatMap_cons, pieces]
        exact ((SameEffect.refl _).append effect).trans now

theorem groupWrites_effect {group : ReadGroup}
    (places : ∀ blob ∈ group.blobs, group.readStart ≤ blob.packOffset ∧
      ∃ entry, index.get? blob.chunkId = some entry ∧ entry.packId = group.packId ∧
        entry.packOffset = blob.packOffset ∧ entry.storedSize = blob.storedSize)
    (written : groupWrites external packs group = some calls) :
    (∀ blob ∈ group.blobs,
      (plaintext external packs index ⟨blob.chunkId, blob.expectedSize⟩).isSome = true) ∧
    SameEffect calls (groupPieces (plainData external packs index) group) := by
  obtain ⟨file, stored, written⟩ := Option.bind_eq_some_iff.mp written
  obtain ⟨data, read, written⟩ := Option.bind_eq_some_iff.mp written
  refine blobWrites_effect (fun blob among inside => ?_) written
  obtain ⟨after, entry, found, samePack, sameOffset, sameSize⟩ := places blob among
  have raw := readRange_inside read after inside
  simp only [plaintext, found, samePack, stored, sameOffset, sameSize, raw, Option.bind_eq_bind,
    Option.bind_some]

end Writes

end Vykar.Restore

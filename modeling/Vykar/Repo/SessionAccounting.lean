import Vykar.Repo.WriteSession

/-!
A write session holds every reference it hands out.

`held` counts the references of a chunk in the delta and in the unsealed packs.
Each operation of a session keeps `Sound`, which says where a chunk can be known
from, and `storeChunk` adds exactly one held reference.
-/

namespace Vykar.Repo

open Index

namespace WriteSession

def held (session : WriteSession) (id : ChunkId) : Nat :=
  session.delta.references id + session.dataWriter.references id +
    session.treeWriter.references id

/-- A chunk is known from the loaded index or from the delta, and a chunk that is pending in
a pack or recovered is not known. -/
structure Consistent (base : ChunkIndex) (session : WriteSession) : Prop where
  known : ∀ id, id ∈ session.known ↔
    base.contains id = true ∨ id ∈ session.delta.newEntries.map NewChunkEntry.chunkId
  fresh : session.delta.Fresh base
  bumped : ∀ id ∈ session.delta.refcountBumps.keysList, id ∈ session.known
  dataTracked : session.dataWriter.Tracked
  treeTracked : session.treeWriter.Tracked
  dataNew : ∀ id, session.dataWriter.has id = true →
    id ∉ session.known ∧ session.treeWriter.has id = false
  treeNew : ∀ id, session.treeWriter.has id = true → id ∉ session.known
  recoveredNew : ∀ id, (session.recovered id).isSome = true →
    id ∉ session.known ∧ session.dataWriter.has id = false ∧ session.treeWriter.has id = false

/-- Every chunk that is new in the delta or pending in a pack is counted at least once. -/
structure Positive (session : WriteSession) : Prop where
  entries : ∀ entry ∈ session.delta.newEntries, 1 ≤ entry.refcount
  data : ∀ id, session.dataWriter.has id = true → 1 ≤ session.dataWriter.references id
  tree : ∀ id, session.treeWriter.has id = true → 1 ≤ session.treeWriter.references id

structure Sound (base : ChunkIndex) (session : WriteSession) : Prop
    extends Consistent base session where
  counted : session.Positive

variable {base : ChunkIndex} {session : WriteSession} {id : ChunkId}

theorem start_consistent (base : ChunkIndex) (journal : ChunkId → Option RecoveredChunkEntry) :
    Consistent base (start base journal) where
  known id := by
    simp only [start, List.mem_toFinset, IndexDelta.empty, List.map_nil, List.not_mem_nil,
      or_false]
    exact Dict.mem_keysList
  fresh := ⟨List.nodup_nil, by simp [start, IndexDelta.empty]⟩
  bumped id listed := by cases listed
  dataTracked := PackWriter.empty_tracked
  treeTracked := PackWriter.empty_tracked
  dataNew id used := by cases used
  treeNew id used := by cases used
  recoveredNew id recovered := by
    refine ⟨?_, rfl, rfl⟩
    simp only [start, List.mem_toFinset] at recovered ⊢
    split at recovered
    · cases recovered
    · rename_i absent
      exact fun listed => absent (Dict.mem_keysList.mp listed)

theorem held_start (base : ChunkIndex) (journal : ChunkId → Option RecoveredChunkEntry)
    (id : ChunkId) : (start base journal).held id = 0 := rfl

theorem Consistent.bumpRefcount (consistent : Consistent base session)
    (isKnown : id ∈ session.known) :
    Consistent base { session with delta := session.delta.bumpRefcount id } :=
  { consistent with
    fresh := ⟨consistent.fresh.distinct, consistent.fresh.absent⟩
    bumped other listed := by
      rw [Dict.mem_keysList] at listed
      simp only [IndexDelta.bumpRefcount, bumpBy, Dict.get?_set] at listed
      split at listed
      · rename_i same
        exact same ▸ isKnown
      · exact consistent.bumped other (Dict.mem_keysList.mpr listed) }

theorem references_bumpRefcount {delta : IndexDelta} (fits : delta.references id + 1 < 2 ^ 32)
    (other : ChunkId) :
    (delta.bumpRefcount id).references other =
      delta.references other + if other = id then 1 else 0 := by
  unfold IndexDelta.references at *
  simp only [IndexDelta.bumpRefcount, bumpBy, Dict.get?_set]
  by_cases same : other = id
  · subst same
    have fitsBump : (delta.refcountBumps.get? other).getD 0 + 1 < 2 ^ 32 := by omega
    simp only [if_true, Option.getD_some, addU32_of_lt fitsBump]
    omega
  · simp [same]

theorem Consistent.applySealedEntries (consistent : Consistent base session)
    {entries : List NewChunkEntry}
    (distinct : (entries.map NewChunkEntry.chunkId).Nodup)
    (unknown : ∀ id ∈ entries.map NewChunkEntry.chunkId, id ∉ session.known ∧
      session.dataWriter.has id = false ∧ session.treeWriter.has id = false ∧
      session.recovered id = none) :
    Consistent base (session.applySealedEntries entries) where
  known id := by
    simp only [WriteSession.applySealedEntries, Finset.mem_union, List.mem_toFinset,
      List.map_append, List.mem_append, consistent.known, or_assoc]
  fresh := by
    have outside : ∀ id ∈ entries.map NewChunkEntry.chunkId, ¬ (base.contains id = true ∨
        id ∈ session.delta.newEntries.map NewChunkEntry.chunkId) := by
      intro id listed
      rw [← consistent.known]
      exact (unknown id listed).1
    refine ⟨?_, ?_⟩
    · simp only [WriteSession.applySealedEntries, List.map_append]
      refine consistent.fresh.distinct.append distinct ?_
      intro id old isNew
      exact outside id isNew (Or.inr old)
    · intro entry listed
      rcases List.mem_append.mp listed with old | isNew
      · exact consistent.fresh.absent entry old
      · have absent := outside entry.chunkId (List.mem_map_of_mem isNew)
        rw [not_or, Bool.not_eq_true] at absent
        exact absent.1
  bumped id listed := Finset.mem_union_left _ (consistent.bumped id listed)
  dataTracked := consistent.dataTracked
  treeTracked := consistent.treeTracked
  dataNew id used := by
    refine ⟨?_, (consistent.dataNew id used).2⟩
    simp only [WriteSession.applySealedEntries, Finset.mem_union, List.mem_toFinset, not_or]
    refine ⟨(consistent.dataNew id used).1, fun listed => ?_⟩
    exact Bool.eq_false_iff.mp (unknown id listed).2.1 used
  treeNew id used := by
    simp only [WriteSession.applySealedEntries, Finset.mem_union, List.mem_toFinset, not_or]
    refine ⟨consistent.treeNew id used, fun listed => ?_⟩
    exact Bool.eq_false_iff.mp (unknown id listed).2.2.1 used
  recoveredNew id recovered := by
    refine ⟨?_, (consistent.recoveredNew id recovered).2⟩
    simp only [WriteSession.applySealedEntries, Finset.mem_union, List.mem_toFinset, not_or]
    refine ⟨(consistent.recoveredNew id recovered).1, fun listed => ?_⟩
    have none := (unknown id listed).2.2.2
    have some : (session.recovered id).isSome = true := recovered
    rw [none] at some
    cases some

theorem references_append (delta : IndexDelta) (entries : List NewChunkEntry) (id : ChunkId) :
    IndexDelta.references { delta with newEntries := delta.newEntries ++ entries } id =
      delta.references id + IndexDelta.newReferences entries id := by
  simp only [IndexDelta.references, IndexDelta.newReferences_append]
  omega

theorem Consistent.withTracker (consistent : Consistent base session)
    (tracker : Option DumpRollbackTracker) : Consistent base { session with tracker := tracker } :=
  ⟨consistent.known, consistent.fresh, consistent.bumped, consistent.dataTracked,
    consistent.treeTracked, consistent.dataNew, consistent.treeNew, consistent.recoveredNew⟩

theorem Sound.withTracker (sound : Sound base session) (tracker : Option DumpRollbackTracker) :
    Sound base { session with tracker := tracker } :=
  ⟨sound.toConsistent.withTracker tracker,
    ⟨sound.counted.entries, sound.counted.data, sound.counted.tree⟩⟩

theorem Consistent.writerTracked (consistent : Consistent base session) :
    (packType : PackType) → (session.writer packType).Tracked
  | .data => consistent.dataTracked
  | .tree => consistent.treeTracked

theorem Sound.writerSound (sound : Sound base session) :
    (packType : PackType) → (session.writer packType).Sound
  | .data => ⟨sound.dataTracked, sound.counted.data⟩
  | .tree => ⟨sound.treeTracked, sound.counted.tree⟩

theorem Consistent.setWriter (consistent : Consistent base session) (packType : PackType)
    {writer : PackWriter} (tracked : writer.Tracked)
    (has : ∀ id, writer.has id = true → (session.writer packType).has id = true ∨
      id ∉ session.known ∧ session.recovered id = none ∧ session.dataWriter.has id = false ∧
        session.treeWriter.has id = false) :
    Consistent base (session.setWriter packType writer) := by
  have unused {id : ChunkId} (found : (session.recovered id).isSome = true)
      (before : (session.writer packType).has id = false) : writer.has id = false := by
    refine Bool.eq_false_iff.mpr fun used => ?_
    rcases has id used with old | ⟨-, absent, -⟩
    · exact Bool.eq_false_iff.mp before old
    · rw [absent] at found
      cases found
  cases packType with
  | data =>
    exact { consistent with
      dataTracked := tracked
      dataNew := by
        intro id used
        rcases has id used with old | ⟨unknown, -, -, notTree⟩
        · exact consistent.dataNew id old
        · exact ⟨unknown, notTree⟩
      recoveredNew := by
        intro id found
        obtain ⟨unknown, notData, notTree⟩ := consistent.recoveredNew id found
        exact ⟨unknown, unused found notData, notTree⟩ }
  | tree =>
    exact { consistent with
      treeTracked := tracked
      dataNew := by
        intro id used
        obtain ⟨unknown, notTree⟩ := consistent.dataNew id used
        refine ⟨unknown, Bool.eq_false_iff.mpr fun inTree => ?_⟩
        rcases has id inTree with old | ⟨-, -, notData, -⟩
        · exact Bool.eq_false_iff.mp notTree old
        · exact Bool.eq_false_iff.mp notData used
      treeNew := by
        intro id used
        rcases has id used with old | isNew
        · exact consistent.treeNew id old
        · exact isNew.1
      recoveredNew := by
        intro id found
        obtain ⟨unknown, notData, notTree⟩ := consistent.recoveredNew id found
        exact ⟨unknown, notData, unused found notTree⟩ }

theorem Positive.setWriter (counted : session.Positive) (packType : PackType) {writer : PackWriter}
    (positive : ∀ id, writer.has id = true → 1 ≤ writer.references id) :
    (session.setWriter packType writer).Positive := by
  cases packType
  · exact ⟨counted.entries, positive, counted.tree⟩
  · exact ⟨counted.entries, counted.data, positive⟩

theorem Consistent.pending_unknown (consistent : Consistent base session) (packType : PackType)
    (used : (session.writer packType).has id = true) :
    id ∉ session.known ∧ (session.setWriter packType .empty).dataWriter.has id = false ∧
      (session.setWriter packType .empty).treeWriter.has id = false ∧
      session.recovered id = none := by
  have notRecovered (inWriter : session.dataWriter.has id = true ∨
      session.treeWriter.has id = true) : session.recovered id = none := by
    cases found : session.recovered id with
    | none => rfl
    | some entry =>
      have unused := (consistent.recoveredNew id (by rw [found]; rfl)).2
      rcases inWriter with inData | inTree
      · exact absurd inData (Bool.eq_false_iff.mp unused.1)
      · exact absurd inTree (Bool.eq_false_iff.mp unused.2)
  cases packType with
  | data =>
    exact ⟨(consistent.dataNew id used).1, rfl, (consistent.dataNew id used).2,
      notRecovered (Or.inl used)⟩
  | tree =>
    refine ⟨consistent.treeNew id used, ?_, rfl, notRecovered (Or.inr used)⟩
    cases inData : session.dataWriter.has id with
    | false => exact inData
    | true => exact absurd used (Bool.eq_false_iff.mp (consistent.dataNew id inData).2)

theorem Consistent.flushWriter (consistent : Consistent base session) (packId : PackId)
    (packType : PackType) : Consistent base (session.flushWriter packId packType) := by
  have tracked := consistent.writerTracked packType
  have emptied : Consistent base (session.setWriter packType .empty) :=
    consistent.setWriter packType PackWriter.empty_tracked fun _ used => by cases used
  refine emptied.applySealedEntries ?_ ?_
  · rw [PackWriter.sealEntries_chunkIds]
    exact tracked.distinct
  · intro id listed
    rw [PackWriter.sealEntries_chunkIds, ← tracked.tracked] at listed
    have unknown := consistent.pending_unknown packType listed
    cases packType <;> exact unknown

theorem Sound.flushWriter (sound : Sound base session) (packId : PackId) (packType : PackType) :
    Sound base (session.flushWriter packId packType) := by
  have entries : ∀ entry ∈ (session.flushWriter packId packType).delta.newEntries,
      1 ≤ entry.refcount := by
    intro entry listed
    have parts : entry ∈ session.delta.newEntries ∨
        entry ∈ (session.writer packType).sealEntries packId := by
      cases packType <;> exact List.mem_append.mp listed
    rcases parts with old | isNew
    · exact sound.counted.entries entry old
    · exact (PackWriter.sealEntries_refcount (sound.writerSound packType) isNew).2
  refine ⟨sound.toConsistent.flushWriter packId packType, entries, ?_, ?_⟩ <;>
    cases packType
  · exact fun id used => by cases used
  · exact sound.counted.data
  · exact sound.counted.tree
  · exact fun id used => by cases used

theorem Sound.held_flushWriter (sound : Sound base session) (packId : PackId)
    (packType : PackType) (id : ChunkId) :
    (session.flushWriter packId packType).held id = session.held id := by
  have sealed := PackWriter.newReferences_sealEntries (sound.writerSound packType) packId id
  cases packType <;>
    simp only [held, WriteSession.flushWriter, WriteSession.applySealedEntries, setWriter, writer,
      references_append] at sealed ⊢ <;>
    rw [sealed, PackWriter.references_empty] <;> omega

theorem promote_eq (session : WriteSession) (id : ChunkId) (entry : RecoveredChunkEntry) :
    session.promote id entry =
      WriteSession.applySealedEntries
        { session with
          recovered := Function.update session.recovered id none
          tracker := session.tracker.map fun tracker =>
            { tracker with promotedRecovered := tracker.promotedRecovered ++ [(id, entry)] } }
        [⟨id, entry.storedSize, entry.packId, entry.packOffset, 1⟩] := by
  simp only [WriteSession.promote, WriteSession.applySealedEntries, IndexDelta.addNewEntry,
    List.map_cons, List.map_nil, List.toFinset_cons, List.toFinset_nil, insert_empty_eq,
    Option.map_map]
  congr 1
  ext other
  simp

theorem Consistent.forgetRecovered (consistent : Consistent base session) (id : ChunkId) :
    Consistent base { session with recovered := Function.update session.recovered id none } :=
  { consistent with
    recoveredNew := by
      intro other found
      simp only [Function.update_apply] at found
      split at found
      · cases found
      · exact consistent.recoveredNew other found }

theorem Consistent.promote (consistent : Consistent base session) {entry : RecoveredChunkEntry}
    (recovered : session.recovered id = some entry) :
    Consistent base (session.promote id entry) := by
  have unknown := consistent.recoveredNew id (by rw [recovered]; rfl)
  rw [promote_eq]
  refine ((consistent.forgetRecovered id).withTracker _).applySealedEntries
    (List.nodup_singleton _) ?_
  intro other listed
  simp only [List.map_cons, List.map_nil, List.mem_singleton] at listed
  subst listed
  exact ⟨unknown.1, unknown.2.1, unknown.2.2, Function.update_self _ _ _⟩

theorem held_promote (session : WriteSession) (id : ChunkId) (entry : RecoveredChunkEntry)
    (other : ChunkId) :
    (session.promote id entry).held other = session.held other + if other = id then 1 else 0 := by
  simp only [held, WriteSession.promote, IndexDelta.addNewEntry, references_append,
    IndexDelta.newReferences, List.map_cons, List.map_nil, List.sum_cons, List.sum_nil, eq_comm]
  omega

theorem Consistent.incrementPending (consistent : Consistent base session) (packType : PackType)
    (id : ChunkId) : Consistent base
      (session.setWriter packType ((session.writer packType).incrementPending id)) := by
  refine consistent.setWriter packType
    (PackWriter.incrementPending_tracked (consistent.writerTracked packType) id) ?_
  intro other used
  rw [PackWriter.has_incrementPending] at used
  exact Or.inl used

theorem Sound.incrementPending (sound : Sound base session) (packType : PackType)
    (used : (session.writer packType).has id = true)
    (fits : (session.writer packType).references id + 1 < 2 ^ 32) :
    Sound base (session.setWriter packType ((session.writer packType).incrementPending id)) :=
  ⟨sound.toConsistent.incrementPending packType id, sound.counted.setWriter packType fun _ =>
    PackWriter.references_incrementPending_pos (sound.writerSound packType).positive used fits⟩

theorem held_setWriter (session : WriteSession) (packType : PackType) (writer : PackWriter)
    (id : ChunkId) :
    (session.setWriter packType writer).held id + (session.writer packType).references id =
      session.held id + writer.references id := by
  cases packType <;> simp only [held, setWriter, WriteSession.writer] <;> omega

section

variable (unknown : id ∉ session.known) (notRecovered : session.recovered id = none)
  (notData : session.dataWriter.has id = false) (notTree : session.treeWriter.has id = false)

include notData notTree

theorem not_has_writer (packType : PackType) : (session.writer packType).has id = false := by
  cases packType
  · exact notData
  · exact notTree

include unknown notRecovered

theorem Consistent.addBlob (consistent : Consistent base session) (storedSize : Nat)
    (packType : PackType) : Consistent base (session.addBlob id storedSize packType) := by
  refine consistent.setWriter packType (PackWriter.addBlob_tracked
    (consistent.writerTracked packType) (not_has_writer notData notTree packType) storedSize) ?_
  intro other used
  rw [PackWriter.has_addBlob] at used
  by_cases same : other = id
  · subst same
    exact Or.inr ⟨unknown, notRecovered, notData, notTree⟩
  · exact Or.inl (by simpa [same] using used)

theorem Sound.addBlob (sound : Sound base session) (storedSize : Nat) (packType : PackType) :
    Sound base (session.addBlob id storedSize packType) :=
  ⟨sound.toConsistent.addBlob unknown notRecovered notData notTree storedSize packType,
    sound.counted.setWriter packType fun _ => PackWriter.references_addBlob_pos
      (sound.writerSound packType).positive (not_has_writer notData notTree packType) storedSize⟩

end

theorem storeChunk_cases (session : WriteSession) (id : ChunkId) (storedSize : Nat)
    (packType : PackType) :
    (id ∈ session.known ∧ session.storeChunk id storedSize packType =
      { session with delta := session.delta.bumpRefcount id }) ∨
    (id ∉ session.known ∧ ∃ entry, session.recovered id = some entry ∧
      session.storeChunk id storedSize packType = session.promote id entry) ∨
    (id ∉ session.known ∧ session.recovered id = none ∧ ∃ pending,
      (session.writer pending).has id = true ∧ session.storeChunk id storedSize packType =
        session.setWriter pending ((session.writer pending).incrementPending id)) ∨
    (id ∉ session.known ∧ session.recovered id = none ∧ session.dataWriter.has id = false ∧
      session.treeWriter.has id = false ∧ session.storeChunk id storedSize packType =
        session.addBlob id storedSize packType) := by
  unfold storeChunk bumpRefIfExists
  by_cases isKnown : id ∈ session.known
  · simp [isKnown]
  · cases recovered : session.recovered id with
    | some entry => simp [isKnown]
    | none =>
      right
      right
      unfold bumpRefPending
      cases inData : session.dataWriter.has id with
      | true => exact Or.inl ⟨isKnown, rfl, .data, inData, by simp [isKnown, setWriter, writer]⟩
      | false =>
        cases inTree : session.treeWriter.has id with
        | true =>
          exact Or.inl ⟨isKnown, rfl, .tree, inTree, by simp [isKnown, setWriter, writer]⟩
        | false => exact Or.inr ⟨isKnown, rfl, rfl, rfl, by simp [isKnown]⟩

theorem Consistent.storeChunk (consistent : Consistent base session) (id : ChunkId)
    (storedSize : Nat) (packType : PackType) :
    Consistent base (session.storeChunk id storedSize packType) := by
  rcases session.storeChunk_cases id storedSize packType with
    ⟨isKnown, stored⟩ | ⟨-, entry, recovered, stored⟩ | ⟨-, -, pending, -, stored⟩ |
      ⟨unknown, notRecovered, notData, notTree, stored⟩ <;> rw [stored]
  · exact consistent.bumpRefcount isKnown
  · exact consistent.promote recovered
  · exact consistent.incrementPending pending id
  · exact consistent.addBlob unknown notRecovered notData notTree storedSize packType

theorem Sound.storeChunk (sound : Sound base session) (storedSize : Nat) (packType : PackType)
    (fits : session.held id + 1 < 2 ^ 32) :
    Sound base (session.storeChunk id storedSize packType) ∧
      ∀ other, (session.storeChunk id storedSize packType).held other =
        session.held other + if other = id then 1 else 0 := by
  rcases session.storeChunk_cases id storedSize packType with
    ⟨isKnown, stored⟩ | ⟨-, entry, recovered, stored⟩ | ⟨-, -, pending, used, stored⟩ |
      ⟨unknown, notRecovered, notData, notTree, stored⟩
  · rw [stored]
    refine ⟨⟨sound.toConsistent.bumpRefcount isKnown,
      ⟨sound.counted.entries, sound.counted.data, sound.counted.tree⟩⟩, fun other => ?_⟩
    have fitsDelta : session.delta.references id + 1 < 2 ^ 32 := by
      unfold held at fits
      omega
    simp only [held, references_bumpRefcount fitsDelta]
    omega
  · rw [stored]
    refine ⟨⟨sound.toConsistent.promote recovered,
      ⟨?_, sound.counted.data, sound.counted.tree⟩⟩, held_promote session id entry⟩
    intro new listed
    rcases List.mem_append.mp listed with old | isNew
    · exact sound.counted.entries new old
    · rw [List.mem_singleton.mp isNew]
  · rw [stored]
    have counted := held_setWriter session pending .empty id
    have fitsWriter : (session.writer pending).references id + 1 < 2 ^ 32 := by
      rw [PackWriter.references_empty] at counted
      omega
    refine ⟨sound.incrementPending pending used fitsWriter, fun other => ?_⟩
    have incremented := PackWriter.references_incrementPending used fitsWriter other
    have replaced := held_setWriter session pending
      ((session.writer pending).incrementPending id) other
    omega
  · rw [stored]
    refine ⟨sound.addBlob unknown notRecovered notData notTree storedSize packType,
      fun other => ?_⟩
    have added := PackWriter.references_addBlob (not_has_writer notData notTree packType) storedSize
      other
    have replaced := held_setWriter session packType
      ((session.writer packType).addBlob id storedSize) other
    unfold WriteSession.addBlob
    omega

end WriteSession

end Vykar.Repo

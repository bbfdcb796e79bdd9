import Vykar.Index.FastPath
import Vykar.Repo.CommitOrder

/-!
The local caches that commits leave behind.

Any number of machines keep an index blob cache and a full index cache, both
labelled with an index generation.  A commit holds the repository lock from the
moment it fetches the stored index until it has published a new one, so it is one
step here; sessions are opened at any time before.  A cache whose label is the
generation of the stored index belongs to that index, because a generation is
published at most once.
-/

namespace Vykar.Repo

open Index

structure WriteSession.Bounded (session : WriteSession) : Prop where
  entries : ∀ entry ∈ session.delta.newEntries, entry.refcount < 2 ^ 32
  data : ∀ id, session.dataWriter.references id < 2 ^ 32
  tree : ∀ id, session.treeWriter.references id < 2 ^ 32

namespace WriteSession

variable {session : WriteSession}

theorem start_bounded (base : ChunkIndex) (journal : ChunkId → Option RecoveredChunkEntry) :
    (start base journal).Bounded where
  entries entry listed := by cases listed
  data id := Nat.two_pow_pos 32
  tree id := Nat.two_pow_pos 32

section

variable (bounded : session.Bounded)

include bounded

theorem Bounded.writer (packType : PackType) (id : ChunkId) :
    (session.writer packType).references id < 2 ^ 32 := by
  cases packType
  · exact bounded.data id
  · exact bounded.tree id

theorem Bounded.setWriter {packType : PackType} {writer : PackWriter}
    (fits : ∀ id, writer.references id < 2 ^ 32) : (session.setWriter packType writer).Bounded := by
  cases packType
  · exact ⟨bounded.entries, fits, bounded.tree⟩
  · exact ⟨bounded.entries, bounded.data, fits⟩

theorem Bounded.applySealedEntries {entries : List NewChunkEntry}
    (fits : ∀ entry ∈ entries, entry.refcount < 2 ^ 32) :
    (session.applySealedEntries entries).Bounded :=
  { bounded with
    entries entry listed := by
      rcases List.mem_append.mp listed with old | isNew
      · exact bounded.entries entry old
      · exact fits entry isNew }

theorem Bounded.storeChunk (id : ChunkId) (storedSize : Nat) (packType : PackType) :
    (session.storeChunk id storedSize packType).Bounded := by
  rcases session.storeChunk_cases id storedSize packType with
    ⟨-, stored⟩ | ⟨-, entry, -, stored⟩ | ⟨-, -, pending, -, stored⟩ | ⟨-, -, -, -, stored⟩ <;>
    rw [stored]
  · exact ⟨bounded.entries, bounded.data, bounded.tree⟩
  · refine ⟨fun new listed => ?_, bounded.data, bounded.tree⟩
    rcases List.mem_append.mp listed with old | isNew
    · exact bounded.entries new old
    · rw [List.mem_singleton.mp isNew]
      exact Nat.one_lt_two_pow (by decide)
  · refine bounded.setWriter fun other => ?_
    have before := bounded.writer pending other
    simp only [PackWriter.references, PackWriter.incrementPending, Dict.get?_modify] at before ⊢
    split
    · cases (session.writer pending).pending.get? id with
      | none => exact Nat.two_pow_pos 32
      | some counted => exact Nat.mod_lt _ (Nat.two_pow_pos 32)
    · exact before
  · refine bounded.setWriter fun other => ?_
    have before := bounded.writer packType other
    simp only [PackWriter.references, PackWriter.addBlob, Dict.get?_set] at before ⊢
    split
    · exact Nat.one_lt_two_pow (by decide)
    · exact before

theorem Bounded.flushWriter (packId : PackId) (packType : PackType) :
    (session.flushWriter packId packType).Bounded := by
  have emptied : (session.setWriter packType .empty).Bounded :=
    bounded.setWriter fun id => Nat.two_pow_pos 32
  refine emptied.applySealedEntries fun entry listed => ?_
  rw [PackWriter.sealFrom_refcount listed]
  have counted := bounded.writer packType entry.chunkId
  unfold PackWriter.references at counted
  cases found : (session.writer packType).pending.get? entry.chunkId with
  | none => exact Nat.one_lt_two_pow (by decide)
  | some pending =>
    rw [found] at counted
    exact counted

theorem Bounded.withTracker (tracker : Option DumpRollbackTracker) :
    WriteSession.Bounded { session with tracker := tracker } :=
  ⟨bounded.entries, bounded.data, bounded.tree⟩

theorem Bounded.rollbackDumpCheckpoint :
    session.rollbackDumpCheckpoint.Bounded := by
  unfold WriteSession.rollbackDumpCheckpoint
  cases session.tracker with
  | none => exact bounded
  | some tracker =>
    exact ⟨fun entry listed => bounded.entries entry (List.mem_of_mem_take listed),
      fun id => Nat.two_pow_pos 32, bounded.tree⟩

end

end WriteSession

theorem Recording.run_bounded {ops : List SessionOp} {recording next : Recording}
    (bounded : recording.session.Bounded) (ran : recording.run ops = some next) :
    next.session.Bounded := by
  induction ops generalizing recording with
  | nil =>
    cases ran
    exact bounded
  | cons op ops ih =>
    obtain ⟨middle, stepped, later⟩ := Option.bind_eq_some_iff.mp ran
    refine ih ?_ later
    rcases step_cases stepped with ⟨id, storedSize, packType, -, -, rfl⟩ |
      ⟨packId, packType, -, -, rfl⟩ | ⟨packId, -, rfl⟩ | ⟨-, rfl⟩ | ⟨tracker, -, -, rfl⟩
    · exact bounded.storeChunk id storedSize packType
    · exact bounded.flushWriter packId packType
    · exact (bounded.flushWriter packId .data).withTracker _
    · exact bounded.withTracker none
    · exact bounded.rollbackDumpCheckpoint

section SessionDelta

variable {base : ChunkIndex} {stores : List ChunkId} {delta : IndexDelta}

theorem SessionDelta.fresh (built : SessionDelta base stores delta) :
    delta.Fresh base ∧ delta.BumpsKnown base := by
  obtain ⟨journal, ops, recording, dataPack, treePack, ran, -, rfl⟩ := built
  have kept := (Recording.start_kept base journal).run ran
  have flushed := (kept.now.flushWriter dataPack .data).flushWriter treePack .tree
  refine ⟨flushed.fresh, fun id bumped => ?_⟩
  simpa [finishSession] using (flushed.known id).mp (flushed.bumped id bumped)

theorem SessionDelta.bounded (built : SessionDelta base stores delta) :
    ∀ entry ∈ delta.newEntries, entry.refcount < 2 ^ 32 := by
  obtain ⟨journal, ops, recording, dataPack, treePack, ran, -, rfl⟩ := built
  have bounded := Recording.run_bounded (WriteSession.start_bounded base journal) ran
  exact ((bounded.flushWriter dataPack .data).flushWriter treePack .tree).entries

end SessionDelta

/-- An open repository: the machine whose caches it uses, and the index it loaded. -/
structure OpenRepository where
  host : Nat
  generation : Nat
  base : ChunkIndex

/-- The stored index, the generations used so far, the caches of every machine and the open
repositories. -/
structure CommitState where
  stored : IndexObject
  used : Finset Nat
  hosts : Nat → LocalCaches
  opened : Nat → Option OpenRepository

/-- A backup that commits: what its session was asked to do, which packs are stored when it
commits, the generation and nonce it draws, and whether the new index reaches the storage and
the local caches are rebuilt afterwards. -/
structure CommitInput where
  journal : ChunkId → Option RecoveredChunkEntry
  ops : List SessionOp
  dataPack : PackId
  treePack : PackId
  packs : PackId → Bool
  newGeneration : Nat
  nonce : Nat
  published : Bool
  rebuild : Bool

inductive CommitEvent where
  | openRepo (client host : Nat)
  | commit (client : Nat) (input : CommitInput)
  | save (client : Nat) (index : ChunkIndex) (newGeneration nonce : Nat)

namespace CommitState

def use (state : CommitState) (generation : Nat) : CommitState :=
  { state with used := insert generation state.used }

def publish (state : CommitState) (object : IndexObject) : CommitState :=
  { state with stored := object }

def cacheBlob (state : CommitState) (host : Nat) (object : IndexObject) : CommitState :=
  let caches := { state.hosts host with indexBlob := some (object.generation, object) }
  { state with hosts := Function.update state.hosts host caches }

def cacheFull (state : CommitState) (host : Nat) (file : FullIndexFile) : CommitState :=
  let caches := { state.hosts host with fullIndex := some file }
  { state with hosts := Function.update state.hosts host caches }

def setOpened (state : CommitState) (client : Nat) (repo : Option OpenRepository) : CommitState :=
  { state with opened := Function.update state.opened client repo }

/-- `persist_index` and its counterpart on the fast path; nothing is cached when the write
fails. -/
def persist (state : CommitState) (host : Nat) (object : IndexObject) (published : Bool) :
    CommitState :=
  if published then (state.publish object).cacheBlob host object else state

/-- `commit_concurrent_session_with_progress`, as far as it concerns the index and the caches. -/
def commitSession (size : BlobSize) (state : CommitState) (repo : OpenRepository)
    (delta : IndexDelta) (input : CommitInput) : CommitState :=
  if delta.isEmpty then
    match state.stored.decode size with
    | some index =>
      if input.rebuild then state.cacheFull repo.host (.build index repo.generation) else state
    | none => state
  else
    match fastPathCache (state.hosts repo.host) repo.generation state.stored with
    | some old =>
      if delta.packsStored input.packs then
        -- The merged cache replaces the old one before it is read back.
        let merged := old.merge delta input.newGeneration
        let state := (state.use input.newGeneration).cacheFull repo.host merged
        if (FullIndexFile.openPath (some merged) input.newGeneration).isSome then
          state.persist repo.host ⟨input.nonce, input.newGeneration, Dict.ofList merged.entries⟩
            input.published
        else state
      else state
    | none =>
      match slowPathCommit size state.stored delta input.packs with
      | .error _ => state
      | .ok applied =>
        let state := (state.use input.newGeneration).persist repo.host
          ⟨input.nonce, input.newGeneration, applied⟩ input.published
        if input.published ∧ input.rebuild then
          state.cacheFull repo.host (.build applied input.newGeneration)
        else state

/-- Before the first commit: `init` has stored an empty index of generation zero. -/
def init : CommitState := ⟨⟨0, 0, ∅⟩, {0}, fun _ => ⟨none, none⟩, fun _ => none⟩

/-- Opening loads the stored index; a commit ends with its session consumed; a maintenance
command saves whatever index it has computed. -/
def step (size : BlobSize) (state : CommitState) : CommitEvent → Option CommitState
  | .openRepo client host => do
      let base ← state.stored.decode size
      some (state.setOpened client (some ⟨host, state.stored.generation, base⟩))
  | .commit client input => do
      let repo ← state.opened client
      let recording ← (Recording.start repo.base input.journal).run input.ops
      if input.newGeneration ∈ state.used then none
      else
        let delta := finishSession recording.session input.dataPack input.treePack
        some ((state.commitSession size repo delta input).setOpened client none)
  | .save client index newGeneration nonce => do
      let repo ← state.opened client
      if newGeneration ∈ state.used then none
      else some (((state.use newGeneration).persist repo.host ⟨nonce, newGeneration, index⟩
        true).setOpened client none)

end CommitState

def commitSystem (size : BlobSize) : TransitionSystem CommitState CommitEvent where
  initial state := state = .init
  step := CommitState.step size

/-- A label that is the generation of the stored index belongs to the stored index. -/
structure CommitState.Coherent (size : BlobSize) (state : CommitState) : Prop where
  zeroUsed : 0 ∈ state.used
  storedUsed : state.stored.generation ∈ state.used
  blobs : ∀ host generation object, (state.hosts host).indexBlob = some (generation, object) →
    object.generation = generation
  files : ∀ host file, (state.hosts host).fullIndex = some file → file.generation ∈ state.used ∧
    (file.generation = state.stored.generation → file.entries.Perm state.stored.chunks.toList)
  opened : ∀ client repo, state.opened client = some repo → repo.generation ∈ state.used ∧
    (repo.generation = state.stored.generation →
      repo.base = state.stored.chunks ∧ state.stored.decode size = some state.stored.chunks)

namespace CommitState

variable {state next : CommitState} {object : IndexObject} {host client generation : Nat}
  {size : BlobSize}

theorem decode_eq_some {index : ChunkIndex} (decoded : object.decode size = some index) :
    index = object.chunks := by
  unfold IndexObject.decode at decoded
  split at decoded
  · exact (Option.some.inj decoded).symm
  · cases decoded

section

variable (coherent : state.Coherent size)

include coherent

theorem Coherent.use (generation : Nat) :
    (state.use generation).Coherent size where
  zeroUsed := Finset.mem_insert_of_mem coherent.zeroUsed
  storedUsed := Finset.mem_insert_of_mem coherent.storedUsed
  blobs := coherent.blobs
  files host file cached :=
    (coherent.files host file cached).imp_left Finset.mem_insert_of_mem
  opened client repo isOpen :=
    (coherent.opened client repo isOpen).imp_left Finset.mem_insert_of_mem

/-- Publishing under a new generation takes every label out of use. -/
theorem Coherent.publish (unused : object.generation ∉ state.used) :
    ((state.use object.generation).publish object).Coherent size where
  zeroUsed := Finset.mem_insert_of_mem coherent.zeroUsed
  storedUsed := Finset.mem_insert_self _ _
  blobs := coherent.blobs
  files host file cached := by
    have labelled := (coherent.files host file cached).1
    exact ⟨Finset.mem_insert_of_mem labelled, fun same => absurd (same ▸ labelled) unused⟩
  opened client repo isOpen := by
    have labelled := (coherent.opened client repo isOpen).1
    exact ⟨Finset.mem_insert_of_mem labelled, fun same => absurd (same ▸ labelled) unused⟩

theorem Coherent.cacheBlob (host : Nat) (object : IndexObject) :
    (state.cacheBlob host object).Coherent size :=
  { coherent with
    blobs other generation cached found := by
      simp only [CommitState.cacheBlob, Function.update_apply] at found
      split at found
      · cases found
        rfl
      · exact coherent.blobs other generation cached found
    files other file found := by
      simp only [CommitState.cacheBlob, Function.update_apply] at found
      split at found
      · exact coherent.files host file found
      · exact coherent.files other file found }

theorem Coherent.cacheFull (host : Nat) {file : FullIndexFile}
    (labelled : file.generation ∈ state.used) (belongs : file.generation = state.stored.generation →
      file.entries.Perm state.stored.chunks.toList) :
    (state.cacheFull host file).Coherent size :=
  { coherent with
    blobs other generation cached found := by
      simp only [CommitState.cacheFull, Function.update_apply] at found
      split at found
      · exact coherent.blobs host generation cached found
      · exact coherent.blobs other generation cached found
    files other cached found := by
      simp only [CommitState.cacheFull, Function.update_apply] at found
      split at found
      · cases found
        exact ⟨labelled, belongs⟩
      · exact coherent.files other cached found }

theorem Coherent.setOpened (client : Nat) {repo : Option OpenRepository}
    (loaded : ∀ opened, repo = some opened → opened.generation ∈ state.used ∧
      (opened.generation = state.stored.generation → opened.base = state.stored.chunks ∧
        state.stored.decode size = some state.stored.chunks)) :
    (state.setOpened client repo).Coherent size :=
  { coherent with
    opened other opened found := by
      simp only [CommitState.setOpened, Function.update_apply] at found
      split at found
      · exact loaded opened found
      · exact coherent.opened other opened found }

end

theorem cacheFull_persist (state : CommitState) (host : Nat) (file : FullIndexFile)
    (object : IndexObject) (published : Bool) :
    (state.cacheFull host file).persist host object published =
      (state.persist host object published).cacheFull host file := by
  cases published <;> simp [CommitState.persist, CommitState.cacheFull, CommitState.publish,
    CommitState.cacheBlob]

theorem Coherent.persist (coherent : state.Coherent size) (host : Nat)
    (unused : object.generation ∉ state.used) (published : Bool) :
    ((state.use object.generation).persist host object published).Coherent size := by
  unfold CommitState.persist
  split
  · exact (coherent.publish unused).cacheBlob host object
  · exact coherent.use _

theorem Coherent.fastPathCache (coherent : state.Coherent size) {repo : OpenRepository}
    (isOpen : state.opened client = some repo) {old : FullIndexFile}
    (applies : fastPathCache (state.hosts repo.host) repo.generation state.stored = some old) :
    old.entries.Perm state.stored.chunks.toList ∧ repo.base = state.stored.chunks ∧
      state.stored.decode size = some state.stored.chunks := by
  unfold Index.fastPathCache at applies
  split at applies
  · rename_i cachedBlob
    obtain ⟨⟨label, object⟩, found, guarded⟩ := Option.bind_eq_some_iff.mp cachedBlob
    simp only at guarded
    split at guarded
    · rename_i matching
      cases guarded
      have current : repo.generation = state.stored.generation :=
        matching.2.symm.trans (coherent.blobs repo.host label _ found).symm
      obtain ⟨cachedFile, -, label, -⟩ := openPath_eq_some applies
      exact ⟨(coherent.files repo.host old cachedFile).2 (label.trans current),
        (coherent.opened client repo isOpen).2 current⟩
    · cases guarded
  · cases applies

theorem Coherent.commitSession (coherent : state.Coherent size) {repo : OpenRepository}
    (isOpen : state.opened client = some repo) {stores : List ChunkId} {delta : IndexDelta}
    (built : SessionDelta repo.base stores delta) {input : CommitInput}
    (unused : input.newGeneration ∉ state.used) :
    (state.commitSession size repo delta input).Coherent size := by
  unfold CommitState.commitSession
  split
  · split
    · rename_i index decoded
      split
      · -- The cache is built from the index stored now, under the label of the one loaded.
        refine coherent.cacheFull repo.host (coherent.opened client repo isOpen).1 fun _ => ?_
        rw [← decode_eq_some decoded]
        exact fullIndexCache_perm index
      · exact coherent
    · exact coherent
  · split
    · rename_i old applies
      obtain ⟨same, sameBase, -⟩ := coherent.fastPathCache isOpen applies
      have fresh := built.fresh.1
      rw [sameBase] at fresh
      have mergedPerm : (Dict.ofList (old.merge delta input.newGeneration).entries).toList.Perm
          (old.merge delta input.newGeneration).entries :=
        Dict.toList_ofList (mergeFullIndexCache_keys_nodup same fresh)
      have unpublished : input.newGeneration ≠ state.stored.generation :=
        fun sameLabel => unused (sameLabel ▸ coherent.storedUsed)
      split
      · simp only
        split
        · rw [cacheFull_persist]
          refine (Coherent.persist coherent repo.host unused input.published).cacheFull repo.host
            ?_ fun sameLabel => ?_
          · cases input.published <;> exact Finset.mem_insert_self _ _
          · cases published : input.published with
            | true => exact mergedPerm.symm
            | false =>
              rw [published] at sameLabel
              exact absurd sameLabel unpublished
        · exact (coherent.use _).cacheFull repo.host (Finset.mem_insert_self _ _)
            fun sameLabel => absurd sameLabel unpublished
      · exact coherent
    · split
      · exact coherent
      · rename_i applied succeeded
        have persisted : ((state.use input.newGeneration).persist repo.host
            ⟨input.nonce, input.newGeneration, applied⟩ input.published).Coherent size :=
          Coherent.persist coherent repo.host unused input.published
        simp only
        split
        · rename_i both
          rw [both.1] at persisted ⊢
          exact persisted.cacheFull repo.host (Finset.mem_insert_self _ _)
            fun _ => fullIndexCache_perm applied
        · exact persisted

theorem init_coherent : init.Coherent size where
  zeroUsed := Finset.mem_singleton_self 0
  storedUsed := Finset.mem_singleton_self 0
  blobs host generation object cached := by cases cached
  files host file cached := by cases cached
  opened client repo isOpen := by cases isOpen

theorem Coherent.step (coherent : state.Coherent size) {event : CommitEvent}
    (stepped : state.step size event = some next) : next.Coherent size := by
  cases event with
  | openRepo client host =>
    obtain ⟨base, decoded, rest⟩ := Option.bind_eq_some_iff.mp stepped
    cases rest
    refine coherent.setOpened client fun opened found => ?_
    cases found
    obtain rfl := decode_eq_some decoded
    exact ⟨coherent.storedUsed, fun _ => ⟨rfl, decoded⟩⟩
  | commit client input =>
    obtain ⟨repo, isOpen, rest⟩ := Option.bind_eq_some_iff.mp stepped
    obtain ⟨recording, ran, last⟩ := Option.bind_eq_some_iff.mp rest
    simp only at last
    split at last
    · cases last
    · rename_i unused
      cases last
      have built : SessionDelta repo.base (input.ops.flatMap SessionOp.stores)
          (finishSession recording.session input.dataPack input.treePack) :=
        ⟨input.journal, input.ops, recording, input.dataPack, input.treePack, ran, rfl, rfl⟩
      exact Coherent.setOpened (coherent.commitSession isOpen built unused) client
        fun opened found => by cases found
  | save client index newGeneration nonce =>
    obtain ⟨repo, isOpen, rest⟩ := Option.bind_eq_some_iff.mp stepped
    split at rest
    · cases rest
    · rename_i unused
      cases rest
      exact Coherent.setOpened (Coherent.persist coherent repo.host unused true) client
        fun opened found => by cases found

end CommitState

theorem coherent_of_reaches {size : BlobSize} {allowed : CommitState → CommitEvent → Prop}
    {state : CommitState}
    (reached : (commitSystem size).Reaches allowed state) : state.Coherent size := by
  refine reached.invariant (CommitState.Coherent size) ?_ ?_
  · rintro state rfl
    exact CommitState.init_coherent
  · intro state event next coherent _ stepped
    exact coherent.step stepped

/-- With whatever caches earlier commits have left, the fast path declines, publishes what the
slow path would publish, or fails where the slow path fails; unless it applies to a delta whose
packs are stored and which has a new chunk with the count zero, or makes the index longer than
what can be decompressed. -/
theorem fast_path_agrees_iff {size : BlobSize} {state : CommitState}
    (reached : (commitSystem size).Reaches (fun _ _ => True) state) {client : Nat}
    {repo : OpenRepository} (isOpen : state.opened client = some repo) {stores : List ChunkId}
    {delta : IndexDelta}
    (built : SessionDelta repo.base stores delta) (packs : PackId → Bool)
    {newGeneration : Nat} (unused : newGeneration ∉ state.used) (nonce : Nat) :
    Agrees size (tryFastPathCommit (state.hosts repo.host) repo.generation state.stored delta packs
        newGeneration nonce) (slowPathCommit size state.stored delta packs) ↔
      ((fastPathCache (state.hosts repo.host) repo.generation state.stored).isSome = true →
        delta.packsStored packs = true →
        (∀ new ∈ delta.newEntries, 1 ≤ new.refcount) ∧
          size.bytes newGeneration (bumpedEntries state.stored.chunks delta) ≤
            maxMetadataDecompressSize) := by
  have coherent := coherent_of_reaches reached
  cases applies : fastPathCache (state.hosts repo.host) repo.generation state.stored with
  | none => simp [tryFastPathCommit, applies, Agrees]
  | some old =>
    obtain ⟨same, sameBase, decodes⟩ := coherent.fastPathCache isOpen applies
    obtain ⟨fresh, known⟩ := built.fresh
    rw [sameBase] at fresh known
    have usable : newGeneration ≠ 0 := fun zero => unused (zero ▸ coherent.zeroUsed)
    rw [tryFastPathCommit_agrees_iff applies same decodes fresh known built.bounded usable]
    simp

/-- A kilobyte for every entry, more than any entry takes. -/
def kilobytes : BlobSize where
  bytes _ entries := 1024 * (entries.length + 1)
  bytes_perm perm _ := by rw [perm.length_eq]
  length_lt _ entries := by omega

/-- The index after a first backup of chunk 5, and the object that stores it. -/
def fiveStored : ChunkIndex := Dict.ofList [(5, ⟨1, 10, 50, 13⟩)]

def fiveObject : IndexObject := ⟨1, 1, fiveStored⟩

theorem fiveStored_reached :
    ∃ state, (commitSystem kilobytes).Reaches (fun _ _ => True) state ∧
      state.opened 0 = some ⟨0, 1, fiveStored⟩ ∧ state.stored = fiveObject ∧ 2 ∉ state.used ∧
      state.hosts 0 = ⟨some (1, fiveObject), some (.build fiveStored 1)⟩ := by
  have start : (commitSystem kilobytes).Reaches (fun _ _ => True) CommitState.init := .initial rfl
  refine start.exists_of_run [.openRepo 0 0, .commit 0 {
    journal := fun _ => none
    ops := [.store 5 10 .data]
    dataPack := 50
    treePack := 51
    packs := fun _ => true
    newGeneration := 1
    nonce := 1
    published := true
    rebuild := true }, .openRepo 0 0] (by decide) ⟨_, rfl, rfl, rfl, by decide, rfl⟩

/-- A session that has put chunk 7 into the pack being built and counted it `count` times. -/
def countingSeven (count : Nat) (references : List ChunkId) : Recording :=
  let session := WriteSession.start fiveStored fun _ => none
  let pending := (∅ : Dict ChunkId (Nat × Nat)).set 7 (100, count)
  ⟨{ session with dataWriter := ⟨[⟨7, 100⟩], pending⟩ }, references, []⟩

theorem countingSeven_run (times : Nat) {count : Nat} (bounded : count < 2 ^ 32)
    (references : List ChunkId) :
    ∃ later, (countingSeven count references).run (List.replicate times (.reuse 7)) =
      some (countingSeven ((count + times) % 2 ^ 32) later) := by
  induction times generalizing count references with
  | zero => exact ⟨references, by rw [Nat.add_zero, Nat.mod_eq_of_lt bounded]; rfl⟩
  | succ times ih =>
    have stepped : (countingSeven count references).step (.reuse 7) =
        some (countingSeven (addU32 count 1) (7 :: references)) := rfl
    obtain ⟨later, ran⟩ := ih (Nat.mod_lt (count + 1) (Nat.two_pow_pos 32))
      (7 :: references)
    refine ⟨later, ?_⟩
    rw [List.replicate_succ, Recording.run, stepped, Option.bind_some]
    unfold addU32
    rw [ran, Nat.mod_add_mod, Nat.add_assoc, Nat.add_comm 1 times]

/-- A delta with chunk 7 as its only new chunk. -/
def sevenNew (count : Nat) : IndexDelta := ⟨[⟨7, 100, 70, 13, count⟩], ∅⟩

theorem sevenNew_built (times : Nat) :
    ∃ stores, SessionDelta fiveStored stores (sevenNew ((1 + times) % 2 ^ 32)) := by
  obtain ⟨later, ran⟩ := countingSeven_run times (show 1 < 2 ^ 32 by decide) [7]
  exact ⟨_, fun _ => none, .store 7 100 .data :: List.replicate times (.reuse 7),
    countingSeven ((1 + times) % 2 ^ 32) later, 70, 71, ran, rfl, rfl⟩

theorem fastPathCache_five :
    fastPathCache ⟨some (1, fiveObject), some (.build fiveStored 1)⟩ 1 fiveObject =
      some (.build fiveStored 1) := by
  exact if_pos rfl

/-- After 2^32 references to a chunk of one unsealed pack the fast path publishes the chunk with
the count zero where the slow path counts it once. -/
theorem fast_path_publishes_zero_count :
    ∃ (state : CommitState) (client : Nat) (repo : OpenRepository) (stores : List ChunkId)
      (delta : IndexDelta) (packs : PackId → Bool) (newGeneration nonce : Nat),
      (commitSystem kilobytes).Reaches (fun _ _ => True) state ∧ state.opened client = some repo ∧
      SessionDelta repo.base stores delta ∧ newGeneration ∉ state.used ∧
      ¬ Agrees kilobytes
        (tryFastPathCommit (state.hosts repo.host) repo.generation state.stored delta packs
        newGeneration nonce) (slowPathCommit kilobytes state.stored delta packs) := by
  obtain ⟨state, reached, isOpen, stored, unused, caches⟩ := fiveStored_reached
  obtain ⟨stores, built⟩ : ∃ stores, SessionDelta fiveStored stores (sevenNew 0) :=
    sevenNew_built (2 ^ 32 - 1)
  refine ⟨state, 0, _, stores, sevenNew 0, fun _ => true, 2, 2, reached, isOpen, built, unused, ?_⟩
  obtain ⟨fresh, known⟩ := built.fresh
  intro agrees
  rw [caches, stored] at agrees
  have needed := (tryFastPathCommit_agrees_iff fastPathCache_five (fullIndexCache_perm fiveStored)
    rfl fresh known built.bounded (by decide)).mp agrees
  have counted := (needed rfl).1 ⟨7, 100, 70, 13, 0⟩ List.mem_cons_self
  cases counted

/-- A later backup of chunk 6 that uses chunk 5 again takes the fast path. -/
theorem fast_path_agrees_iff_six :
    ∃ (state : CommitState) (delta : IndexDelta),
      (commitSystem kilobytes).Reaches (fun _ _ => True) state ∧
      (fastPathCache (state.hosts 0) 1 state.stored).isSome = true ∧
      Agrees kilobytes (tryFastPathCommit (state.hosts 0) 1 state.stored delta (fun _ => true) 2 2)
        (slowPathCommit kilobytes state.stored delta fun _ => true) := by
  obtain ⟨state, reached, isOpen, stored, unused, caches⟩ := fiveStored_reached
  have built : SessionDelta fiveStored [6, 5] ⟨[⟨6, 20, 60, 13, 1⟩], Dict.ofList [(5, 1)]⟩ :=
    ⟨fun _ => none, [.store 6 20 .data, .reuse 5], _, 60, 61, rfl, rfl, rfl⟩
  refine ⟨state, ⟨[⟨6, 20, 60, 13, 1⟩], Dict.ofList [(5, 1)]⟩, reached, ?_, ?_⟩
  · rw [caches, stored, fastPathCache_five]
    rfl
  · refine (fast_path_agrees_iff reached isOpen built (fun _ => true) unused 2).mpr ?_
    rw [stored]
    intro _ _
    decide

end Vykar.Repo

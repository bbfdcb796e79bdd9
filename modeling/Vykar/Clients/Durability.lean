import Vykar.Clients.Passes
import Vykar.Clients.Steps

/-!
What the clients of a repository keep.

If maintenance starts to act only while the stored index is the one it has loaded, the stored
index covers the stored snapshots and every entry of it is in a stored pack, after each step of
any number of clients.  Otherwise a backup may commit between the moment a maintenance command
loads the index and the moment it takes the lock, and the command then works on an index that
does not know the new chunks.
-/

namespace Vykar.Clients

open Index Pack Repo

def sameEntries (first second : ChunkIndex) : Bool :=
  (first.toList.all fun entry => second.get? entry.1 = some entry.2) &&
    second.toList.all fun entry => first.get? entry.1 = some entry.2

theorem get?_eq_of_sameEntries {first second : ChunkIndex} (same : sameEntries first second = true)
    (id : ChunkId) : first.get? id = second.get? id := by
  simp only [sameEntries, Bool.and_eq_true, List.all_eq_true, decide_eq_true_eq] at same
  cases found : first.get? id with
  | some entry => exact (same.1 _ (Dict.get?_eq_some_iff.mp found)).symm
  | none =>
    cases other : second.get? id with
    | none => rfl
    | some entry =>
      have known := same.2 _ (Dict.get?_eq_some_iff.mp other)
      rw [found] at known
      cases known

def countsFit (index : ChunkIndex) (stores : List ChunkId) : Bool :=
  stores.all fun chunk => index.refcount chunk + stores.count chunk < 2 ^ 32

variable {index : ChunkIndex}

theorem countsFit_spec {stores : List ChunkId} (fits : countsFit index stores = true)
    (bounded : ∀ chunk, index.refcount chunk < 2 ^ 32) (chunk : ChunkId) :
    index.refcount chunk + stores.count chunk < 2 ^ 32 := by
  by_cases listed : chunk ∈ stores
  · exact of_decide_eq_true (List.all_eq_true.mp fits chunk listed)
  · rw [List.count_eq_zero_of_not_mem listed]
    exact bounded chunk

/-- Maintenance starts to act while the stored index is the one it has loaded, a compaction
keeps the packs it has selected until their chunks are elsewhere, and counts do not wrap. -/
def actsOnStored (hash : Bytes → PackId) (world : World) : Event → Bool
  | .backup id (.call op) =>
    match world.clients id with
    | .writing session => countsFit ∅ (session.stores ++ op.stores)
    | _ => true
  | .backup id (.commit _) =>
    match world.clients id with
    | .committing session => countsFit world.repo.chunkIndex session.stores
    | _ => true
  | .maintenance id (.remove _) | .maintenance id (.compact _ _ _ _) =>
    match world.clients id with
    | .checked loaded _ => sameEntries loaded world.repo.chunkIndex
    | _ => true
  | .maintenance id .turn =>
    match world.clients id with
    | .compacting pass => pass.keepsSelected hash world.packs
    | _ => true
  | _ => true

def PhaseSound (repo : Repository) (packs : Dict PackId Bytes) : Phase → Prop
  | .writing session | .committing session =>
    Recording.Covered session.base session.stores session.recording
  | .indexed id snapshot => repo.snapshots.get? id = none ∧
      (∀ other stored, repo.snapshots.get? other = some stored → stored.name ≠ snapshot.name) ∧
      ∀ chunk, repo.occurrences chunk + snapshot.references.count chunk ≤
        repo.chunkIndex.refcount chunk
  | .removing loaded pending references =>
    (∀ id, loaded.get? id = repo.chunkIndex.get? id) ∧ (pending.map Prod.fst).Nodup ∧
    (∀ target ∈ pending, repo.snapshots.get? target.1 = some target.2) ∧
    ∀ chunk, repo.occurrences chunk + references.count chunk ≤
      repo.chunkIndex.refcount chunk +
        (pending.flatMap fun target => target.2.references).count chunk
  | .compacting pass => pass.Safe packs repo.chunkIndex
  | _ => True

structure World.Sound (world : World) : Prop where
  exclusive : world.Exclusive
  accounted : world.repo.Accounted
  located : Located world.packs world.repo.chunkIndex
  phases : ∀ id, PhaseSound world.repo world.packs (world.clients id)

section Phases

variable {repo other : Repository} {packs more : Dict PackId Bytes} {phase : Phase}

theorem PhaseSound.of_unlocked (sound : PhaseSound repo packs phase)
    (unlocked : phase.holdsLock ≠ true) (other : Repository) (more : Dict PackId Bytes) :
    PhaseSound other more phase := by
  cases phase with
  | writing session => exact sound
  | idle | registered | admitted | opened | reading => trivial
  | committing | indexed | committed | deregistered | locked | checked | removing | compacting
  | finished => exact absurd rfl unlocked

theorem PhaseSound.grow (sound : PhaseSound repo packs phase) (grown : Grown packs more) :
    PhaseSound repo more phase := by
  cases phase with
  | compacting pass => exact Compaction.Safe.grow sound grown
  | writing | committing | indexed | removing => exact sound
  | idle | registered | admitted | opened | reading | committed | deregistered | locked | checked
  | finished => trivial

end Phases

section Steps

variable {hash : Bytes → PackId} {world next : World} {id : ClientId} {phase : Phase}

theorem World.Sound.move (sound : world.Sound) (exclusive : next.Exclusive)
    (repo : next.repo = world.repo) (grown : Grown world.packs next.packs)
    (clients : next.clients = (world.withPhase id phase).clients)
    (moved : PhaseSound world.repo world.packs phase) : next.Sound where
  exclusive := exclusive
  accounted := repo ▸ sound.accounted
  located := repo ▸ sound.located.grow grown
  phases := by
    rw [clients, repo]
    exact World.forall_withPhase (fun _ phase => PhaseSound world.repo next.packs phase)
      (moved.grow grown) fun other _ => (sound.phases other).grow grown

theorem World.Sound.act (sound : world.Sound) (held : (world.clients id).holdsLock = true)
    (exclusive : next.Exclusive) (accounted : next.repo.Accounted)
    (located : Located next.packs next.repo.chunkIndex)
    (clients : next.clients = (world.withPhase id phase).clients)
    (moved : PhaseSound next.repo next.packs phase) : next.Sound where
  exclusive := exclusive
  accounted := accounted
  located := located
  phases := by
    rw [clients]
    refine World.forall_withPhase (fun _ phase => PhaseSound next.repo next.packs phase) moved
      fun other different => ?_
    apply (sound.phases other).of_unlocked
    intro alsoHeld
    have same := (sound.exclusive other alsoHeld).symm.trans (sound.exclusive id held)
    exact different (Option.some.inj same)

theorem grown_refl (packs : Dict PackId Bytes) : Grown packs packs := fun _ stored => stored

end Steps

section Commit

variable {world : World} {base : ChunkIndex} {references attempted : List ChunkId}
  {delta : IndexDelta} {cached : Bool}

/-- Either path of a commit has the effect of a delta whose packs are stored. -/
theorem commitIndex_applied (ready : DeltaReady base references attempted delta)
    (fits : ∀ id, world.repo.chunkIndex.refcount id + delta.references id < 2 ^ 32)
    (committed : world.commitIndex base delta cached = .ok index) :
    ∃ applied : IndexDelta, applied.packsStored world.hasPack = true ∧
      applied.BumpsKnown world.repo.chunkIndex ∧
      (∀ entry ∈ applied.newEntries, 1 ≤ entry.refcount) ∧
      (∀ id, applied.references id = delta.references id) ∧
      ∀ id, index.get? id = (applied.applyTo world.repo.chunkIndex).get? id := by
  unfold World.commitIndex at committed
  split at committed
  · rename_i guarded
    have sameIndex : world.repo.chunkIndex = base := by
      unfold Repository.chunkIndex
      rw [guarded.2]
      rfl
    split at committed
    · rename_i stored
      cases committed
      rw [sameIndex] at fits ⊢
      refine ⟨delta, stored, ready.known, ready.positive, fun _ => rfl, ?_⟩
      apply mergedIndex_get?_eq (fullIndexCache_perm base) ready.fresh ready.positive
      intro new listed
      have counted := IndexDelta.newReferences_of_mem ready.fresh.distinct listed
      have bound := fits new.chunkId
      unfold IndexDelta.references at bound
      omega
    · cases committed
  · cases reconciled : delta.reconcile world.repo.chunkIndex with
    | error failure =>
      rw [reconciled] at committed
      cases committed
    | ok result =>
      rw [reconciled] at committed
      obtain ⟨known, entries, same⟩ := IndexDelta.reconcile_ok
        (fun id => lt_of_le_of_lt (Nat.le_add_left _ _) (fits id)) reconciled
      simp only [bind, Except.bind] at committed
      split at committed
      · rename_i stored
        cases committed
        exact ⟨result, stored, known, fun entry listed => ready.positive entry
          (entries entry listed), same, fun _ => rfl⟩
      · cases committed

theorem commitIndex_spec (ready : DeltaReady base references attempted delta)
    (fits : ∀ id, world.repo.chunkIndex.refcount id + delta.references id < 2 ^ 32)
    (located : Located world.packs world.repo.chunkIndex)
    (committed : world.commitIndex base delta cached = .ok index) :
    (∀ id, index.refcount id = world.repo.chunkIndex.refcount id + delta.references id) ∧
      Located world.packs index := by
  obtain ⟨applied, stored, known, positive, same, entries⟩ :=
    commitIndex_applied ready fits committed
  constructor
  · intro id
    have counted := IndexDelta.refcount_applyTo known positive
      (fun id => (same id).symm ▸ fits id) id
    unfold ChunkIndex.refcount at counted ⊢
    rw [entries, counted, same]
  · intro id entry found
    rw [entries] at found
    rcases IndexDelta.locatedBy_applyTo applied _ id entry found with
      ⟨old, foundOld, sameLocation⟩ | ⟨new, listed, -, sameLocation⟩
    · have samePack : entry.packId = old.packId := congrArg Prod.fst sameLocation
      rw [samePack]
      exact located id old foundOld
    · have samePack : entry.packId = new.packId := congrArg Prod.fst sameLocation
      rw [samePack]
      exact List.all_eq_true.mp stored new listed

end Commit

section Sound

variable {hash : Bytes → PackId} {world next : World} {id : ClientId} {session : BackupSession}
  {input : CommitInput} {loaded : ChunkIndex} {references : List ChunkId}

section

variable (sound : world.Sound)

include sound

theorem World.Sound.phase {phase : Phase} (now : world.clients id = phase) :
    PhaseSound world.repo world.packs phase :=
  now ▸ sound.phases id

section

variable (now : world.clients id = .committing session)
  (fits : countsFit world.repo.chunkIndex session.stores = true)

include now fits

theorem World.Sound.ready (dataPack treePack : PackId) :
    DeltaReady session.base session.recording.references session.stores
        (finishSession session.recording.session dataPack treePack) ∧
      ∀ chunk, world.repo.chunkIndex.refcount chunk + (finishSession session.recording.session
        dataPack treePack).references chunk < 2 ^ 32 := by
  have covered : Recording.Covered session.base session.stores session.recording :=
    sound.phase now
  have ready := finishSession_ready covered.now dataPack treePack
  refine ⟨ready, fun chunk => ?_⟩
  have bound := countsFit_spec fits sound.accounted.bounded chunk
  exact lt_of_le_of_lt (Nat.add_le_add_left (ready.upper chunk) _) bound

variable (fresh : world.repo.snapshots.get? input.id = none)
  (handedOut : input.snapshot.references.Subperm session.recording.references)
  (unused : (world.repo.findSnapshot input.snapshot.name).isSome = false)

include fresh handedOut unused

theorem World.Sound.commitEmpty (isEmpty : (finishSession session.recording.session input.dataPack
      input.treePack).isEmpty = true) :
    PhaseSound world.repo world.packs (.indexed input.id input.snapshot) := by
  have ready := (sound.ready now fits input.dataPack input.treePack).1
  refine ⟨fresh, fun _ _ => Repository.name_ne_of_findSnapshot_none unused, fun chunk => ?_⟩
  have none := ready.references_of_isEmpty isEmpty chunk
  have counted := handedOut.count_le chunk
  have covered := sound.accounted.covered chunk
  omega

theorem World.Sound.commit (exclusive : ((world.write (.putIndex index)).withPhase id
      (.indexed input.id input.snapshot)).Exclusive)
    (committed : world.commitIndex session.base (finishSession session.recording.session
      input.dataPack input.treePack) input.cached = .ok index) :
    ((world.write (.putIndex index)).withPhase id (.indexed input.id input.snapshot)).Sound := by
  obtain ⟨ready, below⟩ := sound.ready now fits input.dataPack input.treePack
  obtain ⟨grown, located⟩ := commitIndex_spec ready below sound.located committed
  have held : (world.clients id).holdsLock = true := now ▸ rfl
  refine sound.act held exclusive ?_ located rfl ⟨fresh, fun _ _ =>
    Repository.name_ne_of_findSnapshot_none unused, fun chunk => ?_⟩
  · refine sound.accounted.putIndex (fun chunk => ?_) fun chunk => ?_
    · rw [grown]
      exact (sound.accounted.covered chunk).trans (Nat.le_add_right _ _)
    · rw [grown]
      exact below chunk
  · have counted := (handedOut.count_le chunk).trans (ready.lower chunk)
    exact (Nat.add_le_add (sound.accounted.covered chunk) counted).trans (grown chunk).ge

end

theorem World.Sound.deleteSnapshot {target : SnapshotId × Snapshot}
    {pending : List (SnapshotId × Snapshot)}
    (now : world.clients id = .removing loaded (target :: pending) references)
    (exclusive : ((world.write (.deleteSnapshot target.1)).withPhase id
      (.removing loaded pending references)).Exclusive) :
    ((world.write (.deleteSnapshot target.1)).withPhase id
      (.removing loaded pending references)).Sound := by
  obtain ⟨same, distinct, stored, counted⟩ := sound.phase now
  rw [List.map_cons, List.nodup_cons] at distinct
  refine sound.act (now ▸ rfl) exclusive (sound.accounted.deleteSnapshot target.1)
    sound.located rfl ⟨same, distinct.2, fun other listed => ?_, fun chunk => ?_⟩
  · have different : other.1 ≠ target.1 := by
      intro equal
      exact distinct.1 (equal ▸ List.mem_map_of_mem listed)
    exact (Dict.get?_remove _ _ _).trans
      ((if_neg different).trans (stored other (List.mem_cons_of_mem _ listed)))
  · have before := counted chunk
    have removed : world.repo.occurrences chunk = target.2.references.count chunk +
        (world.repo.apply (.deleteSnapshot target.1)).occurrences chunk :=
      Dict.total_remove (stored target List.mem_cons_self) _
    rw [List.flatMap_cons, List.count_append, removed] at before
    change (world.repo.apply (.deleteSnapshot target.1)).occurrences chunk +
      references.count chunk ≤ world.repo.chunkIndex.refcount chunk +
        (pending.flatMap fun target => target.2.references).count chunk
    omega

end

theorem get?_decrementAll {chunk : ChunkId} {entry : ChunkIndexEntry}
    (found : (index.decrementAll references).get? chunk = some entry) :
    ∃ old, index.get? chunk = some old ∧ entry.packId = old.packId := by
  induction references generalizing index with
  | nil => exact ⟨entry, found, rfl⟩
  | cons head tail ih =>
    obtain ⟨middle, foundMiddle, samePack⟩ :=
      @ih (index.decrement head).1 found
    unfold ChunkIndex.decrement at foundMiddle
    split at foundMiddle
    · rename_i old foundHead
      simp only at foundMiddle
      split at foundMiddle
      · rw [Dict.get?_remove] at foundMiddle
        split at foundMiddle
        · cases foundMiddle
        · exact ⟨middle, foundMiddle, samePack⟩
      · rw [Dict.get?_set] at foundMiddle
        split at foundMiddle
        · rename_i same
          cases foundMiddle
          exact ⟨old, same ▸ foundHead, samePack⟩
        · exact ⟨middle, foundMiddle, samePack⟩
    · exact ⟨middle, foundMiddle, samePack⟩

theorem World.Sound.save (sound : world.Sound)
    (now : world.clients id = .removing loaded [] references)
    (exclusive : ((world.write (.putIndex (loaded.decrementAll references))).withPhase id
      .finished).Exclusive) :
    ((world.write (.putIndex (loaded.decrementAll references))).withPhase id .finished).Sound := by
  obtain ⟨same, -, -, counted⟩ := sound.phase now
  have sameCount (chunk : ChunkId) :
      loaded.refcount chunk = world.repo.chunkIndex.refcount chunk := by
    unfold ChunkIndex.refcount
    rw [same]
  refine sound.act (now ▸ rfl) exclusive (sound.accounted.putIndex (fun chunk => ?_)
    fun chunk => ?_) (fun chunk entry found => ?_) rfl trivial
  · have before := counted chunk
    rw [List.flatMap_nil, List.count_nil] at before
    rw [ChunkIndex.refcount_decrementAll, sameCount]
    omega
  · rw [ChunkIndex.refcount_decrementAll, sameCount]
    exact lt_of_le_of_lt (Nat.sub_le _ _) (sound.accounted.bounded chunk)
  · obtain ⟨old, foundOld, samePack⟩ := get?_decrementAll found
    rw [samePack]
    rw [same] at foundOld
    exact sound.located chunk old foundOld

theorem World.Sound.write (sound : world.Sound) {pass : Compaction} {write : Compact.Write}
    {pending : List Compact.Write} (now : world.clients id = .compacting pass)
    (due : pass.pending = write :: pending)
    (exclusive : ((world.writeCompact write).withPhase id
      (.compacting { pass with pending })).Exclusive) :
    ((world.writeCompact write).withPhase id (.compacting { pass with pending })).Sound := by
  have safe : pass.Safe world.packs world.repo.chunkIndex := sound.phase now
  have held : (world.clients id).holdsLock = true := now ▸ rfl
  have isSafe := safe.pending
  rw [due] at isSafe
  cases write with
  | putPack packId file =>
    exact sound.act held exclusive sound.accounted
      (sound.located.grow (grown_set _ packId file)) rfl
      ⟨isSafe, safe.clean, safe.analysed, safe.emptied⟩
  | deletePack packId =>
    exact sound.act held exclusive sound.accounted (sound.located.remove isSafe.1) rfl
      ⟨isSafe.2, safe.clean, safe.analysed, safe.emptied⟩
  | putIndex index =>
    obtain ⟨located, counts, rest⟩ := isSafe
    refine sound.act held exclusive (sound.accounted.putIndex (fun chunk => ?_) fun chunk => ?_)
      located rfl ⟨rest, safe.clean, safe.analysed, safe.emptied⟩
    · rw [counts]
      exact sound.accounted.covered chunk
    · rw [counts]
      exact sound.accounted.bounded chunk

theorem World.Sound.step {event : Event} (sound : world.Sound)
    (stored : actsOnStored hash world event = true) (step : ClientStep hash world event next) :
    next.Sound := by
  have exclusive := step.exclusive sound.exclusive
  have unchanged := grown_refl world.packs
  cases step with
  | leave | register | probe | openMaintenance =>
    exact sound.move exclusive rfl unchanged rfl trivial
  | load | mount | lockMaintenance | deregister | checkSessions | saveUnchanged =>
    exact sound.move exclusive rfl unchanged rfl trivial
  | openBackup =>
    exact sound.move exclusive rfl unchanged rfl (Recording.start_covered _ _)
  | call phase stepped =>
    refine sound.move exclusive rfl unchanged rfl ?_
    simp only [actsOnStored, phase] at stored
    have covered : Recording.Covered _ _ _ := sound.phase phase
    refine covered.step (fun chunk => ?_) stepped
    exact lt_of_le_of_lt (Nat.le_add_left _ _)
      (countsFit_spec stored (fun _ => Nat.two_pow_pos 32) chunk)
  | @upload _ file =>
    have grown := grown_set world.packs (hash file) file
    exact ⟨exclusive, sound.accounted, sound.located.grow grown,
      fun client => (sound.phases client).grow grown⟩
  | lockBackup phase =>
    have covered : Recording.Covered _ _ _ := sound.phase phase
    exact sound.move exclusive rfl unchanged rfl covered
  | commitEmpty phase fresh handedOut unused isEmpty =>
    simp only [actsOnStored, phase] at stored
    exact sound.move exclusive rfl unchanged rfl
      (sound.commitEmpty phase stored fresh handedOut unused isEmpty)
  | commit phase fresh handedOut unused committed =>
    simp only [actsOnStored, phase] at stored
    exact sound.commit phase stored fresh handedOut unused exclusive committed
  | putSnapshot phase =>
    obtain ⟨fresh, unused, counted⟩ := sound.phase phase
    exact sound.act (phase ▸ rfl) exclusive (sound.accounted.putSnapshot fresh unused counted)
      sound.located rfl trivial
  | remove phase distinct targets =>
    simp only [actsOnStored, phase] at stored
    exact sound.move exclusive rfl unchanged rfl ⟨get?_eq_of_sameEntries stored, distinct,
      targets, fun chunk => Nat.add_le_add_right (sound.accounted.covered chunk) _⟩
  | deleteSnapshot phase => exact sound.deleteSnapshot phase exclusive
  | save phase => exact sound.save phase exclusive
  | compact phase started =>
    simp only [actsOnStored, phase] at stored
    exact sound.move exclusive rfl unchanged rfl
      (Compaction.start_safe (get?_eq_of_sameEntries stored) started)
  | turn phase written remaining turned =>
    simp only [actsOnStored, phase] at stored
    have safe : Compaction.Safe world.packs world.repo.chunkIndex _ := sound.phase phase
    exact sound.move exclusive rfl unchanged rfl
      (safe.turn remaining sound.located written stored turned)
  | write phase due => exact sound.write phase due exclusive
  | finish phase written worked =>
    have safe : Compaction.Safe world.packs world.repo.chunkIndex _ := sound.phase phase
    rw [safe.lastWrites worked] at exclusive ⊢
    exact sound.move exclusive rfl unchanged rfl trivial

theorem init_sound : World.init.Sound where
  exclusive := nofun
  accounted := Repository.init_accounted
  located := nofun
  phases _ := trivial

end Sound

/-- In every run in which maintenance acts on the stored index, after every step every chunk of
a stored snapshot is in the stored index, and the pack it points to is stored. -/
theorem referenced_chunks_stored (hash : Bytes → PackId) {world : World}
    (reached : (clientSystem hash).Reaches (fun world event => actsOnStored hash world event = true)
      world)
    {id : SnapshotId} {snapshot : Snapshot}
    (stored : world.repo.snapshots.get? id = some snapshot) {chunk : ChunkId}
    (referenced : chunk ∈ snapshot.references) :
    ∃ entry, world.repo.chunkIndex.get? chunk = some entry ∧
      (world.packs.get? entry.packId).isSome = true := by
  have sound : world.Sound := by
    refine reached.invariant World.Sound ?_ ?_
    · rintro world rfl
      exact init_sound
    · intro world event next sound permitted stepped
      exact sound.step permitted (.of_step stepped)
  obtain ⟨entry, found⟩ := Option.isSome_iff_exists.mp
    (sound.accounted.contains stored referenced)
  exact ⟨entry, found, sound.located chunk entry found⟩

def lengthHash (file : Bytes) : PackId := BitVec.ofNat 256 file.length

/-- A backup of one chunk, in a pack that also has the blobs `others`. -/
def backupRun (client : ClientId) (name : String) (id : SnapshotId) (chunk : ChunkId)
    (blob : Bytes) (others : List Bytes) : List Event :=
  let file := packBytes (blob :: others)
  [.session client .register, .session client .probe] ++
    [.openRepo fun _ => none, .call (.store chunk blob.length .data),
      .call (.flush (lengthHash file) .data), .upload file, .lock,
      .commit ⟨0, 0, id, ⟨name, [[chunk]], []⟩, true⟩, .putSnapshot, .deregister].map
        (.backup client) ++ [.leave client]

/-- `compact` from the moment it has opened the repository. -/
def compactRun (client : ClientId) (discovered : List PackId) : List Event :=
  [.lock, .checkSessions, .compact .plain (fun _ _ => true) none discovered, .turn, .write,
    .finish].map (.maintenance client) ++ [.leave client]

/-- Two backups, the first one deleted, and a compaction that removes its pack. -/
theorem referenced_chunks_stored_compacted :
    ∃ world, (clientSystem lengthHash).Reaches
        (fun world event => actsOnStored lengthHash world event = true) world ∧
      world.packs.get? 14 = none ∧
      ∃ entry, world.repo.chunkIndex.get? 6 = some entry ∧
        (world.packs.get? entry.packId).isSome = true := by
  let events := backupRun 0 "monday" 1 5 [1] [] ++ backupRun 0 "tuesday" 2 6 [2, 3] [] ++
    [.openRepo, .lock, .checkSessions, .remove [(1, ⟨"monday", [[5]], []⟩)], .deleteSnapshot,
      .save].map (.maintenance 1) ++ [.leave 1, .maintenance 1 .openRepo] ++
    compactRun 1 [14, 15]
  have start : (clientSystem lengthHash).Reaches
    (fun world event => actsOnStored lengthHash world event = true) .init := .initial rfl
  have executed : ∃ final ∈ (clientSystem lengthHash).run .init events,
      final.repo.snapshots.get? 2 = some ⟨"tuesday", [[6]], []⟩ ∧
        final.packs.get? 14 = none := by decide +kernel
  obtain ⟨world, reached, stored, deleted⟩ := start.exists_of_run events (by decide +kernel)
    executed
  exact ⟨world, reached, deleted, referenced_chunks_stored lengthHash reached stored (by decide)⟩

/-- A compaction that was opened before a backup and takes the lock after it deletes the pack of
the backup. -/
theorem stale_compaction_deletes_pack :
    ∃ world, (clientSystem lengthHash).Reaches (fun _ _ => True) world ∧
      ∃ snapshot, world.repo.snapshots.get? 1 = some snapshot ∧ 5 ∈ snapshot.references ∧
        ¬ ∃ entry, world.repo.chunkIndex.get? 5 = some entry ∧
          (world.packs.get? entry.packId).isSome = true := by
  let events := [.maintenance 1 .openRepo] ++ backupRun 0 "monday" 1 5 [1] [] ++ compactRun 1 [14]
  have start : (clientSystem lengthHash).Reaches (fun _ _ => True) .init := .initial rfl
  have executed : ∃ final ∈ (clientSystem lengthHash).run .init events,
      final.repo.snapshots.get? 1 = some ⟨"monday", [[5]], []⟩ ∧
        final.repo.chunkIndex.get? 5 = some ⟨1, 1, 14, 13⟩ ∧ final.packs.get? 14 = none := by
    decide +kernel
  obtain ⟨world, reached, stored, indexed, deleted⟩ := start.exists_of_run events
    (by decide +kernel) executed
  refine ⟨world, reached, _, stored, by decide, ?_⟩
  rintro ⟨entry, found, present⟩
  cases indexed.symm.trans found
  rw [deleted] at present
  cases present

end Vykar.Clients

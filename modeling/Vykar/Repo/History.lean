import Vykar.Lib.TransitionSystem
import Vykar.Lib.WriteLog
import Vykar.Repo.SessionRun

/-!
Reference counts over the history of a repository.

Backups commit the index before the snapshot (`commit_concurrent_session`);
delete and prune remove the snapshot objects before they save the index
(`commands/delete.rs`, `commands/prune.rs`).  Each command is a list of storage
writes computed from the repository it finds, and a crash cuts the list anywhere.
In every state of every history the stored index counts each chunk at least as
often as the stored snapshots refer to it.
-/

namespace Vykar.Repo

open Index WriteLog

/-- A stored snapshot: the chunk references of its items, and the chunks that hold the item
stream. -/
structure Snapshot where
  name : String
  items : List (List ChunkId)
  itemPtrs : List ChunkId
  deriving DecidableEq

def Snapshot.references (snapshot : Snapshot) : List ChunkId :=
  snapshot.items.flatten ++ snapshot.itemPtrs

structure Repository where
  index : Option ChunkIndex
  snapshots : Dict SnapshotId Snapshot

inductive Write where
  | putIndex (index : ChunkIndex)
  | putSnapshot (id : SnapshotId) (snapshot : Snapshot)
  | deleteSnapshot (id : SnapshotId)

namespace Repository

def init : Repository := ⟨some ∅, ∅⟩

/-- `reload_full_index`: an absent index is read as an empty one. -/
def chunkIndex (repo : Repository) : ChunkIndex := repo.index.getD ∅

def apply (repo : Repository) : Write → Repository
  | .putIndex index => { repo with index := some index }
  | .putSnapshot id snapshot => { repo with snapshots := repo.snapshots.set id snapshot }
  | .deleteSnapshot id => { repo with snapshots := repo.snapshots.remove id }

def occurrences (repo : Repository) (chunk : ChunkId) : Nat :=
  repo.snapshots.total fun _ snapshot => snapshot.references.count chunk

def findSnapshot (repo : Repository) (name : String) : Option (SnapshotId × Snapshot) :=
  repo.snapshots.toList.find? fun entry => entry.2.name = name

end Repository

/-- A backup: the calls on its session, the packs it seals last, and the snapshot it writes.
`cached` says whether the local copy of the stored index allows the fast path, `packsStored`
whether `verify_delta_packs` finds the packs of the delta. -/
structure BackupInput where
  journal : ChunkId → Option RecoveredChunkEntry
  ops : List SessionOp
  dataPack : PackId
  treePack : PackId
  id : SnapshotId
  snapshot : Snapshot
  cached : Bool
  packsStored : Bool

def BackupInput.stores (input : BackupInput) : List ChunkId := input.ops.flatMap SessionOp.stores

/-- The commands of a history.  `loadable` and `decodable` say whether the data read before
and after the deletion of snapshot objects can be read. -/
inductive Command where
  | backup (input : BackupInput)
  | delete (name : String) (loadable decodable : Bool)
  | prune (policy : Snapshot → Bool) (loadable decodable : Bool)

/-- `flush_packs`, and the delta taken from the session. -/
def finishSession (session : WriteSession) (dataPack treePack : PackId) : IndexDelta :=
  ((session.flushWriter dataPack .data).flushWriter treePack .tree).delta

def commitIndex (repo : Repository) (delta : IndexDelta) (cached packsStored : Bool) :
    Except CommitError ChunkIndex :=
  if repo.index.isSome ∧ cached = true then
    if packsStored then .ok (fastPathIndex repo.chunkIndex delta) else .error .packsMissing
  else do
    let reconciled ← delta.reconcile repo.chunkIndex
    if packsStored then .ok (reconciled.applyTo repo.chunkIndex) else .error .packsMissing

/-- `commit_concurrent_session_with_progress` -/
def commitWrites (repo : Repository) (delta : IndexDelta) (input : BackupInput) :
    Except CommitError (List Write) :=
  if (repo.findSnapshot input.snapshot.name).isSome then
    .error (.snapshotAlreadyExists input.snapshot.name)
  else if delta.isEmpty then .ok [.putSnapshot input.id input.snapshot]
  else do
    let index ← commitIndex repo delta input.cached input.packsStored
    .ok [.putIndex index, .putSnapshot input.id input.snapshot]

/-- The writes of a backup; a failed commit writes nothing.  A snapshot is given a fresh id
and is made of references that the session handed out. -/
def backupWrites (repo : Repository) (input : BackupInput) : Option (List Write) := do
  let recording ← (Recording.start repo.chunkIndex input.journal).run input.ops
  if repo.snapshots.get? input.id = none ∧
      input.snapshot.references.Subperm recording.references then
    let delta := finishSession recording.session input.dataPack input.treePack
    some ((commitWrites repo delta input).toOption.getD [])
  else none

/-- `save_state` after a removal: the index is dirty when a reference was decremented. -/
def saveDecremented (repo : Repository) (references : List ChunkId) : List Write :=
  if references.isEmpty then [] else [.putIndex (repo.chunkIndex.decrementAll references)]

def deleteWrites (repo : Repository) (name : String) (loadable decodable : Bool) : List Write :=
  match repo.findSnapshot name with
  | none => []
  | some (id, snapshot) =>
    if loadable then
      .deleteSnapshot id ::
        if decodable then saveDecremented repo snapshot.references else []
    else []

/-- Phase 1 of `prune`: find every snapshot to be pruned by its name. -/
def pruneTargets (repo : Repository) : List String → Option (List (SnapshotId × Snapshot))
  | [] => some []
  | name :: names => do
      let target ← repo.findSnapshot name
      let targets ← pruneTargets repo names
      some (target :: targets)

def toPrune (repo : Repository) (policy : Snapshot → Bool) : List String :=
  ((repo.snapshots.toList.filter fun entry => policy entry.2).map fun entry =>
    entry.2.name).reverse

def pruneWrites (repo : Repository) (policy : Snapshot → Bool) (loadable decodable : Bool) :
    List Write :=
  match pruneTargets repo (toPrune repo policy) with
  | none => []
  | some targets =>
    if loadable then
      targets.map (fun target => .deleteSnapshot target.1) ++
        if decodable then
          saveDecremented repo (targets.flatMap fun target => target.2.references)
        else []
    else []

def commandWrites (repo : Repository) : Command → Option (List Write)
  | .backup input => backupWrites repo input
  | .delete name loadable decodable => some (deleteWrites repo name loadable decodable)
  | .prune policy loadable decodable => some (pruneWrites repo policy loadable decodable)

/-- Histories of commands, each cut before one of its writes or complete. -/
def history : TransitionSystem Repository (Command × Nat) where
  initial repo := repo = .init
  step repo event := do
    let writes ← commandWrites repo event.1
    some (applyAll Repository.apply repo (writes.take event.2))

/-- The counters of a session and of the index stay below `2 ^ 32`. -/
def CountsFit (repo : Repository) (event : Command × Nat) : Prop :=
  match event.1 with
  | .backup input => ∀ chunk ∈ input.stores,
      repo.chunkIndex.refcount chunk + input.stores.count chunk < 2 ^ 32
  | .delete _ _ _ | .prune _ _ _ => True

-- Only the stored chunks are looked at; the instance for all bit vectors would try each.
instance (repo : Repository) : (event : Command × Nat) → Decidable (CountsFit repo event)
  | (.backup input, _) => List.decidableBAll (fun chunk =>
    repo.chunkIndex.refcount chunk + input.stores.count chunk < 2 ^ 32) input.stores
  | (.delete _ _ _, _) => inferInstanceAs (Decidable True)
  | (.prune _ _ _, _) => inferInstanceAs (Decidable True)

/-- The invariant of a repository: names are distinct, and the index covers the snapshots. -/
structure Repository.Accounted (repo : Repository) : Prop where
  names : ∀ first second firstSnapshot secondSnapshot,
    repo.snapshots.get? first = some firstSnapshot →
    repo.snapshots.get? second = some secondSnapshot →
    firstSnapshot.name = secondSnapshot.name → first = second
  covered : ∀ chunk, repo.occurrences chunk ≤ repo.chunkIndex.refcount chunk
  bounded : ∀ chunk, repo.chunkIndex.refcount chunk < 2 ^ 32

namespace Repository

variable {repo : Repository} {name : String} {id : SnapshotId} {snapshot : Snapshot}
  {chunk : ChunkId} {targets : List (SnapshotId × Snapshot)}

theorem findSnapshot_eq_some (found : repo.findSnapshot name = some (id, snapshot)) :
    repo.snapshots.get? id = some snapshot ∧ snapshot.name = name := by
  unfold findSnapshot at found
  refine ⟨Dict.get?_eq_some_iff.mpr (List.mem_of_find?_eq_some found), ?_⟩
  simpa using List.find?_some found

theorem name_ne_of_findSnapshot_none (missing : (repo.findSnapshot name).isSome = false)
    (stored : repo.snapshots.get? id = some snapshot) : snapshot.name ≠ name := by
  unfold findSnapshot at missing
  rw [Option.isSome_eq_false_iff, Option.isNone_iff_eq_none, List.find?_eq_none] at missing
  simpa using missing _ (Dict.get?_eq_some_iff.mp stored)

theorem count_le_occurrences (stored : repo.snapshots.get? id = some snapshot)
    (chunk : ChunkId) : snapshot.references.count chunk ≤ repo.occurrences chunk := by
  unfold occurrences
  rw [Dict.total_remove stored]
  exact Nat.le_add_right _ _

theorem occurrences_deleteSnapshot_le (repo : Repository) (id : SnapshotId) (chunk : ChunkId) :
    (repo.apply (.deleteSnapshot id)).occurrences chunk ≤ repo.occurrences chunk := by
  cases stored : repo.snapshots.get? id with
  | none =>
    have absent : id ∉ repo.snapshots := AList.lookup_eq_none.mp stored
    simp only [apply, occurrences, Dict.remove, Dict.total, AList.erase]
    rw [List.kerase_of_notMem_keys absent]
  | some snapshot =>
    unfold occurrences
    rw [Dict.total_remove stored]
    exact Nat.le_add_left _ _

theorem Accounted.deleteSnapshot (accounted : repo.Accounted) (id : SnapshotId) :
    (repo.apply (.deleteSnapshot id)).Accounted where
  names first second firstSnapshot secondSnapshot firstStored secondStored := by
    simp only [apply, Dict.get?_remove] at firstStored secondStored
    split at firstStored
    · cases firstStored
    · split at secondStored
      · cases secondStored
      · exact accounted.names _ _ _ _ firstStored secondStored
  covered chunk := (occurrences_deleteSnapshot_le repo id chunk).trans (accounted.covered chunk)
  bounded := accounted.bounded

theorem Accounted.putIndex (accounted : repo.Accounted) {index : ChunkIndex}
    (covered : ∀ chunk, repo.occurrences chunk ≤ index.refcount chunk)
    (bounded : ∀ chunk, index.refcount chunk < 2 ^ 32) :
    (repo.apply (.putIndex index)).Accounted :=
  ⟨accounted.names, covered, bounded⟩

theorem Accounted.putSnapshot (accounted : repo.Accounted)
    (freshId : repo.snapshots.get? id = none)
    (freshName : ∀ other stored, repo.snapshots.get? other = some stored →
      stored.name ≠ snapshot.name)
    (covered : ∀ chunk, repo.occurrences chunk + snapshot.references.count chunk ≤
      repo.chunkIndex.refcount chunk) :
    (repo.apply (.putSnapshot id snapshot)).Accounted where
  names first second firstSnapshot secondSnapshot firstStored secondStored sameName := by
    simp only [apply, Dict.get?_set] at firstStored secondStored
    split at firstStored <;> split at secondStored
    · rename_i firstNew secondNew
      rw [firstNew, secondNew]
    · cases firstStored
      exact absurd sameName.symm (freshName _ _ secondStored)
    · cases secondStored
      exact absurd sameName (freshName _ _ firstStored)
    · exact accounted.names _ _ _ _ firstStored secondStored sameName
  covered chunk := by
    have counted := covered chunk
    unfold occurrences at *
    simp only [apply]
    rw [Dict.total_set_of_absent freshId, Nat.add_comm]
    exact counted
  bounded := accounted.bounded

theorem occurrences_deleteSnapshots (distinct : (targets.map Prod.fst).Nodup)
    (stored : ∀ target ∈ targets, repo.snapshots.get? target.1 = some target.2) (chunk : ChunkId) :
    repo.occurrences chunk =
      (targets.flatMap fun target => target.2.references).count chunk +
        (applyAll apply repo (targets.map fun target => .deleteSnapshot target.1)).occurrences
          chunk := by
  induction targets generalizing repo with
  | nil => simp [applyAll]
  | cons target targets ih =>
    rw [List.map_cons, List.nodup_cons] at distinct
    have first : repo.occurrences chunk = target.2.references.count chunk +
        (repo.apply (.deleteSnapshot target.1)).occurrences chunk :=
      Dict.total_remove (stored target List.mem_cons_self) _
    have storedLater : ∀ other ∈ targets,
        (repo.apply (.deleteSnapshot target.1)).snapshots.get? other.1 = some other.2 := by
      intro other listed
      have different : other.1 ≠ target.1 := by
        intro same
        exact distinct.1 (same ▸ List.mem_map_of_mem listed)
      simp only [apply, Dict.get?_remove, different, if_false]
      exact stored other (List.mem_cons_of_mem _ listed)
    have later := ih distinct.2 storedLater
    rw [List.flatMap_cons, List.count_append, List.map_cons]
    unfold applyAll at later ⊢
    rw [List.foldl_cons]
    omega

/-- Removing stored snapshots and then their references keeps the accounts, wherever it
stops. -/
theorem Accounted.removal (accounted : repo.Accounted) (distinct : (targets.map Prod.fst).Nodup)
    (stored : ∀ target ∈ targets, repo.snapshots.get? target.1 = some target.2) (decodable : Bool) :
    Throughout apply Accounted repo (targets.map (fun target => .deleteSnapshot target.1) ++
      if decodable then saveDecremented repo (targets.flatMap fun target => target.2.references)
      else []) := by
  have deletions : Throughout apply Accounted repo
      (targets.map fun target => .deleteSnapshot target.1) := by
    apply Throughout.of_preserved accounted
    intro write listed other good
    obtain ⟨target, -, rfl⟩ := List.mem_map.mp listed
    exact good.deleteSnapshot target.1
  refine deletions.append ?_
  have deleted := deletions.last
  split
  · unfold saveDecremented
    split
    · exact deleted
    · refine ⟨deleted, deleted.putIndex (fun chunk => ?_) fun chunk => ?_⟩
      · have before := occurrences_deleteSnapshots distinct stored chunk
        have covered := accounted.covered chunk
        rw [ChunkIndex.refcount_decrementAll]
        omega
      · rw [ChunkIndex.refcount_decrementAll]
        exact lt_of_le_of_lt (Nat.sub_le _ _) (accounted.bounded chunk)
  · exact deleted

theorem Accounted.deleteWrites (accounted : repo.Accounted) (name : String)
    (loadable decodable : Bool) :
    Throughout apply Accounted repo (deleteWrites repo name loadable decodable) := by
  unfold Repo.deleteWrites
  split
  · exact accounted
  · rename_i id snapshot found
    split
    · have stored := (findSnapshot_eq_some found).1
      have removal := @Accounted.removal repo [(id, snapshot)] accounted (List.nodup_singleton id)
        (by simpa using stored) decodable
      simpa using removal
    · exact accounted

theorem pruneTargets_spec {names : List String} (found : pruneTargets repo names = some targets) :
    (targets.map fun target => target.2.name) = names ∧
      ∀ target ∈ targets, repo.snapshots.get? target.1 = some target.2 := by
  induction names generalizing targets with
  | nil =>
    cases found
    exact ⟨rfl, fun target listed => by cases listed⟩
  | cons name names ih =>
    obtain ⟨first, firstFound, rest⟩ := Option.bind_eq_some_iff.mp found
    obtain ⟨others, othersFound, same⟩ := Option.bind_eq_some_iff.mp rest
    cases same
    obtain ⟨stored, named⟩ := findSnapshot_eq_some firstFound
    obtain ⟨othersNamed, othersStored⟩ := ih othersFound
    refine ⟨by rw [List.map_cons, named, othersNamed], fun target listed => ?_⟩
    rcases List.mem_cons.mp listed with rfl | later
    · exact stored
    · exact othersStored target later

theorem Accounted.toPrune_nodup (accounted : repo.Accounted) (policy : Snapshot → Bool) :
    (toPrune repo policy).Nodup := by
  unfold toPrune
  rw [List.nodup_reverse]
  have entriesNodup : (repo.snapshots.toList.filter fun entry => policy entry.2).Nodup := by
    apply List.Nodup.filter
    apply List.Nodup.of_map Prod.fst
    rw [Dict.toList_keys]
    exact Dict.keysList_nodup _
  refine entriesNodup.map_on fun first firstListed second secondListed sameName => ?_
  have firstStored := Dict.get?_eq_some_iff.mpr (List.mem_of_mem_filter firstListed)
  have secondStored := Dict.get?_eq_some_iff.mpr (List.mem_of_mem_filter secondListed)
  have sameId := accounted.names _ _ _ _ firstStored secondStored sameName
  rw [sameId] at firstStored
  exact Prod.ext sameId (Option.some.inj (firstStored.symm.trans secondStored))

theorem Accounted.pruneWrites (accounted : repo.Accounted) (policy : Snapshot → Bool)
    (loadable decodable : Bool) :
    Throughout apply Accounted repo (pruneWrites repo policy loadable decodable) := by
  unfold Repo.pruneWrites
  split
  · exact accounted
  · rename_i targets found
    split
    · obtain ⟨named, stored⟩ := pruneTargets_spec found
      have distinct := accounted.toPrune_nodup policy
      refine accounted.removal ?_ stored decodable
      rw [← named, List.Nodup, List.pairwise_map] at distinct
      rw [List.Nodup, List.pairwise_map]
      refine distinct.imp_of_mem fun firstListed secondListed differentNames sameId => ?_
      have sameSnapshot := stored _ firstListed
      rw [sameId, stored _ secondListed] at sameSnapshot
      exact differentNames (congrArg Snapshot.name (Option.some.inj sameSnapshot.symm))
    · exact accounted

end Repository

section Commit

variable {base : ChunkIndex} {references attempted : List ChunkId} {session : WriteSession}
  {repo : Repository} {delta : IndexDelta} {index : ChunkIndex}

structure DeltaReady (base : ChunkIndex) (references attempted : List ChunkId)
    (delta : IndexDelta) : Prop where
  fresh : delta.Fresh base
  known : delta.BumpsKnown base
  positive : ∀ entry ∈ delta.newEntries, 1 ≤ entry.refcount
  lower : ∀ id, references.count id ≤ delta.references id
  upper : ∀ id, delta.references id ≤ attempted.count id

theorem finishSession_ready (between : Recording.Between base references attempted session)
    (dataPack treePack : PackId) :
    DeltaReady base references attempted (finishSession session dataPack treePack) := by
  have flushed := (between.flushWriter dataPack .data).flushWriter treePack .tree
  have allHeld (id : ChunkId) :
      ((session.flushWriter dataPack .data).flushWriter treePack .tree).held id =
        (finishSession session dataPack treePack).references id := rfl
  refine ⟨flushed.sound.fresh, ?_, flushed.sound.counted.entries, fun id => ?_, fun id => ?_⟩
  · intro id bumped
    have isKnown := (flushed.sound.known id).mp (flushed.sound.bumped id bumped)
    simpa [finishSession] using isKnown
  · rw [← allHeld]
    exact flushed.lower id
  · rw [← allHeld]
    exact flushed.upper id

/-- Both commit paths add exactly the references of the delta to the stored index. -/
theorem commitIndex_refcount (ready : DeltaReady repo.chunkIndex references attempted delta)
    (fits : ∀ id, repo.chunkIndex.refcount id + delta.references id < 2 ^ 32)
    {cached packsStored : Bool} (committed : commitIndex repo delta cached packsStored = .ok index)
    (id : ChunkId) :
    index.refcount id = repo.chunkIndex.refcount id + delta.references id := by
  unfold commitIndex at committed
  split at committed
  · split at committed
    · cases committed
      exact refcount_fastPathIndex ready.fresh ready.known fits id
    · cases committed
  · cases reconciled : delta.reconcile repo.chunkIndex with
    | error failure =>
      rw [reconciled] at committed
      cases committed
    | ok result =>
      rw [reconciled] at committed
      obtain ⟨known, entries, same⟩ := IndexDelta.reconcile_ok
        (fun id => lt_of_le_of_lt (Nat.le_add_left _ _) (fits id)) reconciled
      cases packsStored with
      | false => cases committed
      | true =>
        cases committed
        rw [IndexDelta.refcount_applyTo known
          (fun entry listed => ready.positive entry (entries entry listed))
          (fun id => (same id).symm ▸ fits id), same]

theorem DeltaReady.references_of_isEmpty (ready : DeltaReady base references attempted delta)
    (isEmpty : delta.isEmpty = true) (id : ChunkId) : references.count id = 0 := by
  simp only [IndexDelta.isEmpty, Bool.and_eq_true, List.isEmpty_iff] at isEmpty
  have noBumps := IndexDelta.bumpReferences_toList delta.refcountBumps id
  rw [isEmpty.2] at noBumps
  have bound := ready.lower id
  simp only [IndexDelta.references, isEmpty.1, ← noBumps, IndexDelta.newReferences,
    IndexDelta.bumpReferences, List.map_nil, List.sum_nil] at bound
  omega

variable {input : BackupInput} {writes : List Write}

theorem Repository.Accounted.commitWrites (accounted : repo.Accounted)
    (ready : DeltaReady repo.chunkIndex references attempted delta)
    (fits : ∀ id, repo.chunkIndex.refcount id + delta.references id < 2 ^ 32)
    (freshId : repo.snapshots.get? input.id = none)
    (handedOut : input.snapshot.references.Subperm references)
    (committed : commitWrites repo delta input = .ok writes) :
    Throughout Repository.apply Accounted repo writes := by
  unfold Repo.commitWrites at committed
  split at committed
  · cases committed
  · rename_i unused
    have freshName : ∀ other stored, repo.snapshots.get? other = some stored →
        stored.name ≠ input.snapshot.name := fun other stored =>
      name_ne_of_findSnapshot_none (Bool.eq_false_iff.mpr unused)
    split at committed
    · rename_i isEmpty
      cases committed
      refine ⟨accounted, accounted.putSnapshot freshId freshName fun chunk => ?_⟩
      have none := ready.references_of_isEmpty isEmpty chunk
      have counted := handedOut.count_le chunk
      have covered := accounted.covered chunk
      omega
    · cases indexed : commitIndex repo delta input.cached input.packsStored with
      | error failure =>
        rw [indexed] at committed
        cases committed
      | ok index =>
        rw [indexed] at committed
        cases committed
        have grown := commitIndex_refcount ready fits indexed
        have indexPut : (repo.apply (.putIndex index)).Accounted := by
          refine accounted.putIndex (fun chunk => ?_) fun chunk => ?_
          · rw [grown]
            exact (accounted.covered chunk).trans (Nat.le_add_right _ _)
          · rw [grown]
            exact fits chunk
        refine ⟨accounted, indexPut, indexPut.putSnapshot freshId freshName fun chunk => ?_⟩
        have counted := (handedOut.count_le chunk).trans (ready.lower chunk)
        exact (Nat.add_le_add (accounted.covered chunk) counted).trans (grown chunk).ge

theorem Repository.Accounted.backupWrites (accounted : repo.Accounted)
    (fits : ∀ chunk ∈ input.stores,
      repo.chunkIndex.refcount chunk + input.stores.count chunk < 2 ^ 32)
    (written : backupWrites repo input = some writes) :
    Throughout Repository.apply Accounted repo writes := by
  have fitsAll (chunk : ChunkId) :
      repo.chunkIndex.refcount chunk + input.stores.count chunk < 2 ^ 32 := by
    by_cases isStored : chunk ∈ input.stores
    · exact fits chunk isStored
    · rw [List.count_eq_zero_of_not_mem isStored]
      exact accounted.bounded chunk
  obtain ⟨recording, ran, rest⟩ := Option.bind_eq_some_iff.mp written
  split at rest
  · rename_i guarded
    cases rest
    have covered := (Recording.start_covered repo.chunkIndex input.journal).run
      (fun id => by
        have bound := fitsAll id
        rw [List.nil_append]
        exact lt_of_le_of_lt (Nat.le_add_left _ _) bound) ran
    rw [List.nil_append] at covered
    have ready := finishSession_ready covered.now input.dataPack input.treePack
    cases committed : Repo.commitWrites repo
        (finishSession recording.session input.dataPack input.treePack) input with
    | error failure => exact accounted
    | ok writes =>
      refine accounted.commitWrites ready (fun id => ?_) guarded.1 guarded.2 committed
      exact lt_of_le_of_lt (Nat.add_le_add_left (ready.upper id) _) (fitsAll id)
  · cases rest

end Commit

variable {repo : Repository}

theorem Repository.Accounted.step {next : Repository} {event : Command × Nat}
    (accounted : repo.Accounted) (fits : CountsFit repo event)
    (stepped : history.step repo event = some next) : next.Accounted := by
  obtain ⟨command, cut⟩ := event
  obtain ⟨writes, written, applied⟩ := Option.bind_eq_some_iff.mp stepped
  cases applied
  suffices throughout : Throughout Repository.apply Accounted repo writes from throughout.cut cut
  cases command with
  | backup input => exact accounted.backupWrites fits written
  | delete name loadable decodable =>
    cases written
    exact accounted.deleteWrites name loadable decodable
  | prune policy loadable decodable =>
    cases written
    exact accounted.pruneWrites policy loadable decodable

theorem Repository.init_accounted : Repository.init.Accounted where
  names first second firstSnapshot secondSnapshot firstStored := by cases firstStored
  covered chunk := by simp [occurrences, init]
  bounded chunk := by simp [chunkIndex, init]

theorem Repository.Accounted.contains (accounted : repo.Accounted) {id : SnapshotId}
    {snapshot : Snapshot} (stored : repo.snapshots.get? id = some snapshot) {chunk : ChunkId}
    (referenced : chunk ∈ snapshot.references) :
    repo.chunkIndex.contains chunk = true := by
  apply ChunkIndex.contains_of_refcount_pos
  calc 0 < snapshot.references.count chunk := List.count_pos_iff.mpr referenced
    _ ≤ repo.occurrences chunk := Repository.count_le_occurrences stored chunk
    _ ≤ repo.chunkIndex.refcount chunk := accounted.covered chunk

/-- After every history of commands, cut or complete, the stored index counts every chunk at
least as often as the stored snapshots refer to it, and has every chunk they refer to. -/
theorem refcount_covers_snapshots {repo : Repository} (reached : history.Reaches CountsFit repo) :
    (∀ chunk, repo.occurrences chunk ≤ repo.chunkIndex.refcount chunk) ∧
      ∀ id snapshot, repo.snapshots.get? id = some snapshot →
        ∀ chunk ∈ snapshot.references, repo.chunkIndex.contains chunk = true := by
  have accounted : repo.Accounted := by
    refine reached.invariant Repository.Accounted ?_ ?_
    · rintro state rfl
      exact Repository.init_accounted
    · intro state event next accounted fits stepped
      exact accounted.step fits stepped
  exact ⟨accounted.covered, fun id snapshot stored chunk => accounted.contains stored⟩

/-- Two backups of a shared chunk, the first of them cut before its snapshot is written and
then repeated, and a delete that is cut before it saves the index. -/
def sharedChunkHistory : List (Command × Nat) :=
  let backup (name : String) (id : SnapshotId) (pointer : ChunkId) : Command := .backup {
    journal := fun _ => none
    ops := [.store 7 100 .data, .flush 70 .data, .reuse 7, .store pointer 50 .tree]
    dataPack := 71
    treePack := 72
    id := id
    snapshot := ⟨name, [[7], [7]], [pointer]⟩
    cached := true
    packsStored := true }
  [(backup "monday" 1 8, 1), (backup "monday" 2 8, 2), (backup "tuesday" 3 9, 2),
    (.delete "monday" true true, 1)]

theorem refcount_covers_snapshots_shared :
    ∃ repo, history.Reaches CountsFit repo ∧ repo.occurrences 7 = 2 ∧
      repo.chunkIndex.refcount 7 = 6 ∧ repo.occurrences 7 ≤ repo.chunkIndex.refcount 7 := by
  have start : history.Reaches CountsFit Repository.init := .initial rfl
  have executed : ∃ final ∈ history.run .init sharedChunkHistory,
      final.occurrences 7 = 2 ∧ final.chunkIndex.refcount 7 = 6 := by decide +kernel
  obtain ⟨repo, reached, counted⟩ := start.exists_of_run sharedChunkHistory (by decide +kernel)
    executed
  exact ⟨repo, reached, counted.1, counted.2, (refcount_covers_snapshots reached).1 7⟩

end Vykar.Repo

import Vykar.Clients.Model

/-!
The steps of the clients, one constructor each, and what every run keeps of the lock and of
the session markers.
-/

namespace Vykar.Clients

open Index Pack Repo

inductive ClientStep (hash : Bytes → PackId) (world : World) : Event → World → Prop where
  | leave {id : ClientId} {event : Event} : ClientStep hash world event (world.leave id)
  | register {id : ClientId} (phase : world.clients id = .idle) :
      ClientStep hash world (.session id .register)
        ((world.register id).withPhase id .registered)
  | probe {id : ClientId} (phase : world.clients id = .registered) (free : world.lock = none) :
      ClientStep hash world (.session id .probe) (world.withPhase id .admitted)
  | openBackup {id : ClientId} {journal : ChunkId → Option RecoveredChunkEntry}
      (phase : world.clients id = .admitted) :
      ClientStep hash world (.backup id (.openRepo journal))
        (world.withPhase id
          (.writing ⟨world.repo.chunkIndex, .start world.repo.chunkIndex journal, []⟩))
  | call {id : ClientId} {session : BackupSession} {op : SessionOp} {recording : Recording}
      (phase : world.clients id = .writing session)
      (stepped : session.recording.step op = some recording) :
      ClientStep hash world (.backup id (.call op))
        (world.withPhase id
          (.writing { session with recording, stores := session.stores ++ op.stores }))
  | upload {id : ClientId} {file : Bytes} :
      ClientStep hash world (.backup id (.upload file)) (world.putPack (hash file) file)
  | lockBackup {id : ClientId} {session : BackupSession}
      (phase : world.clients id = .writing session) (free : world.lock = none) :
      ClientStep hash world (.backup id .lock)
        ({ world with lock := some id }.withPhase id (.committing session))
  | commitEmpty {id : ClientId} {session : BackupSession} {input : CommitInput}
      (phase : world.clients id = .committing session)
      (fresh : world.repo.snapshots.get? input.id = none)
      (handedOut : input.snapshot.references.Subperm session.recording.references)
      (unused : (world.repo.findSnapshot input.snapshot.name).isSome = false)
      (isEmpty : (finishSession session.recording.session input.dataPack
        input.treePack).isEmpty = true) :
      ClientStep hash world (.backup id (.commit input))
        (world.withPhase id (.indexed input.id input.snapshot))
  | commit {id : ClientId} {session : BackupSession} {input : CommitInput} {index : ChunkIndex}
      (phase : world.clients id = .committing session)
      (fresh : world.repo.snapshots.get? input.id = none)
      (handedOut : input.snapshot.references.Subperm session.recording.references)
      (unused : (world.repo.findSnapshot input.snapshot.name).isSome = false)
      (committed : world.commitIndex session.base (finishSession session.recording.session
        input.dataPack input.treePack) input.cached = .ok index) :
      ClientStep hash world (.backup id (.commit input))
        ((world.write (.putIndex index)).withPhase id (.indexed input.id input.snapshot))
  | putSnapshot {id : ClientId} {snapshotId : SnapshotId} {snapshot : Snapshot}
      (phase : world.clients id = .indexed snapshotId snapshot) :
      ClientStep hash world (.backup id .putSnapshot)
        ((world.write (.putSnapshot snapshotId snapshot)).withPhase id .committed)
  | deregister {id : ClientId} (phase : world.clients id = .committed) :
      ClientStep hash world (.backup id .deregister)
        ((world.deregister id).withPhase id .deregistered)
  | openMaintenance {id : ClientId} (phase : world.clients id = .idle) :
      ClientStep hash world (.maintenance id .openRepo)
        (world.withPhase id (.opened world.repo.chunkIndex world.repo.snapshots.keysList))
  | lockMaintenance {id : ClientId} {loaded : ChunkIndex} {listed : List SnapshotId}
      (phase : world.clients id = .opened loaded listed) (free : world.lock = none) :
      ClientStep hash world (.maintenance id .lock)
        ({ world with lock := some id }.withPhase id (.locked loaded listed))
  | checkSessions {id : ClientId} {loaded : ChunkIndex} {listed : List SnapshotId}
      (phase : world.clients id = .locked loaded listed) (alone : world.sessions = []) :
      ClientStep hash world (.maintenance id .checkSessions)
        (world.withPhase id (.checked loaded listed))
  | remove {id : ClientId} {loaded : ChunkIndex} {listed : List SnapshotId}
      {targets : List (SnapshotId × Snapshot)}
      (phase : world.clients id = .checked loaded listed)
      (distinct : (targets.map Prod.fst).Nodup)
      (stored : ∀ target ∈ targets, world.repo.snapshots.get? target.1 = some target.2) :
      ClientStep hash world (.maintenance id (.remove targets))
        (world.withPhase id (.removing loaded targets
          (targets.flatMap fun target => target.2.references)))
  | deleteSnapshot {id : ClientId} {loaded : ChunkIndex} {target : SnapshotId × Snapshot}
      {pending : List (SnapshotId × Snapshot)} {references : List ChunkId}
      (phase : world.clients id = .removing loaded (target :: pending) references) :
      ClientStep hash world (.maintenance id .deleteSnapshot)
        ((world.write (.deleteSnapshot target.1)).withPhase id
          (.removing loaded pending references))
  | saveUnchanged {id : ClientId} {loaded : ChunkIndex}
      (phase : world.clients id = .removing loaded [] []) :
      ClientStep hash world (.maintenance id .save) (world.withPhase id .finished)
  | save {id : ClientId} {loaded : ChunkIndex} {references : List ChunkId}
      (phase : world.clients id = .removing loaded [] references) :
      ClientStep hash world (.maintenance id .save)
        ((world.write (.putIndex (loaded.decrementAll references))).withPhase id .finished)
  | compact {id : ClientId} {loaded : ChunkIndex} {listed : List SnapshotId}
      {backend : Compact.Backend} {wasteful : Nat → Nat → Bool} {cap : Option UInt64}
      {discovered : List PackId} {pass : Compaction}
      (phase : world.clients id = .checked loaded listed)
      (started : Compaction.start backend wasteful cap discovered loaded world.packs =
        some pass) :
      ClientStep hash world (.maintenance id (.compact backend wasteful cap discovered))
        (world.withPhase id (.compacting pass))
  | turn {id : ClientId} {pass next : Compaction} {analysis : Compact.PackAnalysis}
      {rest : List Compact.PackAnalysis} (phase : world.clients id = .compacting pass)
      (written : pass.pending = []) (remaining : pass.remaining = analysis :: rest)
      (turned : pass.turn hash world.packs analysis rest = some next) :
      ClientStep hash world (.maintenance id .turn) (world.withPhase id (.compacting next))
  | write {id : ClientId} {pass : Compaction} {write : Compact.Write}
      {pending : List Compact.Write} (phase : world.clients id = .compacting pass)
      (due : pass.pending = write :: pending) :
      ClientStep hash world (.maintenance id .write)
        ((world.writeCompact write).withPhase id (.compacting { pass with pending }))
  | finish {id : ClientId} {pass : Compaction} (phase : world.clients id = .compacting pass)
      (written : pass.pending = []) (worked : pass.remaining = []) :
      ClientStep hash world (.maintenance id .finish)
        ((pass.lastWrites.foldl World.writeCompact world).withPhase id .finished)
  | load {id : ClientId} (phase : world.clients id = .admitted) :
      ClientStep hash world (.reader id .load)
        (world.withPhase id (.reading world.repo.chunkIndex world.packs))
  | mount {id : ClientId} (phase : world.clients id = .idle) :
      ClientStep hash world (.reader id .mount)
        (world.withPhase id (.reading world.repo.chunkIndex world.packs))

section Inversion

variable {hash : Bytes → PackId} {world next : World} {id : ClientId}

theorem ClientStep.of_session {event : SessionEvent}
    (stepped : sessionStep world id (world.clients id) event = some next) :
    ClientStep hash world (.session id event) next := by
  unfold sessionStep at stepped
  split at stepped
  case h_1 phase =>
    cases stepped
    exact .register phase
  case h_2 phase =>
    split at stepped
    · rename_i free
      cases stepped
      exact .probe phase free
    · cases stepped
      exact .leave
  case h_3 => cases stepped

theorem ClientStep.of_commit {session : BackupSession} {input : CommitInput}
    (phase : world.clients id = .committing session)
    (stepped : world.commit id session input = some next) :
    ClientStep hash world (.backup id (.commit input)) next := by
  unfold World.commit at stepped
  split at stepped
  · rename_i guarded
    simp only at stepped
    split at stepped
    · cases stepped
      exact .leave
    · rename_i unused
      have free := Bool.eq_false_iff.mpr unused
      split at stepped
      · rename_i isEmpty
        cases stepped
        exact .commitEmpty phase guarded.1 guarded.2 free isEmpty
      · split at stepped
        · cases stepped
          exact .leave
        · rename_i index committed
          cases stepped
          exact .commit phase guarded.1 guarded.2 free committed
  · cases stepped

theorem ClientStep.of_backup {event : BackupEvent}
    (stepped : backupStep hash world id (world.clients id) event = some next) :
    ClientStep hash world (.backup id event) next := by
  unfold backupStep at stepped
  split at stepped
  case h_1 journal phase =>
    cases stepped
    exact .openBackup phase
  case h_2 session op phase =>
    obtain ⟨recording, called, rfl⟩ := Option.map_eq_some_iff.mp stepped
    exact .call phase called
  case h_3 | h_4 =>
    cases stepped
    exact .upload
  case h_5 session phase =>
    split at stepped
    · rename_i free
      cases stepped
      exact .lockBackup phase free
    · cases stepped
  case h_6 session input phase => exact .of_commit phase stepped
  case h_7 phase =>
    cases stepped
    exact .putSnapshot phase
  case h_8 phase =>
    cases stepped
    exact .deregister phase
  case h_9 => cases stepped

theorem ClientStep.of_maintenance {event : MaintenanceEvent}
    (stepped : maintenanceStep hash world id (world.clients id) event = some next) :
    ClientStep hash world (.maintenance id event) next := by
  unfold maintenanceStep at stepped
  split at stepped
  case h_1 phase =>
    cases stepped
    exact .openMaintenance phase
  case h_2 loaded listed phase =>
    split at stepped
    · rename_i free
      cases stepped
      exact .lockMaintenance phase free
    · cases stepped
  case h_3 loaded listed phase =>
    split at stepped
    · rename_i alone
      cases stepped
      exact .checkSessions phase (List.isEmpty_iff.mp alone)
    · cases stepped
      exact .leave
  case h_4 loaded listed targets phase =>
    split at stepped
    · rename_i guarded
      cases stepped
      exact .remove phase guarded.1 fun target among => (guarded.2 target among).2
    · cases stepped
  case h_5 phase =>
    cases stepped
    exact .deleteSnapshot phase
  case h_6 loaded references phase =>
    split at stepped
    · rename_i unchanged
      rw [List.isEmpty_iff.mp unchanged] at phase
      cases stepped
      exact .saveUnchanged phase
    · cases stepped
      exact .save phase
  case h_7 loaded listed backend wasteful cap discovered phase =>
    split at stepped
    · split at stepped
      · cases stepped
        exact .leave
      · rename_i started
        cases stepped
        exact .compact phase started
    · cases stepped
  case h_8 pass phase =>
    split at stepped
    · rename_i written remaining
      split at stepped
      · cases stepped
        exact .leave
      · rename_i turned
        cases stepped
        exact .turn phase written remaining turned
    · cases stepped
  case h_9 pass phase =>
    split at stepped
    · cases stepped
    · rename_i due
      cases stepped
      exact .write phase due
  case h_10 pass phase =>
    split at stepped
    · rename_i written worked
      cases stepped
      exact .finish phase written worked
    · cases stepped
  case h_11 => cases stepped

theorem ClientStep.of_reader {event : ReaderEvent}
    (stepped : readerStep world id (world.clients id) event = some next) :
    ClientStep hash world (.reader id event) next := by
  unfold readerStep at stepped
  split at stepped
  case h_1 phase =>
    cases stepped
    exact .load phase
  case h_2 phase =>
    cases stepped
    exact .mount phase
  case h_3 => cases stepped

theorem ClientStep.of_step {event : Event} (stepped : step hash world event = some next) :
    ClientStep hash world event next := by
  cases event with
  | session id event => exact .of_session stepped
  | backup id event => exact .of_backup stepped
  | maintenance id event => exact .of_maintenance stepped
  | reader id event => exact .of_reader stepped
  | leave id =>
    cases stepped
    exact .leave

end Inversion

def Phase.holdsLock : Phase → Bool
  | .committing _ | .indexed _ _ | .committed | .deregistered => true
  | .locked _ _ | .checked _ _ | .removing _ _ _ | .compacting _ | .finished => true
  | .idle | .registered | .admitted | .writing _ | .opened _ _ | .reading _ _ => false

def World.Exclusive (world : World) : Prop :=
  ∀ id, (world.clients id).holdsLock = true → world.lock = some id

namespace World

variable {world : World} {id other : ClientId} {phase : Phase}

@[simp]
theorem withPhase_self (world : World) (id : ClientId) (phase : Phase) :
    (world.withPhase id phase).clients id = phase := by
  simp [withPhase]

theorem withPhase_of_ne (different : other ≠ id) :
    (world.withPhase id phase).clients other = world.clients other := by
  simp [withPhase, different]

theorem forall_withPhase (Good : ClientId → Phase → Prop) (moved : Good id phase)
    (others : ∀ other, other ≠ id → Good other (world.clients other)) (client : ClientId) :
    Good client ((world.withPhase id phase).clients client) := by
  by_cases same : client = id
  · subst same
    rw [withPhase_self]
    exact moved
  · rw [withPhase_of_ne same]
    exact others client same

section

variable (exclusive : world.Exclusive)

include exclusive

theorem Exclusive.withPhase (held : phase.holdsLock = true → world.lock = some id) :
    (world.withPhase id phase).Exclusive :=
  forall_withPhase (fun client phase => phase.holdsLock = true → world.lock = some client) held
    fun other _ => exclusive other

theorem Exclusive.keep (held : (world.clients id).holdsLock = true) :
    (world.withPhase id phase).Exclusive :=
  exclusive.withPhase fun _ => exclusive id held

theorem Exclusive.acquire (free : world.lock = none) :
    ({ world with lock := some id }.withPhase id phase).Exclusive := by
  refine forall_withPhase (fun client phase => phase.holdsLock = true → some id = some client)
    (fun _ => rfl) fun other _ held => ?_
  have taken := exclusive other held
  rw [free] at taken
  cases taken

theorem Exclusive.leave (id : ClientId) :
    (world.leave id).Exclusive := by
  refine forall_withPhase (fun client phase => phase.holdsLock = true →
    (world.leave id).lock = some client) nofun fun other different held => ?_
  have taken := exclusive other held
  have notMine : world.lock ≠ some id := by
    rw [taken]
    exact fun same => different (Option.some.inj same)
  exact (if_neg notMine).trans taken

end

theorem writeCompact_frame (world : World) (write : Compact.Write) :
    (world.writeCompact write).lock = world.lock ∧
      (world.writeCompact write).sessions = world.sessions ∧
      (world.writeCompact write).clients = world.clients := by
  cases write <;> exact ⟨rfl, rfl, rfl⟩

theorem foldl_writeCompact_frame (world : World) (writes : List Compact.Write) :
    (writes.foldl writeCompact world).lock = world.lock ∧
      (writes.foldl writeCompact world).sessions = world.sessions ∧
      (writes.foldl writeCompact world).clients = world.clients := by
  induction writes generalizing world with
  | nil => exact ⟨rfl, rfl, rfl⟩
  | cons write writes ih =>
    obtain ⟨lock, sessions, clients⟩ := ih (world.writeCompact write)
    obtain ⟨sameLock, sameSessions, sameClients⟩ := writeCompact_frame world write
    exact ⟨lock.trans sameLock, sessions.trans sameSessions, clients.trans sameClients⟩

theorem Exclusive.congr {next : World} (exclusive : world.Exclusive)
    (lock : next.lock = world.lock) (clients : next.clients = world.clients) :
    next.Exclusive := by
  intro id held
  rw [clients] at held
  rw [lock]
  exact exclusive id held

end World

theorem ClientStep.exclusive {hash : Bytes → PackId} {world next : World} {event : Event}
    (step : ClientStep hash world event next) (exclusive : world.Exclusive) :
    next.Exclusive := by
  have holds {id : ClientId} {phase : Phase} (now : world.clients id = phase)
      (held : phase.holdsLock = true) : (world.clients id).holdsLock = true := now ▸ held
  cases step with
  | leave => exact exclusive.leave _
  | upload => exact exclusive
  | lockBackup phase free => exact exclusive.acquire free
  | lockMaintenance phase free => exact exclusive.acquire free
  | register | probe | openBackup | call | openMaintenance | load | mount =>
    exact World.Exclusive.withPhase exclusive nofun
  | commitEmpty phase | commit phase | putSnapshot phase | deregister phase
  | checkSessions phase | remove phase | deleteSnapshot phase | saveUnchanged phase | save phase
  | compact phase | turn phase =>
    exact World.Exclusive.keep exclusive (holds phase rfl)
  | write phase due =>
    obtain ⟨lock, -, clients⟩ := World.writeCompact_frame world _
    refine (exclusive.congr lock clients).keep ?_
    rw [clients]
    exact holds phase rfl
  | finish phase =>
    obtain ⟨lock, -, clients⟩ := World.foldl_writeCompact_frame world _
    refine (exclusive.congr lock clients).keep ?_
    rw [clients]
    exact holds phase rfl

end Vykar.Clients

import Vykar.Clients.CachedBackups

/-!
What the file caches keep.

The references of a section are those of items in the stream of its anchor.  A running backup
and a removal exclude each other, so the anchors that a backup has listed stay until it is
done, and the chunks of their items were in the index that it has loaded.
-/

namespace Vykar.Clients

open Index Pack Repo Backup

/-- The references of every entry are those of an item in the stream of the anchor. -/
def Anchored (streams : Dict SnapshotId (List (List ChunkRef))) (cached : CacheSection) : Prop :=
  ∀ hash entry, cached.entries.get? hash = some entry →
    ∃ stream, streams.get? cached.anchorSnapshotId = some stream ∧ entry.chunkRefs ∈ stream

def Phase.maintains : Phase → Bool
  | .checked _ _ | .removing _ _ _ | .compacting _ | .finished => true
  | _ => false

def Phase.active : Phase → Bool
  | .admitted | .writing _ | .committing _ | .indexed _ _ | .committed => true
  | _ => false

variable {phase : Phase} {cached : CacheSection} {world : World}
  {snapshotId : SnapshotId} {refs : List ChunkRef}

theorem Phase.inSession_of_active (active : phase.active = true) :
    phase.inSession = true := by
  cases phase <;> first | rfl | cases active

theorem Phase.active_not_maintains (active : phase.active = true) :
    phase.maintains = false := by
  cases phase <;> first | rfl | cases active

theorem Phase.holdsLock_of_maintains (maintains : phase.maintains = true) :
    phase.holdsLock = true := by
  cases phase <;> first | rfl | cases maintains

/-- What a section of the loaded cache is good for while its backup runs: its anchor is stored,
and its chunks are in the loaded index. -/
structure Usable (repo : Repository) (streams : Dict SnapshotId (List (List ChunkRef)))
    (base : ChunkIndex) (cached : CacheSection) : Prop where
  anchored : Anchored streams cached
  stored : (repo.snapshots.get? cached.anchorSnapshotId).isSome = true
  indexed : ∀ hash entry, cached.entries.get? hash = some entry →
    ∀ ref ∈ entry.chunkRefs, base.contains ref.id = true

def CachesSound (repo : Repository) (streams : Dict SnapshotId (List (List ChunkRef)))
    (caches : BackupCaches) : Phase → Prop
  | .writing session => caches.read.Sections (Usable repo streams session.base) ∧
      caches.write.Sections (CacheSection.Among · caches.items)
  | .committing _ => caches.read.Sections (Anchored streams) ∧
      caches.write.Sections (CacheSection.Among · caches.items)
  | .indexed snapshotId snapshot => caches.read.Sections (Anchored streams) ∧
      (∀ entry ∈ caches.write.takeActiveSections, Anchored streams entry.2) ∧
      ∃ stream, streams.get? snapshotId = some stream ∧ snapshot.items = streamChunks stream
  | .committed => caches.read.Sections (Anchored streams) ∧
      ∀ entry ∈ caches.write.takeActiveSections, Anchored streams entry.2
  | _ => True

structure CachingWorld.Sound (state : CachingWorld) : Prop where
  world : state.world.Sound
  marked : ∀ id, (state.world.clients id).inSession = true → id ∈ state.world.sessions
  apart : ∀ id other, (state.world.clients id).active = true →
    (state.world.clients other).maintains = false
  streamed : ∀ id snapshot, state.world.repo.snapshots.get? id = some snapshot →
    ∃ stream, state.streams.get? id = some stream ∧ snapshot.items = streamChunks stream
  disk : ∀ machine, (state.disk machine).Sections (Anchored state.streams)
  caches : ∀ id, CachesSound state.world.repo state.streams (state.caches id)
    (state.world.clients id)

section Growth

variable {streams more : Dict SnapshotId (List (List ChunkRef))} {repo grown : Repository}
  {caches : BackupCaches}

theorem Anchored.grow (anchored : Anchored streams cached)
    (kept : ∀ id stream, streams.get? id = some stream → more.get? id = some stream) :
    Anchored more cached := by
  intro hash entry found
  obtain ⟨stream, recorded, among⟩ := anchored hash entry found
  exact ⟨stream, kept _ stream recorded, among⟩

theorem CachesSound.grow (sound : CachesSound repo streams caches phase)
    (kept : ∀ id stream, streams.get? id = some stream → more.get? id = some stream)
    (stored : phase.active = true →
      ∀ id, (repo.snapshots.get? id).isSome = true → (grown.snapshots.get? id).isSome = true) :
    CachesSound grown more caches phase := by
  cases phase with
  | writing session =>
    exact ⟨sound.1.mono fun cached usable => ⟨usable.anchored.grow kept,
      stored rfl _ usable.stored, usable.indexed⟩, sound.2⟩
  | committing session => exact ⟨sound.1.mono fun cached anchored => anchored.grow kept, sound.2⟩
  | indexed snapshotId snapshot =>
    obtain ⟨read, write, stream, recorded, items⟩ := sound
    exact ⟨read.mono fun cached anchored => anchored.grow kept,
      fun entry taken => (write entry taken).grow kept, stream, kept _ _ recorded, items⟩
  | committed =>
    exact ⟨sound.1.mono fun cached anchored => anchored.grow kept,
      fun entry taken => (sound.2 entry taken).grow kept⟩
  | _ => trivial

end Growth

namespace CachingWorld

variable {hash : Bytes → PackId} {hashPath : PathText → PathHash} {machine : ClientId → MachineId}
  {state next : CachingWorld} {id : ClientId} {own : BackupCaches} {loaded : ChunkIndex}

section

variable (sound : state.Sound)

include sound

section

variable (worldSound : next.world.Sound)
  (clients : next.world.clients = (state.world.withPhase id phase).clients)
  (caches : next.caches = Function.update state.caches id own)
  (sessions : ∀ other, other ≠ id → other ∈ state.world.sessions → other ∈ next.world.sessions)
  (marked : phase.inSession = true → id ∈ next.world.sessions)
  (alone : phase.active = true → ∀ other, (state.world.clients other).maintains = false)
  (excluded : phase.maintains = true →
    ∀ other, (state.world.clients other).active = false)

include worldSound clients caches sessions marked alone excluded

/-- One client moves.  Every other backup keeps its marker, and no snapshot is removed while one
is active. -/
theorem Sound.update (kept : ∀ id stream, state.streams.get? id = some stream →
      next.streams.get? id = some stream)
    (stored : ∀ other, other ≠ id →
      (state.world.clients other).active = true →
      ∀ id, (state.world.repo.snapshots.get? id).isSome = true →
        (next.world.repo.snapshots.get? id).isSome = true)
    (streamed : ∀ id snapshot, next.world.repo.snapshots.get? id = some snapshot →
      ∃ stream, next.streams.get? id = some stream ∧ snapshot.items = streamChunks stream)
    (disk : ∀ machine, (next.disk machine).Sections (Anchored next.streams))
    (moved : CachesSound next.world.repo next.streams own phase) : next.Sound where
  world := worldSound
  marked := by
    rw [clients]
    exact World.forall_withPhase (fun client phase => phase.inSession = true →
      client ∈ next.world.sessions) marked fun other different held =>
        sessions other different (sound.marked other held)
  apart := by
    intro client other
    rw [clients]
    by_cases mine : client = id
    · subst mine
      rw [World.withPhase_self]
      intro active
      exact World.forall_withPhase (fun _ phase => phase.maintains = false)
        (Phase.active_not_maintains active) (fun other _ => alone active other) other
    · rw [World.withPhase_of_ne mine]
      intro active
      refine World.forall_withPhase (fun _ phase => phase.maintains = false) ?_
        (fun other _ => sound.apart client other active) other
      by_contra maintains
      have idle := excluded (Bool.not_eq_false _ ▸ maintains) client
      rw [idle] at active
      cases active
  streamed := streamed
  disk := disk
  caches := by
    intro client
    rw [clients, caches]
    by_cases mine : client = id
    · subst mine
      rw [World.withPhase_self, Function.update_self]
      exact moved
    · rw [World.withPhase_of_ne mine, Function.update_of_ne mine]
      exact (sound.caches client).grow kept (stored client mine)

theorem Sound.move (snapshots : next.world.repo.snapshots = state.world.repo.snapshots)
    (streams : next.streams = state.streams) (disk : next.disk = state.disk)
    (moved : CachesSound state.world.repo state.streams own phase) : next.Sound := by
  refine sound.update worldSound clients caches sessions marked alone excluded
    (fun id stream recorded => streams ▸ recorded)
    (fun other _ _ id => snapshots ▸ fun held => held)
    ?_ ?_ ?_
  · rw [snapshots, streams]
    exact sound.streamed
  · rw [disk, streams]
    exact sound.disk
  · rw [streams]
    exact moved.grow (fun _ _ recorded => recorded) fun _ _ => snapshots ▸ fun held => held

end

theorem Sound.active_alone
    (active : (state.world.clients id).active = true) :
    ∀ other, (state.world.clients other).maintains = false :=
  fun other => sound.apart id other active

theorem Sound.maintains_alone (maintains : (state.world.clients id).maintains = true) :
    ∀ other, (state.world.clients other).active = false := by
  intro other
  by_contra active
  rw [Bool.not_eq_false] at active
  rw [sound.apart other id active] at maintains
  cases maintains

theorem Sound.shift (worldSound : world.Sound)
    (clients : world.clients = (state.world.withPhase id phase).clients)
    (sessions : world.sessions = state.world.sessions)
    (snapshots : world.repo.snapshots = state.world.repo.snapshots)
    (inSession : phase.inSession = true → (state.world.clients id).inSession = true)
    (active : phase.active = true →
      (state.world.clients id).active = true)
    (maintains : phase.maintains = true → (state.world.clients id).maintains = true)
    (moved : CachesSound state.world.repo state.streams (state.caches id) phase) :
    (state.withWorld world).Sound :=
  sound.move worldSound clients (Function.update_eq_self _ _).symm
    (fun _ _ held => sessions ▸ held) (fun held => sessions ▸ sound.marked id (inSession held))
    (fun held => sound.active_alone (active held))
    (fun held => sound.maintains_alone (maintains held)) snapshots rfl rfl moved

theorem Sound.leave (client : ClientId) : (state.leave client).Sound := by
  have left : ClientStep (fun _ => 0) state.world (.leave client) (state.world.leave client) :=
    .leave
  refine sound.move (sound.world.step rfl left) rfl (Function.update_eq_self _ _).symm ?_ nofun
    nofun nofun rfl rfl rfl trivial
  intro other different held
  exact List.mem_filter.mpr ⟨held, decide_eq_true different⟩

theorem Sound.register
    (worldSound : ((state.world.register id).withPhase id .registered).Sound) :
    (state.withWorld ((state.world.register id).withPhase id .registered)).Sound :=
  sound.move worldSound rfl (Function.update_eq_self _ _).symm
    (fun _ _ held => List.mem_cons_of_mem _ held) (fun _ => List.mem_cons_self) nofun nofun rfl rfl
    rfl trivial

theorem Sound.probe (now : state.world.clients id = .registered) (free : state.world.lock = none)
    (worldSound : (state.world.withPhase id .admitted).Sound) :
    (state.withWorld (state.world.withPhase id .admitted)).Sound := by
  refine sound.move worldSound rfl (Function.update_eq_self _ _).symm (fun _ _ held => held)
    (fun _ => sound.marked id (now ▸ rfl)) (fun _ other => ?_) nofun rfl rfl rfl trivial
  by_contra maintains
  have held := sound.world.exclusive other
    (Phase.holdsLock_of_maintains (Bool.not_eq_false _ ▸ maintains))
  rw [free] at held
  cases held

theorem Sound.checkSessions {listed : List SnapshotId} (alone : state.world.sessions = [])
    (worldSound : (state.world.withPhase id (.checked loaded listed)).Sound) :
    (state.withWorld (state.world.withPhase id (.checked loaded listed))).Sound := by
  refine sound.move worldSound rfl (Function.update_eq_self _ _).symm (fun _ _ held => held) nofun
    nofun (fun _ other => ?_) rfl rfl rfl trivial
  by_contra active
  have marked := sound.marked other
    (Phase.inSession_of_active (Bool.not_eq_false _ ▸ active))
  rw [alone] at marked
  cases marked

theorem Sound.putSnapshot {snapshot : Snapshot}
    (now : state.world.clients id = .indexed snapshotId snapshot)
    (worldSound : ((state.world.write (.putSnapshot snapshotId snapshot)).withPhase id
      .committed).Sound) :
    (state.withWorld ((state.world.write (.putSnapshot snapshotId snapshot)).withPhase id
      .committed)).Sound := by
  have own := sound.caches id
  rw [now] at own
  obtain ⟨read, write, stream, recorded, items⟩ := own
  have active : (state.world.clients id).active = true := now ▸ rfl
  refine sound.update worldSound rfl (Function.update_eq_self _ _).symm (fun _ _ held => held)
    (fun _ => sound.marked id (now ▸ rfl)) (fun _ => sound.active_alone active) nofun
    (fun _ _ known => known) (fun other _ _ key isStored => ?_) (fun key stored found => ?_)
    sound.disk ⟨read, write⟩
  · change ((state.world.repo.snapshots.set snapshotId snapshot).get? key).isSome = true
    rw [Dict.get?_set]
    split
    · rfl
    · exact isStored
  · change (state.world.repo.snapshots.set snapshotId snapshot).get? key = some stored at found
    rw [Dict.get?_set] at found
    split at found
    · rename_i same
      cases found
      exact ⟨stream, same ▸ recorded, items⟩
    · exact sound.streamed key stored found

theorem Sound.deleteSnapshot {target : SnapshotId × Snapshot}
    {pending : List (SnapshotId × Snapshot)} {references : List ChunkId}
    (now : state.world.clients id = .removing loaded (target :: pending) references)
    (worldSound : ((state.world.write (.deleteSnapshot target.1)).withPhase id
      (.removing loaded pending references)).Sound) :
    (state.withWorld ((state.world.write (.deleteSnapshot target.1)).withPhase id
      (.removing loaded pending references))).Sound := by
  have alone := sound.maintains_alone (now ▸ rfl : (state.world.clients id).maintains = true)
  refine sound.update worldSound rfl (Function.update_eq_self _ _).symm (fun _ _ held => held)
    nofun nofun (fun _ => alone) (fun _ _ known => known) (fun other _ active => ?_)
    (fun key stored found => ?_) sound.disk trivial
  · rw [alone other] at active
    cases active
  · change (state.world.repo.snapshots.remove target.1).get? key = some stored at found
    rw [Dict.get?_remove] at found
    split at found
    · cases found
    · exact sound.streamed key stored found

theorem Sound.deregister
    (worldSound : ((state.world.deregister id).withPhase id .deregistered).Sound) :
    (state.withWorld ((state.world.deregister id).withPhase id .deregistered)).Sound := by
  refine sound.move worldSound rfl (Function.update_eq_self _ _).symm ?_ nofun nofun nofun rfl rfl
    rfl trivial
  intro other different held
  exact List.mem_filter.mpr ⟨held, decide_eq_true different⟩

end

end CachingWorld

def Event.keepsCaches : Event → Bool
  | .backup _ (.openRepo _) | .backup _ (.commit _) => false
  | .maintenance _ event => event.ofRemoval
  | .reader _ _ => false
  | .session _ _ | .backup _ _ | .leave _ => true

namespace CachingWorld

variable {hash : Bytes → PackId} {hashPath : PathText → PathHash} {machine : ClientId → MachineId}
  {state next : CachingWorld} {id : ClientId} {session : BackupSession}
  {input : CommitInput}

theorem Sound.clientStep (sound : state.Sound) {event : Event} (plain : event.keepsCaches = true)
    (permitted : actsOnStored hash state.world event = true)
    (step : ClientStep hash state.world event world) :
    (state.withWorld world).Sound := by
  have worldSound := sound.world.step permitted step
  have own {id : ClientId} {phase : Phase} (now : state.world.clients id = phase) :
      CachesSound state.world.repo state.streams (state.caches id) phase := now ▸ sound.caches id
  cases step with
  | leave => exact sound.leave _
  | register phase => exact sound.register worldSound
  | probe phase free => exact sound.probe phase free worldSound
  | @call id _ _ _ phase =>
    have caches := own phase
    exact sound.shift worldSound rfl rfl rfl (fun _ => phase ▸ rfl) (fun _ => phase ▸ rfl) nofun
      caches
  | @upload id =>
    exact sound.shift worldSound (Function.update_eq_self id _).symm rfl rfl (fun held => held)
      (fun held => held) (fun held => held) (sound.caches id)
  | @lockBackup id session phase =>
    have caches := own phase
    exact sound.shift worldSound rfl rfl rfl (fun _ => phase ▸ rfl) (fun _ => phase ▸ rfl) nofun
      ⟨caches.1.mono fun cached usable => usable.anchored, caches.2⟩
  | putSnapshot phase => exact sound.putSnapshot phase worldSound
  | deregister phase => exact sound.deregister worldSound
  | openMaintenance phase | lockMaintenance phase =>
    exact sound.shift worldSound rfl rfl rfl nofun nofun nofun trivial
  | checkSessions phase alone => exact sound.checkSessions alone worldSound
  | remove phase | save phase | saveUnchanged phase =>
    exact sound.shift worldSound rfl rfl rfl nofun nofun (fun _ => phase ▸ rfl) trivial
  | deleteSnapshot phase => exact sound.deleteSnapshot phase worldSound
  | openBackup | commitEmpty | commit | compact | turn | write | finish | load | mount =>
    cases plain

theorem clients_eq_withPhase (now : world.clients id = phase) :
    world.clients = (world.withPhase id phase).clients := by
  subst now
  exact (Function.update_eq_self id _).symm

section

variable (sound : state.Sound)

include sound

theorem Sound.item (now : state.world.clients id = .writing session) (caches : BackupCaches)
    (read : caches.read = (state.caches id).read)
    (write : caches.write.Sections (CacheSection.Among · caches.items)) :
    (state.setCaches id caches).Sound := by
  have own := sound.caches id
  rw [now] at own
  have active : (state.world.clients id).active = true := now ▸ rfl
  exact sound.move sound.world (clients_eq_withPhase now) rfl (fun _ _ held => held)
    (fun _ => sound.marked id (now ▸ rfl)) (fun _ => sound.active_alone active) nofun rfl rfl rfl
    ⟨read.symm ▸ own.1, write⟩

theorem Sound.appendFile (now : state.world.clients id = .writing session) (path : PathText)
    (metadata : MetadataSummary) (refs : List ChunkRef) :
    (state.appendFile hashPath id path metadata refs).Sound := by
  have own := sound.caches id
  rw [now] at own
  unfold CachingWorld.appendFile
  simp only
  split
  · exact sound.leave id
  · rename_i write inserted
    exact sound.item now _ rfl (FileCache.insert_sections inserted own.2)

theorem Sound.commitCacheHit {after : BackupSession}
    (now : state.world.clients id = .writing session)
    (fits : countsFit ∅ (session.stores ++ refs.map (·.id)) = true)
    (committed : commitCacheHit session refs = some after) :
    (state.withWorld (state.world.withPhase id (.writing after))).Sound := by
  obtain ⟨recording, ran, rfl⟩ := Option.map_eq_some_iff.mp committed
  have own := sound.caches id
  rw [now] at own
  have covered : Recording.Covered session.base session.stores session.recording :=
    sound.world.phase now
  have stores : (refs.map fun ref => SessionOp.reuse ref.id).flatMap SessionOp.stores =
      refs.map (·.id) := by
    rw [List.flatMap_map]
    exact (List.map_eq_flatMap ..).symm
  have after := covered.run (fun chunk => ?_) ran
  · rw [stores] at after
    refine sound.shift (sound.world.move (World.Exclusive.withPhase sound.world.exclusive nofun)
      rfl (grown_refl _) rfl after) rfl rfl rfl (fun _ => now ▸ rfl) (fun _ => now ▸ rfl) nofun own
  · rw [stores]
    exact lt_of_le_of_lt (Nat.le_add_left _ _)
      (countsFit_spec fits (fun _ => Nat.two_pow_pos 32) chunk)

theorem Sound.usable (anchored : Anchored state.streams cached)
    (stored : (state.world.repo.snapshots.get? cached.anchorSnapshotId).isSome = true) :
    Usable state.world.repo state.streams state.world.repo.chunkIndex cached := by
  refine ⟨anchored, stored, fun hash entry found ref listed => ?_⟩
  obtain ⟨stream, recorded, among⟩ := anchored hash entry found
  obtain ⟨snapshot, kept⟩ := Option.isSome_iff_exists.mp stored
  obtain ⟨same, sameRecorded, items⟩ := sound.streamed _ snapshot kept
  cases recorded.symm.trans sameRecorded
  apply sound.world.accounted.contains kept
  refine List.mem_append_left _ (List.mem_flatten.mpr ⟨entry.chunkRefs.map (·.id), ?_, ?_⟩)
  · rw [items]
    exact List.mem_map_of_mem among
  · exact List.mem_map_of_mem listed

end

theorem openCaches_sections {disk : FileCache} {listed : SnapshotId → Bool} {loadable : Bool}
    {roots : List PathText} {key : PathText}
    (found : (openCaches disk listed loadable roots).read.sections.get? key = some cached) :
    disk.sections.get? key = some cached ∧ listed cached.anchorSnapshotId = true := by
  cases loadable with
  | false =>
    obtain ⟨loaded, -⟩ := @FileCache.invalidateMissingSnapshots_spec .new _ _ listed found
    cases loaded
  | true =>
    exact @FileCache.invalidateMissingSnapshots_spec ⟨disk.sections, []⟩ _ _ listed found

theorem Sound.openRepo (sound : state.Sound) (now : state.world.clients id = .admitted)
    (journal : ChunkId → Option RecoveredChunkEntry)
    (readable : SnapshotId → Bool) (machineId : MachineId) (loadable : Bool)
    (roots : List PathText) :
    ((state.withWorld (state.world.withPhase id (.writing ⟨state.world.repo.chunkIndex,
      .start state.world.repo.chunkIndex journal, []⟩))).setCaches id
        (openCaches (state.disk machineId) (fun snapshotId => readable snapshotId &&
          (state.world.repo.snapshots.get? snapshotId).isSome) loadable roots)).Sound := by
  have opened : ClientStep (fun _ => 0) state.world (.backup id (.openRepo journal)) _ :=
    .openBackup now
  have active : (state.world.clients id).active = true := now ▸ rfl
  refine sound.move (sound.world.step rfl opened) rfl rfl (fun _ _ held => held)
    (fun _ => sound.marked id (now ▸ rfl)) (fun _ => sound.active_alone active) nofun rfl rfl rfl
    ⟨fun key cached found => ?_, FileCache.beginSections_new [] roots⟩
  obtain ⟨loaded, listed⟩ := openCaches_sections found
  exact sound.usable (sound.disk machineId key cached loaded) (Bool.and_eq_true_iff.mp listed).2

theorem anchored_of_finalized {streams : Dict SnapshotId (List (List ChunkRef))}
    {caches : BackupCaches} (among : caches.write.Sections (CacheSection.Among · caches.items))
    (recorded : streams.get? snapshotId = some caches.items) :
    ∀ entry ∈ (caches.write.finalizeSections snapshotId).takeActiveSections,
      Anchored streams entry.2 := by
  intro entry taken
  obtain ⟨active, found⟩ := FileCache.mem_activeSections taken
  obtain ⟨anchor, listed⟩ := FileCache.finalizeSections_spec among active found
  intro hash cached known
  exact ⟨caches.items, anchor ▸ recorded, listed hash cached known⟩

theorem step_commit_cases {next : World}
    (stepped : step hash world (.backup id (.commit input)) = some next) :
    ∃ session, world.clients id = .committing session ∧
      (next = world.leave id ∨
        next.clients = (world.withPhase id (.indexed input.id input.snapshot)).clients ∧
          next.sessions = world.sessions ∧ next.repo.snapshots = world.repo.snapshots) := by
  simp only [step] at stepped
  cases phase : world.clients id with
  | committing session =>
    rw [phase] at stepped
    simp only [backupStep, World.commit] at stepped
    refine ⟨session, rfl, ?_⟩
    split at stepped
    · split at stepped
      · cases stepped
        exact Or.inl rfl
      · split at stepped
        · cases stepped
          exact Or.inr ⟨rfl, rfl, rfl⟩
        · split at stepped
          · cases stepped
            exact Or.inl rfl
          · cases stepped
            exact Or.inr ⟨rfl, rfl, rfl⟩
    · cases stepped
  | _ =>
    rw [phase] at stepped
    cases stepped

theorem Sound.commit (sound : state.Sound)
    (permitted : actsOnStored hash state.world (.backup id (.commit input)) = true)
    (unused : state.streams.get? input.id = none)
    (items : input.snapshot.items = streamChunks (state.caches id).items)
    (stepped : step hash state.world (.backup id (.commit input)) = some world) :
    ({ state with
        world, streams := state.streams.set input.id (state.caches id).items }.setCaches id
      { state.caches id with
        write := (state.caches id).write.finalizeSections input.id }).Sound := by
  have worldSound := sound.world.step permitted (.of_step stepped)
  have kept : ∀ key stream, state.streams.get? key = some stream →
      (state.streams.set input.id (state.caches id).items).get? key = some stream := by
    intro key stream recorded
    rw [Dict.get?_set, if_neg, recorded]
    rintro rfl
    rw [unused] at recorded
    cases recorded
  have streamed : ∀ key snapshot, state.world.repo.snapshots.get? key = some snapshot →
      ∃ stream, (state.streams.set input.id (state.caches id).items).get? key = some stream ∧
        snapshot.items = streamChunks stream := by
    intro key snapshot stored
    obtain ⟨stream, recorded, same⟩ := sound.streamed key snapshot stored
    exact ⟨stream, kept key stream recorded, same⟩
  have disk : ∀ machine, (state.disk machine).Sections
      (Anchored (state.streams.set input.id (state.caches id).items)) :=
    fun machine => (sound.disk machine).mono fun cached anchored => anchored.grow kept
  obtain ⟨session, now, rfl | ⟨clients, sessions, snapshots⟩⟩ := step_commit_cases stepped
  · refine sound.update worldSound rfl rfl (fun other different held => ?_) nofun nofun nofun kept
      (fun _ _ _ _ held => held) streamed disk trivial
    exact List.mem_filter.mpr ⟨held, decide_eq_true different⟩
  · have own := sound.caches id
    rw [now] at own
    have active : (state.world.clients id).active = true := now ▸ rfl
    have recorded : (state.streams.set input.id (state.caches id).items).get? input.id =
      some (state.caches id).items := Dict.get?_set_self ..
    refine sound.update worldSound clients rfl (fun _ _ held => sessions.symm ▸ held)
      (fun _ => sessions.symm ▸ sound.marked id (now ▸ rfl)) (fun _ => sound.active_alone active)
      nofun kept (fun _ _ _ _ held => ?_) ?_ disk ⟨?_, ?_, ?_⟩
    · exact (congrArg (fun dict : Dict _ _ => (dict.get? _).isSome) snapshots).trans held
    · intro key snapshot stored
      exact streamed key snapshot (snapshots ▸ stored)
    · exact own.1.mono fun cached anchored => anchored.grow kept
    · exact anchored_of_finalized own.2 recorded
    · exact ⟨_, recorded, items⟩

theorem Sound.saveCache (sound : state.Sound) (now : state.world.clients id = .committed)
    (machineId : MachineId) :
    ({ state with
      disk := Function.update state.disk machineId (state.caches id).merged } :
        CachingWorld).Sound := by
  have own := sound.caches id
  rw [now] at own
  refine { sound with disk := fun other => ?_ }
  by_cases same : other = machineId
  · subst same
    change (Function.update state.disk other (state.caches id).merged other).Sections _
    rw [Function.update_self]
    exact FileCache.mergeSections own.1 own.2
  · change (Function.update state.disk machineId (state.caches id).merged other).Sections _
    rw [Function.update_of_ne same]
    exact sound.disk other

theorem Sound.cleanSession (sound : state.Sound)
    (idle : (state.world.clients id).inSession = false) :
    (state.withWorld (state.world.deregister id)).Sound := by
  refine { sound with
    world := ⟨sound.world.exclusive, sound.world.accounted, sound.world.located,
      sound.world.phases⟩
    marked := fun other held => ?_ }
  have different : other ≠ id := by
    rintro rfl
    change (state.world.clients other).inSession = true at held
    rw [idle] at held
    cases held
  exact List.mem_filter.mpr ⟨sound.marked other held, decide_eq_true different⟩

theorem step_openRepo {next : World} {journal : ChunkId → Option RecoveredChunkEntry}
    (stepped : step hash world (.backup id (.openRepo journal)) = some next) :
    world.clients id = .admitted ∧ next = world.withPhase id (.writing
      ⟨world.repo.chunkIndex, .start world.repo.chunkIndex journal, []⟩) := by
  simp only [step] at stepped
  cases phase : world.clients id with
  | admitted =>
    rw [phase] at stepped
    cases stepped
    exact ⟨rfl, rfl⟩
  | _ =>
    rw [phase] at stepped
    cases stepped

theorem Sound.advance (sound : state.Sound) (event : Event) (plain : event.keepsCaches = true)
    (permitted : actsOnStored hash state.world event = true)
    (stepped : state.advance hash event = some next) : next.Sound := by
  obtain ⟨world, moved, rfl⟩ := Option.map_eq_some_iff.mp stepped
  exact sound.clientStep plain permitted (.of_step moved)

theorem Sound.step {event : CachingEvent} (sound : state.Sound)
    (permitted : removesOnStored hash hashPath state event = true)
    (stepped : cachingStep hash hashPath machine state event = some next) : next.Sound := by
  cases event with
  | session id event => exact sound.advance _ rfl rfl stepped
  | openRepo id journal readable loadable roots =>
    obtain ⟨middle, advanced, rfl⟩ := Option.map_eq_some_iff.mp stepped
    obtain ⟨world, moved, rfl⟩ := Option.map_eq_some_iff.mp advanced
    obtain ⟨now, rfl⟩ := step_openRepo moved
    exact sound.openRepo now journal readable (machine id) loadable roots
  | call id op => exact sound.advance (.backup id (.call op)) rfl permitted stepped
  | item id refs =>
    simp only [cachingStep] at stepped
    split at stepped
    · rename_i session now
      cases stepped
      have own := sound.caches id
      rw [now] at own
      exact sound.item now _ rfl (own.2.mono fun cached among hash entry found =>
        List.mem_append_left _ (among hash entry found))
    · cases stepped
  | file id path metadata refs =>
    simp only [cachingStep] at stepped
    split at stepped
    · rename_i session now
      cases stepped
      exact sound.appendFile now path metadata refs
    · cases stepped
  | hit id path metadata =>
    simp only [cachingStep] at stepped
    split at stepped
    · rename_i session now
      split at stepped
      · cases stepped
      · rename_i refs found
        simp only [removesOnStored, now, found] at permitted
        split at stepped
        · cases stepped
          exact sound.leave id
        · rename_i after committed
          cases stepped
          exact (sound.commitCacheHit now permitted committed).appendFile
            (World.withPhase_self ..) path metadata refs
    · cases stepped
  | upload id file => exact sound.advance _ rfl rfl stepped
  | lock id => exact sound.advance _ rfl rfl stepped
  | commit id input =>
    simp only [cachingStep] at stepped
    split at stepped
    · rename_i guarded
      obtain ⟨middle, advanced, rfl⟩ := Option.map_eq_some_iff.mp stepped
      obtain ⟨world, moved, rfl⟩ := Option.map_eq_some_iff.mp advanced
      exact sound.commit permitted guarded.1 guarded.2 moved
    · cases stepped
  | putSnapshot id => exact sound.advance _ rfl rfl stepped
  | saveCache id =>
    simp only [cachingStep] at stepped
    split at stepped
    · rename_i now
      split at stepped
      · cases stepped
        exact sound.saveCache now (machine id)
      · cases stepped
        exact sound
    · cases stepped
  | deregister id => exact sound.advance _ rfl rfl stepped
  | removal id event =>
    simp only [cachingStep] at stepped
    split at stepped
    · rename_i removes
      exact sound.advance (.maintenance id event) removes permitted stepped
    · cases stepped
  | cleanSession id =>
    cases stepped
    exact sound.cleanSession (Bool.not_eq_true' _ ▸ permitted)
  | leave id =>
    cases stepped
    exact sound.leave id

theorem init_sound : CachingWorld.init.Sound where
  world := Clients.init_sound
  marked := nofun
  apart := nofun
  streamed := nofun
  disk _ := FileCache.new_sections
  caches _ := trivial

end CachingWorld

theorem run_reuse_isSome {recording : Recording}
    (known : ∀ ref ∈ refs, ref.id ∈ recording.session.known) :
    (recording.run (refs.map fun ref => .reuse ref.id)).isSome = true := by
  induction refs generalizing recording with
  | nil => rfl
  | cons ref refs ih =>
    have first := known ref List.mem_cons_self
    have bumped : recording.session.bumpRefIfExists ref.id =
        some { recording.session with delta := recording.session.delta.bumpRefcount ref.id } :=
      if_pos first
    simp only [List.map_cons, Recording.run, Recording.step, bumped]
    exact ih fun other listed => known other (List.mem_cons_of_mem _ listed)

/-- In every run in which removals act on the stored index and the markers of running backups
stay, whenever a backup looks up a file and finds it, the references are those of an item in the
stream of the anchor of the section, the anchor is stored with the chunks of that stream, the
chunks are in the loaded index, and committing the hit succeeds. -/
theorem cache_hits_committed (hash : Bytes → PackId) (hashPath : PathText → PathHash)
    (machine : ClientId → MachineId) {state : CachingWorld}
    (reached : (cachingSystem hash hashPath machine).Reaches
      (fun state event => removesOnStored hash hashPath state event = true) state)
    {id : ClientId} {session : BackupSession} (writing : state.world.clients id = .writing session)
    {path : PathText} {metadata : MetadataSummary} {refs : List ChunkRef}
    (hit : (state.caches id).read.lookup hashPath path metadata = some refs) :
    (∃ key cached snapshot stream, (state.caches id).read.findSectionKey path = some key ∧
      (state.caches id).read.sections.get? key = some cached ∧
      state.streams.get? cached.anchorSnapshotId = some stream ∧ refs ∈ stream ∧
      state.world.repo.snapshots.get? cached.anchorSnapshotId = some snapshot ∧
      snapshot.items = streamChunks stream) ∧
    (∀ ref ∈ refs, session.base.contains ref.id = true) ∧
    (commitCacheHit session refs).isSome = true := by
  have sound : state.Sound := by
    refine reached.invariant CachingWorld.Sound ?_ ?_
    · rintro state rfl
      exact CachingWorld.init_sound
    · intro state event next sound permitted stepped
      exact sound.step permitted stepped
  have own := sound.caches id
  rw [writing] at own
  obtain ⟨key, cached, entry, routed, found, known, rfl⟩ := FileCache.lookup_eq_some hit
  have usable := own.1 key cached found
  have indexed := usable.indexed _ entry known
  obtain ⟨stream, recorded, among⟩ := usable.anchored _ entry known
  obtain ⟨snapshot, stored⟩ := Option.isSome_iff_exists.mp usable.stored
  obtain ⟨same, sameRecorded, items⟩ := sound.streamed _ snapshot stored
  cases recorded.symm.trans sameRecorded
  refine ⟨⟨key, cached, snapshot, stream, routed, found, recorded, among, stored, items⟩, indexed,
    ?_⟩
  have covered : Recording.Covered session.base session.stores session.recording :=
    sound.world.phase writing
  unfold commitCacheHit
  rw [Option.isSome_map]
  apply run_reuse_isSome
  intro ref listed
  exact (covered.now.sound.known ref.id).mpr (Or.inl (indexed ref listed))

def lengthPathHash (path : PathText) : PathHash := BitVec.ofNat 128 path.length

def smallFile : MetadataSummary := ⟨420, 0, 0, 7, 7, 1, 2, 2⟩

/-- A client registers, probes for the lock and opens the repository for the root `/d`. -/
def openRun (client : ClientId) : List CachingEvent :=
  [.session client .register, .session client .probe,
    .openRepo client (fun _ => none) (fun _ => true) true [['/', 'd']]]

/-- A whole backup of the file `/d/f`, whose content is one chunk. -/
def fileRun (client : ClientId) (name : String) (id : SnapshotId) (chunk : ChunkId)
    (blob : Bytes) : List CachingEvent :=
  let file := packBytes [blob]
  openRun client ++
    [.call client (.store chunk blob.length .data), .call client (.flush (lengthHash file) .data),
      .upload client file,
      .file client ['/', 'd', '/', 'f'] smallFile [⟨⟨chunk, blob.length⟩, blob.length⟩],
      .lock client, .commit client ⟨0, 0, id, ⟨name, [[chunk]], []⟩, true⟩, .putSnapshot client,
      .saveCache client, .deregister client, .leave client]

def hitOutcome (state : CachingWorld) (id : ClientId) (path : PathText)
    (metadata : MetadataSummary) : Option (List ChunkRef × Bool) :=
  match state.world.clients id with
  | .writing session => ((state.caches id).read.lookup lengthPathHash path metadata).map
      fun refs => (refs, (commitCacheHit session refs).isSome)
  | _ => none

theorem hitOutcome_eq_some {state : CachingWorld} {id : ClientId} {path : PathText}
    {metadata : MetadataSummary} {done : Bool}
    (outcome : hitOutcome state id path metadata = some (refs, done)) :
    ∃ session, state.world.clients id = .writing session ∧
      (state.caches id).read.lookup lengthPathHash path metadata = some refs ∧
      (commitCacheHit session refs).isSome = done := by
  unfold hitOutcome at outcome
  split at outcome
  · rename_i session writing
    obtain ⟨found, hit, same⟩ := Option.map_eq_some_iff.mp outcome
    cases same
    exact ⟨session, writing, hit, rfl⟩
  · cases outcome

/-- The second backup of an unchanged file takes a hit from the section of the first. -/
theorem cache_hits_committed_unchanged :
    ∃ state, (cachingSystem lengthHash lengthPathHash fun _ => 0).Reaches
        (fun state event => removesOnStored lengthHash lengthPathHash state event = true) state ∧
      ∃ session, state.world.clients 1 = .writing session ∧
        (∀ ref ∈ ([⟨⟨5, 2⟩, 2⟩] : List ChunkRef), session.base.contains ref.id = true) ∧
        (commitCacheHit session [⟨⟨5, 2⟩, 2⟩]).isSome = true := by
  let events := fileRun 0 "monday" 1 5 [1, 2] ++ openRun 1
  have start : (cachingSystem lengthHash lengthPathHash fun _ => 0).Reaches
    (fun state event => removesOnStored lengthHash lengthPathHash state event = true) .init :=
    .initial rfl
  have executed : ∃ final ∈ (cachingSystem lengthHash lengthPathHash fun _ => 0).run .init events,
      hitOutcome final 1 ['/', 'd', '/', 'f'] smallFile = some ([⟨⟨5, 2⟩, 2⟩], true) := by
    decide +kernel
  obtain ⟨state, reached, outcome⟩ := start.exists_of_run events (by decide +kernel) executed
  obtain ⟨session, writing, hit, -⟩ := hitOutcome_eq_some outcome
  obtain ⟨-, indexed, committed⟩ :=
    cache_hits_committed lengthHash lengthPathHash (fun _ => 0) reached writing hit
  exact ⟨state, reached, session, writing, indexed, committed⟩

/-- A `delete` that was opened before a backup and takes the lock after it saves an index without
the chunks of the backup.  The next backup finds its file in the cache, and the anchor is
stored, but the hit cannot be committed. -/
theorem stale_delete_breaks_hit :
    ∃ state, (cachingSystem lengthHash lengthPathHash fun _ => 0).Reaches (fun _ _ => True) state ∧
      ∃ session refs, state.world.clients 0 = .writing session ∧
        (state.caches 0).read.lookup lengthPathHash ['/', 'd', '/', 'f'] smallFile = some refs ∧
        (commitCacheHit session refs).isSome = false := by
  let events := fileRun 0 "monday" 1 5 [1, 2] ++ [.removal 1 .openRepo] ++
    fileRun 0 "tuesday" 2 6 [3, 4] ++
    [.lock, .checkSessions, .remove [(1, ⟨"monday", [[5]], []⟩)], .deleteSnapshot,
      .save].map (.removal 1) ++ [.leave 1] ++ openRun 0
  have start : (cachingSystem lengthHash lengthPathHash fun _ => 0).Reaches (fun _ _ => True)
    .init := .initial rfl
  have executed : ∃ final ∈ (cachingSystem lengthHash lengthPathHash fun _ => 0).run .init events,
      hitOutcome final 0 ['/', 'd', '/', 'f'] smallFile = some ([⟨⟨6, 2⟩, 2⟩], false) := by
    decide +kernel
  obtain ⟨state, reached, outcome⟩ := start.exists_of_run events (by decide +kernel) executed
  obtain ⟨session, writing, hit, failed⟩ := hitOutcome_eq_some outcome
  exact ⟨state, reached, session, _, writing, hit, failed⟩

end Vykar.Clients

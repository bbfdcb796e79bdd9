import Vykar.Repo.JournalSteps

/-!
Recovery from the journals of interrupted sessions.

What a session recovers is stored and new to its index, it leaves the journals of active
sessions alone, each chunk it promotes is added once, and the entry of a pack stays in
some journal until a session commits, unless the pack was sealed in a dump that was rolled
back.
-/

namespace Vykar.Repo

open Index

variable {layout : PackId → List PendingChunkEntry} {state next : JournalState}
  {event : JournalEvent} {removed other id : SessionId} {listing : List SessionId}
  {events : List JournalEvent} {packId : PackId} {chunk : PendingChunkEntry}

def JournalEvent.session : JournalEvent → Option SessionId
  | .tick _ => none
  | .register id | .openRepo id | .scan id _ | .recoverNext id | .beginWriting id | .call id _
  | .upload id _
  | .writeJournal id | .refresh id | .commit id | .cleanup id | .deregister id | .clear id
  | .abort id | .interrupt id => some id

/-- The states differ in the contents of one stored journal only. -/
structure Alike (other : SessionId) (first second : JournalState) : Prop where
  now : second.now = first.now
  packs : second.packs = first.packs
  index : second.index = first.index
  markers : second.markers = first.markers
  sessions : second.sessions = first.sessions
  journals : ∀ id, id ≠ other → second.journals.get? id = first.journals.get? id
  present : (second.journals.get? other).isSome = (first.journals.get? other).isSome

/-- A step keeps a stored journal and does not depend on what is in it. -/
def Ignores (layout : PackId → List PendingChunkEntry) (state : JournalState)
    (event : JournalEvent) (other : SessionId) : Prop :=
  ∀ next, journalStep layout state event = some next →
    next.journals.get? other = state.journals.get? other ∧
    ∀ replaced, Alike other state replaced →
      ∃ replacedNext, journalStep layout replaced event = some replacedNext ∧
        Alike other next replacedNext

def SessionPhase.handles : SessionPhase → List SessionId
  | .recovering _ recovery worklist => recovery.indexKeys ++ worklist
  | .writing session => session.recovery.indexKeys
  | .committed indexKeys => indexKeys
  | .registered | .opened _ | .deregistered | .ended => []

namespace Alike

variable {first second : JournalState}

section

variable (alike : Alike other first second)

include alike

theorem phase {phase : Option SessionPhase} (running : first.sessions id = phase) :
    second.sessions id = phase :=
  (congrFun alike.sessions id).trans running

theorem withPhase (id : SessionId) (phase : SessionPhase) :
    Alike other (first.withPhase id phase) (second.withPhase id phase) :=
  { alike with
    sessions := by simp only [JournalState.withPhase, alike.sessions] }

theorem withMarker (id : SessionId) (marker : Option Marker) :
    Alike other (first.withMarker id marker) (second.withMarker id marker) :=
  { alike with
    markers := by simp only [JournalState.withMarker, alike.markers] }

theorem addPack (packId : PackId) :
    Alike other { first with packs := packId :: first.packs }
      { second with packs := packId :: second.packs } :=
  { alike with
    packs := by simp only [alike.packs] }

theorem withIndex (index : ChunkIndex) :
    Alike other { first with index } { second with index } :=
  { alike with
    index := rfl }

theorem withJournals {change : Dict SessionId StoredJournal → Dict SessionId StoredJournal}
    {changed : SessionId} {value : Option StoredJournal} (different : other ≠ changed)
    (lookup : ∀ journals id, (change journals).get? id =
      if id = changed then value else journals.get? id) :
    Alike other { first with journals := change first.journals }
      { second with journals := change second.journals } :=
  { alike with
    journals id differs := by simp only [lookup, alike.journals id differs]
    present := by simp only [lookup, if_neg different, alike.present] }

theorem removeJournal (different : other ≠ removed) :
    Alike other { first with journals := first.journals.remove removed }
      { second with journals := second.journals.remove removed } :=
  alike.withJournals different fun journals id => journals.get?_remove removed id

theorem setJournal {written : SessionId} (different : other ≠ written) (journal : StoredJournal) :
    Alike other { first with journals := first.journals.set written journal }
      { second with journals := second.journals.set written journal } :=
  alike.withJournals different fun journals id => journals.get?_set written id journal

theorem isPerm_keysList (listed : listing.isPerm first.journals.keysList = true) :
    listing.isPerm second.journals.keysList = true := by
  rw [List.isPerm_iff] at listed ⊢
  refine listed.trans ((List.perm_ext_iff_of_nodup (Dict.keysList_nodup _)
    (Dict.keysList_nodup _)).mpr fun id => ?_)
  rw [Dict.mem_keysList, Dict.mem_keysList]
  by_cases same : id = other
  · rw [same, alike.present]
  · rw [alike.journals id same]

theorem worklist (id : SessionId) (listing : List SessionId) :
    second.worklist id listing = first.worklist id listing := by
  simp only [JournalState.worklist, alike.now, alike.markers]

end

end Alike

theorem get?_remove_of_ne {journals : Dict SessionId StoredJournal} (different : other ≠ removed) :
    (journals.remove removed).get? other = journals.get? other := by
  rw [Dict.get?_remove, if_neg different]

/-- A session ignores the journals that are neither its own nor among those it handles. -/
theorem ignores_of_not_handled (own : event.session = some id) (different : other ≠ id)
    (unhandled : ∀ phase, state.sessions id = some phase → other ∉ phase.handles) :
    Ignores layout state event other := by
  intro next stepped
  have unread {read : SessionId} {index : ChunkIndex} {recovery : Recovery}
      {worklist : List SessionId}
      (phase : state.sessions id = some (.recovering index recovery (read :: worklist))) :
      other ≠ read :=
    fun same => unhandled _ phase (by simp [SessionPhase.handles, same])
  cases JournalStep.of_step stepped with
  | tick seconds => cases own
  | register unused =>
    refine ⟨rfl, fun replaced alike => ⟨_, (JournalStep.register (alike.phase unused)).step, ?_⟩⟩
    rw [alike.now]
    exact (alike.withMarker _ _).withPhase _ _
  | openRepo phase =>
    refine ⟨rfl, fun replaced alike => ⟨_, (JournalStep.openRepo (alike.phase phase)).step, ?_⟩⟩
    rw [alike.index]
    exact alike.withPhase _ _
  | scan phase listed =>
    refine ⟨rfl, fun replaced alike =>
      ⟨_, (JournalStep.scan (alike.phase phase) (alike.isPerm_keysList listed)).step, ?_⟩⟩
    rw [alike.worklist]
    exact alike.withPhase _ _
  | skipMissing phase missing =>
    cases own
    exact ⟨rfl, fun replaced alike => ⟨_, (JournalStep.skipMissing (alike.phase phase)
      ((alike.journals _ (unread phase).symm).trans missing)).step, alike.withPhase _ _⟩⟩
  | dropCorrupt phase corrupt =>
    cases own
    exact ⟨get?_remove_of_ne (unread phase), fun replaced alike =>
      ⟨_, (JournalStep.dropCorrupt (alike.phase phase)
        ((alike.journals _ (unread phase).symm).trans corrupt)).step,
        (alike.removeJournal (unread phase)).withPhase _ _⟩⟩
  | takeOver phase valid =>
    cases own
    refine ⟨rfl, fun replaced alike => ⟨_, (JournalStep.takeOver (alike.phase phase)
      ((alike.journals _ (unread phase).symm).trans valid)).step, ?_⟩⟩
    rw [alike.packs]
    exact alike.withPhase _ _
  | beginWriting phase =>
    exact ⟨rfl, fun replaced alike => ⟨_, (JournalStep.beginWriting (alike.phase phase)).step,
      alike.withPhase _ _⟩⟩
  | call phase called =>
    exact ⟨rfl, fun replaced alike => ⟨_, (JournalStep.call (alike.phase phase) called).step,
      alike.withPhase _ _⟩⟩
  | upload phase pending =>
    exact ⟨rfl, fun replaced alike => ⟨_, (JournalStep.upload (alike.phase phase) pending).step,
      (alike.addPack _).withPhase _ _⟩⟩
  | writeJournal phase nonempty =>
    cases own
    exact ⟨Dict.get?_set_of_ne different, fun replaced alike =>
      ⟨_, (JournalStep.writeJournal (alike.phase phase) nonempty).step,
        alike.setJournal different _⟩⟩
  | refresh phase =>
    refine ⟨rfl, fun replaced alike => ⟨_, (JournalStep.refresh (alike.phase phase)).step, ?_⟩⟩
    rw [alike.now]
    exact alike.withMarker _ _
  | commit phase drained reconciled =>
    refine ⟨rfl, fun replaced alike => ⟨_, (JournalStep.commit (alike.phase phase) drained ?_).step,
      (alike.withIndex _).withPhase _ _⟩⟩
    rw [alike.index]
    exact reconciled
  | @cleanup id deleted rest phase =>
    cases own
    have undeleted : other ≠ deleted := fun same =>
      unhandled _ phase (by simp [SessionPhase.handles, same])
    exact ⟨get?_remove_of_ne undeleted, fun replaced alike =>
      ⟨_, (JournalStep.cleanup (alike.phase phase)).step,
        (alike.removeJournal undeleted).withPhase _ _⟩⟩
  | deregister phase =>
    exact ⟨rfl, fun replaced alike => ⟨_, (JournalStep.deregister (alike.phase phase)).step,
      (alike.withMarker _ _).withPhase _ _⟩⟩
  | clear phase =>
    cases own
    exact ⟨get?_remove_of_ne different, fun replaced alike =>
      ⟨_, (JournalStep.clear (alike.phase phase)).step,
        (alike.removeJournal different).withPhase _ _⟩⟩
  | abort running isOpen =>
    exact ⟨rfl, fun replaced alike => ⟨_, (JournalStep.abort (alike.phase running) isOpen).step,
      (alike.withMarker _ _).withPhase _ _⟩⟩
  | interrupt running =>
    exact ⟨rfl, fun replaced alike => ⟨_, (JournalStep.interrupt (alike.phase running)).step,
      alike.withPhase _ _⟩⟩

def SessionPhase.hasScanned : SessionPhase → Bool
  | .registered | .opened _ => false
  | .recovering .. | .writing _ | .committed _ | .deregistered | .ended => true

def Confined (id : SessionId) (given : List SessionId) (state : JournalState) : Prop :=
  ∃ phase, state.sessions id = some phase ∧ phase.hasScanned = true ∧ phase.handles ⊆ given

namespace Confined

variable {actor : SessionId} {given : List SessionId} {phase : SessionPhase}

section

variable (confined : Confined id given state)

include confined

theorem current (running : state.sessions id = some phase) :
    phase.hasScanned = true ∧ phase.handles ⊆ given := by
  obtain ⟨other, otherRunning, scanned, within⟩ := confined
  cases otherRunning.symm.trans running
  exact ⟨scanned, within⟩

theorem withPhase {before : SessionPhase}
    (sameSessions : next.sessions = (state.withPhase actor phase).sessions)
    (running : state.sessions actor = some before)
    (within : before.hasScanned = true → phase.hasScanned = true ∧ phase.handles ⊆ before.handles) :
    Confined id given next := by
  unfold Confined
  rw [sameSessions, JournalState.withPhase_sessions]
  split
  · rename_i same
    obtain ⟨beforeScanned, beforeWithin⟩ := confined.current (same ▸ running)
    obtain ⟨scanned, fewer⟩ := within beforeScanned
    exact ⟨phase, rfl, scanned, List.Subset.trans fewer beforeWithin⟩
  · exact confined

theorem step (stepped : JournalStep layout state event next) : Confined id given next := by
  cases stepped with
  | tick | writeJournal | refresh => exact confined
  | register unused =>
    unfold Confined
    rw [JournalState.withPhase_sessions]
    split
    · rename_i same
      obtain ⟨phase, running, -⟩ := confined
      exact absurd ((same ▸ unused).symm.trans running) (by simp)
    · exact confined
  | openRepo phase | scan phase =>
    exact confined.withPhase rfl phase fun scanned => by cases scanned
  | skipMissing phase | dropCorrupt phase =>
    refine confined.withPhase rfl phase fun _ => ⟨rfl, fun other handled => ?_⟩
    simp only [SessionPhase.handles, List.mem_append, List.mem_cons] at handled ⊢
    exact handled.imp_right Or.inr
  | takeOver phase valid =>
    refine confined.withPhase rfl phase fun _ => ⟨rfl, fun other handled => ?_⟩
    simpa [SessionPhase.handles, or_assoc] using handled
  | beginWriting phase =>
    refine confined.withPhase rfl phase fun _ => ⟨rfl, fun other handled => ?_⟩
    exact List.mem_append_left _ handled
  | call phase called =>
    refine confined.withPhase rfl phase fun _ => ⟨rfl, fun other handled => ?_⟩
    obtain ⟨-, recording, -, rfl⟩ := Session.step_eq_some called
    exact handled
  | upload phase => exact confined.withPhase rfl phase fun _ => ⟨rfl, fun _ handled => handled⟩
  | commit phase => exact confined.withPhase rfl phase fun _ => ⟨rfl, fun _ handled => handled⟩
  | cleanup phase =>
    exact confined.withPhase rfl phase fun _ =>
      ⟨rfl, fun _ handled => List.mem_cons_of_mem _ handled⟩
  | deregister phase | clear phase | abort phase | interrupt phase =>
    exact confined.withPhase rfl phase fun _ => ⟨rfl, List.nil_subset _⟩

theorem run (ran : (journalSystem layout).run state events = some next) :
    Confined id given next :=
  TransitionSystem.run_invariant _ (fun _ _ _ before _ stepped => before.step (.of_step stepped))
    (TransitionSystem.runAllowed_of_forall fun _ _ _ => trivial) ran confined

end

end Confined

/-- A session ignores the journals whose markers were active or unreadable when it listed the
sessions. -/
theorem ignores_of_unrecoverable {scanned later : JournalState}
    (scan : journalStep layout state (.scan id listing) = some scanned)
    (ran : (journalSystem layout).run scanned events = some later) (different : other ≠ id)
    (unrecoverable : isRecoverable state.now (state.markers other) = false)
    (own : event.session = some id) : Ignores layout later event other := by
  have confined : Confined id (state.worklist id listing) scanned := by
    cases JournalStep.of_step scan with
    | scan phase listed =>
      refine ⟨_, Function.update_self .., rfl, fun handled listed => ?_⟩
      simpa [SessionPhase.handles, Recovery.empty] using listed
  refine ignores_of_not_handled own different fun phase running handled => ?_
  have recoverable := ((confined.run ran).current running).2 handled
  simp [JournalState.worklist, unrecoverable] at recoverable

def Recorded (packId : PackId) (chunk : PendingChunkEntry) (state : JournalState) : Prop :=
  ∃ id wire chunks, state.journals.get? id = some (.valid wire) ∧ (packId, chunks) ∈ wire ∧
    chunk ∈ chunks

/-- The step is not the rollback of a dump in which the pack was sealed. -/
def KeepsPack (packId : PackId) (state : JournalState) (event : JournalEvent) : Prop :=
  ∀ id session, event = .call id .rollbackDump → state.sessions id = some (.writing session) →
    packId ∉ session.sealedInDump

def Covers (packId : PackId) (state : JournalState) : Prop :=
  ∀ id session wire chunks, state.sessions id = some (.writing session) →
    state.journals.get? id = some (.valid wire) → (packId, chunks) ∈ wire →
    (session.journal.get? packId).isSome = true

namespace Covers

variable {actor : SessionId} {phase : SessionPhase}

theorem withPhase (covers : Covers packId state)
    (sameSessions : next.sessions = (state.withPhase actor phase).sessions)
    (fewer : ∀ id journal, next.journals.get? id = some journal →
      state.journals.get? id = some journal)
    (covered : ∀ session wire chunks, phase = .writing session →
      next.journals.get? actor = some (.valid wire) → (packId, chunks) ∈ wire →
      (session.journal.get? packId).isSome = true) : Covers packId next := by
  intro id session wire chunks running found listed
  rw [sameSessions, JournalState.withPhase_sessions] at running
  split at running
  · rename_i same
    exact covered session wire chunks (Option.some.inj running) (same ▸ found) listed
  · exact covers id session wire chunks running (fewer id _ found) listed

theorem step (covers : Covers packId state) (sound : state.Sound layout)
    (keeps : KeepsPack packId state event) (stepped : JournalStep layout state event next) :
    Covers packId next := by
  cases stepped with
  | tick | refresh => exact covers
  | register | openRepo | scan | skipMissing | takeOver | commit | deregister | abort | interrupt =>
    exact covers.withPhase rfl (fun _ _ found => found) (by simp)
  | dropCorrupt | cleanup | clear =>
    exact covers.withPhase rfl (fun _ _ => JournalState.get?_of_get?_remove) (by simp)
  | beginWriting phase =>
    refine covers.withPhase rfl (fun _ _ found => found) fun session wire chunks _ found _ => ?_
    have absent := sound.no_journal fun other running => by
      cases phase.symm.trans running
      rfl
    exact absurd (absent.symm.trans found) (by simp)
  | call phase called =>
    refine covers.withPhase rfl (fun _ _ found => found) fun session wire chunks same found
      listed => ?_
    obtain ⟨-, recording, -, rfl⟩ := Session.step_eq_some called
    obtain rfl := SessionPhase.writing.inj same
    refine Session.journalAfter_kept (covers _ _ wire chunks phase found listed) ?_
    rintro rfl
    exact keeps _ _ rfl phase
  | @upload id session _ phase pending =>
    refine covers.withPhase rfl (fun _ _ found => found) fun after wire chunks same found
      listed => ?_
    obtain rfl := SessionPhase.writing.inj same
    exact covers id session wire chunks phase found listed
  | writeJournal phase nonempty =>
    intro id session wire chunks running found listed
    rw [Dict.get?_set] at found
    split at found
    · rename_i same
      subst same
      obtain rfl := SessionPhase.writing.inj (Option.some.inj (phase.symm.trans running))
      obtain rfl := StoredJournal.valid.inj (Option.some.inj found)
      rw [Dict.get?_eq_some_iff.mpr listed]
      rfl
    · exact covers id session wire chunks running found listed

theorem of_reaches (reached : (journalSystem layout).Reaches (KeepsPack packId) state) :
    Covers packId state := by
  induction reached with
  | initial start =>
    intro id session wire chunks running
    cases start.1 id _ running
  | step reached keeps stepped ih =>
    exact ih.step (.of_reaches reached) keeps (.of_step stepped)

end Covers

def Uncommitted (state : JournalState) : Prop :=
  ∀ id phase, state.sessions id = some phase → phase ≠ .deregistered ∧
    ∀ indexKeys, phase ≠ .committed indexKeys

def JournalEvent.isCommit : JournalEvent → Bool
  | .commit _ => true
  | _ => false

theorem Uncommitted.step (uncommitted : Uncommitted state)
    (stepped : JournalStep layout state event next) (noCommit : event.isCommit = false) :
    Uncommitted next := by
  have withPhase {sessions : SessionId → Option SessionPhase} {id : SessionId}
      {phase : SessionPhase} (same : sessions = (state.withPhase id phase).sessions)
      (before : phase ≠ .deregistered ∧ ∀ indexKeys, phase ≠ .committed indexKeys)
      (other : SessionId) (otherPhase : SessionPhase)
      (running : sessions other = some otherPhase) :
      otherPhase ≠ .deregistered ∧ ∀ indexKeys, otherPhase ≠ .committed indexKeys := by
    rw [same, JournalState.withPhase_sessions] at running
    split at running
    · exact Option.some.inj running ▸ before
    · exact uncommitted other otherPhase running
  cases stepped with
  | tick | refresh | writeJournal => exact uncommitted
  | commit => cases noCommit
  | cleanup phase | deregister phase => exact absurd rfl ((uncommitted _ _ phase).2 _)
  | clear phase => exact absurd rfl (uncommitted _ _ phase).1
  | register | openRepo | scan | skipMissing | dropCorrupt | takeOver | beginWriting | call | upload
  | abort | interrupt => exact withPhase rfl (by simp)

theorem Recorded.step (recorded : Recorded packId chunk state) (sound : state.Sound layout)
    (covers : Covers packId state) (uncommitted : Uncommitted state)
    (stepped : JournalStep layout state event next) : Recorded packId chunk next := by
  obtain ⟨id, wire, chunks, found, listed, inside⟩ := recorded
  cases stepped with
  | tick | register | openRepo | scan | skipMissing | takeOver | beginWriting | call | upload
  | refresh
  | commit | deregister | abort | interrupt =>
    exact ⟨id, wire, chunks, found, listed, inside⟩
  | dropCorrupt phase corrupt =>
    refine ⟨id, wire, chunks, ?_, listed, inside⟩
    refine (get?_remove_of_ne ?_).trans found
    rintro rfl
    rw [corrupt] at found
    cases found
  | cleanup phase => exact absurd rfl ((uncommitted _ _ phase).2 _)
  | clear phase => exact absurd rfl (uncommitted _ _ phase).1
  | @writeJournal writer session phase nonempty =>
    by_cases same : id = writer
    · -- the journal is replaced by one that lists the pack with the same chunks
      subst same
      obtain ⟨kept, keptFound⟩ :=
        Option.isSome_iff_exists.mp (covers id session wire chunks phase found listed)
      have sameChunks : kept = chunks :=
        ((sound.writing phase).accurate packId kept keptFound).trans
        (sound.accurate id wire found _ listed).symm
      subst sameChunks
      exact ⟨id, _, kept, Dict.get?_set_self _ _ _, Dict.get?_eq_some_iff.mp keptFound, inside⟩
    · exact ⟨id, wire, chunks, (Dict.get?_set_of_ne same).trans found, listed, inside⟩

theorem Recorded.run (reached : (journalSystem layout).Reaches (KeepsPack packId) state)
    (uncommitted : Uncommitted state) (allowed : (journalSystem layout).RunAllowed
      (fun state event => KeepsPack packId state event ∧ event.isCommit = false) state events)
    (ran : (journalSystem layout).run state events = some next)
    (recorded : Recorded packId chunk state) : Recorded packId chunk next := by
  refine (TransitionSystem.run_invariant (fun state =>
    (journalSystem layout).Reaches (KeepsPack packId) state ∧ Uncommitted state ∧
      Recorded packId chunk state) ?_ allowed ran ⟨reached, uncommitted, recorded⟩).2.2
  rintro state event next ⟨reached, uncommitted, recorded⟩ ⟨keeps, noCommit⟩ stepped
  have inverted := JournalStep.of_step stepped
  exact ⟨.step reached keeps stepped, uncommitted.step inverted noCommit,
    recorded.step (.of_reaches reached) (.of_reaches reached) uncommitted inverted⟩

/-- Every recovered entry names a stored pack and a chunk that the loaded index does not have. -/
def RecoversStored (state : JournalState) : Prop :=
  (∀ id index recovery worklist, state.sessions id = some (.recovering index recovery worklist) →
    ∀ chunkId entry, recovery.recovered chunkId = some entry →
      entry.packId ∈ state.packs ∧ index.contains chunkId = false) ∧
  ∀ id session, state.sessions id = some (.writing session) →
    ∀ chunkId entry, session.recording.session.recovered chunkId = some entry →
      entry.packId ∈ state.packs ∧ session.index.contains chunkId = false

/-- Every chunk that a session recovered has no new delta entry while it is recovered and
exactly one, at its place, from its promotion on. -/
def PromotesOnce (state : JournalState) : Prop :=
  ∀ id session, state.sessions id = some (.writing session) →
    ∀ chunkId entry, session.recovery.recovered chunkId = some entry →
      (session.recording.session.delta.newEntries.map NewChunkEntry.chunkId).count chunkId =
        (if (session.recording.session.recovered chunkId).isSome then 0 else 1) ∧
      ∀ added ∈ session.recording.session.delta.newEntries, added.chunkId = chunkId →
        entry.Locates added

theorem JournalState.Sound.recoversStored (sound : state.Sound layout) : RecoversStored state := by
  refine ⟨fun id index recovery worklist running => (sound.recovering running).stored, ?_⟩
  intro id session running chunkId entry recovered
  have writing := sound.writing running
  exact writing.recovery.stored chunkId entry (writing.traced.now.within chunkId entry recovered)

theorem JournalState.Sound.promotesOnce (sound : state.Sound layout) : PromotesOnce state := by
  intro id session running chunkId entry recovered
  have writing := sound.writing running
  exact ⟨writing.traced.now.count_newEntries writing.kept.now recovered,
    fun added => writing.traced.now.locates writing.kept.now recovered⟩

theorem journal_recovery (layout : PackId → List PendingChunkEntry) :
    (∀ state, (journalSystem layout).Reaches (fun _ _ => True) state →
      RecoversStored state ∧ PromotesOnce state) ∧
    (∀ state scanned later id other listing events event,
      journalStep layout state (.scan id listing) = some scanned →
      (journalSystem layout).run scanned events = some later →
      other ≠ id → isRecoverable state.now (state.markers other) = false →
      event.session = some id → Ignores layout later event other) ∧
    ∀ packId chunk state later events,
      (journalSystem layout).Reaches (KeepsPack packId) state → Uncommitted state →
      (journalSystem layout).RunAllowed
        (fun state event => KeepsPack packId state event ∧ event.isCommit = false) state events →
      (journalSystem layout).run state events = some later →
      Recorded packId chunk state → Recorded packId chunk later := by
  refine ⟨fun state reached => ?_, ?_, ?_⟩
  · have sound := JournalState.Sound.of_reaches reached
    exact ⟨sound.recoversStored, sound.promotesOnce⟩
  · intro state scanned later id other listing events event scan ran different unrecoverable own
    exact ignores_of_unrecoverable scan ran different unrecoverable own
  · intro packId chunk state later events reached uncommitted allowed ran recorded
    exact recorded.run reached uncommitted allowed ran

/-- Packs 7 and 8 hold one chunk each. -/
def twoPackLayout (packId : PackId) : List PendingChunkEntry :=
  if packId = 7 then [⟨1, 10, 13⟩] else [⟨2, 10, 13⟩]

/-- A session that ended before it committed has left a journal for the stored pack 7. -/
def leftJournal : JournalState where
  now := 0
  packs := [7]
  index := ∅
  markers _ := none
  journals := Dict.set ∅ 0 (.valid [(7, [⟨1, 10, 13⟩])])
  sessions id := if id = 0 then some .ended else none

theorem leftJournal_initial : (journalSystem twoPackLayout).initial leftJournal := by
  refine ⟨fun id phase running => ?_, fun id unused => ⟨rfl, ?_⟩, fun id wire found => ?_⟩
  · simp only [leftJournal] at running
    split at running
    · exact (Option.some.inj running).symm
    · cases running
  · simp only [leftJournal] at unused ⊢
    split at unused
    · cases unused
    · rename_i other
      simp [Dict.get?_set, other]
  · simp only [leftJournal, Dict.get?_set] at found
    split at found
    · obtain rfl := StoredJournal.valid.inj (Option.some.inj found)
      intro pack listed
      obtain rfl := List.mem_singleton.mp listed
      rfl
    · cases found

/-- The next session takes the journal over, promotes its chunk, writes its own journal and is
interrupted. -/
theorem journal_recovery_taken_over :
    ∃ later ∈ (journalSystem twoPackLayout).run leftJournal
      [.register 1, .openRepo 1, .scan 1 [0], .recoverNext 1, .beginWriting 1,
        .call 1 (.store 1 10 .data),
        .writeJournal 1, .interrupt 1],
      Recorded 7 ⟨1, 10, 13⟩ later := by
  have finishes : ((journalSystem twoPackLayout).run leftJournal
      [.register 1, .openRepo 1, .scan 1 [0], .recoverNext 1, .beginWriting 1,
        .call 1 (.store 1 10 .data),
        .writeJournal 1, .interrupt 1]).isSome = true := by decide +kernel
  obtain ⟨later, ran⟩ := Option.isSome_iff_exists.mp finishes
  refine ⟨later, ran, ?_⟩
  refine (journal_recovery twoPackLayout).2.2 7 ⟨1, 10, 13⟩ leftJournal later _
    (.initial leftJournal_initial) (fun id phase running => ?_) ?_ ran ?_
  · obtain rfl := leftJournal_initial.1 id phase running
    simp
  · apply TransitionSystem.runAllowed_of_forall
    intro state event listed
    have harmless :
        ∀ event ∈ ([.register 1, .openRepo 1, .scan 1 [0], .recoverNext 1, .beginWriting 1,
        .call 1 (.store 1 10 .data), .writeJournal 1, .interrupt 1] : List JournalEvent),
        (∀ id, event ≠ .call id .rollbackDump) ∧ event.isCommit = false := by
      simp [JournalEvent.isCommit]
    exact ⟨fun id _ same => absurd same ((harmless event listed).1 id), (harmless event listed).2⟩
  · exact ⟨0, _, _, rfl, List.mem_singleton_self _, List.mem_singleton_self _⟩

theorem rolled_back_dump_unrecorded :
    ∃ state later events,
      (journalSystem twoPackLayout).Reaches (fun _ event => event.isCommit = false) state ∧
      (∀ event ∈ events, event.isCommit = false) ∧
      (journalSystem twoPackLayout).run state events = some later ∧
      7 ∈ state.packs ∧ Recorded 7 ⟨1, 10, 13⟩ state ∧
      7 ∈ later.packs ∧ ¬ Recorded 7 ⟨1, 10, 13⟩ later := by
  have runs : ∃ state ∈ (journalSystem twoPackLayout).run
      ⟨0, [], ∅, fun _ => none, ∅, fun _ => none⟩
      [.register 1, .openRepo 1, .scan 1 [], .beginWriting 1, .call 1 (.beginDump 0),
        .call 1 (.store 1 10 .data), .call 1 (.flush 7 .data), .upload 1 7, .writeJournal 1],
      (state.packs = [7] ∧ state.journals.get? 1 = some (.valid [(7, [⟨1, 10, 13⟩])])) ∧
      ∃ later ∈ (journalSystem twoPackLayout).run state
        [.call 1 .rollbackDump, .call 1 (.store 2 10 .data), .call 1 (.flush 8 .data),
          .upload 1 8, .writeJournal 1],
        later.packs = [8, 7] ∧ later.journals.toList = [(1, .valid [(8, [⟨2, 10, 13⟩])])] := by
    decide +kernel
  obtain ⟨state, reached, ⟨packs, found⟩, later, ran, laterPacks, journals⟩ := runs
  refine ⟨state, later, _, ?_, by simp [JournalEvent.isCommit], ran, by simp [packs],
    ⟨1, _, _, found, List.mem_singleton_self _, List.mem_singleton_self _⟩,
    by simp [laterPacks], ?_⟩
  · refine TransitionSystem.Reaches.run (.initial ?_)
      (TransitionSystem.runAllowed_of_forall ?_) reached
    · refine ⟨fun id phase running => ?_, fun id _ => ⟨rfl, rfl⟩, fun id wire stored => ?_⟩
      · cases running
      · cases stored
    · simp [JournalEvent.isCommit]
  · rintro ⟨id, wire, chunks, stored, listed, -⟩
    rw [Dict.get?_eq_some_iff, journals, List.mem_singleton] at stored
    obtain ⟨-, same⟩ := Prod.mk.inj stored
    obtain rfl := StoredJournal.valid.inj same
    simp at listed

end Vykar.Repo

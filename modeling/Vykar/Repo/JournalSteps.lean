import Vykar.Repo.Journal
import Vykar.Repo.Promotion

/-!
The steps of journaled sessions, one constructor each, and what every run keeps.

The stored and the recorded journals say what the packs hold, a recovered chunk is in a
stored pack and not in the loaded index, and an id has no journal before its session
stores chunks.
-/

namespace Vykar.Repo

open Index

inductive JournalStep (layout : PackId → List PendingChunkEntry) (state : JournalState) :
    JournalEvent → JournalState → Prop where
  | tick (seconds : Nat) :
      JournalStep layout state (.tick seconds) { state with now := state.now + seconds }
  | register {id : SessionId} (unused : state.sessions id = none) :
      JournalStep layout state (.register id)
        ((state.withMarker id (some (.readable state.now))).withPhase id .registered)
  | openRepo {id : SessionId} (phase : state.sessions id = some .registered) :
      JournalStep layout state (.openRepo id) (state.withPhase id (.opened state.index))
  | scan {id : SessionId} {index : ChunkIndex} {listing : List SessionId}
      (phase : state.sessions id = some (.opened index))
      (listed : listing.isPerm state.journals.keysList = true) :
      JournalStep layout state (.scan id listing)
        (state.withPhase id (.recovering index .empty (state.worklist id listing)))
  | skipMissing {id other : SessionId} {index : ChunkIndex} {recovery : Recovery}
      {worklist : List SessionId}
      (phase : state.sessions id = some (.recovering index recovery (other :: worklist)))
      (missing : state.journals.get? other = none) :
      JournalStep layout state (.recoverNext id)
        (state.withPhase id (.recovering index recovery worklist))
  | dropCorrupt {id other : SessionId} {index : ChunkIndex} {recovery : Recovery}
      {worklist : List SessionId}
      (phase : state.sessions id = some (.recovering index recovery (other :: worklist)))
      (corrupt : state.journals.get? other = some .corrupt) :
      JournalStep layout state (.recoverNext id)
        ({ state with journals := state.journals.remove other }.withPhase id
          (.recovering index recovery worklist))
  | takeOver {id other : SessionId} {index : ChunkIndex} {recovery : Recovery}
      {worklist : List SessionId} {wire : JournalWire}
      (phase : state.sessions id = some (.recovering index recovery (other :: worklist)))
      (valid : state.journals.get? other = some (.valid wire)) :
      JournalStep layout state (.recoverNext id)
        (state.withPhase id
          (.recovering index (recovery.recoverWire index state.packs other wire) worklist))
  | beginWriting {id : SessionId} {index : ChunkIndex} {recovery : Recovery}
      (phase : state.sessions id = some (.recovering index recovery [])) :
      JournalStep layout state (.beginWriting id)
        (state.withPhase id (.writing (.start index recovery)))
  | call {id : SessionId} {session after : Session} {op : SessionOp}
      (phase : state.sessions id = some (.writing session))
      (stepped : session.step layout op = some after) :
      JournalStep layout state (.call id op) (state.withPhase id (.writing after))
  | upload {id : SessionId} {session : Session} {packId : PackId}
      (phase : state.sessions id = some (.writing session))
      (pending : packId ∈ session.uploads) :
      JournalStep layout state (.upload id packId)
        ({ state with packs := packId :: state.packs }.withPhase id
          (.writing { session with uploads := session.uploads.erase packId }))
  | writeJournal {id : SessionId} {session : Session}
      (phase : state.sessions id = some (.writing session))
      (nonempty : session.journal.keysList.isEmpty = false) :
      JournalStep layout state (.writeJournal id)
        { state with journals := state.journals.set id (.valid session.journal.toList) }
  | refresh {id : SessionId} {session : Session}
      (phase : state.sessions id = some (.writing session)) :
      JournalStep layout state (.refresh id) (state.withMarker id (some (.readable state.now)))
  | commit {id : SessionId} {session : Session} {index : ChunkIndex}
      (phase : state.sessions id = some (.writing session))
      (drained : session.isDrained = true)
      (reconciled : Index.commit state.index session.recording.session.delta = .ok index) :
      JournalStep layout state (.commit id)
        ({ state with index }.withPhase id (.committed session.recovery.indexKeys))
  | cleanup {id other : SessionId} {rest : List SessionId}
      (phase : state.sessions id = some (.committed (other :: rest))) :
      JournalStep layout state (.cleanup id)
        ({ state with journals := state.journals.remove other }.withPhase id (.committed rest))
  | deregister {id : SessionId} (phase : state.sessions id = some (.committed [])) :
      JournalStep layout state (.deregister id)
        ((state.withMarker id none).withPhase id .deregistered)
  | clear {id : SessionId} (phase : state.sessions id = some .deregistered) :
      JournalStep layout state (.clear id)
        ({ state with journals := state.journals.remove id }.withPhase id .ended)
  | abort {id : SessionId} {phase : SessionPhase} (running : state.sessions id = some phase)
      (isOpen : phase.isOpen = true) :
      JournalStep layout state (.abort id) ((state.withMarker id none).withPhase id .ended)
  | interrupt {id : SessionId} {phase : SessionPhase} (running : state.sessions id = some phase) :
      JournalStep layout state (.interrupt id) (state.withPhase id .ended)

variable {layout : PackId → List PendingChunkEntry} {state next : JournalState}
  {event : JournalEvent} {other : SessionId} {index : ChunkIndex} {recovery : Recovery}
  {worklist : List SessionId} {packId : PackId} {later : List PackId}

theorem JournalStep.of_recoverNext {id : SessionId}
    (phase : state.sessions id = some (.recovering index recovery (other :: worklist))) :
    JournalStep layout state (.recoverNext id)
      (state.recoverNext id index recovery other worklist) := by
  unfold JournalState.recoverNext
  split
  · rename_i missing
    exact .skipMissing phase missing
  · rename_i corrupt
    exact .dropCorrupt phase corrupt
  · rename_i wire valid
    exact .takeOver phase valid

theorem JournalStep.of_step (stepped : journalStep layout state event = some next) :
    JournalStep layout state event next := by
  cases event <;> simp only [journalStep] at stepped
  case tick seconds =>
      cases stepped
      exact .tick seconds
  -- in every other event the first split is on the phase of the session
  case recoverNext id =>
      split at stepped
      · cases stepped
        exact .of_recoverNext ‹_›
      · cases stepped
  case scan | upload | abort =>
      split at stepped
      · split at stepped
        · cases stepped
          constructor <;> assumption
        · cases stepped
      · cases stepped
  case call id op =>
      split at stepped
      · obtain ⟨after, accepted, rfl⟩ := Option.map_eq_some_iff.mp stepped
        exact .call ‹_› accepted
      · cases stepped
  case writeJournal id =>
      split at stepped
      · split at stepped
        · cases stepped
        · cases stepped
          exact .writeJournal ‹_› (Bool.eq_false_iff.mpr ‹_›)
      · cases stepped
  case commit id =>
      split at stepped
      · simp only [JournalState.commit] at stepped
        split at stepped
        · split at stepped
          · cases stepped
            exact .commit ‹_› ‹_› ‹_›
          · cases stepped
        · cases stepped
      · cases stepped
  case openRepo | register | beginWriting | refresh | cleanup | deregister | clear | interrupt =>
      split at stepped
      · cases stepped
        constructor
        assumption
      · cases stepped

theorem JournalStep.step (stepped : JournalStep layout state event next) :
    journalStep layout state event = some next := by
  cases stepped with
  | tick seconds => rfl
  | register unused => simp only [journalStep, unused]
  | scan phase listed => simp only [journalStep, phase, listed, if_true]
  | skipMissing phase found | dropCorrupt phase found | takeOver phase found =>
    simp only [journalStep, phase, JournalState.recoverNext, found]
  | openRepo phase | beginWriting phase | refresh phase | cleanup phase | deregister phase
  | clear phase | interrupt phase => simp only [journalStep, phase]
  | abort running isOpen => simp only [journalStep, running, isOpen, if_true]
  | call phase stepped => simp only [journalStep, phase, stepped, Option.map_some]
  | upload phase pending => simp only [journalStep, phase, pending, if_true]
  | writeJournal phase nonempty =>
    simp only [journalStep, phase, nonempty, Bool.false_eq_true, if_false]
  | commit phase drained reconciled =>
    simp only [journalStep, phase, JournalState.commit, drained, if_true, reconciled]

def JournalAccurate (layout : PackId → List PendingChunkEntry) (journal : PendingIndexJournal) :
    Prop :=
  ∀ packId chunks, journal.get? packId = some chunks → chunks = layout packId

theorem JournalAccurate.set {journal : PendingIndexJournal} {chunks : List PendingChunkEntry}
    (accurate : JournalAccurate layout journal) (holds : chunks = layout packId) :
    JournalAccurate layout (journal.set packId chunks) := by
  intro other found stored
  rw [Dict.get?_set] at stored
  split at stored
  · rename_i same
    cases stored
    exact same ▸ holds
  · exact accurate other found stored

structure Recovery.Sound (layout : PackId → List PendingChunkEntry) (index : ChunkIndex)
    (packs : List PackId) (recovery : Recovery) : Prop where
  stored : ∀ id entry, recovery.recovered id = some entry →
    entry.packId ∈ packs ∧ index.contains id = false
  accurate : JournalAccurate layout recovery.journal

namespace Recovery

variable {packs : List PackId} {wire : JournalWire}

theorem empty_sound : Recovery.Sound layout index packs .empty where
  stored id entry recovered := by cases recovered
  accurate packId chunks found := by cases found

theorem Sound.mono (sound : recovery.Sound layout index packs) (grows : packs ⊆ later) :
    recovery.Sound layout index later :=
  ⟨fun id entry recovered => ⟨grows (sound.stored id entry recovered).1,
    (sound.stored id entry recovered).2⟩, sound.accurate⟩

theorem recoverChunk_stored (isStored : packId ∈ packs) (chunks : List PendingChunkEntry)
    {recovered : ChunkId → Option RecoveredChunkEntry}
    (stored : ∀ id entry, recovered id = some entry →
      entry.packId ∈ packs ∧ index.contains id = false) :
    ∀ id entry, chunks.foldl (recoverChunk index packId) recovered id = some entry →
      entry.packId ∈ packs ∧ index.contains id = false := by
  induction chunks generalizing recovered with
  | nil => exact stored
  | cons chunk chunks ih =>
    rw [List.foldl_cons]
    apply ih
    intro id entry taken
    unfold recoverChunk at taken
    split at taken
    · exact stored id entry taken
    · rename_i absent
      rw [Function.update_apply] at taken
      split at taken
      · rename_i same
        cases taken
        exact ⟨isStored, same ▸ Bool.eq_false_iff.mpr absent⟩
      · exact stored id entry taken

section

variable (sound : recovery.Sound layout index packs)

include sound

theorem Sound.recoverPack {pack : PackId × List PendingChunkEntry}
    (holds : pack.2 = layout pack.1) :
    (recovery.recoverPack index packs pack).Sound layout index packs := by
  unfold Recovery.recoverPack
  split
  · rename_i isStored
    exact ⟨recoverChunk_stored isStored pack.2 sound.stored, sound.accurate.set holds⟩
  · exact sound

theorem Sound.foldl_recoverPack (accurate : Accurate layout wire) :
    (wire.foldl (Recovery.recoverPack index packs) recovery).Sound layout index packs := by
  induction wire generalizing recovery with
  | nil => exact sound
  | cons pack wire ih =>
    exact ih (sound.recoverPack (accurate pack List.mem_cons_self))
      fun other listed => accurate other (List.mem_cons_of_mem _ listed)

theorem Sound.recoverWire (accurate : Accurate layout wire) (other : SessionId) :
    (recovery.recoverWire index packs other wire).Sound layout index packs :=
  have found := sound.foldl_recoverPack accurate
  ⟨found.stored, found.accurate⟩

end

theorem foldl_recoverPack_indexKeys (recovery : Recovery) (wire : JournalWire) :
    (wire.foldl (Recovery.recoverPack index packs) recovery).indexKeys = recovery.indexKeys := by
  induction wire generalizing recovery with
  | nil => rfl
  | cons pack wire ih =>
    rw [List.foldl_cons, ih]
    unfold Recovery.recoverPack
    split <;> rfl

@[simp]
theorem recoverWire_indexKeys (recovery : Recovery) (other : SessionId) (wire : JournalWire) :
    (recovery.recoverWire index packs other wire).indexKeys = recovery.indexKeys ++ [other] := by
  simp only [Recovery.recoverWire, foldl_recoverPack_indexKeys]

end Recovery

structure Session.Sound (layout : PackId → List PendingChunkEntry) (packs : List PackId)
    (session : Session) : Prop where
  recovery : session.recovery.Sound layout session.index packs
  accurate : JournalAccurate layout session.journal
  kept : session.recording.Kept session.index
  traced : session.recording.Traced session.recovery.recovered

namespace Session

variable {session after : Session} {packs : List PackId} {op : SessionOp}

theorem step_eq_some (stepped : session.step layout op = some after) :
    (∀ packId packType, session.seals op = some (packId, packType) →
      session.sealedEntries packId packType = layout packId) ∧
    ∃ recording, session.recording.step op = some recording ∧
      after = { session with
        recording
        journal := session.journalAfter op
        sealedInDump := session.sealedInDumpAfter op
        uploads := session.uploads ++ ((session.seals op).map Prod.fst).toList } := by
  simp only [Session.step] at stepped
  split at stepped
  · rename_i isContent
    obtain ⟨recording, called, rfl⟩ := Option.map_eq_some_iff.mp stepped
    refine ⟨fun packId packType seals => ?_, recording, called, rfl⟩
    simp only [sealsContent, seals, decide_eq_true_eq] at isContent
    exact isContent.1
  · cases stepped

/-- The journal keeps its packs, except that a rollback drops those sealed in the dump. -/
theorem journalAfter_kept (recorded : (session.journal.get? packId).isSome)
    (kept : op = .rollbackDump → packId ∉ session.sealedInDump) :
    ((session.journalAfter op).get? packId).isSome := by
  obtain ⟨chunks, found⟩ := Option.isSome_iff_exists.mp recorded
  unfold journalAfter
  split
  · exact Option.isSome_iff_exists.mpr ⟨chunks, Dict.get?_foldl_remove.mpr ⟨found, kept rfl⟩⟩
  · rw [Dict.get?_set]
    split
    · rfl
    · exact recorded
  · exact recorded

theorem journalAfter_accurate (accurate : JournalAccurate layout session.journal)
    (holds : ∀ packId packType, session.seals op = some (packId, packType) →
      session.sealedEntries packId packType = layout packId) :
    JournalAccurate layout (session.journalAfter op) := by
  unfold journalAfter
  split
  · intro packId chunks found
    exact accurate packId chunks (Dict.get?_foldl_remove.mp found).1
  · exact accurate.set (holds _ _ ‹_›)
  · exact accurate

theorem Sound.step (sound : session.Sound layout packs)
    (stepped : session.step layout op = some after) : after.Sound layout packs := by
  obtain ⟨holds, recording, called, rfl⟩ := step_eq_some stepped
  exact ⟨sound.recovery, journalAfter_accurate sound.accurate holds, sound.kept.step called,
    sound.traced.step sound.kept called⟩

theorem start_sound (sound : recovery.Sound layout index packs) :
    (Session.start index recovery).Sound layout packs where
  recovery := sound
  accurate := sound.accurate
  kept := Recording.start_kept index recovery.recovered
  traced := by
    have unfiltered : (Recording.start index recovery.recovered).session.recovered =
        recovery.recovered := by
      funext id
      simp only [Recording.start, WriteSession.start]
      split
      · rename_i contained
        cases recovered : recovery.recovered id with
        | none => rfl
        | some entry => simp [(sound.stored id entry recovered).2] at contained
      · rfl
    have traced := Recording.start_traced index recovery.recovered
    rwa [unfiltered] at traced

end Session

namespace SessionPhase

def Sound (layout : PackId → List PendingChunkEntry) (packs : List PackId) : SessionPhase → Prop
  | .recovering index recovery _ => recovery.Sound layout index packs
  | .writing session => session.Sound layout packs
  | .registered | .opened _ | .committed _ | .deregistered | .ended => True

def mayHaveJournal : SessionPhase → Bool
  | .registered | .opened _ | .recovering .. => false
  | .writing _ | .committed _ | .deregistered | .ended => true

theorem Sound.mono {phase : SessionPhase} {packs : List PackId} (sound : phase.Sound layout packs)
    (grows : packs ⊆ later) : phase.Sound layout later := by
  cases phase with
  | recovering index recovery worklist => exact Recovery.Sound.mono sound grows
  | writing session =>
    have writing : session.Sound layout packs := sound
    exact ⟨writing.recovery.mono grows, writing.accurate, writing.kept, writing.traced⟩
  | registered | opened | committed | deregistered | ended => trivial

end SessionPhase

namespace JournalState

structure Sound (layout : PackId → List PendingChunkEntry) (state : JournalState) : Prop where
  accurate : ∀ id wire, state.journals.get? id = some (.valid wire) → Accurate layout wire
  phases : ∀ id phase, state.sessions id = some phase → phase.Sound layout state.packs
  written : ∀ id journal, state.journals.get? id = some journal →
    ∃ phase, state.sessions id = some phase ∧ phase.mayHaveJournal = true

variable {id : SessionId} {phase : SessionPhase} {session : Session}

theorem withPhase_sessions (state : JournalState) (id other : SessionId) (phase : SessionPhase) :
    (state.withPhase id phase).sessions other =
      if other = id then some phase else state.sessions other :=
  Function.update_apply ..

section

variable (sound : state.Sound layout)

include sound

theorem Sound.recovering
    (running : state.sessions id = some (.recovering index recovery worklist)) :
    recovery.Sound layout index state.packs :=
  sound.phases id _ running

theorem Sound.writing (running : state.sessions id = some (.writing session)) :
    session.Sound layout state.packs :=
  sound.phases id _ running

theorem Sound.no_journal
    (early : ∀ phase, state.sessions id = some phase → phase.mayHaveJournal = false) :
    state.journals.get? id = none := by
  cases found : state.journals.get? id with
  | none => rfl
  | some journal =>
    obtain ⟨phase, running, may⟩ := sound.written id journal found
    rw [early phase running] at may
    cases may

theorem Sound.withPhase (phaseSound : phase.Sound layout state.packs)
    (written : phase.mayHaveJournal = true ∨ state.journals.get? id = none) :
    (state.withPhase id phase).Sound layout where
  accurate := sound.accurate
  phases other otherPhase running := by
    rw [withPhase_sessions] at running
    split at running
    · cases running
      exact phaseSound
    · exact sound.phases other otherPhase running
  written other journal found := by
    rw [withPhase_sessions]
    split
    · rename_i same
      subst same
      refine ⟨phase, rfl, written.resolve_right fun absent => ?_⟩
      exact absurd (absent.symm.trans found) (by simp)
    · exact sound.written other journal found

theorem Sound.withMarker (id : SessionId) (marker : Option Marker) :
    (state.withMarker id marker).Sound layout :=
  ⟨sound.accurate, sound.phases, sound.written⟩

end

theorem get?_of_get?_remove {journals : Dict SessionId StoredJournal} {journal : StoredJournal}
    (found : (journals.remove other).get? id = some journal) :
    journals.get? id = some journal := by
  rw [Dict.get?_remove] at found
  split at found
  · cases found
  · exact found

theorem Sound.removeJournal (sound : state.Sound layout) (other : SessionId) :
    { state with journals := state.journals.remove other }.Sound layout where
  accurate id wire found := sound.accurate id wire (get?_of_get?_remove found)
  phases := sound.phases
  written id journal found := sound.written id journal (get?_of_get?_remove found)

theorem Sound.addPack (sound : state.Sound layout) (packId : PackId) :
    { state with packs := packId :: state.packs }.Sound layout :=
  { sound with
    phases id phase running :=
      (sound.phases id phase running).mono (List.subset_cons_self packId state.packs) }

theorem Sound.writeJournal (sound : state.Sound layout)
    (running : state.sessions id = some (.writing session)) :
    { state with journals := state.journals.set id (.valid session.journal.toList) }.Sound
      layout where
  accurate other wire found := by
    rw [Dict.get?_set] at found
    split at found
    · obtain rfl := StoredJournal.valid.inj (Option.some.inj found)
      intro pack listed
      exact (sound.writing running).accurate pack.1 pack.2 (Dict.get?_eq_some_iff.mpr listed)
    · exact sound.accurate other wire found
  phases := sound.phases
  written other journal found := by
    rw [Dict.get?_set] at found
    split at found
    · rename_i same
      exact ⟨_, same ▸ running, rfl⟩
    · exact sound.written other journal found

theorem initial_sound (start : (journalSystem layout).initial state) : state.Sound layout where
  accurate := start.2.2
  phases id phase running := by
    obtain rfl := start.1 id phase running
    trivial
  written id journal found := by
    cases running : state.sessions id with
    | none => exact absurd ((start.2.1 id running).2.symm.trans found) (by simp)
    | some phase =>
      obtain rfl := start.1 id phase running
      exact ⟨_, rfl, rfl⟩

theorem Sound.step (sound : state.Sound layout) (stepped : JournalStep layout state event next) :
    next.Sound layout := by
  -- a session that has not begun to write leaves its id without a journal
  have early {id : SessionId} {phase : SessionPhase} (running : state.sessions id = some phase)
      (notYet : phase.mayHaveJournal = false) : state.journals.get? id = none :=
    sound.no_journal fun other otherRunning => by
      cases running.symm.trans otherRunning
      exact notYet
  cases stepped with
  | tick seconds => exact ⟨sound.accurate, sound.phases, sound.written⟩
  | register unused =>
    refine (sound.withMarker _ _).withPhase trivial (.inr (sound.no_journal ?_))
    exact fun phase running => absurd (unused.symm.trans running) (by simp)
  | openRepo phase => exact sound.withPhase trivial (.inr (early phase rfl))
  | scan phase listed => exact sound.withPhase Recovery.empty_sound (.inr (early phase rfl))
  | skipMissing phase missing =>
    exact sound.withPhase (sound.recovering phase) (.inr (early phase rfl))
  | dropCorrupt phase corrupt =>
    refine (sound.removeJournal _).withPhase (sound.recovering phase) (.inr ?_)
    simp only [Dict.get?_remove, early phase rfl, ite_self]
  | takeOver phase valid =>
    have found := (sound.recovering phase).recoverWire (sound.accurate _ _ valid)
    exact sound.withPhase (found _) (.inr (early phase rfl))
  | beginWriting phase =>
    exact sound.withPhase (Session.start_sound (sound.recovering phase)) (.inl rfl)
  | call phase called => exact sound.withPhase ((sound.writing phase).step called) (.inl rfl)
  | @upload id session packId phase pending =>
    have later := (sound.addPack packId).writing phase
    exact (sound.addPack packId).withPhase
      ⟨later.recovery, later.accurate, later.kept, later.traced⟩ (.inl rfl)
  | writeJournal phase nonempty => exact sound.writeJournal phase
  | refresh phase => exact sound.withMarker _ _
  | commit phase drained reconciled =>
    exact Sound.withPhase ⟨sound.accurate, sound.phases, sound.written⟩ trivial (.inl rfl)
  | cleanup phase => exact (sound.removeJournal _).withPhase trivial (.inl rfl)
  | deregister phase => exact (sound.withMarker _ _).withPhase trivial (.inl rfl)
  | clear phase => exact (sound.removeJournal _).withPhase trivial (.inl rfl)
  | abort running isOpen => exact (sound.withMarker _ _).withPhase trivial (.inl rfl)
  | interrupt running => exact sound.withPhase trivial (.inl rfl)

theorem Sound.of_reaches {allowed : JournalState → JournalEvent → Prop}
    (reached : (journalSystem layout).Reaches allowed state) : state.Sound layout :=
  reached.invariant _ (fun _ => initial_sound) fun _ _ _ sound _ stepped =>
    sound.step (.of_step stepped)

end JournalState

end Vykar.Repo

import Vykar.Clients.Durability

/-!
Readers and maintenance.

A session is admitted while no maintenance command has the lock, and one that takes it later
sees the marker and does not start.  So the packs stay for a reader that has a session.  `mount`
has none: a command does not see it, and deletes the packs that it reads.
-/

namespace Vykar.Clients

open Index Pack Repo

namespace Phase

/-- A maintenance command past its check that may still compact. -/
def mayCompact : Phase → Bool
  | .checked _ _ | .compacting _ => true
  | _ => false

def isAdmitted : Phase → Bool
  | .admitted | .reading _ _ => true
  | _ => false

def isReader : Phase → Bool
  | .registered | .admitted | .reading _ _ => true
  | _ => false

theorem isReader_of_isAdmitted {phase : Phase} (admitted : phase.isAdmitted = true) :
    phase.isReader = true := by
  cases phase <;> first | rfl | cases admitted

theorem holdsLock_of_mayCompact {phase : Phase} (compacts : phase.mayCompact = true) :
    phase.holdsLock = true := by
  cases phase <;> first | rfl | cases compacts

end Phase

/-- Readers run in a session, and two pack files with the same hash are the same. -/
def readsProtected (hash : Bytes → PackId) (world : World) : Event → Bool
  | .reader _ .mount => false
  | .backup _ (.upload file) => (world.packs.get? (hash file)).all fun old => old = file
  | _ => true

structure World.Protected (world : World) : Prop where
  exclusive : world.Exclusive
  registered : ∀ id, (world.clients id).isReader = true → id ∈ world.sessions
  separate : ∀ id other, (world.clients id).isAdmitted = true →
    (world.clients other).mayCompact = false
  kept : ∀ id loaded stored, world.clients id = .reading loaded stored →
    ∀ packId file, stored.get? packId = some file → world.packs.get? packId = some file

section Steps

variable {hash : Bytes → PackId} {world next : World} {id : ClientId} {phase : Phase}

theorem World.Protected.unread (safe : world.Protected)
    (compacts : (world.clients id).mayCompact = true) (other : ClientId) :
    (world.clients other).isAdmitted = false := by
  rw [Bool.eq_false_iff]
  intro reading
  rw [safe.separate other id reading] at compacts
  cases compacts

theorem World.Protected.move (safe : world.Protected) (exclusive : next.Exclusive)
    (clients : next.clients = (world.withPhase id phase).clients)
    (quiet : phase.isAdmitted = false) (entered : phase.isReader = true → id ∈ next.sessions)
    (compacts : phase.mayCompact = true → ∀ other, (world.clients other).isAdmitted = false)
    (sessions : ∀ other, other ≠ id → other ∈ world.sessions → other ∈ next.sessions)
    (packs : ∀ other, (world.clients other).isAdmitted = true →
      ∀ packId file, world.packs.get? packId = some file →
        next.packs.get? packId = some file) : next.Protected where
  exclusive := exclusive
  registered := by
    rw [clients]
    exact World.forall_withPhase (fun client phase => phase.isReader = true →
      client ∈ next.sessions) entered fun other different isReader =>
        sessions other different (safe.registered other isReader)
  separate := by
    rw [clients]
    intro reader
    refine World.forall_withPhase (fun _ phase' =>
      ((world.withPhase id phase).clients reader).isAdmitted = true → phase'.mayCompact = false)
      ?_ ?_
    · refine World.forall_withPhase (fun _ reading => reading.isAdmitted = true →
        phase.mayCompact = false) (fun reading => absurd reading (by simp [quiet])) ?_ reader
      intro other _ reading
      rw [Bool.eq_false_iff]
      intro moving
      rw [compacts moving other] at reading
      cases reading
    · intro other _
      refine World.forall_withPhase (fun _ reading => reading.isAdmitted = true →
        (world.clients other).mayCompact = false) (fun reading => absurd reading (by simp [quiet]))
        ?_ reader
      exact fun reader _ => safe.separate reader other
  kept := by
    rw [clients]
    intro reader loaded stored reading
    by_cases same : reader = id
    · subst same
      rw [World.withPhase_self] at reading
      rw [reading] at quiet
      cases quiet
    · rw [World.withPhase_of_ne same] at reading
      intro packId file before
      apply packs reader (by rw [reading]; rfl)
      exact safe.kept reader loaded stored reading packId file before

/-- A client that is admitted or loads the index while no command may compact. -/
theorem World.Protected.admit (safe : world.Protected)
    (exclusive : (world.withPhase id phase).Exclusive) (listed : id ∈ world.sessions)
    (alone : ∀ other, (world.clients other).mayCompact = false) (quiet : phase.mayCompact = false)
    (own : ∀ loaded stored, phase = .reading loaded stored → stored = world.packs) :
    (world.withPhase id phase).Protected where
  exclusive := exclusive
  registered := World.forall_withPhase
    (fun client phase => phase.isReader = true → client ∈ world.sessions)
    (fun _ => listed) fun other _ => safe.registered other
  separate _ other _ := World.forall_withPhase (fun _ phase => phase.mayCompact = false) quiet
    (fun other _ => alone other) other
  kept := by
    refine World.forall_withPhase (fun _ phase => ∀ loaded stored,
      phase = .reading loaded stored → ∀ packId file, stored.get? packId = some file →
        world.packs.get? packId = some file) ?_ fun other _ => safe.kept other
    intro loaded stored reading packId file before
    exact own loaded stored reading ▸ before

theorem World.Protected.alone_of_free (safe : world.Protected) (free : world.lock = none)
    (other : ClientId) : (world.clients other).mayCompact = false := by
  rw [Bool.eq_false_iff]
  intro compacts
  have held := safe.exclusive other (Phase.holdsLock_of_mayCompact compacts)
  rw [free] at held
  cases held

theorem World.Protected.step {event : Event} (safe : world.Protected)
    (protects : readsProtected hash world event = true) (step : ClientStep hash world event next) :
    next.Protected := by
  have exclusive := step.exclusive safe.exclusive
  have remaining (leaver other : ClientId) (different : other ≠ leaver)
      (listed : other ∈ world.sessions) :
      other ∈ world.sessions.filter fun other => other ≠ leaver :=
    List.mem_filter.mpr ⟨listed, by simpa using different⟩
  have joined (newcomer other : ClientId) (_ : other ≠ newcomer)
      (listed : other ∈ world.sessions) : other ∈ newcomer :: world.sessions :=
    List.mem_cons_of_mem _ listed
  have same (client other : ClientId) (_ : other ≠ client)
      (listed : other ∈ world.sessions) : other ∈ world.sessions := listed
  have unchanged (other : ClientId) (_ : (world.clients other).isAdmitted = true)
      (packId : PackId) (file : Bytes) (before : world.packs.get? packId = some file) :
      world.packs.get? packId = some file := before
  have unread {client : ClientId} {pass : Compaction}
    (now : world.clients client = .compacting pass)
      (other : ClientId) : (world.clients other).isAdmitted = false :=
    safe.unread (by rw [now]; rfl) other
  have never {goal : Prop} (impossible : false = true) : goal :=
    absurd impossible Bool.false_ne_true
  cases step with
  | leave => exact safe.move exclusive rfl rfl never never (remaining _) unchanged
  | deregister => exact safe.move exclusive rfl rfl never never (remaining _) unchanged
  | register =>
    exact safe.move exclusive rfl rfl (fun _ => List.mem_cons_self) never (joined _) unchanged
  | openBackup | call | lockBackup | commitEmpty | commit | putSnapshot | openMaintenance
  | lockMaintenance | remove | deleteSnapshot | saveUnchanged | save =>
    exact safe.move exclusive rfl rfl never never (same _) unchanged
  | @upload _ file =>
    refine ⟨exclusive, safe.registered, safe.separate, ?_⟩
    intro reader loaded stored reading packId old before
    have present := safe.kept reader loaded stored reading packId old before
    refine (Dict.get?_set _ _ _ _).trans ?_
    split
    · rename_i same
      subst same
      simp only [readsProtected, present, Option.all_some, decide_eq_true_eq] at protects
      rw [protects]
    · exact present
  | checkSessions phase alone =>
    refine safe.move exclusive rfl rfl never (fun _ other => ?_) (same _) unchanged
    rw [Bool.eq_false_iff]
    intro reading
    have listed := safe.registered other (Phase.isReader_of_isAdmitted reading)
    rw [alone] at listed
    cases listed
  | compact phase =>
    have unread := safe.unread (by rw [phase]; rfl)
    exact safe.move exclusive rfl rfl never (fun _ => unread) (same _) unchanged
  | turn phase =>
    exact safe.move exclusive rfl rfl never (fun _ => unread phase) (same _) unchanged
  | write phase due =>
    obtain ⟨-, sessions, clients⟩ := World.writeCompact_frame world _
    refine safe.move exclusive (congrArg (Function.update · _ _) clients) rfl never
      (fun _ => unread phase) ?_ ?_
    · exact fun other _ listed => sessions ▸ listed
    · intro other reading
      rw [unread phase other] at reading
      cases reading
  | finish phase =>
    obtain ⟨-, sessions, clients⟩ := World.foldl_writeCompact_frame world _
    refine safe.move exclusive (congrArg (Function.update · _ _) clients) rfl never never ?_ ?_
    · exact fun other _ listed => sessions ▸ listed
    · intro other reading
      rw [unread phase other] at reading
      cases reading
  | probe phase free =>
    refine safe.admit exclusive (safe.registered _ (phase ▸ rfl)) (safe.alone_of_free free) rfl ?_
    intro loaded stored reading
    cases reading
  | @load id phase =>
    refine safe.admit exclusive (safe.registered _ (phase ▸ rfl))
      (fun other => safe.separate id other (phase ▸ rfl)) rfl ?_
    intro loaded stored reading
    cases reading
    rfl
  | mount => cases protects

end Steps

theorem init_protected : World.init.Protected where
  exclusive := nofun
  registered := nofun
  separate := nofun
  kept := nofun

/-- The place and the bytes of a chunk for a reader that has just loaded the index. -/
def Phase.loadedBlob (chunk : ChunkId) : Phase → Option (ChunkIndexEntry × Bytes)
  | .reading loaded stored => do
      let entry ← loaded.get? chunk
      let data ← Compact.readBlob stored entry
      some (entry, data)
  | _ => none

theorem Phase.loadedBlob_eq_some {phase : Phase} {chunk : ChunkId} {entry : ChunkIndexEntry}
    {data : Bytes} (found : phase.loadedBlob chunk = some (entry, data)) :
    ∃ loaded stored, phase = .reading loaded stored ∧ loaded.get? chunk = some entry ∧
      Compact.readBlob stored entry = some data := by
  cases phase with
  | reading loaded stored =>
    obtain ⟨first, indexed, rest⟩ := Option.bind_eq_some_iff.mp found
    obtain ⟨second, readable, same⟩ := Option.bind_eq_some_iff.mp rest
    cases same
    exact ⟨loaded, stored, rfl, indexed, readable⟩
  | _ => cases found

end Vykar.Clients

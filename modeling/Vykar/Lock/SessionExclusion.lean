import Vykar.Lib.Ownership
import Vykar.Lock.Protocol

/-!
A registered session and a maintenance command past its session check exclude
each other.

Maintenance stores its lock key before it lists the session markers, and
registration stores its marker before it takes the ticket with which it probes
the lock.  A marker that the listing missed was therefore stored after it, the
probe behind that marker draws a larger ticket, and as long as the maintenance
key is stored the probe cannot see itself first.  Unlike the exclusion of lock
guards this needs no order on the writes, only a clock whose readings increase.
-/

namespace Vykar.Lock

universe u

variable {shared after : Shared} {process next : Process} {action : Action} {Client : Type u}
  {ticket : Ticket} {event : Event Client} {result state : State Client}

def StrictClock (state : State Client) : Event Client → Prop
  | .act _ (.readClock ticket) => state.shared.clock < ticket.micros
  | _ => True

structure Owned (state : State Client) : Prop where
  past : ∀ client ticket, (state.process client).lock.ticket? = some ticket →
    ticket.micros ≤ state.shared.clock
  tickets : Ownership.Distinct (fun process => process.lock.ticket?) state.process
  sessions : Ownership.Distinct (fun process => process.session.id?) state.process
  locks : ∀ client ticket, (state.process client).lock.stored? = some ticket →
    ticket.key ∈ state.shared.keys
  markers : ∀ client session, (state.process client).session.id? = some session →
    sessionMarkerKey session ∈ state.shared.keys

section Step

variable {client : Client} {other : Client} {session : String}

theorem key_ne_sessionMarkerKey (ticket : Ticket) (session : String) :
    ticket.key ≠ sessionMarkerKey session := by
  intro same
  have isLock := ticket.isLockKey_key
  rw [same] at isLock
  simp at isLock

section

variable (owned : Owned state)

include owned

section

variable (acted : act state.shared (state.process client) action = some (after, next))

include acted

theorem Owned.act_keeps_lock (differs : other ≠ client)
    (stored : (state.process other).lock.stored? = some ticket) :
    ticket.key ∈ after.keys := by
  rcases act_keys acted (owned.locks other ticket stored) with
    kept | ⟨removed, own, same, -⟩ | ⟨session, -, same, -⟩
  · exact kept
  · have sameTicket := Ticket.key_injective same
    subst sameTicket
    exact absurd (owned.tickets other client ticket (LockState.ticket_of_stored stored) own) differs
  · exact absurd same (key_ne_sessionMarkerKey ticket session)

theorem Owned.act_keeps_marker (differs : other ≠ client)
    (marked : (state.process other).session.id? = some session) :
    sessionMarkerKey session ∈ after.keys := by
  rcases act_keys acted (owned.markers other session marked) with
    kept | ⟨ticket, -, same, -⟩ | ⟨removed, own, same, -⟩
  · exact kept
  · exact absurd same.symm (key_ne_sessionMarkerKey ticket session)
  · have sameSession := sessionMarkerKey_injective same
    subst sameSession
    exact absurd (owned.sessions other client session marked own) differs

theorem Owned.act_lock (stored : next.lock.stored? = some ticket) : ticket.key ∈ after.keys := by
  rcases act_stored acted stored with before | acknowledged
  · rcases act_keys acted (owned.locks client ticket before) with
      kept | ⟨removed, -, -, gone⟩ | ⟨session, -, same, -⟩
    · exact kept
    · rw [LockState.ticket_of_stored stored] at gone
      cases gone
    · exact absurd same (key_ne_sessionMarkerKey ticket session)
  · exact acknowledged

theorem Owned.act_marker (marked : next.session.id? = some session) :
    sessionMarkerKey session ∈ after.keys := by
  rcases act_session acted marked with before | ⟨-, acknowledged⟩
  · rcases act_keys acted (owned.markers client session before) with
      kept | ⟨ticket, -, same, -⟩ | ⟨removed, -, -, gone⟩
    · exact kept
    · exact absurd same.symm (key_ne_sessionMarkerKey ticket session)
    · rw [marked] at gone
      cases gone
  · exact acknowledged

theorem Owned.act_ticket_old (strict : StrictClock state (.act client action))
    (own : next.lock.ticket? = some ticket)
    (used : (state.process other).lock.ticket? = some ticket) : client = other := by
  rcases act_ticket acted own with before | ⟨rfl, -⟩
  · exact owned.tickets client other ticket before used
  · exact absurd (owned.past other ticket used) (Nat.not_le.mpr strict)

theorem Owned.act_session_old (environment : Environment state (.act client action))
    (own : next.session.id? = some session)
    (used : (state.process other).session.id? = some session) : client = other := by
  rcases act_session acted own with before | ⟨⟨outcome, rfl⟩, -⟩
  · exact owned.sessions client other session before used
  · exact absurd used (environment.2 other)

end

end

variable [DecidableEq Client]

theorem Owned.act (owned : Owned state) (environment : Environment state (.act client action))
    (strict : StrictClock state (.act client action))
    (acted : act state.shared (state.process client) action = some (after, next)) :
    Owned ⟨after, Function.update state.process client next⟩ where
  past := by
    refine (Function.forall_update_iff _ fun _ (process : Process) => ∀ ticket,
      process.lock.ticket? = some ticket → ticket.micros ≤ after.clock).mpr ⟨?_, ?_⟩
    · intro ticket own
      rcases act_ticket acted own with before | ⟨-, read⟩
      · exact (owned.past client ticket before).trans (act_clock acted)
      · exact read.ge
    · intro other _ ticket own
      exact (owned.past other ticket own).trans (act_clock acted)
  tickets := owned.tickets.update fun _ own _ used =>
    (owned.act_ticket_old acted strict own used).symm
  sessions := owned.sessions.update fun _ own _ used =>
    (owned.act_session_old acted environment own used).symm
  locks := by
    refine (Function.forall_update_iff _ fun _ (process : Process) => ∀ ticket,
      process.lock.stored? = some ticket → ticket.key ∈ after.keys).mpr ⟨?_, ?_⟩
    · exact fun _ stored => owned.act_lock acted stored
    · exact fun _ differs _ stored => owned.act_keeps_lock acted differs stored
  markers := by
    refine (Function.forall_update_iff _ fun _ (process : Process) => ∀ session,
      process.session.id? = some session → sessionMarkerKey session ∈ after.keys).mpr ⟨?_, ?_⟩
    · exact fun _ marked => owned.act_marker acted marked
    · exact fun _ differs _ marked => owned.act_keeps_marker acted differs marked

theorem Owned.step (owned : Owned state) (environment : Environment state event)
    (strict : StrictClock state event) (stepped : step state event = some result) :
    Owned result := by
  cases event with
  | act client action =>
    obtain ⟨⟨after, next⟩, acted, rfl⟩ := Option.map_eq_some_iff.mp stepped
    exact owned.act environment strict acted
  | cleanup key =>
    cases stepped
    refine ⟨by simpa using owned.past, owned.tickets, owned.sessions, ?_, ?_⟩
    · intro client ticket stored
      refine (Shared.mem_delete (owned.locks client ticket stored) _ _).resolve_left ?_
      exact (environment.1 client ticket (LockState.ticket_of_stored stored)).symm
    · intro client session marked
      refine (Shared.mem_delete (owned.markers client session marked) _ _).resolve_left ?_
      exact (environment.2 client session marked).symm

end Step

/-- The client has no session, or it is still probing with a ticket above `ticket`. -/
def Process.Behind (ticket : Ticket) : Process → Prop
  | ⟨.none, _⟩ => True
  | ⟨.rollback _, _⟩ => True
  | ⟨.registered _, _⟩ => False
  | ⟨.probing _, .idle⟩ | ⟨.probing _, .ready _⟩ => True
  | ⟨.probing _, .stamped _ drawn⟩ | ⟨.probing _, .stored _ drawn⟩
  | ⟨.probing _, .refused _ drawn _⟩ => ticket.micros < drawn.micros
  | ⟨.probing _, .listed _ drawn keys⟩ => ticket.micros < drawn.micros ∧ ticket.key ∈ keys
  | ⟨.probing _, .holding _ _⟩ | ⟨.probing _, .working _⟩ | ⟨.probing _, .turnedAway _⟩ => False

theorem Process.behind_of_no_session {process : Process} (none : process.session.id? = none)
    (ticket : Ticket) : process.Behind ticket := by
  obtain ⟨session, lock⟩ := process
  cases session with
  | none => exact trivial
  | _ => cases none

theorem giveUp_behind (ticket : Ticket) {session : SessionState}
    (unregistered : ∀ id, session ≠ .registered id) (purpose : Purpose) :
    (giveUp session purpose).Behind ticket := by
  unfold giveUp
  split
  · trivial
  · cases session <;> simp_all [Process.Behind]

theorem retry_behind (ticket : Ticket) {session : SessionState}
    (unregistered : ∀ id, session ≠ .registered id) (purpose : Purpose) :
    (retry session purpose).Behind ticket := by
  unfold retry
  split
  · cases session <;> simp_all [Process.Behind]
  · cases session <;> simp_all [Process.Behind]
  · exact giveUp_behind ticket unregistered _

/-- A probe that is behind a stored key is not the first in its listing. -/
theorem decideLock_ne_acquired {drawn : Ticket} {keys : List String}
    (later : ticket.micros < drawn.micros) (listed : ticket.key ∈ keys) :
    decideLock drawn.key keys ≠ .acquired := by
  intro decided
  have first := (decideLock_eq_acquired decided).2 ticket.key listed
  exact absurd (Ticket.key_lt_of_micros_lt later) (not_lt.mpr first)

theorem Process.Behind.unregistered (behind : process.Behind ticket) (id : String) :
    process.session ≠ .registered id := by
  obtain ⟨session, lock⟩ := process
  rintro rfl
  exact behind

theorem Process.Behind.act (behind : process.Behind ticket) (stored : ticket.key ∈ shared.keys)
    (strict : ∀ drawn, action = .readClock drawn → ticket.micros < drawn.micros)
    (acted : act shared process action = some (after, next)) : next.Behind ticket := by
  revert acted
  fun_cases Lock.act shared process action <;> rintro ⟨⟩
  case case1 => split <;> trivial
  case case3 => exact behind.elim
  case case5 session purpose drawn later =>
    cases session <;> simp_all [Process.Behind]
  case case7 session purpose drawn outcome =>
    split
    · cases session <;> simp_all [Process.Behind]
    · exact giveUp_behind ticket behind.unregistered _
  case case8 session purpose drawn reply =>
    split
    · have listed : ticket.key ∈ listLockKeys shared.keys :=
        mem_listLockKeys.mpr ⟨stored, ticket.isLockKey_key⟩
      cases session <;> simp_all [Process.Behind]
    · exact giveUp_behind ticket behind.unregistered _
  case case9 session purpose drawn keys =>
    cases session with
    | none => trivial
    | rollback id => trivial
    | registered id => exact behind.elim
    | probing id =>
      have refused := decideLock_ne_acquired behind.1 behind.2
      cases decided : decideLock drawn.key keys with
      | acquired => exact absurd decided refused
      | notListed => exact behind.1
      | locked => exact behind.1
  case case10 session purpose drawn contended outcome =>
    split
    · exact retry_behind ticket behind.unregistered _
    · exact giveUp_behind ticket behind.unregistered _
  case case12 session attempts drawn outcome =>
    split
    · cases session with
      | none => trivial
      | rollback id => trivial
      | registered id => exact behind.elim
      | probing id => exact behind.elim
    · exact giveUp_behind ticket behind.unregistered _
  case case11 session _ _ _ | case13 session _ _ | case14 session _ _ =>
    cases session <;> trivial
  case case15 session drawn reply =>
    cases session <;> trivial
  case case16 | case17 => exact behind
  case case18 | case19 => exact behind.elim
  all_goals trivial

/-- A maintenance command past its session check comes from its lock guard, by a listing
that returned no session. -/
theorem act_working (acted : act shared process action = some (after, next))
    (working : next.lock = .working ticket) :
    process.lock = .working ticket ∨
      process.lock = .holding .maintenance ticket ∧ listSessions shared.keys = [] ∧
        next.session = process.session := by
  revert acted
  fun_cases act shared process action <;> rintro ⟨⟩
  case case1 => split at working <;> cases working
  case case7 | case8 =>
    split at working
    · cases working
    · simp at working
  case case9 session purpose drawn keys =>
    cases decided : decideLock drawn.key keys <;> rw [decided] at working <;> cases working
  case case10 session purpose drawn contended outcome =>
    have noTicket : (if contended then retry session purpose
        else giveUp session purpose).lock.ticket? = none := by split <;> simp
    rw [working] at noTicket
    cases noTicket
  case case12 => split at working <;> simp at working
  case case15 session drawn reply =>
    simp only at working
    split at working
    · rename_i empty
      cases working
      simp only [Bool.and_eq_true, List.isEmpty_iff] at empty
      exact Or.inr ⟨rfl, empty.2, rfl⟩
    · cases working
  case case17 | case18 | case19 => exact Or.inl working
  all_goals cases working

def Separated (state : State Client) : Prop :=
  ∀ client ticket, (state.process client).lock = .working ticket →
    ∀ other, (state.process other).Behind ticket

theorem Owned.behind_of_no_sessions (owned : Owned state)
    (empty : listSessions state.shared.keys = []) (ticket : Ticket) (client : Client) :
    (state.process client).Behind ticket := by
  apply Process.behind_of_no_session
  cases marked : (state.process client).session.id? with
  | none => rfl
  | some session =>
    have listed := mem_listSessions (owned.markers client session marked)
    rw [empty] at listed
    cases listed

variable [DecidableEq Client]

/-- After an action of `client`, the clients were already behind each ticket that works,
and its key was stored. -/
theorem Separated.before_act (separated : Separated state) (owned : Owned state) {client : Client}
    {action : Action} {after : Shared} {next : Process}
    (acted : act state.shared (state.process client) action = some (after, next))
    {maintainer : Client}
    (working : (Function.update state.process client next maintainer).lock = .working ticket) :
    (state.process maintainer).lock.stored? = some ticket ∧
      ∀ other, (state.process other).Behind ticket := by
  by_cases isClient : maintainer = client
  · subst isClient
    rw [Function.update_self] at working
    rcases act_working acted working with before | ⟨before, empty, -⟩
    · exact ⟨by rw [before]; rfl, separated maintainer ticket before⟩
    · exact ⟨by rw [before]; rfl, owned.behind_of_no_sessions empty ticket⟩
  · rw [Function.update_of_ne isClient] at working
    exact ⟨by rw [working]; rfl, separated maintainer ticket working⟩

theorem Separated.step (separated : Separated state) (owned : Owned state)
    (strict : StrictClock state event) (stepped : step state event = some result) :
    Separated result := by
  cases event with
  | cleanup key =>
    cases stepped
    exact separated
  | act client action =>
    obtain ⟨⟨after, next⟩, acted, rfl⟩ := Option.map_eq_some_iff.mp stepped
    intro maintainer ticket working
    obtain ⟨stored, behind⟩ := separated.before_act owned acted working
    have past := owned.past maintainer ticket (LockState.ticket_of_stored stored)
    refine (Function.forall_update_iff _ fun _ (process : Process) =>
      process.Behind ticket).mpr ⟨?_, fun other _ => behind other⟩
    refine (behind client).act (owned.locks maintainer ticket stored) ?_ acted
    rintro drawn rfl
    exact lt_of_le_of_lt past strict

def Registered (state : State Client) (client : Client) : Prop :=
  ∃ session, (state.process client).session = .registered session

/-- The client's maintenance command is past its session check and holds its lock. -/
def PastSessionCheck (state : State Client) (client : Client) : Prop :=
  ∃ ticket, (state.process client).lock = .working ticket

theorem owned_and_separated (reached : (system Client).Reaches
      (fun state event => Environment state event ∧ StrictClock state event) state) :
    Owned state ∧ Separated state := by
  refine reached.invariant (fun state => Owned state ∧ Separated state) ?_ ?_
  · intro start initial
    have idle : ∀ client, start.process client = ⟨.none, .idle⟩ := initial
    constructor
    · constructor <;> simp [Ownership.Distinct, idle, LockState.stored?, SessionState.id?]
    · intro client ticket working
      rw [idle client] at working
      cases working
  · rintro before event after ⟨owned, separated⟩ ⟨environment, strict⟩ stepped
    exact ⟨owned.step environment strict stepped, separated.step owned strict stepped⟩

/-- There is never a moment at which one client has a registered session while another
client's maintenance command is past its session check and holds its lock. -/
theorem no_session_during_maintenance {state : State Client}
    (reached : (system Client).Reaches
      (fun state event => Environment state event ∧ StrictClock state event) state)
    (client maintainer : Client) :
    ¬ (Registered state client ∧ PastSessionCheck state maintainer) := by
  rintro ⟨⟨session, registered⟩, ⟨ticket, working⟩⟩
  have behind := (owned_and_separated reached).2 maintainer ticket working client
  exact behind.unregistered session registered

instance [Fintype Client] (state : State Client) :
    (event : Event Client) → Decidable (StrictClock state event)
  | .act _ (.readClock ticket) => inferInstanceAs (Decidable (state.shared.clock < ticket.micros))
  | .cleanup _ => isTrue trivial
  | .act _ (.register _ _) | .act _ (.lock _) | .act _ .maintain | .act _ (.putLock _)
  | .act _ (.listLocks _) | .act _ .decide | .act _ (.discard _) | .act _ (.release _)
  | .act _ (.checkSessions _) | .act _ (.refreshLock _) | .act _ (.refreshSession _)
  | .act _ (.deregister _) | .act _ (.rollback _) | .act _ .crash => isTrue trivial

/-- Maintenance passes its session check; a registration that starts later finds the lock
taken. -/
def registrationDuringMaintenance : List (Event Bool) :=
  [.act true .maintain] ++ acquireLock true earlyTicket ++ [.act true (.checkSessions true)] ++
    [.act false (.register "a" .done)] ++ acquireLock false lateTicket

set_option maxRecDepth 4000 in
theorem no_session_during_maintenance_refused :
    ∃ state : State Bool, PastSessionCheck state true ∧
      (state.process false).lock = .refused (.probe 3) lateTicket true ∧
      ¬ (Registered state false ∧ PastSessionCheck state true) := by
  have executed : ∃ state : State Bool, (system Bool).Reaches
      (fun state event => Environment state event ∧ StrictClock state event) state ∧
      ((state.process true).lock = .working earlyTicket ∧
        (state.process false).lock = .refused (.probe 3) lateTicket true) :=
    emptyState_reaches.exists_of_run registrationDuringMaintenance (by decide) (by decide)
  obtain ⟨state, reached, working, refused⟩ := executed
  exact ⟨state, ⟨earlyTicket, working⟩, refused, no_session_during_maintenance reached false true⟩

end Vykar.Lock

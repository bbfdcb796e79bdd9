import Vykar.Lib.TransitionSystem
import Vykar.Lock.Key

/-!
The lock and session protocol of `repo/lock.rs` and `commands/util.rs`, one
storage request or clock reading at a time.

Any number of clients run `acquire_lock`, `release_lock`,
`acquire_lock_with_retry`, `register_session`, `deregister_session` and
`with_maintenance_lock` against one linearizable store, of which only the set of
keys matters here.  A write can take effect and still be reported as failed, a
client can stop at any moment and leave its objects behind, and any client's
stale cleanup can delete a key; which keys it may delete is an assumption on
runs (`Environment`), not part of the step function.
-/

namespace Vykar.Lock

universe u

/-- What the caller learns about a write: it took effect and was acknowledged, it took
effect but an error was reported, or it had no effect and an error was reported. -/
inductive Outcome where
  | done
  | lost
  | failed
  deriving DecidableEq

def Outcome.applies : Outcome → Bool
  | .done | .lost => true
  | .failed => false

def Outcome.isOk : Outcome → Bool
  | .done => true
  | .lost | .failed => false

/-- Why the lock is taken: for a mutation or a commit (`with_repo_lock`, or
`acquire_lock_with_retry` with the attempts left), for maintenance
(`with_maintenance_lock`), or to probe it from `register_session`. -/
inductive Purpose where
  | exclusive (attempts : Nat)
  | maintenance
  | probe (attempts : Nat)
  deriving DecidableEq

/-- Where a client is inside the functions that handle the lock. -/
inductive LockState where
  | idle
  /-- about to call `acquire_lock` -/
  | ready (purpose : Purpose)
  | stamped (purpose : Purpose) (ticket : Ticket)
  | stored (purpose : Purpose) (ticket : Ticket)
  | listed (purpose : Purpose) (ticket : Ticket) (keys : List String)
  /-- decided against; the own key is still to be deleted -/
  | refused (purpose : Purpose) (ticket : Ticket) (contended : Bool)
  /-- `acquire_lock` has returned its guard -/
  | holding (purpose : Purpose) (ticket : Ticket)
  /-- maintenance past its session check -/
  | working (ticket : Ticket)
  /-- maintenance that found active sessions, or could not list them -/
  | turnedAway (ticket : Ticket)
  deriving DecidableEq

inductive SessionState where
  | none
  /-- marker written, lock probe under way -/
  | probing (session : String)
  /-- `register_session` has returned `Ok` -/
  | registered (session : String)
  /-- registration failed; the marker is still to be deleted -/
  | rollback (session : String)
  deriving DecidableEq

structure Process where
  session : SessionState
  lock : LockState
  deriving DecidableEq

structure Shared where
  clock : Nat
  keys : List String
  deriving DecidableEq

def Shared.put (shared : Shared) (outcome : Outcome) (key : String) : Shared :=
  if outcome.applies then { shared with keys := shared.keys.insert key } else shared

def Shared.delete (shared : Shared) (outcome : Outcome) (key : String) : Shared :=
  if outcome.applies then { shared with keys := shared.keys.filter (· ≠ key) } else shared

/-- One storage request, clock reading or local decision of a client. -/
inductive Action where
  | register (session : String) (outcome : Outcome)
  | lock (attempts : Nat)
  | maintain
  | readClock (ticket : Ticket)
  | putLock (outcome : Outcome)
  | listLocks (reply : Bool)
  | decide
  | discard (outcome : Outcome)
  | release (outcome : Outcome)
  | checkSessions (reply : Bool)
  | refreshLock (outcome : Outcome)
  | refreshSession (outcome : Outcome)
  | deregister (outcome : Outcome)
  | rollback (outcome : Outcome)
  | crash

/-- An acquisition ends in an error: `register_session` goes on to delete its marker. -/
def giveUp : SessionState → Purpose → Process
  | .probing session, .probe _ => ⟨.rollback session, .idle⟩
  | session, _ => ⟨session, .idle⟩

/-- `acquire_lock_with_retry` after `Locked`; plain `acquire_lock` has one attempt. -/
def retry : SessionState → Purpose → Process
  | session, .exclusive (left + 2) => ⟨session, .ready (.exclusive (left + 1))⟩
  | session, .probe (left + 2) => ⟨session, .ready (.probe (left + 1))⟩
  | session, purpose => giveUp session purpose

/-- The probe lock is released: the session is registered. -/
def probed : SessionState → Process
  | .probing session => ⟨.registered session, .idle⟩
  | session => ⟨session, .idle⟩

/-- The state in which `acquire_lock` continues after looking at its listing. -/
def afterDecision (purpose : Purpose) (ticket : Ticket) : Decision → LockState
  | .acquired => .holding purpose ticket
  | .notListed => .refused purpose ticket false
  | .locked => .refused purpose ticket true

def act (shared : Shared) : Process → Action → Option (Shared × Process)
  | ⟨.none, .idle⟩, .register session outcome =>
    some (shared.put outcome (sessionMarkerKey session),
      if outcome.isOk then ⟨.probing session, .ready (.probe 3)⟩ else ⟨.none, .idle⟩)
  | ⟨.none, .idle⟩, .lock attempts => some (shared, ⟨.none, .ready (.exclusive attempts)⟩)
  | ⟨.registered session, .idle⟩, .lock attempts =>
    some (shared, ⟨.registered session, .ready (.exclusive attempts)⟩)
  | ⟨.none, .idle⟩, .maintain => some (shared, ⟨.none, .ready .maintenance⟩)
  | ⟨session, .ready purpose⟩, .readClock ticket =>
    if shared.clock ≤ ticket.micros then
      some ({ shared with clock := ticket.micros }, ⟨session, .stamped purpose ticket⟩)
    else none
  | ⟨session, .stamped purpose ticket⟩, .putLock outcome =>
    some (shared.put outcome ticket.key,
      if outcome.isOk then ⟨session, .stored purpose ticket⟩ else giveUp session purpose)
  | ⟨session, .stored purpose ticket⟩, .listLocks reply =>
    some (shared,
      if reply then ⟨session, .listed purpose ticket (listLockKeys shared.keys)⟩
      else giveUp session purpose)
  | ⟨session, .listed purpose ticket keys⟩, .decide =>
    some (shared, ⟨session, afterDecision purpose ticket (decideLock ticket.key keys)⟩)
  | ⟨session, .refused purpose ticket contended⟩, .discard outcome =>
    some (shared.delete outcome ticket.key,
      if contended then retry session purpose else giveUp session purpose)
  | ⟨session, .holding (.exclusive _) ticket⟩, .release outcome =>
    some (shared.delete outcome ticket.key, ⟨session, .idle⟩)
  | ⟨session, .holding (.probe attempts) ticket⟩, .release outcome =>
    some (shared.delete outcome ticket.key,
      if outcome.isOk then probed session else giveUp session (.probe attempts))
  | ⟨session, .working ticket⟩, .release outcome =>
    some (shared.delete outcome ticket.key, ⟨session, .idle⟩)
  | ⟨session, .turnedAway ticket⟩, .release outcome =>
    some (shared.delete outcome ticket.key, ⟨session, .idle⟩)
  | ⟨session, .holding .maintenance ticket⟩, .checkSessions reply =>
    some (shared, ⟨session,
      if reply && (listSessions shared.keys).isEmpty then .working ticket
      else .turnedAway ticket⟩)
  | ⟨session, .holding (.exclusive attempts) ticket⟩, .refreshLock outcome =>
    some (shared.put outcome ticket.key, ⟨session, .holding (.exclusive attempts) ticket⟩)
  | ⟨session, .working ticket⟩, .refreshLock outcome =>
    some (shared.put outcome ticket.key, ⟨session, .working ticket⟩)
  | ⟨.registered session, lock⟩, .refreshSession outcome =>
    some (shared.put outcome (sessionMarkerKey session), ⟨.registered session, lock⟩)
  | ⟨.registered session, lock⟩, .deregister outcome =>
    some (shared.delete outcome (sessionMarkerKey session), ⟨.none, lock⟩)
  | ⟨.rollback session, .idle⟩, .rollback outcome =>
    some (shared.delete outcome (sessionMarkerKey session), ⟨.none, .idle⟩)
  | _, .crash => some (shared, ⟨.none, .idle⟩)
  | _, _ => none

structure State (Client : Type u) where
  shared : Shared
  process : Client → Process

/-- A client acts, or some client's stale cleanup deletes a key. -/
inductive Event (Client : Type u) where
  | act (client : Client) (action : Action)
  | cleanup (key : String)

variable {Client : Type u}

def step [DecidableEq Client] (state : State Client) : Event Client → Option (State Client)
  | .act client action =>
    (act state.shared (state.process client) action).map fun (shared, process) =>
      ⟨shared, Function.update state.process client process⟩
  | .cleanup key => some { state with shared := state.shared.delete .done key }

/-- Every client starts idle, on a store with any keys and at any time. -/
def system (Client : Type u) [DecidableEq Client] :
    TransitionSystem (State Client) (Event Client) where
  initial := fun state => ∀ client, state.process client = ⟨.none, .idle⟩
  step := step

def LockState.ticket? : LockState → Option Ticket
  | .idle | .ready _ => none
  | .stamped _ ticket | .stored _ ticket | .listed _ ticket _ | .refused _ ticket _
  | .holding _ ticket | .working ticket | .turnedAway ticket => some ticket

def LockState.guard? : LockState → Option Ticket
  | .holding _ ticket | .working ticket | .turnedAway ticket => some ticket
  | _ => none

def SessionState.id? : SessionState → Option String
  | .none => Option.none
  | .probing session | .registered session | .rollback session => some session

section Act

variable {shared after : Shared} {process next : Process} {action : Action}

def LockState.stored? : LockState → Option Ticket
  | .idle | .ready _ | .stamped _ _ => none
  | .stored _ ticket | .listed _ ticket _ | .refused _ ticket _ | .holding _ ticket
  | .working ticket | .turnedAway ticket => some ticket

theorem LockState.ticket_of_stored {lock : LockState} {ticket : Ticket}
    (stored : lock.stored? = some ticket) : lock.ticket? = some ticket := by
  cases lock <;> simp_all [LockState.stored?, LockState.ticket?]

theorem Shared.mem_put {key : String} (stored : key ∈ shared.keys) (outcome : Outcome)
    (other : String) : key ∈ (shared.put outcome other).keys := by
  unfold Shared.put
  split
  · exact List.mem_insert_of_mem stored
  · exact stored

theorem Shared.mem_put_self {outcome : Outcome} (acknowledged : outcome.isOk = true)
    (key : String) : key ∈ (shared.put outcome key).keys := by
  cases outcome <;> simp_all [Shared.put, Outcome.isOk, Outcome.applies]

theorem Shared.mem_delete {key : String} (stored : key ∈ shared.keys) (outcome : Outcome)
    (other : String) : key = other ∨ key ∈ (shared.delete outcome other).keys := by
  unfold Shared.delete
  split
  · simpa [stored] using eq_or_ne key other
  · exact Or.inr stored

@[simp]
theorem LockState.ticket?_idle : LockState.idle.ticket? = none := rfl

@[simp]
theorem LockState.ticket?_ready (purpose : Purpose) :
    (LockState.ready purpose).ticket? = none := rfl

@[simp]
theorem Shared.put_clock (outcome : Outcome) (key : String) :
    (shared.put outcome key).clock = shared.clock := by
  unfold Shared.put
  split <;> rfl

@[simp]
theorem Shared.delete_clock (outcome : Outcome) (key : String) :
    (shared.delete outcome key).clock = shared.clock := by
  unfold Shared.delete
  split <;> rfl

@[simp]
theorem giveUp_lock (session : SessionState) (purpose : Purpose) :
    (giveUp session purpose).lock = .idle := by
  unfold giveUp
  split <;> rfl

@[simp]
theorem giveUp_id? (session : SessionState) (purpose : Purpose) :
    (giveUp session purpose).session.id? = session.id? := by
  unfold giveUp
  split <;> rfl

@[simp]
theorem retry_ticket? (session : SessionState) (purpose : Purpose) :
    (retry session purpose).lock.ticket? = none := by
  unfold retry
  split
  · rfl
  · rfl
  · simp

@[simp]
theorem retry_id? (session : SessionState) (purpose : Purpose) :
    (retry session purpose).session.id? = session.id? := by
  unfold retry
  split
  · rfl
  · rfl
  · exact giveUp_id? _ _

@[simp]
theorem probed_lock (session : SessionState) : (probed session).lock = .idle := by
  unfold probed
  split <;> rfl

@[simp]
theorem probed_id? (session : SessionState) :
    (probed session).session.id? = session.id? := by
  unfold probed
  split <;> rfl

section

variable (acted : act shared process action = some (after, next))

include acted

theorem act_ticket {ticket : Ticket} (own : next.lock.ticket? = some ticket) :
    process.lock.ticket? = some ticket ∨
      action = .readClock ticket ∧ after.clock = ticket.micros := by
  revert acted
  fun_cases act shared process action <;> rintro ⟨⟩
  case case1 | case10 | case12 => split at own <;> simp at own
  case case5 =>
    cases own
    exact Or.inr ⟨rfl, rfl⟩
  case case7 | case8 =>
    split at own
    · exact Or.inl own
    · simp at own
  case case9 session purpose taken keys =>
    cases decided : decideLock taken.key keys <;> rw [decided] at own <;> exact Or.inl own
  case case15 => split at own <;> exact Or.inl own
  case case16 | case17 | case18 | case19 => exact Or.inl own
  all_goals cases own

theorem act_session {session : String} (own : next.session.id? = some session) :
    process.session.id? = some session ∨
      (∃ outcome, action = .register session outcome) ∧ sessionMarkerKey session ∈ after.keys := by
  revert acted
  fun_cases act shared process action <;> rintro ⟨⟩
  case case1 drawn outcome =>
    split at own
    · rename_i acknowledged
      cases own
      exact Or.inr ⟨⟨outcome, rfl⟩, Shared.mem_put_self acknowledged _⟩
    · cases own
  case case7 | case8 | case10 | case12 => split at own <;> exact Or.inl (by simpa using own)
  case case19 | case20 | case21 => cases own
  all_goals exact Or.inl own

theorem act_stored {ticket : Ticket} (own : next.lock.stored? = some ticket) :
    process.lock.stored? = some ticket ∨ ticket.key ∈ after.keys := by
  revert acted
  fun_cases act shared process action <;> rintro ⟨⟩
  case case1 => split at own <;> cases own
  case case7 =>
    split at own
    · rename_i acknowledged
      cases own
      exact Or.inr (Shared.mem_put_self acknowledged _)
    · simp [LockState.stored?] at own
  case case8 =>
    split at own
    · exact Or.inl own
    · simp [LockState.stored?] at own
  case case9 session purpose taken keys =>
    cases decided : decideLock taken.key keys <;> rw [decided] at own <;> exact Or.inl own
  case case10 | case12 =>
    have none_left := LockState.ticket_of_stored own
    split at none_left <;> simp at none_left
  case case15 => split at own <;> exact Or.inl own
  case case16 | case17 | case18 | case19 => exact Or.inl own
  all_goals cases own

theorem act_clock :
    shared.clock ≤ after.clock := by
  revert acted
  fun_cases act shared process action <;> rintro ⟨⟩ <;> simp_all

/-- A stored key disappears only if it is the own lock key or the own marker, and then the
client is done with it. -/
theorem act_keys {key : String} (stored : key ∈ shared.keys) :
    key ∈ after.keys ∨
      (∃ ticket, process.lock.ticket? = some ticket ∧ key = ticket.key ∧
        next.lock.ticket? = none) ∨
      ∃ session, process.session.id? = some session ∧ key = sessionMarkerKey session ∧
        next.session.id? = none := by
  revert acted
  fun_cases act shared process action <;> rintro ⟨⟩
  case case10 session purpose ticket contended outcome =>
    rcases Shared.mem_delete stored outcome ticket.key with same | kept
    · exact Or.inr (Or.inl ⟨ticket, rfl, same, by split <;> simp⟩)
    · exact Or.inl kept
  case case12 session attempts ticket outcome =>
    rcases Shared.mem_delete stored outcome ticket.key with same | kept
    · exact Or.inr (Or.inl ⟨ticket, rfl, same, by split <;> simp⟩)
    · exact Or.inl kept
  case case11 | case13 | case14 =>
    rcases Shared.mem_delete stored _ _ with same | kept
    · exact Or.inr (Or.inl ⟨_, rfl, same, rfl⟩)
    · exact Or.inl kept
  case case19 | case20 =>
    rcases Shared.mem_delete stored _ _ with same | kept
    · exact Or.inr (Or.inr ⟨_, rfl, same, rfl⟩)
    · exact Or.inl kept
  case case1 | case7 | case16 | case17 | case18 => exact Or.inl (Shared.mem_put stored _ _)
  all_goals exact Or.inl stored

end

end Act

/-- The assumptions under which the protocol runs: random numbers are never drawn twice,
and stale cleanup spares the locks and session markers of clients that are alive. -/
def Environment (state : State Client) : Event Client → Prop
  | .act _ (.readClock ticket) =>
    ticket.key ∉ state.shared.keys ∧
      ∀ client, (state.process client).lock.ticket? ≠ some ticket
  | .act _ (.register session _) =>
    sessionMarkerKey session ∉ state.shared.keys ∧
      ∀ client, (state.process client).session.id? ≠ some session
  | .act _ _ => True
  | .cleanup key =>
    (∀ client, ∀ ticket ∈ (state.process client).lock.ticket?, key ≠ ticket.key) ∧
      ∀ client, ∀ session ∈ (state.process client).session.id?,
        key ≠ sessionMarkerKey session

instance [Fintype Client] (state : State Client) :
    (event : Event Client) → Decidable (Environment state event)
  | .act _ (.readClock ticket) =>
    inferInstanceAs (Decidable (ticket.key ∉ state.shared.keys ∧
      ∀ client, (state.process client).lock.ticket? ≠ some ticket))
  | .act _ (.register session _) =>
    inferInstanceAs (Decidable (sessionMarkerKey session ∉ state.shared.keys ∧
      ∀ client, (state.process client).session.id? ≠ some session))
  | .cleanup key =>
    inferInstanceAs (Decidable (
      (∀ client, ∀ ticket ∈ (state.process client).lock.ticket?, key ≠ ticket.key) ∧
        ∀ client, ∀ session ∈ (state.process client).session.id?,
          key ≠ sessionMarkerKey session))
  | .act _ (.lock _) | .act _ .maintain | .act _ (.putLock _) | .act _ (.listLocks _)
  | .act _ .decide | .act _ (.discard _) | .act _ (.release _) | .act _ (.checkSessions _)
  | .act _ (.refreshLock _) | .act _ (.refreshSession _) | .act _ (.deregister _)
  | .act _ (.rollback _) | .act _ .crash => isTrue trivial

/-- One `acquire_lock`, from the clock reading to the decision. -/
def acquireLock (client : Client) (ticket : Ticket) : List (Event Client) :=
  [.act client (.readClock ticket), .act client (.putLock .done),
    .act client (.listLocks true), .act client .decide]

def earlyTicket : Ticket := ⟨1, 0, by decide, by decide⟩

def lateTicket : Ticket := ⟨2, 0, by decide, by decide⟩

def emptyState : State Client := ⟨⟨0, []⟩, fun _ => ⟨.none, .idle⟩⟩

theorem emptyState_reaches [DecidableEq Client] {allowed : State Client → Event Client → Prop} :
    (system Client).Reaches allowed emptyState :=
  .initial fun _ => rfl

end Vykar.Lock

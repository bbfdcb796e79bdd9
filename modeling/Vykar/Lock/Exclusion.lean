import Vykar.Lib.OldestWins
import Vykar.Lock.Protocol

/-!
At most one client holds the lock, as long as no key is stored late.

The protocol is related to the general oldest-key-wins race: the listing of
`acquire_lock` is the moment a client wins, its `put` publishes the key, and its
`delete` withdraws it.  The race is exclusive only if keys are published in
order, and `acquire_lock` reads the clock before it stores the key, so nothing
orders the `put`s: `two_guards_of_late_put` is a run in which a key stored late sorts before
the key of a client that already holds its guard.
-/

namespace Vykar.Lock

universe u

open OldestWins

variable {Client : Type u} [DecidableEq Client] {lock : LockState} {ticket : Ticket}
  {state : State Client} {client : Client} {shared : Shared} {process : Process} {purpose : Purpose}
  {session : SessionState}

/-- The ticket of a client that has seen itself first, whether or not it has drawn the
conclusion yet. -/
def LockState.won? : LockState → Option Ticket
  | .listed _ ticket keys =>
    if decideLock ticket.key keys = .acquired then some ticket else none
  | lock => lock.guard?

def LockState.attempt (lock : LockState) : Attempt String :=
  match lock.won?, lock.ticket? with
  | some ticket, _ => .won ticket.key
  | none, some ticket => .racing ticket.key
  | none, none => .idle

def Shared.lockKeys (shared : Shared) : Set String :=
  { key | key ∈ listLockKeys shared.keys }

def State.race (state : State Client) : Race Client String where
  attempt := fun client => (state.process client).lock.attempt
  present := state.shared.lockKeys

theorem LockState.attempt_key? (lock : LockState) :
    lock.attempt.key? = lock.ticket?.map Ticket.key := by
  cases lock with
  | listed purpose ticket keys =>
    by_cases first : decideLock ticket.key keys = .acquired <;>
      simp [LockState.attempt, LockState.won?, LockState.ticket?, first, Attempt.key?]
  | _ => rfl

theorem LockState.attempt_of_won (won : lock.won? = some ticket) :
    lock.attempt = .won ticket.key := by
  simp [LockState.attempt, won]

theorem LockState.won_of_guard (held : lock.guard? = some ticket) : lock.won? = some ticket := by
  cases lock <;> simp_all [LockState.guard?, LockState.won?]

theorem LockState.won_of_attempt {key : String} (won : lock.attempt = .won key) :
    ∃ ticket, lock.won? = some ticket ∧ ticket.key = key := by
  unfold LockState.attempt at won
  split at won
  · rename_i found
    exact ⟨_, found, by cases won; rfl⟩
  · cases won
  · cases won

@[simp]
theorem giveUp_attempt (session : SessionState) (purpose : Purpose) :
    (giveUp session purpose).lock.attempt = .idle := by
  unfold giveUp
  split <;> rfl

@[simp]
theorem retry_attempt (session : SessionState) (purpose : Purpose) :
    (retry session purpose).lock.attempt = .idle := by
  unfold retry
  split
  · rfl
  · rfl
  · exact giveUp_attempt _ _

@[simp]
theorem probed_attempt (session : SessionState) :
    (probed session).lock.attempt = .idle := by
  unfold probed
  split <;> rfl

theorem lockKeys_put (shared : Shared) (outcome : Outcome) (key : String) :
    (shared.put outcome key).lockKeys =
      if outcome.applies ∧ isLockKey key then insert key shared.lockKeys
      else shared.lockKeys := by
  ext other
  by_cases applied : outcome.applies <;> by_cases isLock : isLockKey key <;>
    by_cases same : other = key <;>
    simp [Shared.put, Shared.lockKeys, mem_listLockKeys, applied, isLock, same]

theorem lockKeys_put_key (shared : Shared) (outcome : Outcome) (ticket : Ticket) :
    (shared.put outcome ticket.key).lockKeys =
      if outcome.applies then insert ticket.key shared.lockKeys else shared.lockKeys := by
  simp [lockKeys_put]

theorem lockKeys_delete (shared : Shared) (outcome : Outcome) (key : String) :
    (shared.delete outcome key).lockKeys =
      if outcome.applies then shared.lockKeys \ {key} else shared.lockKeys := by
  unfold Shared.delete
  split
  · ext other
    simp only [Shared.lockKeys, Set.mem_ofPred_eq, mem_listLockKeys, List.mem_filter,
      Set.mem_sdiff, Set.mem_singleton_iff, decide_eq_true_eq]
    tauto
  · rfl

@[simp]
theorem lockKeys_put_marker (shared : Shared) (outcome : Outcome) (session : String) :
    (shared.put outcome (sessionMarkerKey session)).lockKeys = shared.lockKeys := by
  simp [lockKeys_put]

@[simp]
theorem lockKeys_delete_marker (shared : Shared) (outcome : Outcome) (session : String) :
    (shared.delete outcome (sessionMarkerKey session)).lockKeys = shared.lockKeys := by
  rw [lockKeys_delete]
  split
  · apply Set.sdiff_singleton_eq_self
    simp [Shared.lockKeys, mem_listLockKeys]
  · rfl

theorem race_become (state : State Client) (client : Client) (shared : Shared)
    (process : Process) :
    State.race ⟨shared, Function.update state.process client process⟩ =
      ⟨Function.update state.race.attempt client process.lock.attempt, shared.lockKeys⟩ := by
  simp only [State.race, Race.mk.injEq, and_true]
  exact Function.comp_update (fun process : Process => process.lock.attempt) _ _ _

theorem moves_quiet (sameKeys : shared.lockKeys = state.shared.lockKeys)
    (sameAttempt : process.lock.attempt = (state.process client).lock.attempt) :
    Relation.ReflTransGen Race.Move state.race
      (State.race ⟨shared, Function.update state.process client process⟩) := by
  have same : Function.update state.race.attempt client process.lock.attempt =
      state.race.attempt := by
    rw [sameAttempt]
    exact Function.update_eq_self _ _
  rw [race_become, same, sameKeys]
  exact .refl

theorem moves_leave (sameKeys : shared.lockKeys = state.shared.lockKeys)
    (ended : process.lock.attempt = .idle) :
    Relation.ReflTransGen Race.Move state.race
      (State.race ⟨shared, Function.update state.process client process⟩) := by
  rw [race_become, ended, sameKeys]
  exact .single (.leave client)

theorem moves_withdraw (outcome : Outcome) (own : (state.process client).lock.ticket? = some ticket)
    (ended : process.lock.attempt = .idle) :
    Relation.ReflTransGen Race.Move state.race
      (State.race ⟨state.shared.delete outcome ticket.key,
        Function.update state.process client process⟩) := by
  by_cases applied : outcome.applies
  · have ownKey : (state.race.attempt client).key? = some ticket.key := by
      simp [State.race, LockState.attempt_key?, own]
    rw [race_become, ended, lockKeys_delete, if_pos applied]
    exact .single (.withdraw client ticket.key ownKey)
  · exact moves_leave (by rw [lockKeys_delete, if_neg applied]) ended

/-- A client that holds its guard finds its key in the store, so storing it again is
no move. -/
theorem moves_refresh (consistent : state.race.Consistent) (outcome : Outcome)
    (held : (state.process client).lock.guard? = some ticket) :
    Relation.ReflTransGen Race.Move state.race
      (State.race ⟨state.shared.put outcome ticket.key,
        Function.update state.process client (state.process client)⟩) := by
  have least := consistent.least client ticket.key
    (LockState.attempt_of_won (LockState.won_of_guard held))
  refine moves_quiet ?_ rfl
  rw [lockKeys_put_key]
  split
  · exact Set.insert_eq_of_mem least.1
  · rfl

/-- A key is stored only above the keys of the clients that have already seen themselves
first. -/
def OrderedPut (state : State Client) : Event Client → Prop
  | .act client (.putLock _) =>
    ∀ ticket ∈ (state.process client).lock.ticket?, ∀ other,
      ∀ best ∈ (state.process other).lock.won?, best.key < ticket.key
  | _ => True

/-- Storing the key: a put that is reported as failed ends the attempt, and the key may
stay behind. -/
theorem moves_publish (outcome : Outcome)
    (before : state.process client = ⟨session, .stamped purpose ticket⟩)
    (ordered : OrderedPut state (.act client (.putLock outcome))) :
    Relation.ReflTransGen Race.Move state.race
      (State.race ⟨state.shared.put outcome ticket.key, Function.update state.process client
        (if outcome.isOk then ⟨session, .stored purpose ticket⟩ else giveUp session purpose)⟩) := by
  have racing : state.race.attempt client = .racing ticket.key := by
    simp only [State.race, before]
    rfl
  have above : ∀ other best, state.race.attempt other = .won best → best < ticket.key := by
    intro other best won
    obtain ⟨winner, found, rfl⟩ := LockState.won_of_attempt won
    exact ordered ticket (by rw [before]; rfl) other winner found
  have published := Race.Move.publish client ticket.key racing above
  cases outcome with
  | done =>
    rw [race_become, lockKeys_put_key]
    have same : Function.update state.race.attempt client
        (LockState.stored purpose ticket).attempt = state.race.attempt :=
      Function.update_eq_self_iff.mpr racing.symm
    simp only [Outcome.isOk, Outcome.applies, if_true, same]
    exact .single published
  | lost =>
    rw [race_become, lockKeys_put_key]
    simp only [Outcome.isOk, Outcome.applies, if_true, Bool.false_eq_true, if_false,
      giveUp_attempt]
    exact (Relation.ReflTransGen.single published).tail (.leave client)
  | failed => exact moves_leave rfl (giveUp_attempt _ _)

/-- The listing is the moment the race is decided for a client. -/
theorem moves_list (before : state.process client = ⟨session, .stored purpose ticket⟩) :
    Relation.ReflTransGen Race.Move state.race
      (State.race ⟨state.shared, Function.update state.process client
        ⟨session, .listed purpose ticket (listLockKeys state.shared.keys)⟩⟩) := by
  have racing : state.race.attempt client = .racing ticket.key := by
    simp only [State.race, before]
    rfl
  by_cases first : decideLock ticket.key (listLockKeys state.shared.keys) = .acquired
  · have won := Race.Move.win client ticket.key racing (decideLock_eq_acquired first)
    rw [race_become]
    simp only [LockState.attempt, LockState.won?, first, if_true]
    exact .single won
  · refine moves_quiet rfl ?_
    simp [before, LockState.attempt, LockState.won?, LockState.guard?, LockState.ticket?, first]

theorem act_moves {action : Action} (consistent : state.race.Consistent)
    (environment : Environment state (.act client action))
    (ordered : OrderedPut state (.act client action))
    (acted : act state.shared (state.process client) action = some (shared, process)) :
    Relation.ReflTransGen Race.Move state.race
      (State.race ⟨shared, Function.update state.process client process⟩) := by
  generalize before : state.process client = old at acted
  revert acted
  fun_cases act state.shared old action with
  | case1 session outcome => -- register
      rintro ⟨⟩
      refine moves_quiet (lockKeys_put_marker _ _ _) ?_
      rw [before]
      split <;> rfl
  | case2 | case3 | case4 => -- lock, maintain
      rintro ⟨⟩
      exact moves_quiet rfl (by rw [before]; rfl)
  | case5 session purpose ticket later => -- readClock
      rintro ⟨⟩
      have unused : ∀ other, (state.race.attempt other).key? ≠ some ticket.key := by
        intro other used
        obtain ⟨taken, drawn, same⟩ := Option.map_eq_some_iff.mp
          ((LockState.attempt_key? _).symm.trans used)
        exact environment.2 other (Ticket.key_injective same ▸ drawn)
      have idle : state.race.attempt client = .idle := by
        simp only [State.race, before]
        rfl
      rw [race_become]
      exact .single (.draw client ticket.key idle unused)
  | case6 => -- the clock never goes back
      rintro ⟨⟩
  | case7 session purpose ticket outcome => -- putLock
      rintro ⟨⟩
      exact moves_publish outcome before ordered
  | case8 session purpose ticket reply => -- listLocks
      rintro ⟨⟩
      cases reply with
      | true => exact moves_list before
      | false => exact moves_leave rfl (giveUp_attempt _ _)
  | case9 session purpose ticket keys => -- decide
      rintro ⟨⟩
      refine moves_quiet rfl ?_
      rw [before]
      cases decided : decideLock ticket.key keys <;>
        simp [LockState.attempt, LockState.won?, LockState.guard?, LockState.ticket?,
          afterDecision, decided]
  | case10 session purpose ticket contended outcome => -- discard
      rintro ⟨⟩
      refine moves_withdraw outcome (by rw [before]; rfl) ?_
      split
      · exact retry_attempt _ _
      · exact giveUp_attempt _ _
  | case11 session attempts ticket outcome => -- release after a mutation or commit
      rintro ⟨⟩
      exact moves_withdraw outcome (by rw [before]; rfl) rfl
  | case12 session attempts ticket outcome => -- release after a probe
      rintro ⟨⟩
      refine moves_withdraw outcome (by rw [before]; rfl) ?_
      split
      · exact probed_attempt _
      · exact giveUp_attempt _ _
  | case13 session ticket outcome | case14 session ticket outcome => -- release
      rintro ⟨⟩
      exact moves_withdraw outcome (by rw [before]; rfl) rfl
  | case15 session ticket reply => -- checkSessions
      rintro ⟨⟩
      refine moves_quiet rfl ?_
      rw [before]
      simp only
      split <;> rfl
  | case16 session attempts ticket outcome | case17 session ticket outcome => -- refreshLock
      rintro ⟨⟩
      rw [← before]
      exact moves_refresh consistent outcome (by rw [before]; rfl)
  | case18 session lock outcome => -- refreshSession
      rintro ⟨⟩
      exact moves_quiet (lockKeys_put_marker _ _ _) (by rw [before])
  | case19 session lock outcome => -- deregister
      rintro ⟨⟩
      exact moves_quiet (lockKeys_delete_marker _ _ _) (by rw [before])
  | case20 session outcome => -- rollback
      rintro ⟨⟩
      exact moves_quiet (lockKeys_delete_marker _ _ _) (by rw [before])
  | case21 => -- crash
      rintro ⟨⟩
      exact moves_leave rfl rfl
  | case22 => rintro ⟨⟩

theorem step_moves {next : State Client} {event : Event Client} (consistent : state.race.Consistent)
    (environment : Environment state event) (ordered : OrderedPut state event)
    (stepped : step state event = some next) :
    Relation.ReflTransGen Race.Move state.race next.race := by
  cases event with
  | act client action =>
    obtain ⟨⟨shared, process⟩, acted, rfl⟩ := Option.map_eq_some_iff.mp stepped
    exact act_moves consistent environment ordered acted
  | cleanup key =>
    cases stepped
    have unused : ∀ other, (state.race.attempt other).key? ≠ some key := by
      intro other used
      obtain ⟨ticket, own, same⟩ := Option.map_eq_some_iff.mp
        ((LockState.attempt_key? _).symm.trans used)
      exact environment.1 other ticket own same.symm
    have removed := Race.Move.remove key unused
    simp only [State.race, lockKeys_delete, Outcome.applies, if_true]
    exact .single removed

theorem race_consistent (reached : (system Client).Reaches
      (fun state event => Environment state event ∧ OrderedPut state event) state) :
    state.race.Consistent := by
  refine reached.invariant (fun state => state.race.Consistent) ?_ ?_
  · intro start idle
    have noAttempt : ∀ client, start.race.attempt client = .idle := by
      intro client
      simp only [State.race, idle client]
      rfl
    exact ⟨by simp [Ownership.Distinct, noAttempt, Attempt.key?], by simp [noAttempt]⟩
  · intro before event after consistent allowed stepped
    exact consistent.of_moves (step_moves consistent allowed.1 allowed.2 stepped)

def AtMostOneGuard (state : State Client) : Prop :=
  ∀ first second, (state.process first).lock.guard?.isSome →
    (state.process second).lock.guard?.isSome → first = second

/-- In every run that stores each key above the keys of the clients that have already
seen themselves first, at most one client holds a lock guard at any moment. -/
theorem guard_unique_of_ordered_puts {state : State Client}
    (reached : (system Client).Reaches
      (fun state event => Environment state event ∧ OrderedPut state event) state) :
    AtMostOneGuard state := by
  intro first second firstHolds secondHolds
  obtain ⟨firstTicket, firstGuard⟩ := Option.isSome_iff_exists.mp firstHolds
  obtain ⟨secondTicket, secondGuard⟩ := Option.isSome_iff_exists.mp secondHolds
  exact (race_consistent reached).winner_unique
    (LockState.attempt_of_won (LockState.won_of_guard firstGuard))
    (LockState.attempt_of_won (LockState.won_of_guard secondGuard))

instance [Fintype Client] (state : State Client) : Decidable (AtMostOneGuard state) :=
  inferInstanceAs (Decidable (∀ first second, (state.process first).lock.guard?.isSome →
    (state.process second).lock.guard?.isSome → first = second))

instance [Fintype Client] (state : State Client) (event : Event Client) :
    Decidable (OrderedPut state event) := by
  unfold OrderedPut
  split <;> infer_instance

def contendedRun : List (Event Bool) :=
  [.act false (.lock 1), .act true (.lock 1)] ++ acquireLock false earlyTicket ++
    acquireLock true lateTicket

/-- The first client reads the clock first and stores its key last. -/
def latePutRun : List (Event Bool) :=
  [.act false (.lock 1), .act true (.lock 1), .act false (.readClock earlyTicket)] ++
    acquireLock true lateTicket ++
    [.act false (.putLock .done), .act false (.listLocks true), .act false .decide]

set_option maxRecDepth 4000 in
theorem guard_unique_of_ordered_puts_contended :
    ∃ state : State Bool, (state.process false).lock.guard? = some earlyTicket ∧
      (state.process true).lock = .refused (.exclusive 1) lateTicket true ∧
      AtMostOneGuard state := by
  have executed : ∃ state : State Bool, (system Bool).Reaches
      (fun state event => Environment state event ∧ OrderedPut state event) state ∧
      ((state.process false).lock.guard? = some earlyTicket ∧
        (state.process true).lock = .refused (.exclusive 1) lateTicket true) :=
    emptyState_reaches.exists_of_run contendedRun (by decide) (by decide)
  obtain ⟨state, reached, holds, refused⟩ := executed
  exact ⟨state, holds, refused, guard_unique_of_ordered_puts reached⟩

set_option maxRecDepth 4000 in
/-- A key stored late gives two clients the lock at once. -/
theorem two_guards_of_late_put :
    ∃ state : State Bool, (system Bool).Reaches Environment state ∧
      ¬ AtMostOneGuard state :=
  emptyState_reaches.exists_of_run latePutRun (by decide) (by decide)

end Vykar.Lock

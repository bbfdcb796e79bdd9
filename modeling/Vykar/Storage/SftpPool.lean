import Vykar.Lib.TransitionSystem

/-!
The connection pool of the SFTP backend (`sftp_backend.rs`).

What a thread does under the mutex of the pool is one step.  A waiting thread may look at the pool
again at any time, as the condition variable allows; a thread goes through `acquire_conn` and its
guard any number of times, which covers the attempts of `retry_op`.
-/

namespace Vykar.Sftp

variable {Conn Thread : Type}

structure ConnPoolState (Conn : Type) where
  idle : List Conn
  total : Nat

def ConnPoolState.releaseConn (pool : ConnPoolState Conn) (conn : Conn) : ConnPoolState Conn :=
  { pool with idle := conn :: pool.idle }

def ConnPoolState.releaseSlot (pool : ConnPoolState Conn) : ConnPoolState Conn :=
  if 0 < pool.total then { pool with total := pool.total - 1 } else pool

/-- `ConnGuard`: the connection is taken out when it is given back. -/
structure ConnGuard (Conn : Type) where
  conn : Option Conn

def ConnGuard.drop (guard : ConnGuard Conn) (pool : ConnPoolState Conn) : ConnPoolState Conn :=
  guard.conn.elim pool fun _ => pool.releaseSlot

-- both calls consume the guard, so it is dropped at their end
def ConnGuard.release (guard : ConnGuard Conn) (pool : ConnPoolState Conn) : ConnPoolState Conn :=
  ConnGuard.drop ⟨none⟩ (guard.conn.elim pool pool.releaseConn)

def ConnGuard.discard (guard : ConnGuard Conn) (pool : ConnPoolState Conn) : ConnPoolState Conn :=
  ConnGuard.drop ⟨none⟩ (guard.conn.elim pool fun _ => pool.releaseSlot)

inductive Phase (Conn : Type) where
  | outside
  | waiting
  | connecting
  | holding (guard : ConnGuard Conn)

inductive Action (Conn : Type) where
  | acquire (expired : Bool)
  | connected (result : Option Conn)
  | release
  | discard
  | drop

/-- One turn of the loop of `acquire_conn`. -/
def acquireTurn (maxConnections : Nat) (pool : ConnPoolState Conn) (expired : Bool) :
    ConnPoolState Conn × Phase Conn :=
  match pool.idle with
  | conn :: idle => ({ pool with idle }, .holding ⟨some conn⟩)
  | [] =>
    if pool.total < maxConnections then ({ pool with total := pool.total + 1 }, .connecting)
    else (pool, if expired then .outside else .waiting)

def act (maxConnections : Nat) (pool : ConnPoolState Conn) :
    Phase Conn → Action Conn → Option (ConnPoolState Conn × Phase Conn)
  | .outside, .acquire expired => some (acquireTurn maxConnections pool expired)
  | .waiting, .acquire expired => some (acquireTurn maxConnections pool expired)
  | .connecting, .connected (some conn) => some (pool, .holding ⟨some conn⟩)
  | .connecting, .connected none => some (pool.releaseSlot, .outside)
  | .holding guard, .release => some (guard.release pool, .outside)
  | .holding guard, .discard => some (guard.discard pool, .outside)
  | .holding guard, .drop => some (guard.drop pool, .outside)
  | _, _ => none

def Phase.checkedOut : Phase Conn → Nat
  | .holding guard => guard.conn.elim 0 fun _ => 1
  | _ => 0

def Phase.connects : Phase Conn → Nat
  | .connecting => 1
  | _ => 0

/-- The slots that a thread in this phase owes to the pool. -/
def Phase.slots (phase : Phase Conn) : Nat := phase.checkedOut + phase.connects

def ConnPoolState.free (maxConnections : Nat) (pool : ConnPoolState Conn) : Nat :=
  pool.idle.length + (maxConnections - pool.total)

/-- A thread, with the slots that the pool has lost and won by its steps. -/
structure ThreadState (Conn : Type) where
  phase : Phase Conn
  taken : Nat
  returned : Nat

structure State (Conn Thread : Type) where
  pool : ConnPoolState Conn
  threads : Thread → ThreadState Conn

def normalizeMaxConnections (requested : Option Nat) : Nat := max 1 (min (requested.getD 4) 32)

variable [DecidableEq Thread]

def step (maxConnections : Nat) (state : State Conn Thread) (event : Thread × Action Conn) :
    Option (State Conn Thread) :=
  let thread := state.threads event.1
  (act maxConnections state.pool thread.phase event.2).map fun result =>
    let before := state.pool.free maxConnections
    let after := result.1.free maxConnections
    ⟨result.1, Function.update state.threads event.1
      ⟨result.2, thread.taken + (before - after), thread.returned + (after - before)⟩⟩

def poolSystem (requested : Option Nat) :
    TransitionSystem (State Conn Thread) (Thread × Action Conn) where
  initial state := state = ⟨⟨[], 0⟩, fun _ => ⟨.outside, 0, 0⟩⟩
  step := step (normalizeMaxConnections requested)

section Accounting

variable {maxConnections : Nat} {pool : ConnPoolState Conn} {phase : Phase Conn}
  {action : Action Conn} {result : ConnPoolState Conn × Phase Conn}

def Balanced (maxConnections : Nat) (pool : ConnPoolState Conn) (phase : Phase Conn)
    (result : ConnPoolState Conn × Phase Conn) : Prop :=
  result.1.total + pool.idle.length + phase.slots =
      pool.total + result.1.idle.length + result.2.slots ∧
    result.1.total ≤ maxConnections

theorem acquireTurn_balanced (expired : Bool) (none : phase.slots = 0)
    (bounded : pool.total ≤ maxConnections) :
    Balanced maxConnections pool phase (acquireTurn maxConnections pool expired) := by
  unfold acquireTurn Balanced
  rw [none]
  split
  next conn idle some =>
    simp only [some, List.length_cons, Phase.slots, Phase.checkedOut, Phase.connects,
      Option.elim_some]
    omega
  next empty =>
    split
    next room =>
      simp only [empty, Phase.slots, Phase.checkedOut, Phase.connects]
      omega
    next full =>
      cases expired <;> exact ⟨rfl, bounded⟩

theorem releaseSlot_balanced (one : phase.slots = 1) (owed : phase.slots ≤ pool.total)
    (bounded : pool.total ≤ maxConnections) :
    Balanced maxConnections pool phase (pool.releaseSlot, .outside) := by
  have positive : 0 < pool.total := by omega
  rw [Balanced, ConnPoolState.releaseSlot, if_pos positive, one]
  simp only [Phase.slots, Phase.checkedOut, Phase.connects]
  omega

theorem act_balanced (acted : act maxConnections pool phase action = some result)
    (owed : phase.slots ≤ pool.total) (bounded : pool.total ≤ maxConnections) :
    Balanced maxConnections pool phase result := by
  cases phase with
  | outside =>
    cases action <;> cases acted
    exact acquireTurn_balanced _ rfl bounded
  | waiting =>
    cases action <;> cases acted
    exact acquireTurn_balanced _ rfl bounded
  | connecting =>
    cases action <;> try cases acted
    rename_i result
    cases result with
    | none =>
      cases acted
      exact releaseSlot_balanced rfl owed bounded
    | some conn =>
      cases acted
      exact ⟨rfl, bounded⟩
  | holding guard =>
    obtain ⟨conn⟩ := guard
    cases conn with
    | none => cases action <;> cases acted <;> exact ⟨rfl, bounded⟩
    | some conn =>
      cases action <;> cases acted
      · refine ⟨?_, bounded⟩
        simp [ConnGuard.release, ConnGuard.drop, ConnPoolState.releaseConn, Phase.slots,
          Phase.checkedOut, Phase.connects]
        omega
      · exact releaseSlot_balanced rfl owed bounded
      · exact releaseSlot_balanced rfl owed bounded

variable [Fintype Thread]

def State.checkedOut (state : State Conn Thread) : Nat :=
  ∑ thread, (state.threads thread).phase.checkedOut

def State.connecting (state : State Conn Thread) : Nat :=
  ∑ thread, (state.threads thread).phase.connects

/-- Every slot in use is owed by one thread, which has given back all the others it had. -/
structure State.Accounted (maxConnections : Nat) (state : State Conn Thread) : Prop where
  total : state.pool.total =
    state.pool.idle.length + ∑ thread, (state.threads thread).phase.slots
  bounded : state.pool.total ≤ maxConnections
  returned : ∀ thread, (state.threads thread).taken =
    (state.threads thread).returned + (state.threads thread).phase.slots

theorem State.Accounted.step {state after : State Conn Thread} {event : Thread × Action Conn}
    (accounted : state.Accounted maxConnections)
    (stepped : Sftp.step maxConnections state event = some after) :
    after.Accounted maxConnections := by
  obtain ⟨thread, action⟩ := event
  obtain ⟨result, acted, rfl⟩ := Option.map_eq_some_iff.mp stepped
  have total := accounted.total
  have bounded := accounted.bounded
  rw [← Finset.add_sum_erase _ _ (Finset.mem_univ thread)] at total
  obtain ⟨moved, within⟩ := act_balanced acted (by dsimp only; omega) bounded
  dsimp only at moved within
  refine ⟨?_, within, fun other => ?_⟩
  · dsimp only
    rw [← Finset.add_sum_erase _ _ (Finset.mem_univ thread), Function.update_self,
      Finset.sum_congr rfl fun other mem => by
        rw [Function.update_of_ne (Finset.ne_of_mem_erase mem)]]
    dsimp only
    omega
  · by_cases moving : other = thread
    · subst moving
      have returned := accounted.returned other
      simp only [Function.update_self, ConnPoolState.free]
      omega
    · simp only [Function.update_of_ne moving]
      exact accounted.returned other

end Accounting

theorem one_le_normalizeMaxConnections (requested : Option Nat) :
    1 ≤ normalizeMaxConnections requested :=
  Nat.le_max_left ..

/-- The pool knows of every connection; a thread has given back each slot it took but the one it
has.  A thread finds no slot only while the other threads have all of them. -/
theorem pool_accounts [Fintype Thread] {requested : Option Nat} {state : State Conn Thread}
    (reached : (poolSystem requested).Reaches (fun _ _ => True) state) :
    state.pool.total = state.pool.idle.length + state.checkedOut + state.connecting ∧
      state.pool.total ≤ normalizeMaxConnections requested ∧
      (∀ thread, (state.threads thread).taken =
        (state.threads thread).returned + (state.threads thread).phase.slots) ∧
      ∀ expired, (acquireTurn (normalizeMaxConnections requested) state.pool expired).2.slots = 0 →
        0 < normalizeMaxConnections requested ∧
          state.checkedOut + state.connecting = normalizeMaxConnections requested := by
  have accounted : state.Accounted (normalizeMaxConnections requested) :=
    reached.invariant _ (by
        rintro _ rfl
        exact ⟨by simp [Phase.slots, Phase.checkedOut, Phase.connects], Nat.zero_le _,
          fun _ => rfl⟩)
      fun _ _ _ accounted _ stepped => accounted.step stepped
  have total : state.pool.total =
      state.pool.idle.length + (state.checkedOut + state.connecting) := by
    rw [accounted.total, State.checkedOut, State.connecting, ← Finset.sum_add_distrib]
    rfl
  refine ⟨by omega, accounted.bounded, accounted.returned, fun expired failed => ?_⟩
  have bounded := accounted.bounded
  unfold acquireTurn at failed
  split at failed
  next => cases failed
  next empty =>
    split at failed
    next => cases failed
    next full =>
      rw [empty, List.length_nil] at total
      exact ⟨one_le_normalizeMaxConnections requested, by omega⟩

/-- A connect fails, and the thread that waited for its slot connects. -/
def failedConnect : List (Fin 2 × Action Unit) :=
  [(0, .acquire false), (1, .acquire false), (0, .connected none), (1, .acquire false)]

theorem pool_accounts_failed_connect : ∃ state : State Unit (Fin 2),
    (poolSystem (some 0)).Reaches (fun _ _ => True) state ∧ state.connecting = 1 ∧
      state.pool.total = state.pool.idle.length + state.checkedOut + state.connecting :=
  have reached := TransitionSystem.Reaches.run (.initial rfl)
    (TransitionSystem.runAllowed_of_forall fun _ _ _ => trivial)
    (rfl : (poolSystem (some 0)).run _ failedConnect = _)
  ⟨_, reached, rfl, (pool_accounts reached).1⟩

end Vykar.Sftp

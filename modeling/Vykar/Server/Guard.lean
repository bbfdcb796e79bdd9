import Vykar.Server.Uploads

/-!
Conditions on the runs of the server that can be checked.

A guard looks at the event, and at each request in flight.  There is no bound on the
number of requests, but along a run that uses only the first few numbers a guard is
checked on these.
-/

namespace Vykar.Server

open Vykar.Pack

structure Guard where
  event : ServerState → Event → Bool
  each : ServerState → Event → Phase → Bool

structure Guard.Permits (guard : Guard) (state : ServerState) (event : Event) : Prop where
  onEvent : guard.event state event = true
  onEach : ∀ id phase, state.requests id = some (.running phase) →
    guard.each state event phase = true

def ServerState.phase? (state : ServerState) (id : Nat) : Option Phase :=
  match state.requests id with
  | some (.running phase) => some phase
  | _ => none

theorem phase?_eq_some {state : ServerState} {id : Nat} {phase : Phase} :
    state.phase? id = some phase ↔ state.requests id = some (.running phase) := by
  unfold ServerState.phase?
  split
  · rename_i found
    simp [found]
  · rename_i other
    simpa using other phase

def Event.arrival? : Event → Option Nat
  | .put id _ | .delete id _ | .batchDelete id _ _ | .repack id _ | .mkdir id _ | .init id =>
    some id
  | _ => none

/-- The ids for temporary files that are handed out next are not those of the request. -/
def ServerState.idsApart (state : ServerState) (phase : Phase) : Bool :=
  (phase.stream?.all fun stream => stream.tempId ≠ state.tempCounter) &&
    phase.job?.all fun job => job.tempId ≠ state.repackCounter

theorem ServerState.TempIdsFresh.of_apart {state : ServerState}
    (apart : ∀ id phase, state.requests id = some (.running phase) →
      state.idsApart phase = true) : state.TempIdsFresh where
  uploads id stream streaming := by
    have own := (Bool.and_eq_true_iff.mp (apart id _ streaming)).1
    simpa [Phase.stream?] using own
  repacks id job repacking := by
    obtain ⟨phase, running, hasJob⟩ := repacking
    have own := (Bool.and_eq_true_iff.mp (apart id _ running)).2
    simpa [hasJob] using own

def emptyServer : ServerState where
  files := ∅
  nextInode := 0
  tempCounter := 0
  repackCounter := 0
  quotaUsed := 0
  quotaLimit := 0
  requests _ := none

section Checked

variable {blake2b : Bytes → BitVec 256} {config : Config} {guard : Guard} {bound : Nat}
  {state next : ServerState} {event : Event} {events : List Event}

def ServerState.Bounded (bound : Nat) (state : ServerState) : Prop :=
  ∀ id, bound ≤ id → state.requests id = none

def Guard.permits (guard : Guard) (bound : Nat) (state : ServerState) (event : Event) : Bool :=
  (event.arrival?.all fun id => id < bound) && guard.event state event &&
    (List.range bound).all fun id => (state.phase? id).all (guard.each state event)

theorem Guard.permits_spec (permits : guard.permits bound state event = true)
    (bounded : state.Bounded bound) : guard.Permits state event := by
  simp only [Guard.permits, Bool.and_eq_true, List.all_eq_true, List.mem_range] at permits
  refine ⟨permits.1.2, fun id phase running => ?_⟩
  have below : id < bound := by
    by_contra outside
    rw [bounded id (not_lt.mp outside)] at running
    cases running
  have checked := permits.2 id below
  rwa [phase?_eq_some.mpr running] at checked

theorem ServerState.Bounded.step (bounded : state.Bounded bound)
    (arrival : (event.arrival?.all fun id => id < bound) = true)
    (stepped : step blake2b config state event = some next) : next.Bounded bound := by
  have updated {id : Nat} {outcome : Option Outcome} (below : id < bound) (other : Nat)
      (outside : bound ≤ other) : Function.update state.requests id outcome other = none := by
    rw [Function.update_of_ne (ne_of_gt (lt_of_lt_of_le below outside))]
    exact bounded other outside
  have known {id : Nat} {phase : Phase} (running : state.requests id = some (.running phase)) :
      id < bound := by
    by_contra outside
    rw [bounded id (not_lt.mp outside)] at running
    cases running
  cases event with
  | put | delete | batchDelete | repack | mkdir | init =>
    obtain rfl := arrive_eq_some stepped
    exact updated (of_decide_eq_true arrival)
  | advance | receive | fail | abort =>
    obtain ⟨phase, middle, outcome, running, -, rfl⟩ := proceed_eq_some stepped
    exact updated (known running)
  | refreshQuota limit =>
    cases stepped
    exact bounded
  | restart =>
    cases stepped
    intro id outside
    simp only [bounded id outside, Option.map_none]

section

variable {system : TransitionSystem ServerState Event} (same : system.step = step blake2b config)
  (bounded : state.Bounded bound)
  (checked : system.RunAllowed (fun state event => guard.permits bound state event = true) state
    events)

include same bounded checked

/-- A run of requests with small numbers is permitted if the check passes along it. -/
theorem Guard.runAllowed : system.RunAllowed guard.Permits state events := by
  induction events generalizing state with
  | nil => trivial
  | cons event events ih =>
    refine ⟨permits_spec checked.1 bounded, fun next stepped => ?_⟩
    refine ih (bounded.step ?_ (same ▸ stepped)) (checked.2 next stepped)
    exact (Bool.and_eq_true_iff.mp (Bool.and_eq_true_iff.mp checked.1).1).1

theorem Guard.exists_of_run {Good : ServerState → Prop}
    (reached : system.Reaches guard.Permits state)
    (executed : ∃ final ∈ system.run state events, Good final) :
    ∃ final, system.Reaches guard.Permits final ∧ final.Bounded bound ∧ Good final := by
  obtain ⟨final, finished, good⟩ := executed
  refine ⟨final, reached.run (runAllowed same bounded checked) finished, ?_, good⟩
  refine TransitionSystem.run_invariant (ServerState.Bounded bound) ?_ checked finished bounded
  intro before event after bounded permits stepped
  refine bounded.step ?_ (same ▸ stepped)
  exact (Bool.and_eq_true_iff.mp (Bool.and_eq_true_iff.mp permits).1).1

end

end Checked

end Vykar.Server

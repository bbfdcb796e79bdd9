import Mathlib

/-!
Event-driven transition systems with an executable step function.

A step that is not possible returns `none`.  `Reaches` collects the states of
the runs whose steps all satisfy a side condition `allowed`, so that
assumptions about an environment are stated on events and not built into the
step function.
-/

universe u v

/-- A transition system whose steps are selected by events. -/
structure TransitionSystem (State : Type u) (Event : Type v) where
  initial : State → Prop
  step : State → Event → Option State

namespace TransitionSystem

variable {State : Type u} {Event : Type v}

/-- States of runs in which every step meets `allowed` in the state before it. -/
inductive Reaches (system : TransitionSystem State Event)
    (allowed : State → Event → Prop) : State → Prop where
  | initial {state : State} :
      system.initial state → Reaches system allowed state
  | step {state next : State} {event : Event} :
      Reaches system allowed state →
      allowed state event →
      system.step state event = some next →
      Reaches system allowed next

variable {system : TransitionSystem State Event} {allowed : State → Event → Prop} {state : State}
  {events : List Event}

/-- A property of the initial states that each allowed step keeps holds in every
state reached. -/
theorem Reaches.invariant (Good : State → Prop) (base : ∀ state, system.initial state → Good state)
    (preserved : ∀ state event next, Good state → allowed state event →
      system.step state event = some next → Good next) (reached : system.Reaches allowed state) :
    Good state := by
  induction reached with
  | initial start => exact base _ start
  | step _ permitted stepped ih =>
    exact preserved _ _ _ ih permitted stepped

def run (system : TransitionSystem State Event) : State → List Event → Option State
  | state, [] => some state
  | state, event :: rest => (system.step state event).bind (run system · rest)

/-- Every step of the execution of `events` from `state` meets `allowed`. -/
def RunAllowed (system : TransitionSystem State Event)
    (allowed : State → Event → Prop) : State → List Event → Prop
  | _, [] => True
  | state, event :: rest =>
    allowed state event ∧
      ∀ next ∈ system.step state event, RunAllowed system allowed next rest

instance decidableRunAllowed [∀ state event, Decidable (allowed state event)] :
    ∀ (state : State) (events : List Event), Decidable (system.RunAllowed allowed state events)
  | _, [] => isTrue trivial
  | state, event :: rest =>
    have : ∀ next, Decidable (system.RunAllowed allowed next rest) :=
      fun next => decidableRunAllowed next rest
    inferInstanceAs (Decidable (allowed state event ∧
      ∀ next ∈ system.step state event, system.RunAllowed allowed next rest))

theorem runAllowed_of_forall (every : ∀ state, ∀ event ∈ events, allowed state event) :
    system.RunAllowed allowed state events := by
  induction events generalizing state with
  | nil => trivial
  | cons event rest ih =>
    refine ⟨every state event List.mem_cons_self, fun next _ => ih ?_⟩
    exact fun state later listed => every state later (List.mem_cons_of_mem _ listed)

theorem run_invariant (Good : State → Prop) (preserved : ∀ state event next, Good state →
      allowed state event → system.step state event = some next → Good next)
    (permitted : system.RunAllowed allowed state events) {final : State}
    (executed : system.run state events = some final) (good : Good state) : Good final := by
  induction events generalizing state with
  | nil =>
    cases executed
    exact good
  | cons event rest ih =>
    obtain ⟨next, stepped, continued⟩ := Option.bind_eq_some_iff.mp executed
    exact ih (permitted.2 next stepped) continued
      (preserved state event next good permitted.1 stepped)

theorem Reaches.run (reached : system.Reaches allowed state)
    (permitted : system.RunAllowed allowed state events) {final : State}
    (executed : system.run state events = some final) :
    system.Reaches allowed final :=
  run_invariant _ (fun _ _ _ => .step) permitted executed reached

theorem Reaches.exists_of_run {Good : State → Prop} (reached : system.Reaches allowed state)
    (events : List Event) (permitted : system.RunAllowed allowed state events)
    (executed : ∃ final ∈ system.run state events, Good final) :
    ∃ final, system.Reaches allowed final ∧ Good final := by
  obtain ⟨final, finished, good⟩ := executed
  exact ⟨final, reached.run permitted finished, good⟩

end TransitionSystem

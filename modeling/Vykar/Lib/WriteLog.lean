import Mathlib

/-!
Sequences of atomic writes that may stop anywhere.

A command that crashes leaves the state after some of its writes.  `Throughout`
says that a property holds before, between and after the writes of a sequence,
and so wherever the sequence is cut.
-/

universe u v

namespace WriteLog

variable {State : Type u} {Write : Type v} {apply : State → Write → State}
  {Good : State → Prop} {state : State} {writes later : List Write}

def applyAll (apply : State → Write → State) (state : State) (writes : List Write) : State :=
  writes.foldl apply state

/-- A property of the state before the writes, after each of them and after all of them. -/
def Throughout (apply : State → Write → State) (Good : State → Prop) :
    State → List Write → Prop
  | state, [] => Good state
  | state, write :: writes => Good state ∧ Throughout apply Good (apply state write) writes

section

variable (throughout : Throughout apply Good state writes)

include throughout

theorem Throughout.cut (cut : Nat) :
    Good (applyAll apply state (writes.take cut)) := by
  induction writes generalizing state cut with
  | nil =>
    rw [List.take_nil]
    exact throughout
  | cons write writes ih =>
    cases cut with
    | zero => exact throughout.1
    | succ cut => exact ih throughout.2 cut

theorem Throughout.last :
    Good (applyAll apply state writes) := by
  have whole := throughout.cut writes.length
  rwa [List.take_length] at whole

theorem Throughout.append (continued : Throughout apply Good (applyAll apply state writes) later) :
    Throughout apply Good state (writes ++ later) := by
  induction writes generalizing state with
  | nil => exact continued
  | cons write writes ih =>
    exact ⟨throughout.1, ih throughout.2 continued⟩

end

/-- Writes that each keep a property keep it throughout. -/
theorem Throughout.of_preserved (good : Good state)
    (preserved : ∀ write ∈ writes, ∀ state, Good state → Good (apply state write)) :
    Throughout apply Good state writes := by
  induction writes generalizing state with
  | nil => exact good
  | cons write writes ih =>
    refine ⟨good, ih ?_ fun other listed => ?_⟩
    · exact preserved write List.mem_cons_self state good
    · exact preserved other (List.mem_cons_of_mem write listed)

end WriteLog

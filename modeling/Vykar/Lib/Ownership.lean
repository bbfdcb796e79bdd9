import Mathlib

/-!
Things owned by at most one owner, in a family of states that changes one
member at a time.
-/

universe u v w

namespace Ownership

variable {Owner : Type u} {State : Type v} {Thing : Type w}

def Distinct (owns : State → Option Thing) (family : Owner → State) : Prop :=
  ∀ first second thing, owns (family first) = some thing →
    owns (family second) = some thing → first = second

theorem Distinct.update [DecidableEq Owner] {owns : State → Option Thing}
    {family : Owner → State} (distinct : Distinct owns family) {owner : Owner} {state : State}
    (own : ∀ thing, owns state = some thing → ∀ other, owns (family other) = some thing →
      other = owner) :
    Distinct owns (Function.update family owner state) := by
  intro first second thing firstOwns secondOwns
  by_cases isFirst : first = owner <;> by_cases isSecond : second = owner
  · rw [isFirst, isSecond]
  · subst isFirst
    rw [Function.update_self] at firstOwns
    rw [Function.update_of_ne isSecond] at secondOwns
    exact (own thing firstOwns second secondOwns).symm
  · subst isSecond
    rw [Function.update_self] at secondOwns
    rw [Function.update_of_ne isFirst] at firstOwns
    exact own thing secondOwns first firstOwns
  · rw [Function.update_of_ne isFirst] at firstOwns
    rw [Function.update_of_ne isSecond] at secondOwns
    exact distinct first second thing firstOwns secondOwns

end Ownership

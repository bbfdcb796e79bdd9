import Vykar.Lib.Ownership

/-!
The oldest-key-wins lock, in general.

Clients draw keys from a linear order, publish them in a shared set, and a
client that finds its own key to be the least published one has won.  Winning
is decided on one look at the set and never revised, so exclusion rests on the
side condition of `Move.publish`: a key is published only above the keys of the
clients that have already won.
-/

universe u v

namespace OldestWins

/-- One client's part in the race: no key, a key that has not won, or a winning key. -/
inductive Attempt (Key : Type v) where
  | idle
  | racing (key : Key)
  | won (key : Key)

def Attempt.key? {Key : Type v} : Attempt Key → Option Key
  | .idle => none
  | .racing key => some key
  | .won key => some key

structure Race (Client : Type u) (Key : Type v) where
  attempt : Client → Attempt Key
  present : Set Key

namespace Race

variable {Client : Type u} {Key : Type v}

/-- One move of the race.  A key can stay behind when its client leaves, and a key that
no attempt uses can disappear at any time. -/
inductive Move [DecidableEq Client] [LinearOrder Key] (race : Race Client Key) :
    Race Client Key → Prop where
  | draw (client : Client) (key : Key) :
      race.attempt client = .idle →
      (∀ other, (race.attempt other).key? ≠ some key) →
      Move race { race with attempt := Function.update race.attempt client (.racing key) }
  | publish (client : Client) (key : Key) :
      race.attempt client = .racing key →
      (∀ other best, race.attempt other = .won best → best < key) →
      Move race { race with present := insert key race.present }
  | win (client : Client) (key : Key) :
      race.attempt client = .racing key →
      IsLeast race.present key →
      Move race { race with attempt := Function.update race.attempt client (.won key) }
  | leave (client : Client) :
      Move race { race with attempt := Function.update race.attempt client .idle }
  | withdraw (client : Client) (key : Key) :
      (race.attempt client).key? = some key →
      Move race
        { attempt := Function.update race.attempt client .idle
          present := race.present \ {key} }
  | remove (key : Key) :
      (∀ other, (race.attempt other).key? ≠ some key) →
      Move race { race with present := race.present \ {key} }

/-- Keys in use are distinct, and a winning key is the least published one. -/
structure Consistent [LinearOrder Key] (race : Race Client Key) : Prop where
  distinct : Ownership.Distinct Attempt.key? race.attempt
  least : ∀ client key, race.attempt client = .won key → IsLeast race.present key

theorem Consistent.winner_unique [LinearOrder Key] {race : Race Client Key}
    (consistent : race.Consistent) {client other : Client} {key best : Key}
    (won : race.attempt client = .won key)
    (otherWon : race.attempt other = .won best) : client = other := by
  have same : key = best :=
    (consistent.least client key won).unique (consistent.least other best otherWon)
  subst same
  exact consistent.distinct client other key (by rw [won]; rfl) (by rw [otherWon]; rfl)

theorem isLeast_diff_singleton [LinearOrder Key] {present : Set Key} {key removed : Key}
    (least : IsLeast present key) (differs : key ≠ removed) :
    IsLeast (present \ {removed}) key :=
  ⟨⟨least.1, differs⟩, fun _ membership => least.2 membership.1⟩

theorem won_of_update [DecidableEq Client] {attempt : Client → Attempt Key}
    {client other : Client} {replaced : Attempt Key} {best : Key}
    (won : Function.update attempt client replaced other = .won best) :
    other = client ∧ replaced = .won best ∨ other ≠ client ∧ attempt other = .won best := by
  by_cases isClient : other = client
  · subst isClient
    exact Or.inl ⟨rfl, by simpa using won⟩
  · exact Or.inr ⟨isClient, by rwa [Function.update_of_ne isClient] at won⟩

variable [DecidableEq Client] [LinearOrder Key]

theorem Move.consistent {race next : Race Client Key} (moved : race.Move next)
    (consistent : race.Consistent) : next.Consistent := by
  cases moved with
  | draw client key idle unused =>
    refine ⟨consistent.distinct.update ?_, fun other best won => ?_⟩
    · intro drawn same other used
      cases same
      exact absurd used (unused other)
    · rcases won_of_update won with ⟨-, same⟩ | ⟨-, won⟩
      · cases same
      · exact consistent.least other best won
  | publish client key racing above =>
    refine ⟨consistent.distinct, fun other best won => ?_⟩
    have least := consistent.least other best won
    refine ⟨Set.mem_insert_of_mem _ least.1, fun published membership => ?_⟩
    rcases Set.mem_insert_iff.mp membership with rfl | old
    · exact (above other best won).le
    · exact least.2 old
  | win client key racing least =>
    have used : (race.attempt client).key? = some key := by rw [racing]; rfl
    refine ⟨consistent.distinct.update ?_, fun other best won => ?_⟩
    · intro drawn same other otherUsed
      cases same
      exact consistent.distinct other client key otherUsed used
    · rcases won_of_update won with ⟨-, same⟩ | ⟨-, won⟩
      · cases same
        exact least
      · exact consistent.least other best won
  | leave client =>
    refine ⟨consistent.distinct.update (by simp [Attempt.key?]),
      fun other best won => ?_⟩
    rcases won_of_update won with ⟨-, same⟩ | ⟨-, won⟩
    · cases same
    · exact consistent.least other best won
  | withdraw client key used =>
    refine ⟨consistent.distinct.update (by simp [Attempt.key?]),
      fun other best won => ?_⟩
    rcases won_of_update won with ⟨-, same⟩ | ⟨isOther, before⟩
    · cases same
    · refine isLeast_diff_singleton (consistent.least other best before) ?_
      rintro rfl
      exact isOther (consistent.distinct other client best (by rw [before]; rfl) used)
  | remove key unused =>
    refine ⟨consistent.distinct, fun other best won => ?_⟩
    refine isLeast_diff_singleton (consistent.least other best won) ?_
    rintro rfl
    exact unused other (by rw [won]; rfl)

theorem Consistent.of_moves {race next : Race Client Key} (consistent : race.Consistent)
    (moves : Relation.ReflTransGen Move race next) : next.Consistent := by
  induction moves with
  | refl => exact consistent
  | tail _ moved ih => exact moved.consistent ih

end Race

end OldestWins

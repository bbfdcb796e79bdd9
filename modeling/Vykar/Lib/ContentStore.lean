import Vykar.Lib.Dict

/-!
Moves in a content-addressed store.

A move writes an object, if it has one to write, and then removes its source.
Where a key determines its content, what is left after a sequence of moves
depends only on the order of writes and removals: an object is there when it
was there before or was written, and every removal of it is followed by another
write of it.
-/

universe u v

namespace ContentStore

variable {Key : Type u} {Content : Type v} {key : Key}

/-- Write the target, then remove the source. -/
structure Move (Key : Type u) (Content : Type v) where
  source : Key
  target : Option (Key × Content)

def Rewritten (key : Key) (moves : List (Move Key Content)) : Prop :=
  ∀ front move back, moves = front ++ move :: back → move.source = key →
    ∃ later ∈ back, ∃ content, later.target = some (key, content)

def Written (key : Key) (moves : List (Move Key Content)) : Prop :=
  ∃ move ∈ moves, ∃ content, move.target = some (key, content)

def WritesAgree (content : Key → Content) (moves : List (Move Key Content)) : Prop :=
  ∀ move ∈ moves, ∀ key value, move.target = some (key, value) → value = content key

variable {move : Move Key Content} {moves : List (Move Key Content)}

theorem written_cons :
    Written key (move :: moves) ↔
      (∃ content, move.target = some (key, content)) ∨ Written key moves := by
  simp [Written]

theorem rewritten_cons :
    Rewritten key (move :: moves) ↔
      (move.source = key → Written key moves) ∧ Rewritten key moves := by
  constructor
  · intro rewritten
    refine ⟨fun removed => rewritten [] move moves rfl removed, ?_⟩
    rintro front later back rfl removed
    exact rewritten (move :: front) later back rfl removed
  · intro ⟨first, rest⟩ front later back split removed
    cases front with
    | nil =>
      obtain ⟨rfl, rfl⟩ := List.cons.inj split
      exact first removed
    | cons head front =>
      obtain ⟨rfl, rfl⟩ := List.cons.inj split
      exact rest front later back rfl removed

/-- Of the moves that write, the last one leaves its source removed. -/
theorem exists_not_rewritten (writes : ∃ move ∈ moves, move.target.isSome = true) :
    ∃ move ∈ moves, move.target.isSome = true ∧ ¬ Rewritten move.source moves := by
  induction moves with
  | nil =>
    obtain ⟨move, listed, -⟩ := writes
    cases listed
  | cons head moves ih =>
    by_cases later : ∃ move ∈ moves, move.target.isSome = true
    · obtain ⟨move, listed, written, lost⟩ := ih later
      refine ⟨move, List.mem_cons_of_mem head listed, written, fun rewritten => ?_⟩
      exact lost (rewritten_cons.mp rewritten).2
    · obtain ⟨move, listed, written⟩ := writes
      rcases List.mem_cons.mp listed with rfl | among
      · refine ⟨move, List.mem_cons_self, written, fun rewritten => later ?_⟩
        obtain ⟨next, nextListed, content, target⟩ := (rewritten_cons.mp rewritten).1 rfl
        exact ⟨next, nextListed, by rw [target]; rfl⟩
      · exact absurd ⟨move, among, written⟩ later

section Writes

variable {content : Key → Content}

theorem WritesAgree.head (writes : WritesAgree content (move :: moves)) :
    WritesAgree content [move] := by
  intro other listed
  obtain rfl := List.mem_singleton.mp listed
  exact writes other List.mem_cons_self

theorem WritesAgree.tail (writes : WritesAgree content (move :: moves)) :
    WritesAgree content moves :=
  fun other listed => writes other (List.mem_cons_of_mem move listed)

end Writes

section Apply

variable [DecidableEq Key]

def Move.apply (store : Dict Key Content) (move : Move Key Content) : Dict Key Content :=
  (match move.target with
    | some (key, content) => store.set key content
    | none => store).remove move.source

def applyMoves (store : Dict Key Content) (moves : List (Move Key Content)) :
    Dict Key Content :=
  moves.foldl Move.apply store

def Agrees (content : Key → Content) (store : Dict Key Content) : Prop :=
  ∀ key value, store.get? key = some value → value = content key

variable {content : Key → Content} {store : Dict Key Content}

theorem applyMoves_cons (store : Dict Key Content) (move : Move Key Content)
    (moves : List (Move Key Content)) :
    applyMoves store (move :: moves) = applyMoves (move.apply store) moves := rfl

theorem applyMoves_append (store : Dict Key Content) (first second : List (Move Key Content)) :
    applyMoves store (first ++ second) = applyMoves (applyMoves store first) second :=
  List.foldl_append

theorem Move.get?_apply (store : Dict Key Content) (move : Move Key Content) (key : Key) :
    (move.apply store).get? key =
      if key = move.source then none
      else match move.target with
        | some (target, content) => if key = target then some content else store.get? key
        | none => store.get? key := by
  unfold Move.apply
  rw [Dict.get?_remove]
  cases move.target with
  | none => rfl
  | some target => rw [Dict.get?_set]

theorem WritesAgree.get?_apply (writes : WritesAgree content [move]) (store : Dict Key Content)
    (key : Key) :
    (move.apply store).get? key = some (content key) ↔
      key ≠ move.source ∧ (store.get? key = some (content key) ∨
        ∃ value, move.target = some (key, value)) := by
  rw [Move.get?_apply]
  by_cases removed : key = move.source
  · simp [removed]
  · cases written : move.target with
    | none => simp [removed]
    | some target =>
      obtain ⟨target, value⟩ := target
      by_cases same : key = target
      · have agrees := writes move List.mem_cons_self target value written
        simp only [same] at removed ⊢
        simp [removed, agrees]
      · simp [removed, same, Ne.symm same]

theorem Agrees.apply (agrees : Agrees content store) (writes : WritesAgree content [move]) :
    Agrees content (move.apply store) := by
  intro key value found
  rw [Move.get?_apply] at found
  split at found
  · cases found
  · split at found
    · rename_i target stored written
      split at found
      · rename_i same
        cases found
        exact same ▸ writes move List.mem_cons_self _ _ written
      · exact agrees key value found
    · exact agrees key value found

theorem Agrees.applyMoves (agrees : Agrees content store) (writes : WritesAgree content moves) :
    Agrees content (applyMoves store moves) := by
  induction moves generalizing store with
  | nil => exact agrees
  | cons move moves ih =>
    exact ih (agrees.apply writes.head) writes.tail

/-- An object is left when it was there or was written, and each removal of it is followed by
another write. -/
theorem Agrees.get?_applyMoves (agrees : Agrees content store)
    (writes : WritesAgree content moves) (key : Key) :
    (ContentStore.applyMoves store moves).get? key = some (content key) ↔
      (store.get? key = some (content key) ∨ Written key moves) ∧ Rewritten key moves := by
  induction moves generalizing store with
  | nil => simp [ContentStore.applyMoves, Written, Rewritten]
  | cons move moves ih =>
    rw [applyMoves_cons, ih (agrees.apply writes.head) writes.tail,
      writes.head.get?_apply, rewritten_cons, written_cons]
    by_cases removed : key = move.source
    · simp only [removed, ne_eq, not_true_eq_false, false_and, false_or, forall_const]
      tauto
    · simp only [ne_eq, removed, not_false_eq_true, true_and, Ne.symm removed,
        IsEmpty.forall_iff]
      tauto

end Apply

end ContentStore

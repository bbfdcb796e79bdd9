import Mathlib

/-!
Writes at positions of files.

A write puts its data at an offset of a file; what lies between the old end of the file and the
offset is padded.  `Filling` says how far a file is on its way to a goal: it is not longer than
the goal, and a position that does not have its final value is covered by a write that is still
to come.
-/

universe u v

structure PositionedWrite (File : Type u) (Value : Type v) where
  file : File
  offset : Nat
  data : List Value
  deriving DecidableEq

namespace PositionedWrite

variable {File : Type u} {Value : Type v}

def Puts (write : PositionedWrite File Value) (file : File) (position : Nat) (value : Value) :
    Prop :=
  write.file = file ∧ write.offset ≤ position ∧
    write.data[position - write.offset]? = some value

/-- The lists put the same values at the same positions, and are of the same total length. -/
structure SameEffect (first second : List (PositionedWrite File Value)) : Prop where
  puts : ∀ file position value, (∃ write ∈ first, write.Puts file position value) ↔
    ∃ write ∈ second, write.Puts file position value
  length : (first.map fun write => write.data.length).sum =
    (second.map fun write => write.data.length).sum

variable {first second third : List (PositionedWrite File Value)}

theorem SameEffect.refl (writes : List (PositionedWrite File Value)) :
    SameEffect writes writes :=
  ⟨fun _ _ _ => Iff.rfl, rfl⟩

theorem SameEffect.symm (same : SameEffect first second) : SameEffect second first :=
  ⟨fun file position value => (same.puts file position value).symm, same.length.symm⟩

theorem SameEffect.trans (left : SameEffect first second) (right : SameEffect second third) :
    SameEffect first third :=
  ⟨fun file position value => (left.puts file position value).trans
    (right.puts file position value), left.length.trans right.length⟩

theorem SameEffect.of_perm (permuted : first.Perm second) : SameEffect first second :=
  ⟨fun _ _ _ => by simp only [permuted.mem_iff], (permuted.map _).sum_eq⟩

theorem SameEffect.append {third fourth : List (PositionedWrite File Value)}
    (left : SameEffect first second) (right : SameEffect third fourth) :
    SameEffect (first ++ third) (second ++ fourth) := by
  refine ⟨fun file position value => ?_, ?_⟩
  · simp only [List.mem_append, or_and_right, exists_or, left.puts, right.puts]
  · rw [List.map_append, List.sum_append, List.map_append, List.sum_append, left.length,
      right.length]

theorem sameEffect_empty (file : File) (offset : Nat) :
    SameEffect [⟨file, offset, ([] : List Value)⟩] [] := by
  refine ⟨fun other position value => ?_, rfl⟩
  simp [Puts]

theorem sameEffect_merge (file : File) (offset : Nat) (front back : List Value) :
    SameEffect [⟨file, offset, front ++ back⟩]
      [⟨file, offset, front⟩, ⟨file, offset + front.length, back⟩] := by
  refine ⟨fun other position value => ?_, by simp⟩
  simp only [exists_eq_left, List.mem_cons, List.not_mem_nil, or_false, exists_eq_or_imp, Puts]
  constructor
  · rintro ⟨same, begun, found⟩
    by_cases inFront : position - offset < front.length
    · rw [List.getElem?_append_left inFront] at found
      exact Or.inl ⟨same, begun, found⟩
    · rw [List.getElem?_append_right (by omega)] at found
      refine Or.inr ⟨same, by omega, ?_⟩
      rwa [← Nat.sub_sub]
  · rintro (⟨same, begun, found⟩ | ⟨same, begun, found⟩)
    · refine ⟨same, begun, ?_⟩
      rw [List.getElem?_append_left, found]
      exact (List.getElem?_eq_some_iff.mp found).1
    · refine ⟨same, by omega, ?_⟩
      rw [List.getElem?_append_right (by omega), Nat.sub_sub]
      exact found

end PositionedWrite

section Content

variable {Value : Type v} (pad : Value)

def setLength (length : Nat) (content : List Value) : List Value :=
  content.take length ++ List.replicate (length - content.length) pad

def writeAt (offset : Nat) (data content : List Value) : List Value :=
  if data = [] then content
  else setLength pad offset content ++ data ++ content.drop (offset + data.length)

variable {pad} {content data : List Value} {offset position : Nat}

theorem length_setLength (length : Nat) (content : List Value) :
    (setLength pad length content).length = length := by
  rw [setLength, List.length_append, List.length_take, List.length_replicate]
  omega

theorem getElem?_setLength {length : Nat} (known : position < content.length)
    (inside : position < length) :
    (setLength pad length content)[position]? = content[position]? := by
  rw [setLength, List.getElem?_append_left, List.getElem?_take_of_lt inside]
  rw [List.length_take]
  omega

theorem length_writeAt_le {length : Nat} (fits : content.length ≤ length)
    (inside : offset + data.length ≤ length) :
    (writeAt pad offset data content).length ≤ length := by
  unfold writeAt
  split
  · exact fits
  · rw [List.length_append, List.length_append, length_setLength, List.length_drop]
    omega

theorem getElem?_writeAt_inside (begun : offset ≤ position)
    (inside : position < offset + data.length) :
    (writeAt pad offset data content)[position]? = data[position - offset]? := by
  have nonempty : data ≠ [] := by
    rintro rfl
    rw [List.length_nil] at inside
    omega
  rw [writeAt, if_neg nonempty, List.getElem?_append_left, List.getElem?_append_right,
    length_setLength]
  · rwa [length_setLength]
  · rw [List.length_append, length_setLength]
    exact inside

theorem getElem?_writeAt_outside (known : position < content.length)
    (outside : position < offset ∨ offset + data.length ≤ position) :
    (writeAt pad offset data content)[position]? = content[position]? := by
  unfold writeAt
  split
  · rfl
  · rcases outside with before | behind
    · rw [List.append_assoc, List.getElem?_append_left, getElem?_setLength known before]
      rwa [length_setLength]
    · rw [List.getElem?_append_right, List.getElem?_drop]
      · rw [List.length_append, length_setLength]
        congr 1
        omega
      · rw [List.length_append, length_setLength]
        exact behind

end Content

section Filling

variable {File : Type u} {Value : Type v}

/-- The content of a file on its way to the goal, with writes that are still to come. -/
structure Filling (goal : List Value) (pending : List (PositionedWrite File Value)) (file : File)
    (content : List Value) : Prop where
  short : content.length ≤ goal.length
  covered : ∀ position value, goal[position]? = some value →
    content[position]? = some value ∨ ∃ write ∈ pending, write.Puts file position value

variable {goal content : List Value} {pending later : List (PositionedWrite File Value)}
  {file : File} {pad : Value}

theorem Filling.mono (filling : Filling goal pending file content)
    (kept : ∀ position value, (∃ write ∈ pending, write.Puts file position value) →
      ∃ write ∈ later, write.Puts file position value) : Filling goal later file content :=
  ⟨filling.short, fun position value wanted =>
    (filling.covered position value wanted).imp_right (kept position value)⟩

theorem Filling.eq_goal (filling : Filling goal [] file content) : content = goal := by
  apply List.ext_getElem?
  intro position
  cases wanted : goal[position]? with
  | none =>
    rw [List.getElem?_eq_none_iff] at wanted ⊢
    exact Nat.le_trans filling.short wanted
  | some value =>
    exact (filling.covered position value wanted).resolve_right (by simp)

theorem Filling.setLength (filling : Filling goal pending file content) :
    Filling goal pending file (setLength pad goal.length content) := by
  refine ⟨Nat.le_of_eq (length_setLength _ _), fun position value wanted => ?_⟩
  refine (filling.covered position value wanted).imp_left fun found => ?_
  rw [getElem?_setLength, found]
  · exact (List.getElem?_eq_some_iff.mp found).1
  · exact (List.getElem?_eq_some_iff.mp wanted).1

theorem Filling.write {write : PositionedWrite File Value}
    (filling : Filling goal (write :: later) write.file content)
    (final : ∀ position value, write.Puts write.file position value →
      goal[position]? = some value) :
    Filling goal later write.file (writeAt pad write.offset write.data content) := by
  have puts {position : Nat} (begun : write.offset ≤ position)
      (inside : position < write.offset + write.data.length) :
      ∃ value, write.Puts write.file position value := by
    have within : position - write.offset < write.data.length := by omega
    exact ⟨_, rfl, begun, List.getElem?_eq_getElem within⟩
  refine ⟨?_, fun position value wanted => ?_⟩
  · by_cases empty : write.data = []
    · rw [writeAt, if_pos empty]
      exact filling.short
    · refine length_writeAt_le filling.short ?_
      have some := List.length_pos_of_ne_nil empty
      obtain ⟨last, put⟩ := @puts (write.offset + (write.data.length - 1)) (by omega) (by omega)
      have inGoal := (List.getElem?_eq_some_iff.mp (final _ last put)).1
      omega
  · by_cases inside : write.offset ≤ position ∧ position < write.offset + write.data.length
    · obtain ⟨other, put⟩ := puts inside.1 inside.2
      have same := (final position other put).symm.trans wanted
      rw [getElem?_writeAt_inside inside.1 inside.2, put.2.2]
      exact Or.inl same
    · rcases filling.covered position value wanted with found | ⟨next, listed, put⟩
      · have known := (List.getElem?_eq_some_iff.mp found).1
        rw [getElem?_writeAt_outside known (by omega), found]
        exact Or.inl rfl
      · rcases List.mem_cons.mp listed with rfl | listedLater
        · have within := (List.getElem?_eq_some_iff.mp put.2.2).1
          exact absurd ⟨put.2.1, by have := put.2.1; omega⟩ inside
        · exact Or.inr ⟨next, listedLater, put⟩

end Filling

import Mathlib

/-!
Fixed-width numerals.

`zeroPadded base width n` is the most-significant-first numeral of `n`, padded
with zeros to `width` characters.  On the numbers that fit into the width the
lexicographic order of the numerals is the order of the numbers, which is why
zero padding is used for keys that are compared as text.
-/

namespace PaddedNumeral

/-- The numeral of `n` in `width` characters; meaningful for `n < base ^ width`. -/
def zeroPadded (base : Nat) : (width : Nat) → Nat → List Char
  | 0, _ => []
  | width + 1, n => Nat.digitChar (n / base ^ width) :: zeroPadded base width (n % base ^ width)

@[simp]
theorem zeroPadded_length (base width n : Nat) :
    (zeroPadded base width n).length = width := by
  induction width generalizing n with
  | zero => rfl
  | succ width ih => simp [zeroPadded, ih]

theorem mem_zeroPadded {base width n : Nat} (fits : n < base ^ width) {char : Char}
    (listed : char ∈ zeroPadded base width n) : ∃ digit < base, char = Nat.digitChar digit := by
  induction width generalizing n with
  | zero => cases listed
  | succ width ih =>
    have positive : 0 < base ^ width := by
      apply Nat.pos_of_ne_zero
      intro zero
      simp [pow_succ, zero] at fits
    rcases List.mem_cons.mp listed with isHead | inTail
    · exact ⟨n / base ^ width, Nat.div_lt_of_lt_mul (by rwa [pow_succ] at fits), isHead⟩
    · exact ih (Nat.mod_lt n positive) inTail

theorem digitChar_lt {a b : Nat} (less : a < b) (small : b < 16) :
    Nat.digitChar a < Nat.digitChar b := by
  have table : ∀ b : Fin 16, ∀ a : Fin b, Nat.digitChar a < Nat.digitChar b := by decide
  exact table ⟨b, small⟩ ⟨a, less⟩

theorem zeroPadded_lt {base width a b : Nat} (small : base ≤ 16)
    (less : a < b) (fits : b < base ^ width) :
    zeroPadded base width a < zeroPadded base width b := by
  induction width generalizing a b with
  | zero =>
    simp only [pow_zero] at fits
    omega
  | succ width ih =>
    have positive : 0 < base ^ width := by
      apply Nat.pos_of_ne_zero
      intro zero
      simp [pow_succ, zero] at fits
    simp only [zeroPadded]
    rcases Nat.lt_or_ge (a / base ^ width) (b / base ^ width) with headLess | headGe
    · apply List.cons_lt_cons_iff.mpr
      left
      apply digitChar_lt headLess
      have bounded : b / base ^ width < base :=
        Nat.div_lt_of_lt_mul (by rwa [pow_succ] at fits)
      omega
    · have headLe : a / base ^ width ≤ b / base ^ width := Nat.div_le_div_right less.le
      have headEq : a / base ^ width = b / base ^ width := le_antisymm headLe headGe
      rw [headEq]
      apply List.cons_lt_cons_iff.mpr
      right
      refine ⟨rfl, ih ?_ (Nat.mod_lt b positive)⟩
      have splitA := Nat.div_add_mod a (base ^ width)
      have splitB := Nat.div_add_mod b (base ^ width)
      rw [headEq] at splitA
      omega

theorem zeroPadded_injective {base width a b : Nat} (small : base ≤ 16)
    (fitsA : a < base ^ width) (fitsB : b < base ^ width)
    (same : zeroPadded base width a = zeroPadded base width b) : a = b := by
  rcases Nat.lt_trichotomy a b with less | equal | greater
  · exact absurd same (ne_of_lt (zeroPadded_lt small less fitsB))
  · exact equal
  · exact absurd same.symm (ne_of_lt (zeroPadded_lt small greater fitsA))

/-- A lexicographic difference inside parts of one length decides the whole comparison. -/
theorem append_lt_append_of_lt {first second : List Char} (less : first < second)
    (sameLength : first.length = second.length) (firstTail secondTail : List Char) :
    first ++ firstTail < second ++ secondTail := by
  induction first generalizing second with
  | nil =>
    cases second with
    | nil => exact absurd less (lt_irrefl _)
    | cons head tail => simp at sameLength
  | cons head tail ih =>
    cases second with
    | nil => simp at sameLength
    | cons otherHead otherTail =>
      simp only [List.length_cons, Nat.add_right_cancel_iff] at sameLength
      simp only [List.cons_append]
      rcases List.cons_lt_cons_iff.mp less with headLess | ⟨rfl, tailLess⟩
      · exact List.cons_lt_cons_iff.mpr (Or.inl headLess)
      · exact List.cons_lt_cons_iff.mpr
          (Or.inr ⟨rfl, ih tailLess sameLength⟩)

end PaddedNumeral

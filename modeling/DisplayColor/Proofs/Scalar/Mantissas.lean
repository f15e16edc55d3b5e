import Mathlib

/-! # Mantissas with residual bits

The result of an operation is a whole number of units and two bits for what is left: the round bit
is worth half a unit, and the sticky bit tells whether anything smaller is left.  They are all that
rounding to the nearest whole number of units has to know, since they place the exact result before,
at or behind the next half. -/

namespace DisplayColor

open Float.Model.UnpackedFloat

/-! ## The mantissa -/

theorem mantissa_ofMantissaAndAccuracy (mantissa : ℕ) (accuracy : Accuracy) :
    (ExtendedMantissa.ofMantissaAndAccuracy mantissa accuracy).mantissa = mantissa := by
  match accuracy with
  | .exact | .inexact .lt | .inexact .eq | .inexact .gt => rfl

theorem mantissa_shiftRight (em : ExtendedMantissa) (shift : ℕ) :
    (em >>> shift).mantissa = em.mantissa / 2 ^ shift := by
  induction shift with
  | zero => simp [HShiftRight.hShiftRight, Nat.repeat]
  | succ shift inductionHypothesis =>
    rw [pow_succ, ← Nat.div_div_eq_div_mul, ← inductionHypothesis]
    rfl

theorem le_roundedMantissa (em : ExtendedMantissa) : em.mantissa ≤ em.roundedMantissa := by
  obtain ⟨mantissa, roundBit, stickyBit⟩ := em
  cases roundBit <;> cases stickyBit <;>
    simp [ExtendedMantissa.roundedMantissa, ExtendedMantissa.accuracy,
      Accuracy.roundToNearestEven]

theorem roundedMantissa_le_add_one (em : ExtendedMantissa) :
    em.roundedMantissa ≤ em.mantissa + 1 := by
  obtain ⟨mantissa, roundBit, stickyBit⟩ := em
  cases roundBit <;> cases stickyBit <;>
    simp [ExtendedMantissa.roundedMantissa, ExtendedMantissa.accuracy,
      Accuracy.roundToNearestEven]
  omega

/-! ## The residual bits -/

/-- What a mantissa and its round bit stand for; the bit is worth half a unit. -/
def known (em : ExtendedMantissa) : ℚ := em.mantissa + if em.roundBit then 1 / 2 else 0

/-- The mantissa and its round bit are all of the number, but for less than half a unit, and the
sticky bit is set if that is not nothing. -/
structure Locates (em : ExtendedMantissa) (x : ℚ) : Prop where
  le : known em ≤ x
  lt : x < known em + 1 / 2
  sticky : em.stickyBit ↔ known em < x

namespace Locates

variable {em : ExtendedMantissa} {x : ℚ}

theorem ofMantissa (mantissa : ℕ) : Locates (.ofMantissaAndAccuracy mantissa .exact) mantissa := by
  constructor <;> simp [known, ExtendedMantissa.ofMantissaAndAccuracy]

theorem quotient (numerator : ℕ) {denominator : ℕ} (positive : 0 < denominator) :
    Locates (.ofMantissaAndAccuracy (numerator / denominator)
      (accuracyOfFraction (numerator % denominator) denominator)) (numerator / denominator) := by
  have denominatorPos : (0 : ℚ) < denominator := Nat.cast_pos.mpr positive
  have parts : (numerator : ℚ) / denominator =
      (numerator / denominator : ℕ) + (numerator % denominator : ℕ) / denominator := by
    rw [div_eq_iff denominatorPos.ne', add_mul, div_mul_cancel₀ _ denominatorPos.ne']
    exact_mod_cast (Nat.div_add_mod' numerator denominator).symm
  have less : numerator % denominator < denominator := Nat.mod_lt _ positive
  rw [parts]
  generalize numerator / denominator = whole
  generalize numerator % denominator = rest at less ⊢
  unfold accuracyOfFraction
  split
  · rename_i nothing
    subst nothing
    constructor <;> simp [known, ExtendedMantissa.ofMantissaAndAccuracy]
  · rename_i something
    have restPos : (0 : ℚ) < rest := Nat.cast_pos.mpr (Nat.pos_of_ne_zero something)
    have fraction : (0 : ℚ) < rest / denominator := by positivity
    obtain below | half | above := lt_trichotomy (2 * rest) denominator
    · have below' : (rest : ℚ) / denominator < 1 / 2 := by
        rw [div_lt_iff₀ denominatorPos]
        have : ((2 * rest : ℕ) : ℚ) < denominator := by exact_mod_cast below
        push_cast at this
        linarith
      rw [compare_lt_iff_lt.mpr below]
      constructor <;> simp [known, ExtendedMantissa.ofMantissaAndAccuracy] <;> linarith
    · have half' : (rest : ℚ) / denominator = 1 / 2 := by
        rw [div_eq_iff denominatorPos.ne', ← half]
        push_cast
        ring
      rw [compare_eq_iff_eq.mpr half, half']
      constructor <;> simp [known, ExtendedMantissa.ofMantissaAndAccuracy]
    · have above' : 1 / 2 < (rest : ℚ) / denominator := by
        rw [lt_div_iff₀ denominatorPos]
        have : (denominator : ℚ) < (2 * rest : ℕ) := by exact_mod_cast above
        push_cast at this
        linarith
      have whole' : (rest : ℚ) / denominator < 1 := by
        rw [div_lt_one denominatorPos]
        exact_mod_cast less
      rw [compare_gt_iff_gt.mpr above]
      constructor <;> simp [known, ExtendedMantissa.ofMantissaAndAccuracy] <;> linarith

theorem known_shiftRightOne (em : ExtendedMantissa) : known em.shiftRightOne = em.mantissa / 2 := by
  have half : ((em.mantissa / 2 : ℕ) : ℚ) * 2 + (em.mantissa % 2 : ℕ) = em.mantissa := by
    exact_mod_cast Nat.div_add_mod' em.mantissa 2
  obtain even | odd := Nat.mod_two_eq_zero_or_one em.mantissa
  · rw [even] at half
    simp [known, ExtendedMantissa.shiftRightOne, even]
    linarith
  · rw [odd] at half
    simp [known, ExtendedMantissa.shiftRightOne, odd]
    linarith

theorem shiftRightOne (located : Locates em x) : Locates em.shiftRightOne (x / 2) := by
  obtain ⟨le, lt, sticky⟩ := located
  rw [known] at le lt sticky
  constructor <;> rw [known_shiftRightOne]
  · split at le <;> linarith
  · split at lt <;> linarith
  · rw [div_lt_div_iff_of_pos_right two_pos]
    simp only [ExtendedMantissa.shiftRightOne, Bool.or_eq_true, sticky]
    split at le <;> rename_i round
    · simp only [round, true_or, true_iff]
      linarith
    · simp [round]

theorem shiftRight (located : Locates em x) (shift : ℕ) :
    Locates (em >>> shift) (x / 2 ^ shift) := by
  induction shift with
  | zero => simpa [HShiftRight.hShiftRight, Nat.repeat] using located
  | succ shift inductionHypothesis =>
    have next := inductionHypothesis.shiftRightOne
    rw [div_div, ← pow_succ] at next
    exact next

theorem mantissa_le (located : Locates em x) : (em.mantissa : ℚ) ≤ x := by
  have le := located.le
  rw [known] at le
  split at le <;> linarith

theorem lt_mantissa_add_one (located : Locates em x) : x < em.mantissa + 1 := by
  have lt := located.lt
  rw [known] at lt
  split at lt <;> linarith

/-- Rounding goes past a whole number from half a unit above it on, and at the half itself if the
number is odd. -/
theorem lt_roundedMantissa_iff (located : Locates em x) {n : ℕ} :
    n < em.roundedMantissa ↔ (n : ℚ) + 1 / 2 < x ∨ (n : ℚ) + 1 / 2 = x ∧ n % 2 = 1 := by
  have lower := located.mantissa_le
  have upper := located.lt_mantissa_add_one
  obtain less | rfl | more := lt_trichotomy n em.mantissa
  · have gap : (n : ℚ) + 1 ≤ em.mantissa := by exact_mod_cast less
    exact iff_of_true (less.trans_le (le_roundedMantissa em)) (.inl (by linarith))
  · obtain ⟨le, lt, sticky⟩ := located
    obtain ⟨mantissa, roundBit, stickyBit⟩ := em
    -- The bits tell on which side of the half the number is.
    cases roundBit <;> cases stickyBit <;>
      simp [known, ExtendedMantissa.roundedMantissa, ExtendedMantissa.accuracy,
        Accuracy.roundToNearestEven] at le lt sticky ⊢ <;> grind
  · have gap : (em.mantissa : ℚ) + 1 ≤ n := by exact_mod_cast more
    refine iff_of_false (not_lt.mpr ((roundedMantissa_le_add_one em).trans more)) ?_
    rintro (beyond | ⟨half, -⟩) <;> linarith

/-- Rounding does not reach past a whole number, from above or from below. -/
theorem roundedMantissa_le (located : Locates em x) {n : ℕ} (le : x ≤ n) :
    em.roundedMantissa ≤ n := by
  by_contra! beyond
  obtain above | ⟨half, -⟩ := located.lt_roundedMantissa_iff.mp beyond <;> linarith

theorem le_roundedMantissa_of_le (located : Locates em x) {n : ℕ} (le : n ≤ x) :
    n ≤ em.roundedMantissa := by
  obtain _ | before := n
  · exact Nat.zero_le _
  · refine located.lt_roundedMantissa_iff.mpr (.inl ?_)
    push_cast at le
    linarith

end Locates

end DisplayColor

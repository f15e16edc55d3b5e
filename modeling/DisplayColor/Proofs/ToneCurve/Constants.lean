import DisplayColor.Pipeline.ToneCurve
import DisplayColor.Proofs.Scalar.Division
import DisplayColor.Proofs.Scalar.Overflow
import DisplayColor.Proofs.Scalar.WholeNumbers

/-! # When the constants of a tone curve are finite

Whatever a tone curve is made from, its luminances are finite and positive and its headroom is at
least one.  The constants derived from them are quotients, though, and these may leave the range of
single precision: a luminance far above the reference has no finite ratio to it, and two ratios that
are both infinite or both zero have no quotient.  This is all that can go wrong. -/

namespace DisplayColor

open Float.Model (Format UnpackedFloat)

namespace Single

variable {x y z : Single}

theorem isNaN_eq_false_of_isFinite (finite : Scalar.isFinite x) : Scalar.isNaN x = false := by
  by_contra undefined
  have special := isFinite_eq_false_of_isNaN (Bool.eq_true_of_not_eq_false undefined)
  exact Bool.false_ne_true (special.symm.trans finite)

/-- What lies between finite numbers is finite. -/
theorem isFinite_of_le (lower : x ≤ y) (upper : y ≤ z) (first : Scalar.isFinite x)
    (last : Scalar.isFinite z) : Scalar.isFinite y := by
  rw [isFinite_eq] at first last ⊢
  rw [le_iff] at lower upper
  generalize x.unpacked = u at lower first
  generalize y.unpacked = v at lower upper ⊢
  generalize z.unpacked = w at upper last
  cases v with
  | zero _ | finite _ _ _ _ => rfl
  | notANumber => cases w <;> cases upper
  | infinity sign =>
    cases sign with
    | positive =>
      match w with
      | .zero _ | .finite _ _ _ _ => cases upper
      | .infinity _ | .notANumber => cases last
    | negative =>
      match u with
      | .zero _ | .finite _ _ _ _ => cases lower
      | .infinity _ | .notANumber => cases first

theorem magnitude_nonneg (x : Single) : 0 ≤ x.magnitude := by
  unfold magnitude DisplayColor.magnitude
  split
  · positivity
  · exact le_refl 0

theorem isPositive_of_one_le (finite : Scalar.isFinite x) (le : 1 ≤ x) : x.IsPositive := by
  refine ⟨finite, ?_⟩
  rw [isFinite_eq] at finite
  rw [le_iff] at le
  rw [lt_iff, unpacked_zero]
  generalize x.unpacked = u at finite le ⊢
  match u with
  | .finite .positive _ _ _ => rfl
  | .finite .negative _ _ _ | .zero _ => cases le
  | .infinity _ | .notANumber => cases finite

theorem one_le_magnitude (finite : Scalar.isFinite x) (le : 1 ≤ x) : 1 ≤ x.magnitude := by
  obtain ⟨mantissa, exponent, positive, unpacked, canonical⟩ :=
    (isPositive_of_one_le finite le).exists_unpacked
  obtain ⟨m, e, mPositive, one, value⟩ := BinaryScalar.unpacked_one (α := Single)
  have beyond : IsBeyond .binary32 1 (BinaryScalar.unpacked (1 : Single)) := by
    rw [one]
    exact ⟨BinaryScalar.isCanonical 1 _ _ _ mPositive one, value.ge⟩
  have within : IsWithin .binary32 x.magnitude x.unpacked := by
    rw [magnitude, unpacked]
    exact ⟨canonical, le_refl _⟩
  have larger := isBeyond_of_le within ((le_iff 1 x).mp le) beyond
  rw [unpacked] at larger
  rw [magnitude, unpacked]
  exact larger.2

theorem max_one (defined : Scalar.isNaN x = false) (finite : Scalar.isFinite x) :
    Scalar.isFinite (Scalar.max x 1) ∧ 1 ≤ Scalar.max x 1 := by
  rw [Scalar.max, if_neg (Bool.eq_false_iff.mp defined)]
  split_ifs with small
  · exact ⟨rfl, by decide⟩
  · exact ⟨finite, le_of_not_lt defined rfl small⟩

/-- A number with a value is moved into an interval of finite numbers. -/
theorem clamp_one {hi : Single} (defined : Scalar.isNaN x = false) (finite : Scalar.isFinite hi)
    (le : 1 ≤ hi) : Scalar.isFinite (Scalar.clamp x 1 hi) ∧ 1 ≤ Scalar.clamp x 1 hi := by
  -- The lower end comes first, so what meets the upper end is never below one.
  obtain ⟨raised, raisedEq, raisedDefined, oneLe⟩ :
      ∃ raised, (if x < 1 then 1 else x) = raised ∧ Scalar.isNaN raised = false ∧ 1 ≤ raised := by
    split_ifs with small
    · exact ⟨1, rfl, rfl, by decide⟩
    · exact ⟨x, rfl, defined, le_of_not_lt defined rfl small⟩
  simp only [Scalar.clamp, raisedEq]
  split_ifs with large
  · exact ⟨finite, le⟩
  · have raisedLe := le_of_not_lt (isNaN_eq_false_of_isFinite finite) raisedDefined large
    exact ⟨isFinite_of_le oneLe raisedLe rfl finite, oneLe⟩

theorem clamp_invalid (lo hi : Single) : Scalar.clamp invalid lo hi = invalid := by
  have undefined : Scalar.isNaN invalid := by decide
  simp only [Scalar.clamp, if_neg (not_lt_of_isNaN undefined).1,
    if_neg (not_lt_of_isNaN undefined).2]

end Single

namespace ToneCurve

open Single

theorem isPositive_positiveOr (value : Single) {fallback : Single}
    (positive : fallback.IsPositive) : (positiveOr value fallback).IsPositive := by
  unfold positiveOr
  split_ifs with usable
  · exact ⟨usable.1, usable.2⟩
  · exact positive

/-- The brightest input over the reference, before it is rounded. -/
def inputRatio (curve : ToneCurve Single) : ℚ :=
  curve.maxInput.magnitude / curve.reference.magnitude

/-- The brightest output over the reference, before it is rounded. -/
def outputRatio (curve : ToneCurve Single) : ℚ :=
  curve.maxOutput.magnitude / curve.reference.magnitude

/-- The curve has usable luminances and a headroom of at least one, and its constants are derived
from them. -/
structure IsDerived (curve : ToneCurve Single) : Prop where
  reference : curve.reference.IsPositive
  maxInput : curve.maxInput.IsPositive
  maxOutput : curve.maxOutput.IsPositive
  maxHeadroom : Scalar.isFinite curve.maxHeadroom
  one_le_maxHeadroom : 1 ≤ curve.maxHeadroom
  inputRange : curve.inputRange = curve.maxInput / curve.reference
  outputRange : curve.outputRange = curve.maxOutput / curve.reference
  addedRange : curve.addedRange =
    Scalar.clamp (curve.inputRange / curve.outputRange) 1 curve.maxHeadroom
  outputReference : curve.outputReference = curve.reference / curve.addedRange

theorem isDerived_ofLuminances (reference maxInput maxOutput maxHeadroom : Single) :
    (ofLuminances reference maxInput maxOutput maxHeadroom).IsDerived := by
  have positive : (positiveOr reference fallbackReference).IsPositive :=
    isPositive_positiveOr reference ⟨by decide, by decide⟩
  have headroom : (positiveOr maxHeadroom 1).IsPositive :=
    isPositive_positiveOr maxHeadroom ⟨by decide, by decide⟩
  obtain ⟨finite, oneLe⟩ := max_one (isNaN_eq_false_of_isFinite headroom.finite) headroom.finite
  exact
    { reference := positive
      maxInput := isPositive_positiveOr maxInput positive
      maxOutput := isPositive_positiveOr maxOutput positive
      maxHeadroom := finite
      one_le_maxHeadroom := oneLe
      inputRange := rfl
      outputRange := rfl
      addedRange := rfl
      outputReference := rfl }

/-- Both ratios are rounded to infinity, or both to zero. -/
def RatiosLeaveTogether (curve : ToneCurve Single) : Prop :=
  (overflowBound .binary32 ≤ curve.inputRatio ∧ overflowBound .binary32 ≤ curve.outputRatio) ∨
    (curve.inputRatio ≤ underflowBound .binary32 ∧ curve.outputRatio ≤ underflowBound .binary32)

namespace IsDerived

variable {curve : ToneCurve Single} (derived : curve.IsDerived)

include derived

theorem stored_inputRange :
    Stored .binary32 .positive curve.inputRatio curve.inputRange.unpacked := by
  rw [derived.inputRange]
  exact derived.maxInput.stored_div derived.reference

theorem stored_outputRange :
    Stored .binary32 .positive curve.outputRatio curve.outputRange.unpacked := by
  rw [derived.outputRange]
  exact derived.maxOutput.stored_div derived.reference

/-- Ratios that leave the range together have no quotient, and what is computed with it has no value
either. -/
theorem undefined (together : curve.RatiosLeaveTogether) :
    curve.addedRange = invalid ∧ curve.outputReference = invalid := by
  have quotient : curve.inputRange / curve.outputRange = invalid := by
    obtain ⟨large, large'⟩ | ⟨small, small'⟩ := together
    · exact div_of_overflowed derived.stored_inputRange derived.stored_outputRange large large'
    · exact div_of_vanished derived.stored_inputRange derived.stored_outputRange small small'
  have added : curve.addedRange = invalid := by
    rw [derived.addedRange, quotient, clamp_invalid]
  refine ⟨added, ?_⟩
  rw [derived.outputReference, added]
  exact div_invalid (isNaN_eq_false_of_isFinite derived.reference.finite)

/-- The reference is divided by at least one, so it stays in the range. -/
theorem defined (apart : ¬ curve.RatiosLeaveTogether) : Scalar.isFinite curve.addedRange ∧
    1 ≤ curve.addedRange ∧ Scalar.isFinite curve.outputReference := by
  obtain ⟨large, small⟩ := not_or.mp apart
  have quotient := isNaN_div derived.stored_inputRange derived.stored_outputRange large small
  obtain ⟨finite, oneLe⟩ := clamp_one quotient derived.maxHeadroom derived.one_le_maxHeadroom
  rw [← derived.addedRange] at finite oneLe
  have stored := derived.reference.stored_div (isPositive_of_one_le finite oneLe)
  have dimmed : curve.reference.magnitude / curve.addedRange.magnitude ≤
      curve.reference.magnitude :=
    div_le_self (magnitude_nonneg _) (one_le_magnitude finite oneLe)
  refine ⟨finite, oneLe, ?_⟩
  rw [derived.outputReference, isFinite_eq]
  exact (stored.isFinite_iff (by decide)).mpr (dimmed.trans_lt (magnitude_lt _))

theorem isFinite_inputRange_iff :
    Scalar.isFinite curve.inputRange ↔ curve.inputRatio < overflowBound .binary32 := by
  rw [isFinite_eq]
  exact derived.stored_inputRange.isFinite_iff (by decide)

theorem isFinite_outputRange_iff :
    Scalar.isFinite curve.outputRange ↔ curve.outputRatio < overflowBound .binary32 := by
  rw [isFinite_eq]
  exact derived.stored_outputRange.isFinite_iff (by decide)

end IsDerived

/-- Which constants are finite.  The interval that `addedRange` is moved into is never empty. -/
theorem isFinite_constants_iff (reference maxInput maxOutput maxHeadroom : Single) :
    let curve := ofLuminances reference maxInput maxOutput maxHeadroom
    1 ≤ curve.maxHeadroom ∧
      (Scalar.isFinite curve.inputRange ↔ curve.inputRatio < overflowBound .binary32) ∧
      (Scalar.isFinite curve.outputRange ↔ curve.outputRatio < overflowBound .binary32) ∧
      (Scalar.isFinite curve.addedRange ↔ ¬ curve.RatiosLeaveTogether) ∧
      (1 ≤ curve.addedRange ↔ ¬ curve.RatiosLeaveTogether) ∧
      (Scalar.isFinite curve.outputReference ↔ ¬ curve.RatiosLeaveTogether) := by
  intro curve
  have derived : curve.IsDerived := isDerived_ofLuminances ..
  refine ⟨derived.one_le_maxHeadroom, derived.isFinite_inputRange_iff,
    derived.isFinite_outputRange_iff, ?_⟩
  by_cases together : curve.RatiosLeaveTogether
  · obtain ⟨added, dimmed⟩ := derived.undefined together
    rw [added, dimmed]
    simp only [together, not_true_eq_false, iff_false]
    decide
  · obtain ⟨finite, oneLe, dimmed⟩ := derived.defined together
    exact ⟨iff_of_true finite together, iff_of_true oneLe together, iff_of_true dimmed together⟩

/-- A dim reference below two bright bounds: both ratios are infinite, and they have no quotient. -/
theorem not_isFinite_constants : ¬ ∀ reference maxInput maxOutput maxHeadroom : Single,
    let curve := ofLuminances reference maxInput maxOutput maxHeadroom
    Scalar.isFinite curve.inputRange ∧ Scalar.isFinite curve.outputRange ∧
      Scalar.isFinite curve.addedRange ∧ 1 ≤ curve.addedRange ∧
      Scalar.isFinite curve.outputReference := by
  intro finite
  exact absurd (finite 1e-30 1e30 1e30 1.5) (by decide +kernel)

/-! ## Luminances that occur -/

/-- A luminance of anything that is shown or seen, with a wide margin. -/
def IsModerate (luminance : Single) : Prop :=
  1 / 2 ^ 60 ≤ luminance.magnitude ∧ luminance.magnitude ≤ 2 ^ 60

theorem IsModerate.ratio {x y : Single} (dividend : IsModerate x) (divisor : IsModerate y) :
    underflowBound .binary32 < x.magnitude / y.magnitude ∧
      x.magnitude / y.magnitude < overflowBound .binary32 := by
  obtain ⟨xLarge, xSmall⟩ := dividend
  obtain ⟨yLarge, ySmall⟩ := divisor
  have positive : 0 < y.magnitude := lt_of_lt_of_le (by positivity) yLarge
  rw [underflowBound_binary32, overflowBound_binary32, lt_div_iff₀ positive,
    div_lt_iff₀ positive]
  norm_num at xLarge xSmall yLarge ySmall ⊢
  constructor <;> linarith

/-- Between moderate luminances nothing leaves the range. -/
theorem IsDerived.isFinite_constants {curve : ToneCurve Single} (derived : curve.IsDerived)
    (reference : IsModerate curve.reference) (maxInput : IsModerate curve.maxInput)
    (maxOutput : IsModerate curve.maxOutput) :
    Scalar.isFinite curve.inputRange ∧ Scalar.isFinite curve.outputRange ∧
      Scalar.isFinite curve.addedRange ∧ 1 ≤ curve.addedRange ∧
      Scalar.isFinite curve.outputReference := by
  obtain ⟨large, small⟩ := maxInput.ratio reference
  obtain ⟨-, smallOutput⟩ := maxOutput.ratio reference
  have apart : ¬ curve.RatiosLeaveTogether := by
    rintro (⟨overflowed, -⟩ | ⟨vanished, -⟩)
    · exact absurd small (not_lt.mpr overflowed)
    · exact absurd large (not_lt.mpr vanished)
  exact ⟨derived.isFinite_inputRange_iff.mpr small,
    derived.isFinite_outputRange_iff.mpr smallOutput, derived.defined apart⟩

end ToneCurve

end DisplayColor

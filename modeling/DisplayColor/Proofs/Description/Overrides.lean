import DisplayColor.Proofs.Description.Notation
import DisplayColor.Proofs.Extended

/-! # White stays on white

The luminances that are set beside a written description may be anything, also infinite, undefined
or negative.  In exact arithmetic with special values, whatever they are: a curve of relative light
ends at the reference, so signal one is diffuse white, the other curves keep their own range, a peak
that is of use is taken over, and no average is above the peak. -/

namespace DisplayColor

open Extended (literal literal_zero literal_one add_real sub_real mul_real div_real one_pow)

/-! ## Curves of relative light -/

namespace Curve

variable {curve : Curve}

/-- The curves whose range follows the reference. -/
def IsRelative (curve : Curve) : Prop := curve = .linear ∨ curve = .srgb ∨ curve = .gamma22

theorem decode_one (relative : curve.IsRelative) : curve.decode (1 : Extended) = 1 := by
  rw [literal_one]
  obtain rfl | rfl | rfl := relative
  · rfl
  · have bright : ¬ ((1 : ℝ) : Extended) ≤ ((4045e-5 : ℝ) : Extended) := by
      rw [Extended.le_real]
      norm_num
    have one : ((1 : ℝ) + 55e-3) / 1055e-3 = 1 := by norm_num
    show (if ((1 : ℝ) : Extended) ≤ ((4045e-5 : ℝ) : Extended) then _
      else Scalar.pow ((((1 : ℝ) : Extended) + ((55e-3 : ℝ) : Extended))
        / ((1055e-3 : ℝ) : Extended)) _) = _
    rw [if_neg bright, add_real, div_real _ (by norm_num), one, one_pow]
  · show Scalar.signum ((1 : ℝ) : Extended) * Scalar.pow (Scalar.abs ((1 : ℝ) : Extended)) _ = _
    have sign : Scalar.signum ((1 : ℝ) : Extended) = ((1 : ℝ) : Extended) := by
      rw [Scalar.signum, Extended.isNaN_real, Extended.isMinus_real, literal_one]
      norm_num
    rw [sign, Extended.abs_real, abs_one, one_pow, mul_real, mul_one]

/-- Signal one stands for diffuse white. -/
theorem defaultReference_eq (relative : curve.IsRelative) :
    (curve.defaultReference : Extended) = curve.defaultMax := by
  obtain rfl | rfl | rfl := relative <;> rfl

theorem exists_defaultMax (curve : Curve) :
    ∃ max : ℝ, 0 < max ∧ (curve.defaultMax : Extended) = max := by
  cases curve with
  | linear => exact ⟨_, by norm_num, literal 1⟩
  | srgb | gamma22 => exact ⟨_, by norm_num, literal 80⟩
  | pq => exact ⟨_, by norm_num, literal 10000⟩
  | hlg => exact ⟨_, by norm_num, literal 1000⟩

end Curve

namespace TransferFunction

variable {curve : Curve} {max factor : ℝ}

theorem scaled_ofCurve (isMax : (curve.defaultMax : Extended) = max) (positive : 0 < max)
    (factorPos : 0 < factor) : (ofCurve curve).scaled (factor : Extended) =
      ⟨curve, ((0 : ℝ) : Extended), ((max * factor : ℝ) : Extended)⟩ := by
  have zero : (curve.defaultMin : Extended) = ((0 : ℝ) : Extended) := literal_zero
  have used : ¬ ((!Scalar.isFinite (factor : Extended)) = true ∨ (factor : Extended) ≤ 0) := by
    rw [literal_zero, Extended.le_real]
    simp [factorPos]
  have product : 0 < max * factor := mul_pos positive factorPos
  rw [scaled, if_neg used, withRange]
  simp only [ofCurve, zero, isMax, mul_real, zero_mul, Extended.isFinite_real, Extended.lt_real,
    true_and, if_pos product]

theorem decode_one_scaled (relative : curve.IsRelative)
    (isMax : (curve.defaultMax : Extended) = max) (positive : 0 < max)
    (factorPos : 0 < factor) :
    ((ofCurve curve).scaled (factor : Extended)).decode 1 = ((max * factor : ℝ) : Extended) := by
  rw [scaled_ofCurve isMax positive factorPos, decode, Curve.decode_one relative,
    literal_one, sub_real, mul_real, add_real, sub_zero, one_mul, add_zero]

end TransferFunction

namespace Description

theorem isLuminance_extended (x : ℝ) : isLuminance (x : Extended) ↔ 0 < x := by
  rw [isLuminance, Extended.isFinite_real, Bool.true_and, decide_eq_true_iff, literal_zero,
    Extended.lt_real]

theorem exists_of_isLuminance {z : Extended} (usable : isLuminance z) :
    ∃ x : ℝ, 0 < x ∧ z = x := by
  obtain ⟨finite, -⟩ := Bool.and_eq_true_iff.mp usable
  obtain ⟨x, rfl⟩ := Extended.isFinite_iff.mp finite
  exact ⟨x, (isLuminance_extended x).mp usable, rfl⟩

theorem reference_ofNames (names : Names) :
    (ofNames names : Description Extended Extended).reference = names.curve.defaultReference :=
  ite_self _

section Scale

variable {base : Description Extended Extended}

theorem referenceScale_of_absolute
    (absolute : base.transfer.curve = .pq ∨ base.transfer.curve = .hlg)
    (reference : Option Extended) : base.referenceScale reference = 1 := by
  obtain same | same := absolute <;> simp only [referenceScale, same]

theorem referenceScale_none (relative : base.transfer.curve.IsRelative) :
    base.referenceScale none = 1 := by
  obtain same | same | same := relative <;> simp only [referenceScale, same]

theorem referenceScale_some (relative : base.transfer.curve.IsRelative) (reference : Extended) :
    base.referenceScale (some reference) =
      if isLuminance reference then reference / base.reference else 1 := by
  obtain same | same | same := relative <;> simp only [referenceScale, same]

end Scale

/-- How much a curve of relative light is scaled, and where white is then. -/
theorem exists_scale (names : Names) (relative : names.curve.IsRelative) {max : ℝ}
    (isMax : (names.curve.defaultMax : Extended) = max) (positive : 0 < max)
    (overrides : LuminanceOverrides Extended) :
    let base : Description Extended Extended := ofNames names
    ∃ factor : ℝ, 0 < factor ∧ base.referenceScale overrides.reference = factor ∧
      (base.override overrides).reference = ((max * factor : ℝ) : Extended) := by
  intro base
  have white : base.reference = (max : Extended) := by
    rw [reference_ofNames, Curve.defaultReference_eq relative, isMax]
  have reference : (base.override overrides).reference =
      if isLuminance (overrides.reference.getD base.reference) then
        overrides.reference.getD base.reference
      else max := by
    have fallback : (base.transfer.scaled (base.referenceScale overrides.reference)).curve =
        names.curve := TransferFunction.curve_scaled _ _
    rw [← isMax, ← Curve.defaultReference_eq relative, ← fallback]
    rfl
  rw [reference]
  cases overrides.reference with
  | none =>
    refine ⟨1, one_pos, (referenceScale_none relative).trans literal_one, ?_⟩
    rw [Option.getD_none, white, ite_self, mul_one]
  | some chosen =>
    rw [referenceScale_some relative, Option.getD_some]
    by_cases usable : isLuminance chosen
    · obtain ⟨x, xPos, rfl⟩ := exists_of_isLuminance usable
      refine ⟨x / max, div_pos xPos positive, ?_, ?_⟩
      · rw [if_pos usable, white, div_real _ positive.ne']
      · rw [if_pos usable, mul_div_cancel₀ _ positive.ne']
    · -- A reference that is refused is as good as none, for the scale and for white.
      refine ⟨1, one_pos, ?_, ?_⟩
      · rw [if_neg usable, literal_one]
      · rw [if_neg usable, mul_one]

theorem peak_override (base : Description Extended Extended)
    {overrides : LuminanceOverrides Extended} {peak : Extended}
    (given : overrides.max = some peak) (usable : isLuminance peak) :
    (base.override overrides).peak = some peak := by
  show Option.filter isLuminance (overrides.max <|> _) = some peak
  rw [given]
  exact Option.filter_some_pos usable

/-- Whatever the average is, if what is taken for it is of use, it is not above the peak. -/
theorem min_le {average peak : Extended} (usable : isLuminance peak)
    (kept : isLuminance (Scalar.min average peak)) : Scalar.min average peak ≤ peak := by
  obtain ⟨y, -, rfl⟩ := exists_of_isLuminance usable
  -- An undefined average gives way to the peak, and an infinite one is either above it or refused.
  unfold Scalar.min at kept ⊢
  split_ifs at kept ⊢ with undefined less
  · exact Extended.le_real.mpr le_rfl
  · exact Extended.le_real.mpr le_rfl
  · obtain ⟨x, -, rfl⟩ := exists_of_isLuminance kept
    rw [Extended.lt_real] at less
    exact Extended.le_real.mpr (not_lt.mp less)

theorem average_le_peak (base : Description Extended Extended)
    (overrides : LuminanceOverrides Extended) {average peak : Extended}
    (hasAverage : (base.override overrides).maxAverage = some average)
    (hasPeak : (base.override overrides).peak = some peak) : average ≤ peak := by
  obtain ⟨chosen, usable⟩ := Option.filter_eq_some_iff.mp hasPeak
  obtain ⟨shown, kept⟩ := Option.filter_eq_some_iff.mp hasAverage
  rw [chosen] at shown
  obtain ⟨scaled, -, rfl⟩ := Option.map_eq_some_iff.mp shown
  exact min_le usable kept

/-- For every text that is read and all luminances that are set beside it. -/
theorem read_keeps_white {text : String} {overrides : LuminanceOverrides Extended}
    {d : Description Extended Extended} (accepted : read text overrides = .ok d) :
    (d.transfer.curve.IsRelative → d.transfer.decode 1 = d.reference) ∧
      (d.transfer.curve = .pq ∨ d.transfer.curve = .hlg →
        d.transfer = .ofCurve d.transfer.curve) ∧
      (∀ max, overrides.max = some max → isLuminance max → d.peak = some max) ∧
      ∀ average peak, d.maxAverage = some average → d.peak = some peak → average ≤ peak := by
  obtain ⟨names, -, rfl⟩ := exists_denotes_of_read accepted
  obtain ⟨max, positive, isMax⟩ := names.curve.exists_defaultMax
  let base : Description Extended Extended := ofNames names
  have curve : (base.override overrides).transfer.curve = names.curve := curve_override _ _
  have transfer : (base.override overrides).transfer =
      (TransferFunction.ofCurve names.curve).scaled (base.referenceScale overrides.reference) := rfl
  rw [curve]
  refine ⟨fun relative => ?_, fun absolute => ?_, fun chosen given usable => ?_, ?_⟩
  · obtain ⟨factor, factorPos, scale, reference⟩ :=
      exists_scale names relative isMax positive overrides
    rw [reference, transfer, scale]
    exact TransferFunction.decode_one_scaled relative isMax positive factorPos
  · have scale : base.referenceScale overrides.reference = ((1 : ℝ) : Extended) :=
      (referenceScale_of_absolute absolute _).trans literal_one
    rw [transfer, scale, TransferFunction.scaled_ofCurve isMax positive one_pos, mul_one, ← isMax,
      ← literal_zero]
    rfl
  · exact peak_override _ given usable
  · intro average peak hasAverage hasPeak
    exact average_le_peak _ _ hasAverage hasPeak

/-- A brighter white, no black level and a dim peak. -/
theorem read_keeps_white_dimmed :
    let overrides : LuminanceOverrides Extended :=
      { reference := some 200, min := some .undefined, max := some 100 }
    ∃ d : Description Extended Extended, read "sRGB" overrides = .ok d ∧
      d.transfer.decode 1 = d.reference ∧ d.peak = some 100 ∧
      ∀ average, d.maxAverage = some average → average ≤ 100 := by
  intro overrides
  have denotes : Denotes "sRGB" ⟨.bt709, .gamma22⟩ := .preset (by decide +kernel)
  have accepted := read_of_denotes (α := Extended) (ω := Extended) denotes overrides
  obtain ⟨white, -, peak, average⟩ := read_keeps_white accepted
  have relative : Curve.IsRelative .gamma22 := .inr (.inr rfl)
  rw [curve_override] at white
  have bright : isLuminance (100 : Extended) := by
    rw [literal 100, isLuminance_extended]
    norm_num
  have brightest := peak 100 rfl bright
  exact ⟨_, accepted, white relative, brightest, fun _ shown => average _ _ shown brightest⟩

end Description

end DisplayColor

import DisplayColor.Proofs.Description.LightConversion
import DisplayColor.Proofs.Fusion.Seams

/-! # Conversions to a brighter self

When all luminances of a description are scaled, the conversion between the two is a gain, whatever
is done about white and black.  A gain close to one is dropped and any other goes into the transfer
function, and both leave something that the transfer function of the target undoes: here equality
up to a tolerance is needed, since the function that is left is not always the one it meets.
Highlights are never mapped, because the peak moves with everything else. -/

namespace DisplayColor

theorem Mat4.uniform_mul_translation (gain : ℝ) (offset : Vec3 ℝ) :
    uniform gain * translation offset = translation (offset * gain) * uniform gain := by
  ext <;> simp [mul_eq, product, transpose, uniform, scaling, ofLinear, translation, affine,
    Mat3.identity, Mat3.diagonal, Vec4.dot, Vec3.splat, Vec3.scale_eq, mul_comm]

namespace Description

/-- The description with every luminance scaled. -/
noncomputable def brightened (d : Description ℝ ℝ) (gain : ℝ) : Description ℝ ℝ :=
  repaired d.colorimetry (d.transfer.scaled gain) (d.reference * gain) (d.min * gain)
    (d.maxAverage.map (· * gain)) (d.peak.map (· * gain))

variable {d : Description ℝ ℝ} {gain : ℝ}

theorem IsRegular.bounds (regular : d.IsRegular) :
    0 ≤ d.min ∧ (∀ x ∈ d.maxAverage, 0 < x) ∧ ∀ x ∈ d.peak, 0 < x := by
  obtain ⟨colorimetry, transfer, reference, min, maxAverage, peak, rfl⟩ := regular.repaired
  exact repaired_bounds colorimetry transfer reference min maxAverage peak

theorem filter_isLuminance_map (positive : 0 < gain) {bound : Option ℝ}
    (isPositive : ∀ x ∈ bound, 0 < x) :
    (bound.map (· * gain)).filter isLuminance = bound.map (· * gain) := by
  cases bound with
  | none => rfl
  | some x =>
    have luminance := isLuminance_real.mpr (mul_pos (isPositive x rfl) positive)
    simp [luminance]

/-- Scaled luminances need no repair. -/
theorem brightened_eq (regular : d.IsRegular) (positive : 0 < gain) :
    d.brightened gain =
      ⟨d.colorimetry, d.transfer.scaled gain, d.reference * gain, d.min * gain,
        d.maxAverage.map (· * gain), d.peak.map (· * gain)⟩ := by
  obtain ⟨referencePositive, below⟩ := regular.luminances
  obtain ⟨minNonneg, averages, peaks⟩ := regular.bounds
  have reference := isLuminance_real.mpr (mul_pos referencePositive positive)
  have black : 0 ≤ d.min * gain ∧ d.min * gain < d.reference * gain :=
    ⟨mul_nonneg minNonneg positive.le, mul_lt_mul_of_pos_right below positive⟩
  simp [brightened, repaired, reference, black, filter_isLuminance_map positive averages,
    filter_isLuminance_map positive peaks]

theorem maxLuminance_brightened (regular : d.IsRegular) (positive : 0 < gain) :
    (d.brightened gain).maxLuminance = d.maxLuminance * gain := by
  rw [brightened_eq regular positive, maxLuminance, maxLuminance]
  cases d.peak <;> rfl

theorem maxLuminance_pos (regular : d.IsRegular) : 0 < d.maxLuminance := by
  obtain ⟨colorimetry, transfer, reference, min, maxAverage, peak, rfl⟩ := regular.repaired
  exact repaired_maxLuminance_pos colorimetry transfer reference min maxAverage peak

theorem gamutConversion_brightened (regular : d.IsRegular) (positive : 0 < gain) (intent : Intent) :
    d.gamutConversion (d.brightened gain) intent = 1 := by
  rw [brightened_eq regular positive]
  exact gamutConversion_self regular intent

theorem restoration_brightened (regular : d.IsRegular) (positive : 0 < gain) :
    (d.brightened gain).restoration = Mat4.uniform gain * d.restoration := by
  have span : d.reference * gain - d.min * gain = gain * (d.reference - d.min) := by ring
  have offset : Vec3.splat (d.min * gain) = Vec3.splat d.min * gain := rfl
  rw [brightened_eq regular positive, restoration, restoration, ← mul_assoc,
    Mat4.uniform_mul_translation, mul_assoc, Mat4.uniform_mul, span, offset]

/-- Whatever the intent, light is scaled. -/
theorem wideConversion_brightened (regular : d.IsRegular) (positive : 0 < gain) (intent : Intent) :
    d.wideConversion (d.brightened gain) intent = Mat4.uniform gain := by
  have gamut := gamutConversion_brightened regular positive intent
  by_cases compensates : intent.compensatesBlack
  · -- The span from black to white is normalized and then restored, only brighter.
    rw [wideConversion_eq_of_compensatesBlack compensates, gamut, mul_one,
      restoration_brightened regular positive, mul_assoc, regular.restoration_mul_normalization,
      mul_one]
  · have ratio : d.reference * gain / d.reference = gain :=
      mul_div_cancel_left₀ gain regular.luminances.1.ne'
    rw [wideConversion_eq_of_not_compensatesBlack compensates, gamut, one_mul,
      brightened_eq regular positive, ratio]

/-- The range of the light, which follows the gain wherever it goes. -/
theorem lightConversion_brightened_output (regular : d.IsRegular)
    (curve : d.transfer.curve ≠ .linear) (positive : 0 < gain) (intent : Intent) :
    (Pipeline.lightConversion d (d.brightened gain) intent).output.max =
      d.transfer.decode (d.transfer.encode d.maxLuminance) *
        if |gain - 1| ≤ 1e-5 then 1 else gain := by
  have decoded := Pipeline.latestFirst_addDecode_empty (ω := ℝ) (Pipeline.conversionInput d) curve
  have light : d.lightConversion (d.brightened gain) intent = Mat4.uniform gain :=
    wideConversion_brightened regular positive intent
  have added := Pipeline.latestFirst_addMatrix_uniform decoded positive
  rw [Pipeline.lightConversion, light, Pipeline.output]
  simp only [Pipeline.conversionInput] at added decoded
  simp only [added, decoded]
  split
  · exact (mul_one _).symm
  · rfl

/-- The peak moves with everything else, so there is nothing to tone map. -/
theorem not_needsToneMapping_brightened (regular : d.IsRegular)
    (curve : d.transfer.curve ≠ .linear)
    (peak : d.transfer.decode (d.transfer.encode d.maxLuminance) ≤ d.maxLuminance)
    (positive : 0 < gain) (intent : Intent) :
    ¬ Pipeline.needsToneMapping .standard intent
      (Pipeline.lightConversion d (d.brightened gain) intent).output.max
      (d.brightened gain).maxLuminance := by
  have bright := maxLuminance_pos regular
  have threshold : (Settings.standard : Settings ℝ).threshold = 1.01 := rfl
  have within : (Pipeline.lightConversion d (d.brightened gain) intent).output.max ≤
      (d.brightened gain).maxLuminance * 1.01 := by
    rw [maxLuminance_brightened regular positive,
      lightConversion_brightened_output regular curve positive]
    split
    · -- The peak of the target has moved and that of the light has not, but by less than what
      -- is tolerated before highlights are mapped.
      rename_i close
      have lower : 1 - 1e-5 ≤ gain := by linarith [(abs_le.mp close).1]
      calc d.transfer.decode (d.transfer.encode d.maxLuminance) * 1
        _ ≤ d.maxLuminance * ((1 - 1e-5) * 1.01) := by
          rw [mul_one]
          exact peak.trans (le_mul_of_one_le_right bright.le (by norm_num))
        _ ≤ d.maxLuminance * (gain * 1.01) := by gcongr
        _ = d.maxLuminance * gain * 1.01 := (mul_assoc _ _ _).symm
    · calc d.transfer.decode (d.transfer.encode d.maxLuminance) * gain
        _ ≤ d.maxLuminance * gain := mul_le_mul_of_nonneg_right peak positive.le
        _ ≤ d.maxLuminance * gain * 1.01 :=
          le_mul_of_one_le_right (mul_pos bright positive).le (by norm_num)
  simp only [Pipeline.needsToneMapping, Bool.and_eq_true, decide_eq_true_eq, threshold]
  rintro ⟨_, exceeds⟩
  exact absurd exceeds (not_lt.mpr within)

/-- The conversion to a description with all luminances scaled by the same factor does nothing. -/
theorem conversion_brightened (regular : d.IsRegular) (increasing : d.transfer.IsIncreasing)
    (curve : d.transfer.curve ≠ .linear)
    (peak : d.transfer.decode (d.transfer.encode d.maxLuminance) ≤ d.maxLuminance)
    (positive : 0 < gain) (intent : Intent) :
    (Pipeline.conversion d (d.brightened gain) intent .standard).steps = [] := by
  have transfer : (d.brightened gain).transfer = d.transfer.scaled gain := rfl
  have target : (d.brightened gain).transfer.curve ≠ .linear := by
    rwa [transfer, TransferFunction.curve_scaled]
  have encodes := Pipeline.encodes_conversion curve target
    (not_needsToneMapping_brightened regular curve peak positive intent)
  have light : d.lightConversion (d.brightened gain) intent = Mat4.uniform gain :=
    wideConversion_brightened regular positive intent
  rw [light, TransferFunction.withLinear_uniform positive, transfer] at encodes
  have nothing : (Pipeline.conversion d (d.brightened gain) intent .standard).stack = [] := by
    refine encodes.nothing ⟨rfl, ?_⟩
    unfold TransferFunction.afterGain
    split
    · -- The gain was dropped, so the two functions are equal up to the tolerance only.
      rename_i close
      exact TransferFunction.beq_scaled increasing positive (close.trans (by norm_num))
    · exact TransferFunction.beq_self _
  rw [Pipeline.steps, List.map_eq_nil_iff.mp nothing, List.reverse_nil]

theorem maxLuminance_equalEnergyDisplay : equalEnergyDisplay.maxLuminance = 80 :=
  reference_repaired (by norm_num) _ _ _ _ _

theorem decode_encode_equalEnergyDisplay :
    equalEnergyDisplay.transfer.decode (equalEnergyDisplay.transfer.encode 80) = 80 := by
  have white : (80 - 0 : ℝ) / (80 - 0) = 1 := by norm_num
  have encoded : Srgb.encode (1 : ℝ) = 1 := by
    norm_num [Srgb.encode, Scalar.pow]
  have decoded : Srgb.decode (1 : ℝ) = 1 := by
    norm_num [Srgb.decode, Scalar.pow]
  have transfer : equalEnergyDisplay.transfer = ⟨.srgb, 0, 80⟩ := by
    simp [equalEnergyDisplay, repaired, TransferFunction.ofCurve, Curve.defaultMin,
      Curve.defaultMax]
  simp only [transfer, TransferFunction.encode, TransferFunction.decode, Curve.encode,
    Curve.decode, white, encoded, decoded]
  norm_num

theorem conversion_brightened_equalEnergyDisplay :
    (Pipeline.conversion equalEnergyDisplay (equalEnergyDisplay.brightened 1.1) .perceptual
      .standard).steps = [] := by
  refine conversion_brightened isRegular_equalEnergyDisplay
    (TransferFunction.isIncreasing_ofCurve .srgb) (by decide) ?_ (by norm_num) .perceptual
  rw [maxLuminance_equalEnergyDisplay, decode_encode_equalEnergyDisplay]

end Description

end DisplayColor

import DisplayColor.Proofs.Gamut.Conversion
import DisplayColor.Pipeline.Description

/-! # Conversions of light

In exact arithmetic the conversions of light between descriptions compose, and they say of every
grey where it goes.

A conversion is made of parts that belong to the source and parts that belong to the target.  Where
black is compensated, light is brought to the unit interval before the gamuts are converted and from
there to the luminances of the target afterwards, so what the target does last is undone first when
the target is the source of the next conversion.  Where it is not, there is one gain for all
channels, which may change places with the conversion of the gamuts. -/

namespace DisplayColor

theorem Curve.defaultReference_pos (curve : Curve) : (0 : ℝ) < curve.defaultReference := by
  cases curve <;> simp only [defaultReference, Scalar.literal_one] <;> norm_num

namespace Description

theorem isLuminance_real {x : ℝ} : isLuminance x ↔ 0 < x := by
  simp [isLuminance]

theorem reference_repaired {reference : ℝ} (positive : 0 < reference)
    (colorimetry : Colorimetry ℝ ℝ) (transfer : TransferFunction ℝ) (min : ℝ)
    (maxAverage peak : Option ℝ) :
    (repaired colorimetry transfer reference min maxAverage peak).reference = reference :=
  if_pos (isLuminance_real.mpr positive)

/-- A description that can be converted to and from: its luminances were repaired and its
colorimetry is regular. -/
structure IsRegular (d : Description ℝ ℝ) : Prop where
  repaired : ∃ colorimetry transfer reference min maxAverage peak,
    d = repaired colorimetry transfer reference min maxAverage peak
  colorimetry : d.colorimetry.IsRegular

/-- Repair leaves a positive reference with black below it. -/
theorem repaired_luminances (colorimetry : Colorimetry ℝ ℝ) (transfer : TransferFunction ℝ)
    (reference min : ℝ) (maxAverage peak : Option ℝ) :
    0 < (repaired colorimetry transfer reference min maxAverage peak).reference ∧
      (repaired colorimetry transfer reference min maxAverage peak).min <
        (repaired colorimetry transfer reference min maxAverage peak).reference := by
  have positive : 0 < (repaired colorimetry transfer reference min maxAverage peak).reference := by
    simp only [repaired]
    split
    · rename_i luminance
      simpa [isLuminance] using luminance
    · exact Curve.defaultReference_pos transfer.curve
  refine ⟨positive, ?_⟩
  simp only [repaired] at positive ⊢
  -- What the reference is repaired to does not matter any more, only that it is positive.
  generalize (if isLuminance reference then reference else transfer.defaultReference) = kept
    at positive ⊢
  split
  · rename_i black
    exact black.2.2
  · simpa using positive

/-- Repair leaves no negative black level and no peak that is not positive. -/
theorem repaired_bounds (colorimetry : Colorimetry ℝ ℝ) (transfer : TransferFunction ℝ)
    (reference min : ℝ) (maxAverage peak : Option ℝ) :
    0 ≤ (repaired colorimetry transfer reference min maxAverage peak).min ∧
      (∀ x ∈ (repaired colorimetry transfer reference min maxAverage peak).maxAverage, 0 < x) ∧
      ∀ x ∈ (repaired colorimetry transfer reference min maxAverage peak).peak, 0 < x := by
  refine ⟨?_, ?_, ?_⟩
  · simp only [repaired]
    generalize (if isLuminance reference then reference else transfer.defaultReference) = white
    split
    · rename_i black
      simpa using black.2.1
    · exact Scalar.literal_zero.ge
  · intro x kept
    exact isLuminance_real.mp (Option.mem_filter_iff.mp kept).2
  · intro x kept
    exact isLuminance_real.mp (Option.mem_filter_iff.mp kept).2

theorem repaired_maxLuminance_pos (colorimetry : Colorimetry ℝ ℝ) (transfer : TransferFunction ℝ)
    (reference min : ℝ) (maxAverage bound : Option ℝ) :
    0 < (repaired colorimetry transfer reference min maxAverage bound).maxLuminance := by
  rw [maxLuminance]
  cases known : (repaired colorimetry transfer reference min maxAverage bound).peak with
  | none => exact (repaired_luminances ..).1
  | some x => exact (repaired_bounds ..).2.2 x known

theorem IsRegular.luminances {d : Description ℝ ℝ} (regular : d.IsRegular) :
    0 < d.reference ∧ d.min < d.reference := by
  obtain ⟨colorimetry, transfer, reference, min, maxAverage, peak, rfl⟩ := regular.repaired
  exact repaired_luminances colorimetry transfer reference min maxAverage peak

/-- Brings light from the luminances of a description to the unit interval. -/
noncomputable def normalization (d : Description ℝ ℝ) : Mat4 ℝ :=
  Mat4.uniform (1 / (d.reference - d.min)) * Mat4.translation (Vec3.splat (-d.min))

noncomputable def restoration (d : Description ℝ ℝ) : Mat4 ℝ :=
  Mat4.translation (Vec3.splat d.min) * Mat4.uniform (d.reference - d.min)

/-- The part of a conversion that is about gamuts. -/
noncomputable def gamutConversion (a b : Description ℝ ℝ) (intent : Intent) : Mat4 ℝ :=
  Mat4.ofLinear (a.colorimetry.wideConversion b.colorimetry intent)

variable {a b c : Description ℝ ℝ} {intent : Intent}

theorem wideConversion_eq_of_compensatesBlack (compensates : intent.compensatesBlack)
    (a b : Description ℝ ℝ) :
    a.wideConversion b intent =
      b.restoration * a.gamutConversion b intent * a.normalization := by
  simp only [wideConversion, compensates, if_true, Scalar.literal_one]
  rfl

theorem wideConversion_eq_of_not_compensatesBlack (scales : ¬ intent.compensatesBlack)
    (a b : Description ℝ ℝ) :
    a.wideConversion b intent =
      a.gamutConversion b intent * Mat4.uniform (b.reference / a.reference) := by
  simp only [wideConversion, scales]
  rfl

theorem isAffine_gamutConversion (a b : Description ℝ ℝ) (intent : Intent) :
    (a.gamutConversion b intent).IsAffine := Mat4.isAffine_ofLinear _

theorem gamutConversion_self (regular : a.IsRegular) (intent : Intent) :
    a.gamutConversion a intent = 1 := by
  rw [gamutConversion, Colorimetry.wideConversion_self regular.colorimetry, Mat4.ofLinear_one]

theorem gamutConversion_mul (regular : b.IsRegular) (a c : Description ℝ ℝ) (intent : Intent) :
    b.gamutConversion c intent * a.gamutConversion b intent = a.gamutConversion c intent := by
  simp only [gamutConversion, Mat4.ofLinear_mul]
  rw [Colorimetry.wideConversion_mul regular.colorimetry]

theorem gamutConversion_apply_splat (source : a.IsRegular) (target : b.IsRegular)
    (adapts : intent.adaptsWhite) (grey : ℝ) :
    (a.gamutConversion b intent).apply (Vec3.splat grey) = Vec3.splat grey := by
  rw [gamutConversion, Mat4.ofLinear_apply]
  exact Colorimetry.wideConversion_apply_splat source.colorimetry target.colorimetry adapts grey

theorem IsRegular.normalization_mul_restoration {d : Description ℝ ℝ} (regular : d.IsRegular) :
    d.normalization * d.restoration = 1 := by
  have span : d.reference - d.min ≠ 0 := (sub_pos.mpr regular.luminances.2).ne'
  have offsets : Vec3.splat (-d.min) + Vec3.splat d.min = Vec3.splat 0 := by
    simp [Vec3.add_eq, Vec3.splat]
  calc d.normalization * d.restoration
    _ = Mat4.uniform (1 / (d.reference - d.min)) *
        (Mat4.translation (Vec3.splat (-d.min)) * Mat4.translation (Vec3.splat d.min)) *
        Mat4.uniform (d.reference - d.min) := by
      simp only [normalization, restoration, mul_assoc]
    _ = 1 := by
      rw [Mat4.translation_mul, offsets, Mat4.translation_zero, mul_one, Mat4.uniform_mul,
        one_div_mul_cancel span, Mat4.uniform_one]

theorem IsRegular.restoration_mul_normalization {d : Description ℝ ℝ} (regular : d.IsRegular) :
    d.restoration * d.normalization = 1 := by
  have span : d.reference - d.min ≠ 0 := (sub_pos.mpr regular.luminances.2).ne'
  have offsets : Vec3.splat d.min + Vec3.splat (-d.min) = Vec3.splat 0 := by
    simp [Vec3.add_eq, Vec3.splat]
  calc d.restoration * d.normalization
    _ = Mat4.translation (Vec3.splat d.min) *
        (Mat4.uniform (d.reference - d.min) * Mat4.uniform (1 / (d.reference - d.min))) *
        Mat4.translation (Vec3.splat (-d.min)) := by
      simp only [normalization, restoration, mul_assoc]
    _ = 1 := by
      rw [Mat4.uniform_mul, mul_one_div_cancel span, Mat4.uniform_one, mul_one,
        Mat4.translation_mul, offsets, Mat4.translation_zero]

theorem isAffine_normalization (d : Description ℝ ℝ) : d.normalization.IsAffine :=
  (Mat4.isAffine_uniform _).mul (Mat4.isAffine_translation _)

theorem normalization_apply_splat (d : Description ℝ ℝ) (grey : ℝ) :
    d.normalization.apply (Vec3.splat grey) =
      Vec3.splat ((grey - d.min) / (d.reference - d.min)) := by
  rw [normalization, Mat4.apply_mul (Mat4.isAffine_translation _), Mat4.translation_apply,
    Mat4.uniform_apply]
  simp [Vec3.add_eq, Vec3.scale_eq, Vec3.splat, div_eq_mul_inv, sub_eq_add_neg]

theorem restoration_apply_splat (d : Description ℝ ℝ) (grey : ℝ) :
    d.restoration.apply (Vec3.splat grey) =
      Vec3.splat (grey * (d.reference - d.min) + d.min) := by
  rw [restoration, Mat4.apply_mul (Mat4.isAffine_uniform _), Mat4.uniform_apply,
    Mat4.translation_apply]
  rfl

theorem wideConversion_self (regular : a.IsRegular) (intent : Intent) :
    a.wideConversion a intent = 1 := by
  by_cases compensates : intent.compensatesBlack
  · rw [wideConversion_eq_of_compensatesBlack compensates, gamutConversion_self regular, mul_one,
      regular.restoration_mul_normalization]
  · rw [wideConversion_eq_of_not_compensatesBlack compensates, gamutConversion_self regular,
      one_mul, div_self regular.luminances.1.ne', Mat4.uniform_one]

theorem wideConversion_mul (regular : b.IsRegular) (a c : Description ℝ ℝ) (intent : Intent) :
    b.wideConversion c intent * a.wideConversion b intent = a.wideConversion c intent := by
  have gamuts := gamutConversion_mul regular a c intent
  by_cases compensates : intent.compensatesBlack
  · simp only [wideConversion_eq_of_compensatesBlack compensates]
    calc c.restoration * b.gamutConversion c intent * b.normalization *
          (b.restoration * a.gamutConversion b intent * a.normalization)
      _ = c.restoration * b.gamutConversion c intent * (b.normalization * b.restoration) *
          (a.gamutConversion b intent * a.normalization) := by simp only [mul_assoc]
      _ = c.restoration * (b.gamutConversion c intent * a.gamutConversion b intent) *
          a.normalization := by
        simp only [regular.normalization_mul_restoration, mul_one, mul_assoc]
      _ = c.restoration * a.gamutConversion c intent * a.normalization := by rw [gamuts]
  · have gains : c.reference / b.reference * (b.reference / a.reference) =
        c.reference / a.reference := div_mul_div_cancel₀ regular.luminances.1.ne'
    -- The gain that the first conversion makes last has to pass the gamuts of the second one.
    have swapped : Mat4.uniform (c.reference / b.reference) * a.gamutConversion b intent =
        a.gamutConversion b intent * Mat4.uniform (c.reference / b.reference) :=
      Mat4.uniform_mul_ofLinear _ _
    simp only [wideConversion_eq_of_not_compensatesBlack compensates]
    calc b.gamutConversion c intent * Mat4.uniform (c.reference / b.reference) *
          (a.gamutConversion b intent * Mat4.uniform (b.reference / a.reference))
      _ = b.gamutConversion c intent *
          (Mat4.uniform (c.reference / b.reference) * a.gamutConversion b intent) *
          Mat4.uniform (b.reference / a.reference) := by simp only [mul_assoc]
      _ = b.gamutConversion c intent * a.gamutConversion b intent *
          (Mat4.uniform (c.reference / b.reference) *
            Mat4.uniform (b.reference / a.reference)) := by
        rw [swapped]
        simp only [mul_assoc]
      _ = a.gamutConversion c intent * Mat4.uniform (c.reference / a.reference) := by
        rw [gamuts, Mat4.uniform_mul, gains]

theorem adaptsWhite_of_compensatesBlack (compensates : intent.compensatesBlack) :
    intent.adaptsWhite := by
  cases intent <;> first | rfl | cases compensates

theorem wideConversion_apply_splat (source : a.IsRegular) (target : b.IsRegular)
    (compensates : intent.compensatesBlack) (grey : ℝ) :
    (a.wideConversion b intent).apply (Vec3.splat grey) =
      Vec3.splat ((grey - a.min) / (a.reference - a.min) * (b.reference - b.min) + b.min) := by
  rw [wideConversion_eq_of_compensatesBlack compensates, mul_assoc,
    Mat4.apply_mul ((isAffine_gamutConversion a b intent).mul (isAffine_normalization a)),
    Mat4.apply_mul (isAffine_normalization a), normalization_apply_splat,
    gamutConversion_apply_splat source target (adaptsWhite_of_compensatesBlack compensates),
    restoration_apply_splat]

theorem wideConversion_apply_black (source : a.IsRegular) (target : b.IsRegular)
    (compensates : intent.compensatesBlack) :
    (a.wideConversion b intent).apply (Vec3.splat a.min) = Vec3.splat b.min := by
  rw [wideConversion_apply_splat source target compensates, sub_self, zero_div, zero_mul, zero_add]

theorem wideConversion_apply_white (source : a.IsRegular) (target : b.IsRegular)
    (compensates : intent.compensatesBlack) :
    (a.wideConversion b intent).apply (Vec3.splat a.reference) = Vec3.splat b.reference := by
  have span : a.reference - a.min ≠ 0 := (sub_pos.mpr source.luminances.2).ne'
  rw [wideConversion_apply_splat source target compensates, div_self span, one_mul, sub_add_cancel]

theorem relative_wideConversion_apply_splat (source : a.IsRegular) (target : b.IsRegular)
    (grey : ℝ) :
    (a.wideConversion b .relative).apply (Vec3.splat grey) =
      Vec3.splat (grey * b.reference / a.reference) := by
  have scaled : Vec3.splat grey * (b.reference / a.reference) =
      Vec3.splat (grey * b.reference / a.reference) := by
    simp [Vec3.scale_eq, Vec3.splat, mul_div_assoc]
  rw [wideConversion_eq_of_not_compensatesBlack (by decide),
    Mat4.apply_mul (Mat4.isAffine_uniform _), Mat4.uniform_apply, scaled,
    gamutConversion_apply_splat source target rfl]

/-- Conversions of light compose, a conversion to the same description does nothing and the way back
undoes the way there.  Where black is compensated, black goes to black and white to white; where
light is only scaled, every grey is scaled by the ratio of the references. -/
theorem wideConversion_laws (source : a.IsRegular) (target : b.IsRegular)
    (c : Description ℝ ℝ) (intent : Intent) :
    a.wideConversion a intent = Mat4.identity ∧
      b.wideConversion c intent * a.wideConversion b intent = a.wideConversion c intent ∧
      b.wideConversion a intent * a.wideConversion b intent = Mat4.identity ∧
      (intent = .perceptual ∨ intent = .relativeWithBlackPoint →
        (a.wideConversion b intent).apply (Vec3.splat a.min) = Vec3.splat b.min ∧
          (a.wideConversion b intent).apply (Vec3.splat a.reference) = Vec3.splat b.reference) ∧
      (intent = .relative → ∀ grey, (a.wideConversion b intent).apply (Vec3.splat grey) =
        Vec3.splat (grey * b.reference / a.reference)) := by
  have unchanged : a.wideConversion a intent = 1 := wideConversion_self source intent
  refine ⟨unchanged, wideConversion_mul target a c intent, ?_, ?_, ?_⟩
  · exact (wideConversion_mul target a a intent).trans unchanged
  · intro compensating
    have compensates : intent.compensatesBlack := by
      obtain rfl | rfl := compensating <;> rfl
    exact ⟨wideConversion_apply_black source target compensates,
      wideConversion_apply_white source target compensates⟩
  · rintro rfl
    exact relative_wideConversion_apply_splat source target

/-! ## Two displays -/

theorem isRegular_tristimulus {white : Vec3 ℝ} (normal : normalizedXyz white = white)
    (bright : 1e-10 ≤ |white.z * (white.x * white.y)|)
    (responds : ((Adaptation.bradford : Mat3 ℝ).apply white).HasNoZero) :
    (Colorimetry.ofXyz ⟨1, 0, 0⟩ ⟨0, 1, 0⟩ ⟨0, 0, 1⟩ white : Colorimetry ℝ ℝ).IsRegular := by
  refine ⟨Colorimetry.isDerived_ofXyz _ _ _ _, (Colorimetry.toXyz_tristimulus normal bright).1, ?_⟩
  rw [Colorimetry.white_ofXyz, normal]
  exact responds

noncomputable def equalEnergyDisplay : Description ℝ ℝ :=
  repaired (.ofXyz ⟨1, 0, 0⟩ ⟨0, 1, 0⟩ ⟨0, 0, 1⟩ ⟨1, 1, 1⟩) (.ofCurve .srgb) 80 0.2 none none

noncomputable def daylightDisplay : Description ℝ ℝ :=
  repaired (.ofXyz ⟨1, 0, 0⟩ ⟨0, 1, 0⟩ ⟨0, 0, 1⟩ ⟨0.95, 1, 1.09⟩) (.ofCurve .pq) 203 0.005 none
    (some 1000)

theorem isRegular_equalEnergyDisplay : equalEnergyDisplay.IsRegular where
  repaired := ⟨_, _, _, _, _, _, rfl⟩
  colorimetry := by
    refine isRegular_tristimulus (normalizedXyz_one 1 1) ?_ ?_
    · norm_num
    · refine ⟨?_, ?_, ?_⟩ <;> norm_num [Adaptation.bradford, Mat3.apply, Vec3.dot]

theorem isRegular_daylightDisplay : daylightDisplay.IsRegular where
  repaired := ⟨_, _, _, _, _, _, rfl⟩
  colorimetry := by
    refine isRegular_tristimulus (normalizedXyz_one _ _) ?_ ?_
    · norm_num [abs_of_pos]
    · refine ⟨?_, ?_, ?_⟩ <;> norm_num [Adaptation.bradford, Mat3.apply, Vec3.dot]

theorem wideConversion_laws_daylightDisplay :
    daylightDisplay.wideConversion equalEnergyDisplay .absolute *
        equalEnergyDisplay.wideConversion daylightDisplay .absolute = Mat4.identity ∧
      (equalEnergyDisplay.wideConversion daylightDisplay .perceptual).apply
        (Vec3.splat equalEnergyDisplay.min) = Vec3.splat daylightDisplay.min ∧
      (equalEnergyDisplay.wideConversion daylightDisplay .relative).apply (Vec3.splat 40) =
        Vec3.splat (40 * daylightDisplay.reference / equalEnergyDisplay.reference) := by
  have laws := wideConversion_laws isRegular_equalEnergyDisplay isRegular_daylightDisplay
    equalEnergyDisplay
  exact ⟨(laws .absolute).2.2.1, ((laws .perceptual).2.2.2.1 (.inl rfl)).1,
    (laws .relative).2.2.2.2 rfl 40⟩

end Description

end DisplayColor

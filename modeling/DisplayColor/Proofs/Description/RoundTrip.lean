import DisplayColor.Proofs.Description.LightConversion
import DisplayColor.Proofs.Fusion.Seams

/-! # There and back

A conversion and the one back are merged.  The way back undoes the way there, so one expects that
nothing is left of them, and so it is if both conversions of light are kept as matrices: the
transfer functions between them are the same, the matrices cancel, and then the outer transfer
functions meet.

Where the gamuts are the same, light is only scaled, and the gain has gone into the transfer
function of each half before the halves are merged.  The functions that meet are then not the same
any more, and unless the gain is small, nothing cancels. -/

namespace DisplayColor

namespace Description

variable {a b : Description ℝ ℝ}

theorem not_needsToneMapping_relative (settings : Settings ℝ) (peak targetPeak : ℝ) :
    ¬ Pipeline.needsToneMapping settings .relative peak targetPeak := by
  simp [Pipeline.needsToneMapping]

section Collapse

variable (source : a.IsRegular) (target : b.IsRegular) (sourceCurve : a.transfer.curve ≠ .linear)
  (targetCurve : b.transfer.curve ≠ .linear) (settings : Settings ℝ)
include sourceCurve targetCurve

theorem isIdentity_merged_iff :
    ((Pipeline.conversion a b .relative settings).merged (ω := ℝ)
        (.conversion b a .relative settings)).isIdentity ↔
      Decoding.Collapses a.transfer b.transfer
        (a.transfer.withLinear (.matrix (a.lightConversion b .relative)))
        (b.transfer.withLinear (.matrix (b.lightConversion a .relative))) := by
  have there := Pipeline.encodes_conversion sourceCurve targetCurve
    (not_needsToneMapping_relative settings _ _)
  have back := Pipeline.encodes_conversion targetCurve sourceCurve
    (not_needsToneMapping_relative settings _ _)
  exact Pipeline.isIdentity_merged_iff rfl rfl sourceCurve targetCurve there back

include source target

/-- Both conversions of light are kept, and cancel as soon as they meet. -/
theorem isIdentity_merged_of_mixing (mixesThere : ¬ (a.lightConversion b .relative).isNearScaling)
    (mixesBack : ¬ (b.lightConversion a .relative).isNearScaling) :
    ((Pipeline.conversion a b .relative settings).merged (ω := ℝ)
      (.conversion b a .relative settings)).isIdentity := by
  have undone : b.lightConversion a .relative * a.lightConversion b .relative = 1 :=
    (wideConversion_mul target a a .relative).trans (wideConversion_self source .relative)
  have keptThere := mt Mat4.isNearScaling_of_isNearIdentity mixesThere
  have keptBack := mt Mat4.isNearScaling_of_isNearIdentity mixesBack
  rw [isIdentity_merged_iff sourceCurve targetCurve]
  simp [TransferFunction.withLinear, mixesThere, mixesBack, keptThere, keptBack,
    Decoding.Collapses, LinearOperation.after, undone, Mat4.isNearIdentity_one,
    Decoding.Cancels, TransferFunction.beq_self]

end Collapse

theorem lightConversion_of_same_white (regular : b.IsRegular)
    (same : a.colorimetry.white = b.colorimetry.white) :
    a.lightConversion b .relative =
      Mat4.ofLinear (b.colorimetry.fromXyz * a.colorimetry.toXyz) *
        Mat4.uniform (b.reference / a.reference) := by
  have light : a.lightConversion b .relative = a.wideConversion b .relative := rfl
  rw [light, wideConversion_eq_of_not_compensatesBlack (by decide), gamutConversion,
    Colorimetry.wideConversion_of_same_white regular.colorimetry same]

/-- Between the same gamuts light is only scaled. -/
theorem lightConversion_of_same_gamut (regular : b.IsRegular)
    (same : a.colorimetry = b.colorimetry) :
    a.lightConversion b .relative = Mat4.uniform (b.reference / a.reference) := by
  have inverse := (regular.colorimetry.derived.spec regular.colorimetry.valid).1
  rw [lightConversion_of_same_white regular (by rw [same]), same, inverse, Mat4.ofLinear_one,
    one_mul]

/-- Each half has taken its gain into its own transfer function, and the other half knows nothing of
it. -/
theorem isIdentity_merged_of_same_gamut (source : a.IsRegular) (target : b.IsRegular)
    (sourceCurve : a.transfer.curve ≠ .linear) (targetCurve : b.transfer.curve ≠ .linear)
    (settings : Settings ℝ) (same : a.colorimetry = b.colorimetry) :
    ((Pipeline.conversion a b .relative settings).merged (ω := ℝ)
        (.conversion b a .relative settings)).isIdentity ↔
      Decoding.Collapses a.transfer b.transfer
        ⟨a.transfer.afterGain (b.reference / a.reference), none⟩
        ⟨b.transfer.afterGain (a.reference / b.reference), none⟩ := by
  have brighter := div_pos target.luminances.1 source.luminances.1
  have darker := div_pos source.luminances.1 target.luminances.1
  rw [isIdentity_merged_iff sourceCurve targetCurve, lightConversion_of_same_gamut target same,
    lightConversion_of_same_gamut source same.symm, TransferFunction.withLinear_uniform brighter,
    TransferFunction.withLinear_uniform darker]

/-- Nothing is left of a conversion and the one back if neither only scales light or neither does
anything to it.  In general it depends on what each half has made of its conversion of light, and
between the same gamuts on whether the transfer functions that took the gains still cancel. -/
theorem isIdentity_there_and_back (source : a.IsRegular) (target : b.IsRegular)
    (sourceCurve : a.transfer.curve ≠ .linear) (targetCurve : b.transfer.curve ≠ .linear)
    (settings : Settings ℝ) :
    (¬ (a.lightConversion b .relative).isNearScaling →
      ¬ (b.lightConversion a .relative).isNearScaling →
        ((Pipeline.conversion a b .relative settings).merged (ω := ℝ)
          (.conversion b a .relative settings)).isIdentity) ∧
    ((a.lightConversion b .relative).isNearIdentity →
      (b.lightConversion a .relative).isNearIdentity →
        ((Pipeline.conversion a b .relative settings).merged (ω := ℝ)
          (.conversion b a .relative settings)).isIdentity) ∧
    (a.colorimetry = b.colorimetry →
      (((Pipeline.conversion a b .relative settings).merged (ω := ℝ)
          (.conversion b a .relative settings)).isIdentity ↔
        Decoding.Collapses a.transfer b.transfer
          ⟨a.transfer.afterGain (b.reference / a.reference), none⟩
          ⟨b.transfer.afterGain (a.reference / b.reference), none⟩)) ∧
    (((Pipeline.conversion a b .relative settings).merged (ω := ℝ)
        (.conversion b a .relative settings)).isIdentity ↔
      Decoding.Collapses a.transfer b.transfer
        (a.transfer.withLinear (.matrix (a.lightConversion b .relative)))
        (b.transfer.withLinear (.matrix (b.lightConversion a .relative)))) := by
  have collapses := isIdentity_merged_iff sourceCurve targetCurve settings
  refine ⟨isIdentity_merged_of_mixing source target sourceCurve targetCurve settings, ?_,
    isIdentity_merged_of_same_gamut source target sourceCurve targetCurve settings, collapses⟩
  intro identityThere identityBack
  rw [collapses]
  simp only [TransferFunction.withLinear, identityThere, identityBack, if_true,
    Decoding.Collapses, TransferFunction.beq_self]
  -- Equal functions cancel in each half, and others do when the halves meet.
  by_cases same : a.transfer == b.transfer
  · exact .inl ⟨same, TransferFunction.beq_comm.mp same⟩
  · exact .inr ⟨same, mt TransferFunction.beq_comm.mp same, trivial, trivial⟩

/-! ## A display with another green -/

noncomputable def skewedDisplay : Description ℝ ℝ :=
  repaired (.ofXyz ⟨1, 0, 0⟩ ⟨1, 2, 0⟩ ⟨0, 0, 1⟩ ⟨1, 1, 1⟩) (.ofCurve .pq) 203 0.005 none
    (some 1000)

theorem toXyz_skewedDisplay : skewedDisplay.colorimetry.isValid ∧
    skewedDisplay.colorimetry.toXyz = ⟨⟨1 / 2, 1 / 2, 0⟩, ⟨0, 1, 0⟩, ⟨0, 0, 1⟩⟩ :=
  Colorimetry.ofXyz_skewed

theorem white_skewedDisplay :
    skewedDisplay.colorimetry.white = equalEnergyDisplay.colorimetry.white :=
  (Colorimetry.white_ofXyz _ _ _ _).trans (Colorimetry.white_ofXyz _ _ _ _).symm

theorem isRegular_skewedDisplay : skewedDisplay.IsRegular where
  repaired := ⟨_, _, _, _, _, _, rfl⟩
  colorimetry := by
    refine ⟨Colorimetry.isDerived_ofXyz _ _ _ _, toXyz_skewedDisplay.1, ?_⟩
    rw [white_skewedDisplay]
    exact isRegular_equalEnergyDisplay.colorimetry.responds

theorem toXyz_equalEnergyDisplay : equalEnergyDisplay.colorimetry.toXyz = 1 := by
  refine (Colorimetry.toXyz_tristimulus (normalizedXyz_one 1 1) (by norm_num)).2.trans ?_
  simp [Mat3.one_eq, Mat3.diagonal]

/-- A matrix that only scales channels mixes at most the tolerance of green into red. -/
theorem mixing_of_isNearScaling {m : Mat3 ℝ} {gain : ℝ}
    (scales : (Mat4.ofLinear m * Mat4.uniform gain).isNearScaling) : |m.r0.y * gain| ≤ 1e-5 := by
  simp only [Mat4.isNearScaling, Bool.and_eq_true, Scalar.nearZero_real] at scales
  have mixing := scales.1.1.1.1.1.1.1.1.1.1.1.1
  simpa [Mat4.mul_eq, Mat4.product, Mat4.transpose, Mat4.ofLinear, Mat4.affine, Mat4.uniform,
    Mat4.scaling, Mat3.diagonal, Vec4.dot, Vec3.splat] using mixing

theorem fromXyz_skewedDisplay : skewedDisplay.colorimetry.fromXyz.r0.y = -1 := by
  have inverse := (isRegular_skewedDisplay.colorimetry.derived.spec
    isRegular_skewedDisplay.colorimetry.valid).2.1
  rw [toXyz_skewedDisplay.2, Mat3.mul_eq, Mat3.one_eq] at inverse
  have red := congrArg (fun m => m.r0.y) inverse
  have green := congrArg (fun m => m.r1.y) inverse
  simp only [Mat3.ofColumns, Mat3.apply, Mat3.column1, Vec3.dot] at red green
  linarith

theorem lightConversion_skewedDisplay :
    ¬ (equalEnergyDisplay.lightConversion skewedDisplay .relative).isNearScaling ∧
      ¬ (skewedDisplay.lightConversion equalEnergyDisplay .relative).isNearScaling := by
  have dim : equalEnergyDisplay.reference = 80 := reference_repaired (by norm_num) _ _ _ _ _
  have bright : skewedDisplay.reference = 203 := reference_repaired (by norm_num) _ _ _ _ _
  have unit : equalEnergyDisplay.colorimetry.fromXyz = 1 := by
    have inverse := (isRegular_equalEnergyDisplay.colorimetry.derived.spec
      isRegular_equalEnergyDisplay.colorimetry.valid).1
    rwa [toXyz_equalEnergyDisplay, mul_one] at inverse
  refine ⟨?_, ?_⟩
  · rw [lightConversion_of_same_white isRegular_skewedDisplay white_skewedDisplay.symm,
      toXyz_equalEnergyDisplay, mul_one, dim, bright]
    intro scales
    have mixing := mixing_of_isNearScaling scales
    rw [fromXyz_skewedDisplay] at mixing
    norm_num [abs_of_pos] at mixing
  · rw [lightConversion_of_same_white isRegular_equalEnergyDisplay white_skewedDisplay, unit,
      one_mul, dim, bright, toXyz_skewedDisplay.2]
    intro scales
    have mixing := mixing_of_isNearScaling scales
    norm_num [abs_of_pos] at mixing

theorem isIdentity_there_and_back_skewedDisplay :
    ((Pipeline.conversion equalEnergyDisplay skewedDisplay .relative .standard).merged (ω := ℝ)
      (.conversion skewedDisplay equalEnergyDisplay .relative .standard)).isIdentity :=
  (isIdentity_there_and_back isRegular_equalEnergyDisplay isRegular_skewedDisplay (by decide)
    (by decide) .standard).1 lightConversion_skewedDisplay.1 lightConversion_skewedDisplay.2

/-! ## A brighter display with the same gamut -/

noncomputable def quantizedDisplay : Description ℝ ℝ :=
  repaired equalEnergyDisplay.colorimetry (.ofCurve .pq) 160 0 none none

theorem isRegular_quantizedDisplay : quantizedDisplay.IsRegular where
  repaired := ⟨_, _, _, _, _, _, rfl⟩
  colorimetry := isRegular_equalEnergyDisplay.colorimetry

/-- The way back decodes half of what the way there has encoded. -/
theorem not_isIdentity_there_and_back : equalEnergyDisplay.IsRegular ∧ quantizedDisplay.IsRegular ∧
    equalEnergyDisplay.transfer.curve ≠ .linear ∧ quantizedDisplay.transfer.curve ≠ .linear ∧
    ¬ ((Pipeline.conversion equalEnergyDisplay quantizedDisplay .relative .standard).merged (ω := ℝ)
      (.conversion quantizedDisplay equalEnergyDisplay .relative .standard)).isIdentity := by
  refine ⟨isRegular_equalEnergyDisplay, isRegular_quantizedDisplay, by decide, by decide, ?_⟩
  rw [isIdentity_merged_of_same_gamut isRegular_equalEnergyDisplay isRegular_quantizedDisplay
    (by decide) (by decide) .standard rfl]
  -- Neither half is empty by itself, as the curves differ, and where the halves meet one has a
  -- peak of 10000 and the other one of 5000.
  rintro (⟨same, _⟩ | ⟨_, _, same, _⟩)
  · have curves := (TransferFunction.beq_real.mp same).1
    rw [TransferFunction.curve_afterGain] at curves
    cases curves
  · have ratio : equalEnergyDisplay.reference / quantizedDisplay.reference = 1 / 2 := by
      rw [equalEnergyDisplay, quantizedDisplay, reference_repaired (by norm_num),
        reference_repaired (by norm_num)]
      norm_num
    have increasing : quantizedDisplay.transfer.IsIncreasing :=
      TransferFunction.isIncreasing_ofCurve .pq
    have peak : quantizedDisplay.transfer.max = 10000 := rfl
    have peaks := (TransferFunction.beq_real.mp same).2.2
    rw [ratio, TransferFunction.afterGain, if_neg (by norm_num [abs_of_neg]),
      TransferFunction.scaled_eq increasing (by norm_num), peak, Scalar.nearRelative_real] at peaks
    norm_num at peaks

end Description

end DisplayColor

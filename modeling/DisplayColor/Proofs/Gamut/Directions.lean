import DisplayColor.Proofs.Gamut.Primaries

/-! # The brightness of primaries

Brighter primaries are mixed in smaller amounts and darker ones in larger amounts.  The matrices of
a colorimetry are made of the primaries in their amounts, so only the directions of the primaries
are left in them.

Whether there are matrices at all does depend on the brightness.  The determinant of the primaries
is compared with a fixed bound before any amounts are known, and it grows with each of them:
primaries that are dark enough are refused as if they lay in one plane.  The second comparison is
made with the primaries in their amounts, where the brightness has cancelled. -/

namespace DisplayColor

theorem Mat3.tripleProduct_mul_diagonal (m : Mat3 ℝ) (gains : Vec3 ℝ) :
    (m * diagonal gains).tripleProduct = gains.x * gains.y * gains.z * m.tripleProduct := by
  rw [← ofColumns_scaled]
  simp only [tripleProduct, column0, column1, column2, ofColumns, Vec3.dot, Vec3.cross,
    Vec3.scale_eq]
  ring

namespace Colorimetry

variable {primaries : Mat3 ℝ} {red green blue white gains : Vec3 ℝ}

/-- The amounts make up for the brightness. -/
theorem isMixed_mul_diagonal (noZero : gains.HasNoZero) (mixed : Mat3 ℝ) :
    IsMixed (primaries * Mat3.diagonal gains) white mixed ↔ IsMixed primaries white mixed := by
  constructor
  · rintro ⟨amounts, mixes, rfl⟩
    refine ⟨gains * amounts, ?_, ?_⟩
    · rw [← Mat3.diagonal_apply, ← Mat3.apply_mul, mixes]
    · rw [mul_assoc, Mat3.diagonal_mul_diagonal]
  · rintro ⟨amounts, mixes, rfl⟩
    have cancels : gains * (amounts / gains) = amounts := Vec3.mul_div_cancel noZero amounts
    refine ⟨amounts / gains, ?_, ?_⟩
    · rw [Mat3.apply_mul, Mat3.diagonal_apply, cancels, mixes]
    · rw [mul_assoc, Mat3.diagonal_mul_diagonal, cancels]

/-- Nothing but the first comparison tells scaled primaries from the given ones. -/
theorem matrices?_mul_diagonal (noZero : gains.HasNoZero)
    (together : 1e-10 ≤ |primaries.tripleProduct| ↔
      1e-10 ≤ |(primaries * Mat3.diagonal gains).tripleProduct|) :
    matrices? (primaries * Mat3.diagonal gains) white = matrices? primaries white := by
  ext ⟨toXyz, fromXyz⟩
  rw [matrices?_eq_some_iff, matrices?_eq_some_iff, isMixed_mul_diagonal noZero, together]

/-- The white can be mixed, and in the amounts that mix to it the primaries are not too dark. -/
def MixesBrightly (primaries : Mat3 ℝ) (white : Vec3 ℝ) : Prop :=
  ∃ mixed, IsMixed primaries white mixed ∧ 1e-10 ≤ |mixed.tripleProduct|

theorem mixesBrightly_mul_diagonal (noZero : gains.HasNoZero) :
    MixesBrightly (primaries * Mat3.diagonal gains) white ↔ MixesBrightly primaries white := by
  simp only [MixesBrightly, isMixed_mul_diagonal noZero]

theorem isSome_matrices?_iff : (matrices? primaries white).isSome ↔
    1e-10 ≤ |primaries.tripleProduct| ∧ MixesBrightly primaries white := by
  rw [Option.isSome_iff_exists]
  constructor
  · rintro ⟨⟨toXyz, fromXyz⟩, derived⟩
    obtain ⟨independent, mixed, inverted⟩ := matrices?_eq_some_iff.mp derived
    exact ⟨independent, toXyz, mixed, (Mat3.wideInverse?_eq_some.mp inverted).1⟩
  · rintro ⟨independent, toXyz, mixed, bright⟩
    have inverted := Mat3.wideInverse?_eq_some.mpr ⟨bright, rfl⟩
    exact ⟨_, matrices?_eq_some_iff.mpr ⟨independent, mixed, inverted⟩⟩

theorem matrices?_eq_none_of_not_mixesBrightly (dark : ¬ MixesBrightly primaries white) :
    matrices? primaries white = none := by
  rw [← Option.not_isSome_iff_eq_none, isSome_matrices?_iff]
  exact fun some => dark some.2

/-- Scaled primaries give the same colorimetry exactly when both determinants of primaries are on
the same side of the bound, unless the white comes out too dark with either. -/
theorem ofXyz_scaled_iff (red green blue white gains : Vec3 ℝ) (redGain : 0 < gains.x)
    (greenGain : 0 < gains.y) (blueGain : 0 < gains.z) :
    let given : Colorimetry ℝ ℝ := ofXyz red green blue white
    let scaled : Colorimetry ℝ ℝ :=
      ofXyz (red * gains.x) (green * gains.y) (blue * gains.z) white
    let size : ℝ := |(Mat3.ofColumns red green blue).tripleProduct|
    (scaled.isValid = given.isValid ∧ scaled.toXyz = given.toXyz ∧
        scaled.fromXyz = given.fromXyz) ↔
      ((1e-10 ≤ size ↔ 1e-10 ≤ gains.x * gains.y * gains.z * size) ∨
        ¬ MixesBrightly (Mat3.ofColumns red green blue) (normalizedXyz white)) := by
  intro given scaled size
  have noZero : gains.HasNoZero := ⟨redGain.ne', greenGain.ne', blueGain.ne'⟩
  have columns : Mat3.ofColumns (red * gains.x) (green * gains.y) (blue * gains.z) =
      Mat3.ofColumns red green blue * Mat3.diagonal gains :=
    Mat3.ofColumns_scaled (Mat3.ofColumns red green blue) gains
  have scaledSize : |(Mat3.ofColumns red green blue * Mat3.diagonal gains).tripleProduct| =
      gains.x * gains.y * gains.z * size := by
    rw [Mat3.tripleProduct_mul_diagonal, abs_mul, abs_of_pos (by positivity)]
  constructor
  · rintro ⟨same, -, -⟩
    -- A white that mixes brightly passes the second comparison with either, so the first decides.
    by_cases bright : MixesBrightly (Mat3.ofColumns red green blue) (normalizedXyz white)
    · rw [isValid_ofXyz, isValid_ofXyz, columns, Bool.eq_iff_iff, isSome_matrices?_iff,
        isSome_matrices?_iff, scaledSize, mixesBrightly_mul_diagonal noZero, and_iff_left bright,
        and_iff_left bright] at same
      exact .inl same.symm
    · exact .inr bright
  · intro unchanged
    have matrices :
        matrices? (Mat3.ofColumns red green blue * Mat3.diagonal gains) (normalizedXyz white) =
          matrices? (Mat3.ofColumns red green blue) (normalizedXyz white) := by
      obtain together | dark := unchanged
      · exact matrices?_mul_diagonal noZero (by rwa [scaledSize])
      · rw [matrices?_eq_none_of_not_mixesBrightly dark, matrices?_eq_none_of_not_mixesBrightly
          (mt (mixesBrightly_mul_diagonal noZero).mp dark)]
    simp only [given, scaled, ofXyz, Vec3.widen_real, columns, matrices]
    split <;> exact ⟨rfl, rfl, rfl⟩

theorem ofXyz_scaled_skewed :
    let given : Colorimetry ℝ ℝ := ofXyz ⟨1, 0, 0⟩ ⟨1, 2, 0⟩ ⟨0, 0, 1⟩ ⟨0.95, 1, 1.09⟩
    let scaled : Colorimetry ℝ ℝ := ofXyz ((⟨1, 0, 0⟩ : Vec3 ℝ) * (0.001 : ℝ))
      ((⟨1, 2, 0⟩ : Vec3 ℝ) * (30 : ℝ)) ((⟨0, 0, 1⟩ : Vec3 ℝ) * (500 : ℝ)) ⟨0.95, 1, 1.09⟩
    scaled.isValid = given.isValid ∧ scaled.toXyz = given.toXyz ∧
      scaled.fromXyz = given.fromXyz := by
  refine (ofXyz_scaled_iff ⟨1, 0, 0⟩ ⟨1, 2, 0⟩ ⟨0, 0, 1⟩ ⟨0.95, 1, 1.09⟩ ⟨0.001, 30, 500⟩
    ?_ ?_ ?_).mpr (.inl ?_)
  all_goals norm_num [Mat3.tripleProduct_ofColumns, Vec3.dot, Vec3.cross]

/-- Primaries of a ten thousandth of the brightness are refused. -/
theorem not_ofXyz_scaled :
    let given : Colorimetry ℝ ℝ := ofXyz ⟨1, 0, 0⟩ ⟨0, 1, 0⟩ ⟨0, 0, 1⟩ ⟨0.95, 1, 1.09⟩
    let scaled : Colorimetry ℝ ℝ := ofXyz ((⟨1, 0, 0⟩ : Vec3 ℝ) * (0.0001 : ℝ))
      ((⟨0, 1, 0⟩ : Vec3 ℝ) * (0.0001 : ℝ)) ((⟨0, 0, 1⟩ : Vec3 ℝ) * (0.0001 : ℝ)) ⟨0.95, 1, 1.09⟩
    given.isValid ∧ ¬ scaled.isValid := by
  refine ⟨?_, ?_⟩
  · exact (toXyz_tristimulus (normalizedXyz_one _ _) (by norm_num)).1
  · rw [isValid_ofXyz, isSome_matrices?_iff]
    rintro ⟨independent, -⟩
    norm_num [Mat3.tripleProduct_ofColumns, Vec3.dot, Vec3.cross, Vec3.scale_eq] at independent

end Colorimetry

end DisplayColor

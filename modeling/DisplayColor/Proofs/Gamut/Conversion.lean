import DisplayColor.Proofs.Gamut.Adaptation
import DisplayColor.Gamut.Colorimetry

/-! # Conversions between gamuts

In exact arithmetic the matrices of a valid colorimetry are inverse to each other and carry equal
amounts of the primaries to its white and back.  So conversions of gamuts compose, and where white
is adapted they leave every grey as it is. -/

namespace DisplayColor

theorem Vec3.mul_splat_one (v : Vec3 ℝ) : v * splat 1 = v := by
  simp [mul_eq, splat]

/-- Scaling the columns of a matrix is the product with a diagonal one. -/
theorem Mat3.ofColumns_scaled (m : Mat3 ℝ) (gains : Vec3 ℝ) :
    ofColumns (m.column0 * gains.x) (m.column1 * gains.y) (m.column2 * gains.z) =
      m * diagonal gains := by
  ext <;> simp [mul_eq, ofColumns, apply, diagonal, column0, column1, column2, Vec3.dot,
    Vec3.scale_eq]

theorem Mat3.apply_splat (m : Mat3 ℝ) (grey : ℝ) :
    m.apply (Vec3.splat grey) = m.apply (Vec3.splat 1) * grey := by
  ext <;> simp only [Mat3.apply, Vec3.dot, Vec3.splat, Vec3.scale_eq] <;> ring

theorem normalizedXyz_one (x z : ℝ) : normalizedXyz ⟨x, 1, z⟩ = ⟨x, 1, z⟩ := by
  simp [normalizedXyz, Vec3.divide_eq]

namespace Colorimetry

/-- The colorimetry was derived from primaries and a white, as all of them are. -/
def IsDerived (c : Colorimetry ℝ ℝ) : Prop :=
  ∃ red green blue white name, c = { ofXyz red green blue white with name }

theorem isDerived_ofXyz (red green blue white : Vec3 ℝ) :
    (ofXyz red green blue white : Colorimetry ℝ ℝ).IsDerived := by
  refine ⟨red, green, blue, white, none, ?_⟩
  simp only [ofXyz]
  split <;> rfl

theorem isDerived_ofNamed (named : NamedColorimetry) :
    (ofNamed named : Colorimetry ℝ ℝ).IsDerived := by
  unfold ofNamed
  split
  · exact ⟨_, _, _, _, _, rfl⟩
  · exact ⟨_, _, _, _, _, rfl⟩

theorem isDerived_adaptedTo (c : Colorimetry ℝ ℝ) (white : Vec3 ℝ) :
    (c.adaptedTo white).IsDerived :=
  isDerived_ofXyz _ _ _ _

theorem white_ofXyz (red green blue white : Vec3 ℝ) :
    (ofXyz red green blue white : Colorimetry ℝ ℝ).white = normalizedXyz white := by
  simp only [ofXyz]
  split <;> rfl

theorem isValid_ofXyz (red green blue white : Vec3 ℝ) :
    (ofXyz red green blue white : Colorimetry ℝ ℝ).isValid =
      (matrices? (Mat3.ofColumns red green blue) (normalizedXyz white)).isSome := by
  simp only [ofXyz, Vec3.widen_real]
  split
  · rename_i found
    rw [found]
    rfl
  · rename_i missing
    rw [missing]
    rfl

/-- The columns are the primaries in amounts that mix to the white. -/
def IsMixed (primaries : Mat3 ℝ) (white : Vec3 ℝ) (mixed : Mat3 ℝ) : Prop :=
  ∃ amounts, primaries.apply amounts = white ∧ mixed = primaries * Mat3.diagonal amounts

/-- Two determinants decide whether there are matrices: that of the primaries as they are given and
that of the primaries mixed to white. -/
theorem matrices?_eq_some_iff {primaries toXyz fromXyz : Mat3 ℝ} {white : Vec3 ℝ} :
    matrices? primaries white = some (toXyz, fromXyz) ↔
      1e-10 ≤ |primaries.tripleProduct| ∧ IsMixed primaries white toXyz ∧
        toXyz.wideInverse? = some fromXyz := by
  simp only [matrices?, Mat3.ofColumns_scaled, Option.bind_eq_bind, Option.bind_eq_some_iff,
    Option.pure_def, Option.some.injEq, Prod.mk.injEq]
  -- The first inverse solves for the amounts of the primaries, the second one is the way back.
  constructor
  · rintro ⟨inverse, solved, _, inverted, rfl, rfl⟩
    have mixes : primaries.apply (inverse.apply white) = white := by
      rw [← Mat3.apply_mul, (Mat3.mul_of_wideInverse? solved).2, Mat3.one_apply]
    exact ⟨(Mat3.wideInverse?_eq_some.mp solved).1, ⟨_, mixes, rfl⟩, inverted⟩
  · rintro ⟨independent, ⟨amounts, mixes, rfl⟩, inverted⟩
    have solved := Mat3.wideInverse?_eq_some.mpr ⟨independent, rfl⟩
    have found : primaries.quotientInverse.apply white = amounts := by
      rw [← mixes, ← Mat3.apply_mul, (Mat3.mul_of_wideInverse? solved).1, Mat3.one_apply]
    refine ⟨_, solved, fromXyz, ?_, ?_, rfl⟩ <;> rw [found]
    exact inverted

/-- The matrices of primaries and a white undo each other, and the first one carries equal amounts
to the white. -/
theorem matrices?_spec {primaries toXyz fromXyz : Mat3 ℝ} {white : Vec3 ℝ}
    (derived : matrices? primaries white = some (toXyz, fromXyz)) :
    fromXyz * toXyz = 1 ∧ toXyz * fromXyz = 1 ∧ toXyz.apply (Vec3.splat 1) = white := by
  obtain ⟨_, ⟨amounts, mixes, rfl⟩, inverted⟩ := matrices?_eq_some_iff.mp derived
  obtain ⟨left, right⟩ := Mat3.mul_of_wideInverse? inverted
  refine ⟨left, right, ?_⟩
  rw [Mat3.apply_mul, Mat3.diagonal_apply, Vec3.mul_splat_one, mixes]

/-- The matrix of a colorimetry, from the amounts of the primaries that give white.  Neither the
primaries nor the amounts of them may be too small. -/
theorem ofXyz_of_amounts {red green blue white amounts : Vec3 ℝ}
    (normal : normalizedXyz white = white)
    (mixes : (Mat3.ofColumns red green blue).apply amounts = white)
    (independent : 1e-10 ≤ |(Mat3.ofColumns red green blue).tripleProduct|)
    (bright : 1e-10 ≤ |(Mat3.ofColumns (red * amounts.x) (green * amounts.y)
      (blue * amounts.z)).tripleProduct|) :
    (ofXyz red green blue white : Colorimetry ℝ ℝ).isValid ∧
      (ofXyz red green blue white : Colorimetry ℝ ℝ).toXyz =
        Mat3.ofColumns (red * amounts.x) (green * amounts.y) (blue * amounts.z) := by
  have columns : Mat3.ofColumns (red * amounts.x) (green * amounts.y) (blue * amounts.z) =
      Mat3.ofColumns red green blue * Mat3.diagonal amounts :=
    Mat3.ofColumns_scaled (Mat3.ofColumns red green blue) amounts
  rw [columns] at bright ⊢
  have inverted := Mat3.wideInverse?_eq_some.mpr ⟨bright, rfl⟩
  have derived := matrices?_eq_some_iff.mpr ⟨independent, ⟨amounts, mixes, rfl⟩, inverted⟩
  simp only [ofXyz, normal, Vec3.widen_real, derived, and_self]

/-- Tristimulus values themselves are the amounts of primaries, with any white that is bright
enough. -/
theorem toXyz_tristimulus {white : Vec3 ℝ} (normal : normalizedXyz white = white)
    (bright : 1e-10 ≤ |white.z * (white.x * white.y)|) :
    (ofXyz ⟨1, 0, 0⟩ ⟨0, 1, 0⟩ ⟨0, 0, 1⟩ white : Colorimetry ℝ ℝ).isValid ∧
      (ofXyz ⟨1, 0, 0⟩ ⟨0, 1, 0⟩ ⟨0, 0, 1⟩ white : Colorimetry ℝ ℝ).toXyz = Mat3.diagonal white := by
  have mixes : (Mat3.ofColumns ⟨1, 0, 0⟩ ⟨0, 1, 0⟩ ⟨0, 0, 1⟩ : Mat3 ℝ).apply white = white := by
    ext <;> simp [Mat3.ofColumns, Mat3.apply, Vec3.dot]
  obtain ⟨valid, toXyz⟩ := ofXyz_of_amounts normal mixes
    (by norm_num [Mat3.tripleProduct_ofColumns, Vec3.dot, Vec3.cross])
    (by simpa [Mat3.tripleProduct_ofColumns, Vec3.dot, Vec3.cross, Vec3.scale_eq] using bright)
  refine ⟨valid, toXyz.trans ?_⟩
  ext <;> simp [Mat3.ofColumns, Mat3.diagonal, Vec3.scale_eq]

/-- Primaries at an angle: the green is twice as bright as white and has the red in it. -/
theorem ofXyz_skewed :
    (ofXyz ⟨1, 0, 0⟩ ⟨1, 2, 0⟩ ⟨0, 0, 1⟩ ⟨1, 1, 1⟩ : Colorimetry ℝ ℝ).isValid ∧
      (ofXyz ⟨1, 0, 0⟩ ⟨1, 2, 0⟩ ⟨0, 0, 1⟩ ⟨1, 1, 1⟩ : Colorimetry ℝ ℝ).toXyz =
        ⟨⟨1 / 2, 1 / 2, 0⟩, ⟨0, 1, 0⟩, ⟨0, 0, 1⟩⟩ := by
  have mixes : (Mat3.ofColumns ⟨1, 0, 0⟩ ⟨1, 2, 0⟩ ⟨0, 0, 1⟩ : Mat3 ℝ).apply ⟨1 / 2, 1 / 2, 1⟩ =
      ⟨1, 1, 1⟩ := by
    ext <;> norm_num [Mat3.ofColumns, Mat3.apply, Vec3.dot]
  obtain ⟨valid, toXyz⟩ := ofXyz_of_amounts (normalizedXyz_one 1 1) mixes
    (by norm_num [Mat3.tripleProduct_ofColumns, Vec3.dot, Vec3.cross])
    (by norm_num [Mat3.tripleProduct_ofColumns, Vec3.dot, Vec3.cross, Vec3.scale_eq])
  refine ⟨valid, toXyz.trans ?_⟩
  ext <;> norm_num [Mat3.ofColumns, Vec3.scale_eq]

theorem IsDerived.spec {c : Colorimetry ℝ ℝ} (derived : c.IsDerived) (valid : c.isValid) :
    c.fromXyz * c.toXyz = 1 ∧ c.toXyz * c.fromXyz = 1 ∧
      c.toXyz.apply (Vec3.splat 1) = c.white := by
  obtain ⟨red, green, blue, white, name, rfl⟩ := derived
  simp only [ofXyz] at valid ⊢
  split at valid
  · rename_i found
    exact matrices?_spec found
  · cases valid

/-- A colorimetry that can be converted to and from: it is derived and valid, and every cone
responds to its white. -/
structure IsRegular (c : Colorimetry ℝ ℝ) : Prop where
  derived : c.IsDerived
  valid : c.isValid
  responds : ((Adaptation.bradford : Mat3 ℝ).apply c.white).HasNoZero

theorem IsRegular.fromXyz_apply_white {c : Colorimetry ℝ ℝ} (regular : c.IsRegular) :
    c.fromXyz.apply c.white = Vec3.splat 1 := by
  obtain ⟨inverse, _, white⟩ := regular.derived.spec regular.valid
  rw [← white, ← Mat3.apply_mul, inverse, Mat3.one_apply]

variable {a b c : Colorimetry ℝ ℝ} {intent : Intent}

theorem wideConversion_eq_of_adaptsWhite (adapts : intent.adaptsWhite) (a b : Colorimetry ℝ ℝ) :
    a.wideConversion b intent =
      b.fromXyz * Adaptation.between Adaptation.bradford a.white b.white * a.toXyz := by
  simp only [wideConversion, adapts]
  rfl

theorem wideConversion_eq_of_not_adaptsWhite (keeps : ¬ intent.adaptsWhite)
    (a b : Colorimetry ℝ ℝ) : a.wideConversion b intent = b.fromXyz * a.toXyz := by
  simp only [wideConversion, keeps]
  show b.fromXyz * 1 * a.toXyz = _
  rw [mul_one]

/-- Between equal whites there is nothing to adapt. -/
theorem wideConversion_of_same_white (regular : b.IsRegular) (same : a.white = b.white)
    (intent : Intent) : a.wideConversion b intent = b.fromXyz * a.toXyz := by
  by_cases adapts : intent.adaptsWhite
  · rw [wideConversion_eq_of_adaptsWhite adapts, same,
      Adaptation.between_self Adaptation.invertible_bradford regular.responds, mul_one]
  · exact wideConversion_eq_of_not_adaptsWhite adapts a b

theorem wideConversion_self (regular : a.IsRegular) (intent : Intent) :
    a.wideConversion a intent = 1 := by
  obtain ⟨inverse, _, _⟩ := regular.derived.spec regular.valid
  rw [wideConversion_of_same_white regular rfl, inverse]

theorem wideConversion_mul (regular : b.IsRegular) (a c : Colorimetry ℝ ℝ) (intent : Intent) :
    b.wideConversion c intent * a.wideConversion b intent = a.wideConversion c intent := by
  obtain ⟨_, inverse, _⟩ := regular.derived.spec regular.valid
  by_cases adapts : intent.adaptsWhite
  · have whites := Adaptation.between_mul_between Adaptation.invertible_bradford regular.responds
      a.white c.white
    simp only [wideConversion_eq_of_adaptsWhite adapts]
    rw [← whites]
    calc c.fromXyz * Adaptation.between Adaptation.bradford b.white c.white * b.toXyz *
          (b.fromXyz * Adaptation.between Adaptation.bradford a.white b.white * a.toXyz)
      _ = c.fromXyz * Adaptation.between Adaptation.bradford b.white c.white *
          (b.toXyz * b.fromXyz) *
          (Adaptation.between Adaptation.bradford a.white b.white * a.toXyz) := by
        simp only [mul_assoc]
      _ = _ := by simp only [inverse, mul_one, mul_assoc]
  · simp only [wideConversion_eq_of_not_adaptsWhite adapts]
    calc c.fromXyz * b.toXyz * (b.fromXyz * a.toXyz)
      _ = c.fromXyz * (b.toXyz * b.fromXyz) * a.toXyz := by simp only [mul_assoc]
      _ = c.fromXyz * a.toXyz := by rw [inverse, mul_one]

/-- White goes to white, and so every grey stays as it is. -/
theorem wideConversion_apply_splat (source : a.IsRegular) (target : b.IsRegular)
    (adapts : intent.adaptsWhite) (grey : ℝ) :
    (a.wideConversion b intent).apply (Vec3.splat grey) = Vec3.splat grey := by
  obtain ⟨_, _, white⟩ := source.derived.spec source.valid
  have whites : (a.wideConversion b intent).apply (Vec3.splat 1) = Vec3.splat 1 := by
    rw [wideConversion_eq_of_adaptsWhite adapts, Mat3.apply_mul, Mat3.apply_mul, white,
      Adaptation.between_apply Adaptation.invertible_bradford source.responds,
      target.fromXyz_apply_white]
  rw [Mat3.apply_splat, whites]
  simp [Vec3.scale_eq, Vec3.splat]

end Colorimetry

end DisplayColor

import DisplayColor.Proofs.Fusion.Meaning

/-! # Comparisons in exact arithmetic

What the comparisons of fusion say when nothing is rounded.  Equality of transfer functions up to a
tolerance is reflexive and symmetric, though not transitive.  The tests of a uniform gain all depend
on its distance from one. -/

namespace DisplayColor

namespace Scalar

theorem max_real (a b : ℝ) : Scalar.max a b = Max.max a b := by
  simp only [Scalar.max, isNaN_real, Bool.false_eq_true, if_false]
  split
  · rename_i less
    exact (max_eq_right less.le).symm
  · rename_i notLess
    exact (max_eq_left (not_lt.mp notLess)).symm

theorem min_real (a b : ℝ) : Scalar.min a b = Min.min a b := by
  simp only [Scalar.min, isNaN_real, Bool.false_eq_true, if_false]
  split
  · rename_i less
    exact (min_eq_right less.le).symm
  · rename_i notLess
    exact (min_eq_left (not_lt.mp notLess)).symm

theorem clamp_real (x lo hi : ℝ) : clamp x lo hi = Min.min hi (Max.max lo x) := by
  have raised : (if x < lo then lo else x) = Max.max lo x := by
    split
    · rename_i below
      exact (max_eq_left below.le).symm
    · rename_i notBelow
      exact (max_eq_right (not_lt.mp notBelow)).symm
  simp only [clamp, raised]
  split
  · rename_i above
    exact (min_eq_left above.le).symm
  · rename_i notAbove
    exact (min_eq_right (not_lt.mp notAbove)).symm

theorem near_real {a b : ℝ} : near a b ↔ |a - b| ≤ 1e-5 := decide_eq_true_iff

theorem nearZero_real {a : ℝ} : nearZero a ↔ |a| ≤ 1e-5 := decide_eq_true_iff

theorem nearRelative_real {a b relative : ℝ} :
    nearRelative a b relative ↔ |a - b| ≤ 1e-5 ∨ |a - b| ≤ relative * Max.max |a| |b| := by
  rw [← max_real]
  exact Bool.or_eq_true_iff.trans (or_congr decide_eq_true_iff decide_eq_true_iff)

theorem nearRelative_self (a relative : ℝ) : nearRelative a a relative := by
  rw [nearRelative_real, sub_self, abs_zero]
  exact .inl (by norm_num)

theorem nearRelative_comm {a b relative : ℝ} :
    nearRelative a b relative ↔ nearRelative b a relative := by
  rw [nearRelative_real, nearRelative_real, abs_sub_comm, max_comm]

/-- A number and its product with a gain are as close as the gain is to one. -/
theorem nearRelative_mul {gain relative : ℝ} (close : |gain - 1| ≤ relative) (a : ℝ) :
    nearRelative a (a * gain) relative := by
  have difference : a - a * gain = (1 - gain) * a := by ring
  have larger : |a| ≤ Max.max |a| |a * gain| := le_max_left _ _
  rw [nearRelative_real]
  right
  calc |a - a * gain|
    _ = |gain - 1| * |a| := by rw [difference, abs_mul, abs_sub_comm]
    _ ≤ relative * |a| := by gcongr
    _ ≤ relative * Max.max |a| |a * gain| :=
      mul_le_mul_of_nonneg_left larger ((abs_nonneg _).trans close)

end Scalar

namespace TransferFunction

theorem beq_real {f g : TransferFunction ℝ} : f == g ↔ f.curve = g.curve ∧
    Scalar.nearRelative f.min g.min 1e-4 ∧ Scalar.nearRelative f.max g.max 1e-4 := by
  simp only [BEq.beq, rangeTolerance, Bool.and_eq_true, decide_eq_true_eq, and_assoc]

theorem beq_self (f : TransferFunction ℝ) : f == f :=
  beq_real.mpr ⟨rfl, Scalar.nearRelative_self _ _, Scalar.nearRelative_self _ _⟩

theorem beq_comm {f g : TransferFunction ℝ} : f == g ↔ g == f := by
  rw [beq_real, beq_real, eq_comm, Scalar.nearRelative_comm, Scalar.nearRelative_comm (a := f.max)]

/-- Scaling by a gain that is close to one goes unnoticed. -/
theorem beq_scaled {f : TransferFunction ℝ} (increasing : f.IsIncreasing) {gain : ℝ}
    (positive : 0 < gain) (close : |gain - 1| ≤ 1e-4) : f == f.scaled gain := by
  rw [scaled_eq increasing positive]
  exact beq_real.mpr ⟨rfl, Scalar.nearRelative_mul close _, Scalar.nearRelative_mul close _⟩

end TransferFunction

namespace Mat4

theorem isNearIdentity_iff {m : Mat4 ℝ} : m.isNearIdentity ↔ m.near 1 := Iff.rfl

theorem isNearIdentity_one : (1 : Mat4 ℝ).isNearIdentity := by
  simp only [isNearIdentity_iff, one_eq, near, Vec4.near, Bool.and_eq_true, Scalar.near_real]
  norm_num

theorem isNearScaling_of_isNearIdentity {m : Mat4 ℝ} (identity : m.isNearIdentity) :
    m.isNearScaling := by
  simp only [isNearIdentity_iff, one_eq, isNearScaling, near, Vec4.near, Bool.and_eq_true,
    Scalar.near_real, Scalar.nearZero_real, sub_zero, Scalar.literal_one] at identity ⊢
  tauto

theorem uniform_eq (gain : ℝ) : uniform gain =
    ⟨⟨gain, 0, 0, 0⟩, ⟨0, gain, 0, 0⟩, ⟨0, 0, gain, 0⟩, ⟨0, 0, 0, 1⟩⟩ := by
  simp [uniform, scaling, ofLinear, affine, Mat3.diagonal, Vec3.splat]

theorem isNearIdentity_uniform {gain : ℝ} : (uniform gain).isNearIdentity ↔ |gain - 1| ≤ 1e-5 := by
  simp only [isNearIdentity_iff, one_eq, uniform_eq, near, Vec4.near, Bool.and_eq_true,
    Scalar.near_real]
  norm_num

theorem isNearScaling_uniform (gain : ℝ) : (uniform gain).isNearScaling := by
  simp only [isNearScaling, uniform_eq, Bool.and_eq_true, Scalar.near_real, Scalar.nearZero_real,
    Scalar.literal_one]
  norm_num

theorem gains_uniform (gain : ℝ) : (uniform gain).gains = Vec3.splat gain := by
  rw [uniform_eq]
  rfl

end Mat4

theorem Vec3.sub_eq (v w : Vec3 ℝ) : v - w = ⟨v.x - w.x, v.y - w.y, v.z - w.z⟩ := rfl

/-- A gain that is not close enough to one to be dropped as a matrix is not dropped as a gain. -/
theorem LinearOperation.not_isNegligible_splat {gain : ℝ} (far : ¬ |gain - 1| ≤ 1e-5) :
    ¬ (multiplier (Vec3.splat gain)).isNegligible := by
  have square : (1e-5 : ℝ) ^ 2 < (gain - 1) ^ 2 := sq_lt_sq.mpr (by
    rw [abs_of_pos (by norm_num)]
    exact not_le.mp far)
  -- The gain differs from one in all three channels, and the test compares squared lengths.
  have distance : (Vec3.splat gain - Vec3.splat 1).lengthSquared = 3 * (gain - 1) ^ 2 := by
    simp only [Vec3.sub_eq, Vec3.lengthSquared, Vec3.dot, Vec3.splat]
    ring
  have tolerance : (LinearOperation.unitGainTolerance : ℝ) = 1e-5 ^ 2 := by
    norm_num [LinearOperation.unitGainTolerance]
  simp only [isNegligible, Scalar.literal_one, distance, tolerance, decide_eq_true_eq]
  nlinarith

theorem Vec3.isFoldable_splat {gain : ℝ} (positive : 0 < gain) : (splat gain).IsFoldable := by
  refine ⟨?_, rfl, ?_⟩
  · simp only [isUniform, Bool.and_eq_true, Scalar.near_real, splat]
    norm_num
  · rw [Scalar.literal_zero]
    exact positive

end DisplayColor

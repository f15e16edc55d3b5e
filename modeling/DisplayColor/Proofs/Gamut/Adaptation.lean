import DisplayColor.Proofs.Matrices
import DisplayColor.Adaptation

/-! # Adapting white

In exact arithmetic adaptations compose: adapting from one white to a second and from there to a
third is adapting from the first to the third.  Both scale the same cone responses, and the response
to the white in the middle cancels, which it only does where it is not zero. -/

namespace DisplayColor

namespace Vec3

def HasNoZero (v : Vec3 ℝ) : Prop := v.x ≠ 0 ∧ v.y ≠ 0 ∧ v.z ≠ 0

theorem div_self {v : Vec3 ℝ} (noZero : v.HasNoZero) : v / v = splat 1 := by
  obtain ⟨x, y, z⟩ := noZero
  simp [div_eq, splat, x, y, z]

theorem div_mul_div_cancel {v : Vec3 ℝ} (noZero : v.HasNoZero) (u w : Vec3 ℝ) :
    u / v * (v / w) = u / w := by
  obtain ⟨x, y, z⟩ := noZero
  simp [div_eq, mul_eq, div_mul_div_cancel₀, x, y, z]

theorem div_mul_cancel {v : Vec3 ℝ} (noZero : v.HasNoZero) (u : Vec3 ℝ) : u / v * v = u := by
  obtain ⟨x, y, z⟩ := noZero
  simp [div_eq, mul_eq, x, y, z]

theorem mul_div_cancel {v : Vec3 ℝ} (noZero : v.HasNoZero) (u : Vec3 ℝ) : v * (u / v) = u := by
  obtain ⟨x, y, z⟩ := noZero
  simp [div_eq, mul_eq, mul_div_cancel₀, x, y, z]

end Vec3

namespace Adaptation

variable {cones : Mat3 ℝ}

theorem between_eq {inverse : Mat3 ℝ} (found : cones.wideInverse? = some inverse)
    (source target : Vec3 ℝ) :
    between cones source target =
      inverse * Mat3.diagonal (cones.apply target / cones.apply source) * cones := by
  simp only [between, found]
  exact if_pos rfl

theorem between_self (invertible : cones.wideInverse?.isSome) {white : Vec3 ℝ}
    (responds : (cones.apply white).HasNoZero) : between cones white white = 1 := by
  obtain ⟨inverse, found⟩ := Option.isSome_iff_exists.mp invertible
  have one : Mat3.diagonal (Vec3.splat (1 : ℝ)) = 1 := by
    simp [Mat3.diagonal, Mat3.one_eq, Vec3.splat]
  rw [between_eq found, Vec3.div_self responds, one, mul_one, (Mat3.mul_of_wideInverse? found).1]

theorem between_mul_between (invertible : cones.wideInverse?.isSome) {middle : Vec3 ℝ}
    (responds : (cones.apply middle).HasNoZero) (source target : Vec3 ℝ) :
    between cones middle target * between cones source middle = between cones source target := by
  obtain ⟨inverse, found⟩ := Option.isSome_iff_exists.mp invertible
  obtain ⟨_, cancel⟩ := Mat3.mul_of_wideInverse? found
  simp only [between_eq found]
  generalize fromSource : cones.apply middle / cones.apply source = first
  generalize toTarget : cones.apply target / cones.apply middle = second
  calc inverse * Mat3.diagonal second * cones * (inverse * Mat3.diagonal first * cones)
    _ = inverse * Mat3.diagonal second * (cones * inverse) * (Mat3.diagonal first * cones) := by
      simp only [mul_assoc]
    _ = inverse * (Mat3.diagonal second * Mat3.diagonal first) * cones := by
      simp only [cancel, mul_one, mul_assoc]
    _ = inverse * Mat3.diagonal (cones.apply target / cones.apply source) * cones := by
      rw [Mat3.diagonal_mul_diagonal, ← fromSource, ← toTarget, Vec3.div_mul_div_cancel responds]

theorem between_apply (invertible : cones.wideInverse?.isSome) {source : Vec3 ℝ}
    (responds : (cones.apply source).HasNoZero) (target : Vec3 ℝ) :
    (between cones source target).apply source = target := by
  obtain ⟨inverse, found⟩ := Option.isSome_iff_exists.mp invertible
  rw [between_eq found, Mat3.apply_mul, Mat3.apply_mul, Mat3.diagonal_apply,
    Vec3.div_mul_cancel responds, ← Mat3.apply_mul, (Mat3.mul_of_wideInverse? found).1,
    Mat3.one_apply]

theorem invertible_bradford : (bradford : Mat3 ℝ).wideInverse?.isSome := by
  refine Option.isSome_iff_exists.mpr ⟨_, Mat3.wideInverse?_eq_some.mpr ⟨?_, rfl⟩⟩
  norm_num [bradford, Mat3.tripleProduct, Mat3.column0, Mat3.column1, Mat3.column2, Vec3.dot,
    Vec3.cross]

end Adaptation

end DisplayColor

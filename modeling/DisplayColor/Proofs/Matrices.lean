import DisplayColor.Proofs.Exact
import DisplayColor.Mat4
import Mathlib.Tactic.LinearCombination

/-! # Real matrices

In exact arithmetic the linear and the affine transforms are monoids that act on colours, a scaling
is the product with its gains, and a matrix that is not refused as singular has a two-sided inverse.

The affine action does not read the bottom row.  It is an action only as long as that row is
`0 0 0 1`, so `IsAffine` has to be carried along with every product. -/

namespace DisplayColor

attribute [ext] Vec3 Vec4 Mat3 Mat4

namespace Vec3

variable {α : Type} [Scalar α]

theorem add_eq (v w : Vec3 α) : v + w = ⟨v.x + w.x, v.y + w.y, v.z + w.z⟩ := rfl

theorem mul_eq (v w : Vec3 α) : v * w = ⟨v.x * w.x, v.y * w.y, v.z * w.z⟩ := rfl

theorem div_eq (v w : Vec3 α) : v / w = ⟨v.x / w.x, v.y / w.y, v.z / w.z⟩ := rfl

theorem scale_eq (v : Vec3 α) (s : α) : v * s = ⟨v.x * s, v.y * s, v.z * s⟩ := rfl

theorem divide_eq (v : Vec3 α) (s : α) : v / s = ⟨v.x / s, v.y / s, v.z / s⟩ := rfl

@[simp] theorem widen_real (v : Vec3 ℝ) : (v.widen : Vec3 ℝ) = v := rfl

end Vec3

/-! ## Linear transforms -/

namespace Mat3

@[simp] theorem widen_real (m : Mat3 ℝ) : (m.widen : Mat3 ℝ) = m := rfl

theorem mul_eq (a b : Mat3 ℝ) :
    a * b = ofColumns (a.apply b.column0) (a.apply b.column1) (a.apply b.column2) := rfl

noncomputable instance : One (Mat3 ℝ) := ⟨identity⟩

theorem one_eq : (1 : Mat3 ℝ) = ⟨⟨1, 0, 0⟩, ⟨0, 1, 0⟩, ⟨0, 0, 1⟩⟩ := by
  show identity = _
  simp [identity, diagonal, Vec3.splat]

noncomputable instance : Monoid (Mat3 ℝ) where
  mul_assoc a b c := by
    ext <;> simp only [mul_eq, ofColumns, apply, column0, column1, column2, Vec3.dot] <;> ring
  one_mul a := by
    ext <;> simp [mul_eq, one_eq, ofColumns, apply, column0, column1, column2, Vec3.dot]
  mul_one a := by
    ext <;> simp [mul_eq, one_eq, ofColumns, apply, column0, column1, column2, Vec3.dot]

theorem apply_mul (a b : Mat3 ℝ) (v : Vec3 ℝ) : (a * b).apply v = a.apply (b.apply v) := by
  ext <;> simp only [mul_eq, ofColumns, apply, column0, column1, column2, Vec3.dot] <;> ring

@[simp] theorem one_apply (v : Vec3 ℝ) : (1 : Mat3 ℝ).apply v = v := by
  ext <;> simp [one_eq, apply, Vec3.dot]

theorem diagonal_mul_diagonal (d e : Vec3 ℝ) : diagonal d * diagonal e = diagonal (d * e) := by
  ext <;>
    simp [mul_eq, diagonal, ofColumns, apply, column0, column1, column2, Vec3.dot, Vec3.mul_eq]

theorem diagonal_apply (d v : Vec3 ℝ) : (diagonal d).apply v = d * v := by
  ext <;> simp [diagonal, apply, Vec3.dot, Vec3.mul_eq]

theorem tripleProduct_ofColumns (u v w : Vec3 ℝ) :
    (ofColumns u v w).tripleProduct = w.dot (u.cross v) := rfl

/-- The triple product is the determinant, so the rows of the quotient inverse are dual to the
columns. -/
theorem quotientInverse_mul {m : Mat3 ℝ} (regular : m.tripleProduct ≠ 0) :
    m.quotientInverse * m = 1 := by
  have unit : m.tripleProduct * (1 / m.tripleProduct) = 1 := mul_one_div_cancel regular
  simp only [tripleProduct, column0, column1, column2, Vec3.dot, Vec3.cross] at unit
  ext <;> simp only [mul_eq, one_eq, quotientInverse, ofColumns, apply, column0, column1, column2,
    Vec3.dot, Vec3.cross, Vec3.scale_eq, Scalar.literal_one]
  case r0.x | r1.y | r2.z => linear_combination unit
  all_goals ring

theorem mul_quotientInverse {m : Mat3 ℝ} (regular : m.tripleProduct ≠ 0) :
    m * m.quotientInverse = 1 := by
  have unit : m.tripleProduct * (1 / m.tripleProduct) = 1 := mul_one_div_cancel regular
  simp only [tripleProduct, column0, column1, column2, Vec3.dot, Vec3.cross] at unit
  ext <;> simp only [mul_eq, one_eq, quotientInverse, ofColumns, apply, column0, column1, column2,
    Vec3.dot, Vec3.cross, Vec3.scale_eq, Scalar.literal_one]
  case r0.x | r1.y | r2.z => linear_combination unit
  all_goals ring

/-- Over the reals only the size of the determinant can refuse an inverse. -/
theorem wideInverse?_eq_some {m inverse : Mat3 ℝ} :
    m.wideInverse? = some inverse ↔ 1e-10 ≤ |m.tripleProduct| ∧ m.quotientInverse = inverse := by
  have finite : m.quotientInverse.isFinite = true := rfl
  simp only [wideInverse?, inverseGiven?, Scalar.isFinite_real, Bool.not_true, Bool.false_or,
    decide_eq_true_eq, finite, if_true]
  split_ifs with small
  · have : ¬ 1e-10 ≤ |m.tripleProduct| := not_le.mpr small
    simp [this]
  · have : 1e-10 ≤ |m.tripleProduct| := not_lt.mp small
    simp [this]

theorem mul_of_wideInverse? {m inverse : Mat3 ℝ} (found : m.wideInverse? = some inverse) :
    inverse * m = 1 ∧ m * inverse = 1 := by
  obtain ⟨large, rfl⟩ := wideInverse?_eq_some.mp found
  have regular : m.tripleProduct ≠ 0 := by
    intro singular
    rw [singular, abs_zero] at large
    norm_num at large
  exact ⟨quotientInverse_mul regular, mul_quotientInverse regular⟩

end Mat3

/-! ## Affine transforms -/

namespace Mat4

@[simp] theorem narrow_real (m : Mat4 ℝ) : (m.narrow : Mat4 ℝ) = m := rfl

theorem mul_eq (a b : Mat4 ℝ) : a * b = a.product b := rfl

theorem apply_eq (m : Mat4 ℝ) (v : Vec3 ℝ) : m.apply v = m.applyDirect v := rfl

noncomputable instance : One (Mat4 ℝ) := ⟨identity⟩

theorem one_eq :
    (1 : Mat4 ℝ) = ⟨⟨1, 0, 0, 0⟩, ⟨0, 1, 0, 0⟩, ⟨0, 0, 1, 0⟩, ⟨0, 0, 0, 1⟩⟩ := by
  show identity = _
  simp [identity, affine, Mat3.identity, Mat3.diagonal, Vec3.splat]

noncomputable instance : Monoid (Mat4 ℝ) where
  mul_assoc a b c := by
    ext <;> simp only [mul_eq, product, transpose, Vec4.dot] <;> ring
  one_mul a := by
    ext <;> simp [mul_eq, one_eq, product, transpose, Vec4.dot]
  mul_one a := by
    ext <;> simp [mul_eq, one_eq, product, transpose, Vec4.dot]

/-- The bottom row is `0 0 0 1`. -/
def IsAffine (m : Mat4 ℝ) : Prop := m.r3 = ⟨0, 0, 0, 1⟩

theorem isAffine_affine (linear : Mat3 ℝ) (offset : Vec3 ℝ) : (affine linear offset).IsAffine := by
  simp [IsAffine, affine]

theorem isAffine_ofLinear (linear : Mat3 ℝ) : (ofLinear linear).IsAffine := isAffine_affine _ _

theorem isAffine_translation (offset : Vec3 ℝ) : (translation offset).IsAffine :=
  isAffine_affine _ _

theorem isAffine_scaling (gains : Vec3 ℝ) : (scaling gains).IsAffine := isAffine_ofLinear _

theorem isAffine_uniform (gain : ℝ) : (uniform gain).IsAffine := isAffine_scaling _

theorem IsAffine.mul {a b : Mat4 ℝ} (first : a.IsAffine) (second : b.IsAffine) :
    (a * b).IsAffine := by
  simp only [IsAffine] at first second
  simp [IsAffine, mul_eq, product, transpose, Vec4.dot, first, second]

/-- Only the bottom row of the right factor matters: it stands for the one that is carried along. -/
theorem apply_mul {a b : Mat4 ℝ} (affine : b.IsAffine) (v : Vec3 ℝ) :
    (a * b).apply v = a.apply (b.apply v) := by
  simp only [IsAffine] at affine
  ext <;> simp only [apply_eq, applyDirect, mul_eq, product, transpose, Vec4.dot, affine] <;> ring

@[simp] theorem one_apply (v : Vec3 ℝ) : (1 : Mat4 ℝ).apply v = v := by
  ext <;> simp [apply_eq, applyDirect, one_eq]

theorem affine_apply (linear : Mat3 ℝ) (offset v : Vec3 ℝ) :
    (affine linear offset).apply v = linear.apply v + offset := by
  ext <;> simp [apply_eq, applyDirect, affine, Mat3.apply, Vec3.dot, Vec3.add_eq]

theorem ofLinear_apply (linear : Mat3 ℝ) (v : Vec3 ℝ) :
    (ofLinear linear).apply v = linear.apply v := by
  ext <;> simp [ofLinear, affine_apply, Vec3.add_eq, Vec3.splat]

theorem scaling_apply (gains v : Vec3 ℝ) : (scaling gains).apply v = v * gains := by
  rw [scaling, ofLinear_apply, Mat3.diagonal_apply]
  ext <;> simp [Vec3.mul_eq, mul_comm]

theorem ofLinear_mul (a b : Mat3 ℝ) : ofLinear a * ofLinear b = ofLinear (a * b) := by
  ext <;> simp [mul_eq, product, transpose, ofLinear, affine, Vec4.dot, Vec3.splat, Mat3.mul_eq,
    Mat3.ofColumns, Mat3.apply, Mat3.column0, Mat3.column1, Mat3.column2, Vec3.dot]

theorem ofLinear_one : ofLinear (1 : Mat3 ℝ) = 1 := rfl

theorem translation_apply (offset v : Vec3 ℝ) : (translation offset).apply v = v + offset := by
  rw [translation, affine_apply]
  exact congrArg (· + offset) (Mat3.one_apply v)

theorem translation_mul (first second : Vec3 ℝ) :
    translation first * translation second = translation (first + second) := by
  ext <;> simp [mul_eq, product, transpose, translation, affine, Mat3.identity, Mat3.diagonal,
    Vec4.dot, Vec3.splat, Vec3.add_eq, add_comm]

theorem translation_zero : translation (Vec3.splat (0 : ℝ)) = 1 := by
  simp [translation, affine, Mat3.identity, Mat3.diagonal, one_eq, Vec3.splat]

theorem uniform_apply (gain : ℝ) (v : Vec3 ℝ) : (uniform gain).apply v = v * gain :=
  scaling_apply _ _

theorem uniform_mul (first second : ℝ) :
    uniform first * uniform second = uniform (first * second) := by
  simp only [uniform, scaling, ofLinear_mul, Mat3.diagonal_mul_diagonal]
  rfl

theorem uniform_one : uniform (1 : ℝ) = 1 := by
  simp [uniform, scaling, ofLinear, affine, Mat3.diagonal, one_eq, Vec3.splat]

theorem uniform_mul_ofLinear (gain : ℝ) (m : Mat3 ℝ) :
    uniform gain * ofLinear m = ofLinear m * uniform gain := by
  ext <;> simp [mul_eq, product, transpose, uniform, scaling, ofLinear, affine, Mat3.diagonal,
    Vec4.dot, Vec3.splat, mul_comm]

end Mat4

end DisplayColor

import Mathlib.Analysis.SpecialFunctions.Pow.Real
import DisplayColor.Scalar

/-! # Exact arithmetic

The real numbers as scalars, and as their own wide companion.  Nothing is rounded, nothing is
infinite and nothing is undefined.  A quotient by zero is zero here, so statements over this reading
either keep denominators away from zero or treat both sides of a law alike. -/

namespace DisplayColor

noncomputable instance exactScalar : Scalar ℝ where
  ofNat n := n
  decidableLT := inferInstance
  decidableLE := inferInstance
  isFinite _ := true
  isNaN _ := false
  isMinus x := decide (x < 0)
  abs x := |x|
  sqrt := Real.sqrt
  exp := Real.exp
  log := Real.log
  pow base exponent := base ^ exponent
  wholePart x := min ⌊x⌋₊ (2 ^ 64 - 1)
  euler := Real.exp 1

noncomputable instance exactPrecision : Precision ℝ ℝ := ⟨id, id⟩

namespace Scalar

/-- The literals of generic definitions are the usual numerals.  From two on they are so by
definition, and `norm_num` and `ring` see through it. -/
@[simp] theorem literal_zero : @OfNat.ofNat ℝ 0 (instOfNatOfScalar 0) = 0 := Nat.cast_zero

@[simp] theorem literal_one : @OfNat.ofNat ℝ 1 (instOfNatOfScalar 1) = 1 := Nat.cast_one

@[simp] theorem isFinite_real (x : ℝ) : isFinite x = true := rfl

@[simp] theorem isNaN_real (x : ℝ) : isNaN x = false := rfl

@[simp] theorem abs_real (x : ℝ) : Scalar.abs x = |x| := rfl

@[simp] theorem widen_real (x : ℝ) : (widen x : ℝ) = x := rfl

@[simp] theorem narrow_real (x : ℝ) : (narrow x : ℝ) = x := rfl

end Scalar

end DisplayColor

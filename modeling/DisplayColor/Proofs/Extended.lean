import Mathlib.Analysis.SpecialFunctions.Log.ENNRealLogExp
import Mathlib.Data.EReal.Inv
import DisplayColor.Proofs.Exact

/-! # Exact arithmetic with special values

The extended reals and an undefined value, as scalars and as their own wide companion.  Nothing is
rounded, but infinite and undefined numbers are treated as in binary arithmetic: a quotient by zero
is infinite, an operation without a value is undefined, so is every operation with an undefined
operand except for the powers that do not depend on it, and comparisons with it fail.  There is one
zero only, which counts as positive. -/

namespace DisplayColor

/-- An extended real number, or no number. -/
inductive Extended
  | value (x : EReal)
  | undefined

namespace Extended

instance : Coe ℝ Extended := ⟨fun x => value x⟩

/-- What has an undefined argument is undefined. -/
def unary (f : EReal → Extended) : Extended → Extended
  | value x => f x
  | undefined => undefined

@[inherit_doc unary]
def binary (f : EReal → EReal → Extended) : Extended → Extended → Extended
  | value x, value y => f x y
  | _, _ => undefined

/-- A comparison with what is undefined fails. -/
def compared (relation : EReal → EReal → Prop) : Extended → Extended → Prop
  | value x, value y => relation x y
  | _, _ => False

noncomputable section

open Classical in
def sum (x y : EReal) : Extended :=
  if (x = ⊤ ∧ y = ⊥) ∨ (x = ⊥ ∧ y = ⊤) then undefined else value (x + y)

open Classical in
def product (x y : EReal) : Extended :=
  if (x = 0 ∧ y.abs = ⊤) ∨ (x.abs = ⊤ ∧ y = 0) then undefined else value (x * y)

open Classical in
def quotient (x y : EReal) : Extended :=
  if (x = 0 ∧ y = 0) ∨ (x.abs = ⊤ ∧ y.abs = ⊤) then undefined
  else if y = 0 then if 0 < x then value ⊤ else value ⊥
  else value (x / y)

open Classical in
/-- The power of a base other than one to an exponent other than zero.  A negative base has powers
with whole exponents only, unless it is infinite. -/
def power (x y : EReal) : Extended :=
  if y = ⊤ then if x.abs = 1 then value 1 else if x.abs < 1 then value 0 else value ⊤
  else if y = ⊥ then if x.abs = 1 then value 1 else if x.abs < 1 then value ⊤ else value 0
  else
    let size : ENNReal := x.abs ^ y.toReal
    if 0 ≤ x then value size
    else if ∃ n : ℤ, Odd n ∧ y.toReal = n then value (-size)
    else if x = ⊥ ∨ ∃ n : ℤ, y.toReal = n then value size
    else undefined

open Classical in
instance : Scalar Extended where
  add := binary sum
  sub := binary fun x y => sum x (-y)
  mul := binary product
  div := binary quotient
  neg := unary fun x => value (-x)
  lt := compared (· < ·)
  le := compared (· ≤ ·)
  beq x y := compared (· = ·) x y
  ofScientific digits negative exponent :=
    value (OfScientific.ofScientific digits negative exponent : ℝ)
  ofNat n := value (n : ℝ)
  decidableLT _ _ := propDecidable _
  decidableLE _ _ := propDecidable _
  isFinite
    | value x => x ≠ ⊤ ∧ x ≠ ⊥
    | undefined => false
  isNaN
    | value _ => false
    | undefined => true
  isMinus
    | value x => x < 0
    | undefined => false
  abs := unary fun x => value x.abs
  sqrt := unary fun x => if x < 0 then undefined else value (x.toENNReal ^ (1 / 2 : ℝ) : ENNReal)
  exp := unary fun x => value x.exp
  log := unary fun x => if x < 0 then undefined else value x.toENNReal.log
  pow x y := if x = value 1 ∨ y = value 0 then value 1 else binary power x y
  wholePart
    | value x => if x = ⊤ then 2 ^ 64 - 1 else min ⌊x.toReal⌋₊ (2 ^ 64 - 1)
    | undefined => 0
  euler := value (Real.exp 1)

instance : Precision Extended Extended := ⟨id, id⟩

end

/-! ## Real numbers -/

variable {x y : ℝ}

theorem literal (n : ℕ) :
    @OfNat.ofNat Extended n (instOfNatOfScalar n) = ((n : ℝ) : Extended) := rfl

theorem literal_zero : (0 : Extended) = ((0 : ℝ) : Extended) := by
  rw [literal 0, Nat.cast_zero]

theorem literal_one : (1 : Extended) = ((1 : ℝ) : Extended) := by
  rw [literal 1, Nat.cast_one]

@[simp] theorem isFinite_real (x : ℝ) : Scalar.isFinite (x : Extended) = true := by
  simp [Scalar.isFinite]

@[simp] theorem isNaN_real (x : ℝ) : Scalar.isNaN (x : Extended) = false := rfl

@[simp] theorem isMinus_real (x : ℝ) : Scalar.isMinus (x : Extended) = decide (x < 0) := by
  simp [Scalar.isMinus]

theorem isFinite_iff {z : Extended} : Scalar.isFinite z ↔ ∃ x : ℝ, z = x := by
  cases z with
  | value z =>
    induction z with
    | bot => simp [Scalar.isFinite]
    | coe x => simp
    | top => simp [Scalar.isFinite]
  | undefined => exact iff_of_false Bool.false_ne_true (by simp)

@[simp] theorem lt_real : (x : Extended) < y ↔ x < y := EReal.coe_lt_coe_iff

@[simp] theorem le_real : (x : Extended) ≤ y ↔ x ≤ y := EReal.coe_le_coe_iff

theorem add_real (x y : ℝ) : (x : Extended) + y = ((x + y : ℝ) : Extended) := by
  show sum x y = _
  simp [sum]

theorem sub_real (x y : ℝ) : (x : Extended) - y = ((x - y : ℝ) : Extended) := by
  show sum x (-y) = _
  rw [sub_eq_add_neg, ← EReal.coe_neg]
  exact add_real x (-y)

theorem abs_coe_ne_top (x : ℝ) : (x : EReal).abs ≠ ⊤ := by
  rw [EReal.abs_def]
  exact ENNReal.ofReal_ne_top

theorem mul_real (x y : ℝ) : (x : Extended) * y = ((x * y : ℝ) : Extended) := by
  show product x y = _
  simp [product, abs_coe_ne_top]

theorem div_real (x : ℝ) (nonzero : y ≠ 0) : (x : Extended) / y = ((x / y : ℝ) : Extended) := by
  show quotient x y = _
  simp [quotient, abs_coe_ne_top, nonzero, EReal.coe_div]

theorem abs_real (x : ℝ) : Scalar.abs (x : Extended) = ((|x| : ℝ) : Extended) :=
  congrArg value (EReal.coe_abs x)

theorem one_pow (y : Extended) : Scalar.pow ((1 : ℝ) : Extended) y = ((1 : ℝ) : Extended) :=
  if_pos (.inl rfl)

end Extended

end DisplayColor

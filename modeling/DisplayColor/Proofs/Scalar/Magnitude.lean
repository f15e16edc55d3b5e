import DisplayColor.Proofs.Scalar.Packing

/-! # Magnitudes of binary numbers

Numbers of both precisions are bounded by `c * 2 ^ k` with `c` at most four.  Each arithmetic
operation has one law, which gives the bound of its result and asks that this bound is in the range
of the precision; in particular the result is then finite.  Bounds of given numbers are computed. -/

namespace DisplayColor

open Float.Model (Format UnpackedFloat)
open Float.Model.UnpackedFloat

/-- Scalars that are the numbers of a format.  Each operation gives the exact result rounded once,
as long as that is in the range of the format. -/
class BinaryScalar (α : Type) [Scalar α] where
  format : Format
  four_lt : 4 < 2 ^ format.mantissaBits
  /-- Numbers up to four times this power of two are in the range. -/
  room : ℕ
  room_le : room + 2 ≤ format.exponentBias
  unpacked : α → UnpackedFloat
  isCanonical (x : α) (sign : Sign) (mantissa : ℕ) (exponent : ℤ) (positive : 0 < mantissa) :
    unpacked x = .finite sign mantissa exponent positive → IsCanonical format mantissa exponent
  isFinite_eq (x : α) : Scalar.isFinite x = (unpacked x).isFinite
  le_iff (x y : α) : x ≤ y ↔ (unpacked x).le (unpacked y)
  lt_iff (x y : α) : x < y ↔ (unpacked x).lt (unpacked y)
  unpacked_zero : unpacked 0 = .zero .positive
  unpacked_one : ∃ mantissa exponent positive,
    unpacked 1 = .finite .positive mantissa exponent positive ∧ (mantissa : ℚ) * 2 ^ exponent = 1
  unpacked_neg (x : α) : unpacked (-x) = (unpacked x).neg
  unpacked_abs (x : α) : unpacked (Scalar.abs x) = (unpacked x).abs
  unpacked_add {bound : ℚ} (x y : α) : bound < 2 ^ (format.exponentBias + 1) →
    IsWithin format bound ((unpacked x).add format (unpacked y)) →
    unpacked (x + y) = (unpacked x).add format (unpacked y)
  unpacked_sub {bound : ℚ} (x y : α) : bound < 2 ^ (format.exponentBias + 1) →
    IsWithin format bound ((unpacked x).sub format (unpacked y)) →
    unpacked (x - y) = (unpacked x).sub format (unpacked y)
  unpacked_mul {bound : ℚ} (x y : α) : bound < 2 ^ (format.exponentBias + 1) →
    IsWithin format bound ((unpacked x).mul format (unpacked y)) →
    unpacked (x * y) = (unpacked x).mul format (unpacked y)
  unpacked_div {bound : ℚ} (x y : α) : bound < 2 ^ (format.exponentBias + 1) →
    IsWithin format bound ((unpacked x).div format (unpacked y)) →
    unpacked (x / y) = (unpacked x).div format (unpacked y)

theorem isNaN_eq_false_of_isWithin {format : Format} {bound : ℚ} {u : UnpackedFloat}
    (within : IsWithin format bound u) : u.isNaN = false := by
  match u with
  | .zero _ | .finite _ _ _ _ => rfl
  | .infinity _ | .notANumber => exact within.elim

/-! ## The two precisions -/

namespace Single

def unpacked (x : Single) : UnpackedFloat := unpack .binary32 x.bits.toBitVec

theorem unpack_value (x : Single) : x.value.toModel.unpack = x.unpacked :=
  unpack_pack_unpack .binary32 x.bits.toBitVec (by decide)

theorem unpacked_computed {bound : ℚ} {u : UnpackedFloat} (operands : List Single)
    (range : bound < 2 ^ (Format.binary32.exponentBias + 1)) (within : IsWithin .binary32 bound u) :
    (computed operands (.ofModel (.pack u))).unpacked = u := by
  have packed : (Float32.Model.pack u).unpack = u := unpack_pack within (by decide) range
  have defined : (Float32.ofModel (.pack u)).isNaN = false := by
    show (Float32.Model.pack u).unpack.isNaN = false
    rw [packed]
    exact isNaN_eq_false_of_isWithin within
  rw [computed, if_neg (Bool.eq_false_iff.mp defined)]
  exact packed

instance : BinaryScalar Single where
  format := .binary32
  four_lt := by decide
  room := 125
  room_le := by decide
  unpacked := unpacked
  isCanonical _ _ _ _ _ := isCanonical_of_unpack
  isFinite_eq x := congrArg UnpackedFloat.isFinite x.unpack_value
  le_iff x y := by
    rw [← unpack_value x, ← unpack_value y]
    exact decide_eq_true_iff
  lt_iff x y := by
    rw [← unpack_value x, ← unpack_value y]
    exact decide_eq_true_iff
  unpacked_zero := rfl
  unpacked_one := ⟨2 ^ 23, -23, by decide, rfl, by norm_num⟩
  unpacked_neg x := unpack_xor_sign .binary32 x.bits.toBitVec
  unpacked_abs x := unpack_and_unsigned .binary32 x.bits.toBitVec
  unpacked_add x y range within := by
    rw [← unpack_value x, ← unpack_value y] at within ⊢
    exact unpacked_computed [x, y] range within
  unpacked_sub x y range within := by
    rw [← unpack_value x, ← unpack_value y] at within ⊢
    exact unpacked_computed [x, y] range within
  unpacked_mul x y range within := by
    rw [← unpack_value x, ← unpack_value y] at within ⊢
    exact unpacked_computed [x, y] range within
  unpacked_div x y range within := by
    rw [← unpack_value x, ← unpack_value y] at within ⊢
    exact unpacked_computed [x, y] range within

end Single

namespace Double

def unpacked (x : Double) : UnpackedFloat := unpack .binary64 x.bits.toBitVec

theorem unpack_value (x : Double) : x.value.toModel.unpack = x.unpacked :=
  unpack_pack_unpack .binary64 x.bits.toBitVec (by decide)

theorem unpacked_computed {bound : ℚ} {u : UnpackedFloat} (operands : List Double)
    (range : bound < 2 ^ (Format.binary64.exponentBias + 1)) (within : IsWithin .binary64 bound u) :
    (computed operands (.ofModel (.pack u))).unpacked = u := by
  have packed : (Float.Model.pack u).unpack = u := unpack_pack within (by decide) range
  have defined : (Float.ofModel (.pack u)).isNaN = false := by
    show (Float.Model.pack u).unpack.isNaN = false
    rw [packed]
    exact isNaN_eq_false_of_isWithin within
  rw [computed, if_neg (Bool.eq_false_iff.mp defined)]
  exact packed

instance : BinaryScalar Double where
  format := .binary64
  four_lt := by decide
  room := 1021
  room_le := by decide
  unpacked := unpacked
  isCanonical _ _ _ _ _ := isCanonical_of_unpack
  isFinite_eq x := congrArg UnpackedFloat.isFinite x.unpack_value
  le_iff x y := by
    rw [← unpack_value x, ← unpack_value y]
    exact decide_eq_true_iff
  lt_iff x y := by
    rw [← unpack_value x, ← unpack_value y]
    exact decide_eq_true_iff
  unpacked_zero := rfl
  unpacked_one := ⟨2 ^ 52, -52, by decide, rfl, by norm_num⟩
  unpacked_neg x := unpack_xor_sign .binary64 x.bits.toBitVec
  unpacked_abs x := unpack_and_unsigned .binary64 x.bits.toBitVec
  unpacked_add x y range within := by
    rw [← unpack_value x, ← unpack_value y] at within ⊢
    exact unpacked_computed [x, y] range within
  unpacked_sub x y range within := by
    rw [← unpack_value x, ← unpack_value y] at within ⊢
    exact unpacked_computed [x, y] range within
  unpacked_mul x y range within := by
    rw [← unpack_value x, ← unpack_value y] at within ⊢
    exact unpacked_computed [x, y] range within
  unpacked_div x y range within := by
    rw [← unpack_value x, ← unpack_value y] at within ⊢
    exact unpacked_computed [x, y] range within

end Double

@[simp] theorem room_single : BinaryScalar.room Single = 125 := rfl

@[simp] theorem room_double : BinaryScalar.room Double = 1021 := rfl

/-! ## Bounds -/

section Bounds

variable {α : Type} [Scalar α] [BinaryScalar α]

open BinaryScalar

/-- The magnitude is at most `c * 2 ^ k`; in particular the number is finite. -/
def AtMost (c k : ℕ) (x : α) : Prop := IsWithin (format α) (c * 2 ^ k) (unpacked x)

/-- The number is finite and at least `2 ^ -k`. -/
def AtLeast (k : ℕ) (x : α) : Prop := IsBeyond (format α) (1 / 2 ^ k) (unpacked x)

variable {c d j k : ℕ} {x y : α}

theorem AtMost.isFinite (bounded : AtMost c k x) : Scalar.isFinite x := by
  rw [isFinite_eq]
  unfold AtMost at bounded
  cases unpacked : unpacked x with
  | zero _ | finite _ _ _ _ => rfl
  | infinity _ | notANumber =>
    rw [unpacked] at bounded
    exact bounded.elim

theorem AtMost.mono (bounded : AtMost c j x) (more : c ≤ d) (le : j ≤ k) : AtMost d k x := by
  refine IsWithin.mono bounded ?_
  gcongr
  · exact one_le_two

/-- Where the magnitude is zero, powers of two do not matter. -/
theorem AtMost.of_zero (bounded : AtMost 0 j x) (k : ℕ) : AtMost 0 k x := by
  refine IsWithin.mono bounded ?_
  simp

theorem atMost_zero (k : ℕ) : AtMost 0 k (0 : α) := by
  rw [AtMost, unpacked_zero]
  exact (by simp : (0 : ℚ) ≤ (0 : ℕ) * 2 ^ k)

theorem atMost_one : AtMost 1 0 (1 : α) := by
  obtain ⟨mantissa, exponent, positive, one, value⟩ := unpacked_one (α := α)
  rw [AtMost, one]
  exact ⟨isCanonical _ _ _ _ positive one, by simp [value]⟩

theorem AtMost.of_two (bounded : AtMost 2 k x) : AtMost 1 (k + 1) x := by
  refine IsWithin.mono bounded ?_
  rw [pow_succ]
  push_cast
  linarith

theorem AtMost.of_four (bounded : AtMost 4 k x) : AtMost 1 (k + 2) x := by
  refine IsWithin.mono bounded ?_
  rw [pow_add]
  push_cast
  linarith

theorem four_lt_digits (few : c ≤ 4) : c < 2 ^ (format α).mantissaBits :=
  few.trans_lt four_lt

theorem bound_lt_range (few : c ≤ 4) (inRange : k ≤ room α) :
    ((c * 2 ^ k : ℕ) : ℚ) < 2 ^ ((format α).exponentBias + 1) := by
  have room := room_le (α := α)
  have lt : c * 2 ^ k < 2 ^ ((format α).exponentBias + 1) := by
    calc c * 2 ^ k
      _ ≤ 4 * 2 ^ k := Nat.mul_le_mul_right _ few
      _ = 2 ^ (k + 2) := by ring
      _ < 2 ^ ((format α).exponentBias + 1) := Nat.pow_lt_pow_right one_lt_two (by omega)
  exact_mod_cast lt

theorem AtMost.neg (bounded : AtMost c k x) : AtMost c k (-x) := by
  rw [AtMost, unpacked_neg]
  exact IsWithin.neg bounded

theorem AtMost.add (left : AtMost c k x) (right : AtMost d k y) (few : c + d ≤ 4)
    (inRange : k ≤ room α) : AtMost (c + d) k (x + y) := by
  have within : IsWithin (format α) ((c + d : ℕ) * 2 ^ k)
      ((unpacked x).add (format α) (unpacked y)) := by
    refine IsWithin.add left right (four_lt_digits few) (le_of_eq ?_)
    push_cast
    ring
  have range := bound_lt_range (α := α) few inRange
  push_cast at range within
  rw [AtMost, unpacked_add x y range within]
  exact_mod_cast within

theorem AtMost.sub (left : AtMost c k x) (right : AtMost d k y) (few : c + d ≤ 4)
    (inRange : k ≤ room α) : AtMost (c + d) k (x - y) := by
  have within : IsWithin (format α) ((c + d : ℕ) * 2 ^ k)
      ((unpacked x).sub (format α) (unpacked y)) := by
    refine IsWithin.sub left right (four_lt_digits few) (le_of_eq ?_)
    push_cast
    ring
  have range := bound_lt_range (α := α) few inRange
  push_cast at range within
  rw [AtMost, unpacked_sub x y range within]
  exact_mod_cast within

theorem AtMost.mul (left : AtMost c j x) (right : AtMost d k y) (few : c * d ≤ 4)
    (inRange : j + k ≤ room α) : AtMost (c * d) (j + k) (x * y) := by
  have within : IsWithin (format α) ((c * d : ℕ) * 2 ^ (j + k))
      ((unpacked x).mul (format α) (unpacked y)) := by
    refine IsWithin.mul left right (four_lt_digits few) (le_of_eq ?_)
    push_cast
    ring
  have range := bound_lt_range (α := α) few inRange
  push_cast at range within
  rw [AtMost, unpacked_mul x y range within]
  exact_mod_cast within

theorem AtMost.div (left : AtMost c j x) (right : AtLeast k y) (few : c ≤ 4)
    (inRange : j + k ≤ room α) : AtMost c (j + k) (x / y) := by
  have within : IsWithin (format α) (c * 2 ^ (j + k))
      ((unpacked x).div (format α) (unpacked y)) := by
    refine IsWithin.div left right (by positivity) (four_lt_digits few) (le_of_eq ?_)
    rw [pow_add]
    field_simp
  have range := bound_lt_range (α := α) few inRange
  push_cast at range
  rwa [AtMost, unpacked_div x y range within]

theorem AtLeast.atMost_inverse (beyond : AtLeast k x) (inRange : k ≤ room α) :
    AtMost 1 k (1 / x) := by
  have inverse := atMost_one.div beyond (by decide) ((Nat.zero_add k).trans_le inRange)
  rwa [Nat.zero_add] at inverse

theorem BinaryScalar.le_of_lt (less : x < y) : x ≤ y := by
  rw [lt_iff] at less
  have ordered : (unpacked x).compare (unpacked y) = some .lt := eq_of_beq less
  rw [le_iff, UnpackedFloat.le, ordered]
  rfl

/-- A comparison with a number whose magnitude is known. -/
theorem AtMost.of_abs_le (le : Scalar.abs x ≤ y) (bounded : AtMost c k y) : AtMost c k x := by
  rw [le_iff, unpacked_abs] at le
  exact isWithin_of_abs_le (isCanonical x) le bounded

theorem AtMost.of_le (nonneg : 0 ≤ x) (le : x ≤ y) (bounded : AtMost c k y) : AtMost c k x := by
  rw [le_iff, unpacked_zero] at nonneg
  exact isWithin_of_le (isCanonical x) nonneg ((le_iff x y).mp le) bounded

theorem AtLeast.of_le (bounded : AtMost c j x) (le : y ≤ x) (beyond : AtLeast k y) :
    AtLeast k x :=
  isBeyond_of_le bounded ((le_iff y x).mp le) beyond

end Bounds

/-! ## Bounds that can be computed

A number of a format is a whole number of units, of which the smallest number is one. -/

section Computed

variable {α : Type} [Scalar α] [BinaryScalar α]

open BinaryScalar

def unitsToOne (format : Format) : ℕ := (-format.minExponent).toNat

def units (format : Format) (mantissa : ℕ) (exponent : ℤ) : ℕ :=
  mantissa <<< (exponent - format.minExponent).toNat

def isAtMost (k : ℕ) (x : α) : Bool :=
  match unpacked x with
  | .zero _ => true
  | .finite _ mantissa exponent _ =>
    decide (units (format α) mantissa exponent ≤ 2 ^ (k + unitsToOne (format α)))
  | _ => false

def isAtLeast (k : ℕ) (x : α) : Bool :=
  match unpacked x with
  | .finite .positive mantissa exponent _ =>
    decide (2 ^ unitsToOne (format α) ≤ units (format α) mantissa exponent * 2 ^ k)
  | _ => false

variable {k : ℕ} {x : α}

theorem units_mul {format : Format} {mantissa : ℕ} {exponent : ℤ}
    (le : format.minExponent ≤ exponent) :
    (units format mantissa exponent : ℚ) = mantissa * 2 ^ exponent * 2 ^ unitsToOne format := by
  have smallest := minExponent_nonpos format
  have one : ((unitsToOne format : ℕ) : ℤ) = -format.minExponent :=
    Int.toNat_of_nonneg (by omega)
  rw [← shiftLeft_mul_two_zpow mantissa le, units, mul_assoc, ← zpow_natCast, one,
    ← zpow_add₀ two_ne_zero, add_neg_cancel, zpow_zero, mul_one]

theorem atMost_of_isAtMost (check : isAtMost k x) : AtMost 1 k x := by
  unfold isAtMost at check
  unfold AtMost
  have canonical := isCanonical x
  generalize unpacked x = u at check canonical
  match u with
  | .zero _ => exact (by positivity : (0 : ℚ) ≤ (1 : ℕ) * 2 ^ k)
  | .finite sign mantissa exponent positive =>
    have canonical := canonical _ _ _ positive rfl
    refine ⟨canonical, ?_⟩
    have le : (units (format α) mantissa exponent : ℚ) ≤ 2 ^ (k + unitsToOne (format α)) := by
      exact_mod_cast of_decide_eq_true check
    rw [units_mul canonical.le, pow_add] at le
    rw [Nat.cast_one, one_mul]
    exact le_of_mul_le_mul_right le (by positivity)
  | .infinity _ | .notANumber => cases check

theorem atLeast_of_isAtLeast (check : isAtLeast k x) : AtLeast k x := by
  unfold isAtLeast at check
  unfold AtLeast
  have canonical := isCanonical x
  generalize unpacked x = u at check canonical
  match u with
  | .finite .positive mantissa exponent positive =>
    have canonical := canonical _ _ _ positive rfl
    refine ⟨canonical, ?_⟩
    have le : (2 : ℚ) ^ unitsToOne (format α) ≤ units (format α) mantissa exponent * 2 ^ k := by
      exact_mod_cast of_decide_eq_true check
    rw [units_mul canonical.le, mul_right_comm] at le
    have one := le_of_mul_le_mul_right ((one_mul _).trans_le le) (by positivity)
    rwa [div_le_iff₀ (by positivity)]
  | .finite .negative _ _ _ | .zero _ | .infinity _ | .notANumber => cases check

end Computed

/-! ## Conversions between the precisions -/

theorem AtMost.widen {c k : ℕ} {x : Single} (bounded : AtMost c k x) (few : c ≤ 4)
    (inRange : k ≤ 1021) : AtMost c k (widen x : Double) := by
  have within : IsWithin .binary64 (c * 2 ^ k) (roundTo .binary64 x.unpacked) :=
    IsWithin.roundTo bounded (four_lt_digits (α := Double) few) (le_refl _)
  have range : ((c * 2 ^ k : ℕ) : ℚ) < _ := bound_lt_range (α := Double) few inRange
  push_cast at range
  have defined : x.value.isNaN = false := by
    show x.value.toModel.unpack.isNaN = false
    rw [x.unpack_value]
    exact isNaN_eq_false_of_isWithin bounded
  have packed := unpack_pack within (by decide) range
  have same : (Single.widen x).unpacked = roundTo .binary64 x.unpacked := by
    rw [Single.widen, if_neg (Bool.eq_false_iff.mp defined), x.unpack_value]
    exact packed
  show IsWithin .binary64 (c * 2 ^ k) (Single.widen x).unpacked
  rwa [same]

theorem AtMost.narrow {k : ℕ} {x : Double} (bounded : AtMost 1 k x) (inRange : k ≤ 127) :
    AtMost 1 k (narrow x : Single) := by
  have within : IsWithin .binary32 ((1 : ℕ) * 2 ^ k) (roundTo .binary32 x.unpacked) :=
    IsWithin.roundTo bounded (four_lt_digits (α := Single) (by decide)) (le_refl _)
  have range : ((1 : ℕ) : ℚ) * 2 ^ k < 2 ^ (Format.binary32.exponentBias + 1) := by
    rw [Nat.cast_one, one_mul]
    exact pow_lt_pow_right₀ one_lt_two (Nat.lt_succ_of_le inRange)
  have defined : x.value.isNaN = false := by
    show x.value.toModel.unpack.isNaN = false
    rw [x.unpack_value]
    exact isNaN_eq_false_of_isWithin bounded
  have packed := unpack_pack within (by decide) range
  have same : (Double.narrow x).unpacked = roundTo .binary32 x.unpacked := by
    rw [Double.narrow, if_neg (Bool.eq_false_iff.mp defined), x.unpack_value]
    exact packed
  show IsWithin .binary32 ((1 : ℕ) * 2 ^ k) (Double.narrow x).unpacked
  rwa [same]

-- Bounds of given numbers are only ever computed by the checks.
attribute [irreducible] AtMost AtLeast

end DisplayColor

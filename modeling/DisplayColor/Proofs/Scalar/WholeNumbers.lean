import DisplayColor.Proofs.Scalar.Magnitude

/-! # Whole numbers

A number that a format can write is not changed by rounding, so the whole numbers with few digits
are numbers of single precision as they are.  Hence products with a factor of at most one do not
pass them, and neither do the whole parts of such products.

Rounding such a product to the nearest whole number does not pass them either.  Where its whole part
is the whole number itself, the product is that number, and what is left over is zero. -/

namespace DisplayColor

open Float.Model (Format UnpackedFloat totalExponent)
open Float.Model.UnpackedFloat

/-! ## Exact rounding -/

section Exact

variable {format : Format} {mantissa n : ℕ} {exponent : ℤ}

theorem IsCanonical.targetShift_eq (canonical : IsCanonical format mantissa exponent)
    (positive : 0 < mantissa) (shift : ℕ) :
    targetShift format (mantissa * 2 ^ shift) (exponent - shift) = shift := by
  have digits : (mantissa * 2 ^ shift).log2 = mantissa.log2 + shift := by
    rw [← Nat.shiftLeft_eq, log2_shiftLeft positive.ne']
  obtain ⟨fits, le, full⟩ := canonical
  simp only [targetShift, Format.targetExponent, totalExponent, digits]
  omega

theorem roundedMantissa_mul_two_pow (mantissa shift : ℕ) :
    (ExtendedMantissa.ofMantissaAndAccuracy (mantissa * 2 ^ shift) .exact >>> shift).roundedMantissa
      = mantissa := by
  apply le_antisymm
  · have located := (Locates.ofMantissa (mantissa * 2 ^ shift)).shiftRight shift
    refine located.roundedMantissa_le (le_of_eq ?_)
    push_cast
    exact mul_div_cancel_right₀ _ (by positivity)
  · refine le_of_eq_of_le ?_ (le_roundedMantissa _)
    rw [mantissa_shiftRight, mantissa_ofMantissaAndAccuracy,
      Nat.mul_div_cancel _ (Nat.two_pow_pos shift)]

/-- A number of the format stays as it is, however many digits it is written with. -/
theorem IsCanonical.roundWithAccuracy_eq (canonical : IsCanonical format mantissa exponent)
    (positive : 0 < mantissa) (sign : Sign) (shift : ℕ) :
    roundWithAccuracy format sign (mantissa * 2 ^ shift) (exponent - shift) .exact =
      .finite sign mantissa exponent positive := by
  have settled : targetShift format mantissa exponent = 0 := by
    simpa using canonical.targetShift_eq positive 0
  simp only [DisplayColor.roundWithAccuracy_eq, canonical.targetShift_eq positive,
    roundedMantissa_mul_two_pow, sub_add_cancel, placed, settled, pow_zero, Nat.div_one,
    Nat.cast_zero, add_zero, dif_neg positive.ne']

/-- How many digits a format writes after a whole number. -/
def spareDigits (format : Format) (n : ℕ) : ℕ := format.mantissaBits - (n.log2 + 1)

theorem isCanonical_whole (bits : 2 ≤ format.exponentBits) (positive : 0 < n)
    (small : n < 2 ^ format.mantissaBits) :
    IsCanonical format (n * 2 ^ spareDigits format n) (-spareDigits format n) := by
  have fits : n.log2 < format.mantissaBits := (Nat.log2_lt positive.ne').mpr small
  have digits : (n * 2 ^ spareDigits format n).log2 = n.log2 + spareDigits format n := by
    rw [← Nat.shiftLeft_eq, log2_shiftLeft positive.ne']
  have spare : n.log2 + 1 + spareDigits format n = format.mantissaBits :=
    Nat.add_sub_of_le fits
  have bias : 2 ^ (2 - 1) ≤ 2 ^ (format.exponentBits - 1) :=
    Nat.pow_le_pow_right two_pos (Nat.sub_le_sub_right bits 1)
  refine ⟨by omega, ?_, .inl (by omega)⟩
  rw [minExponent_eq]
  simp only [Format.exponentBias, Format.mantissaBits] at spare ⊢
  omega

theorem spare_pos (positive : 0 < n) : 0 < n * 2 ^ spareDigits format n :=
  Nat.mul_pos positive (Nat.two_pow_pos _)

theorem ofNat_whole (bits : 2 ≤ format.exponentBits) (positive : 0 < n)
    (small : n < 2 ^ format.mantissaBits) : UnpackedFloat.ofNat format n =
      .finite .positive (n * 2 ^ spareDigits format n) (-spareDigits format n)
        (spare_pos positive) := by
  have canonical := isCanonical_whole bits positive small
  have compared : compare (n : ℤ) 0 = .gt := compare_gt_iff_gt.mpr (by exact_mod_cast positive)
  have shift : (-format.targetExponent (totalExponent n 0)).toNat = spareDigits format n := by
    have le := canonical.le
    have fits : n.log2 < format.mantissaBits := (Nat.log2_lt positive.ne').mpr small
    simp only [Format.targetExponent, totalExponent, spareDigits] at le ⊢
    omega
  have rounded := canonical.roundWithAccuracy_eq (spare_pos positive) .positive 0
  rw [pow_zero, mul_one, Nat.cast_zero, sub_zero] at rounded
  simp only [UnpackedFloat.ofNat, UnpackedFloat.ofInt, UnpackedFloat.normalize, compared,
    UnpackedFloat.round, decreaseExponent, zero_sub, shift, Int.toNat_natCast, Nat.shiftLeft_eq,
    rounded]

theorem value_whole (n : ℕ) :
    ((n * 2 ^ spareDigits format n : ℕ) : ℚ) * 2 ^ (-spareDigits format n : ℤ) = n := by
  rw [zpow_neg, zpow_natCast]
  push_cast
  field_simp

end Exact

/-! ## Whole parts -/

section WholePart

variable {format : Format} {u : UnpackedFloat} {n : ℕ}

theorem roundToInt_negative_nonpos (mantissa : ℕ) (exponent : ℤ) :
    roundToInt .negative mantissa exponent ≤ 0 :=
  Int.neg_nonpos_of_nonneg (Int.natCast_nonneg _)

theorem toNat_roundToInt_le (sign : Sign) (mantissa : ℕ) (exponent : ℤ) :
    ((roundToInt sign mantissa exponent).toNat : ℚ) ≤ mantissa * 2 ^ exponent := by
  -- Digits are added before the point or dropped after it; one of the two shifts is zero.
  let more := (exponent - 0).toNat
  let fewer := (0 - (exponent - more)).toNat
  have parts : exponent = more - fewer := by omega
  have whole : (roundToInt sign mantissa exponent).toNat ≤ mantissa * 2 ^ more / 2 ^ fewer := by
    cases sign with
    | positive =>
      simp only [roundToInt, decreaseExponent, shiftToExponent, mantissa_shiftRight,
        mantissa_ofMantissaAndAccuracy, Nat.shiftLeft_eq]
      exact le_refl _
    | negative =>
      rw [Int.toNat_of_nonpos (roundToInt_negative_nonpos mantissa exponent)]
      exact Nat.zero_le _
  calc ((roundToInt sign mantissa exponent).toNat : ℚ)
    _ ≤ (mantissa * 2 ^ more / 2 ^ fewer : ℕ) := Nat.cast_le.mpr whole
    _ ≤ (mantissa * 2 ^ more : ℕ) / (2 ^ fewer : ℕ) := Nat.cast_div_le
    _ = mantissa * 2 ^ exponent := by
      rw [parts, zpow_sub₀ two_ne_zero, zpow_natCast, zpow_natCast]
      push_cast
      ring

theorem toNat_ofNatClamp_le (n : ℕ) : (UInt64.ofNatClamp n).toNat ≤ n := by
  obtain fits | exceeds := lt_or_ge n UInt64.size
  · exact (UInt64.toNat_ofNatClamp_of_lt fits).le
  · rw [UInt64.toNat_ofNatClamp_of_le exceeds]
    omega

/-- The number is the whole number `n`, without a minus sign. -/
def IsWhole (format : Format) (n : ℕ) (u : UnpackedFloat) : Prop :=
  ∃ mantissa exponent positive, u = .finite .positive mantissa exponent positive ∧
    IsCanonical format mantissa exponent ∧ (mantissa : ℚ) * 2 ^ exponent = n

theorem IsWhole.isWithin (whole : IsWhole format n u) : IsWithin format n u := by
  obtain ⟨mantissa, exponent, positive, rfl, canonical, value⟩ := whole
  exact ⟨canonical, value.le⟩

/-- Cutting off the fraction does not lead past a bound, and to the bound only from itself. -/
theorem IsWithin.toUInt64_le (within : IsWithin format n u) :
    u.toUInt64.toNat ≤ n ∧ (0 < n → u.toUInt64.toNat = n → IsWhole format n u) := by
  match u with
  | .zero sign =>
    have zero : (UnpackedFloat.zero sign).toUInt64.toNat = 0 := rfl
    exact ⟨zero.trans_le (Nat.zero_le n), fun positive equal => by omega⟩
  | .finite sign mantissa exponent positive =>
    have clamped := toNat_ofNatClamp_le (roundToInt sign mantissa exponent).toNat
    have below := (toNat_roundToInt_le sign mantissa exponent).trans within.2
    have le : (roundToInt sign mantissa exponent).toNat ≤ n := by exact_mod_cast below
    refine ⟨clamped.trans le, fun positive equal => ?_⟩
    have reached : (roundToInt sign mantissa exponent).toNat = n :=
      le.antisymm (equal.symm.trans_le clamped)
    cases sign with
    | positive =>
      refine ⟨mantissa, exponent, _, rfl, within.1, within.2.antisymm ?_⟩
      rw [← reached]
      exact toNat_roundToInt_le _ _ _
    | negative =>
      rw [Int.toNat_of_nonpos (roundToInt_negative_nonpos mantissa exponent)] at reached
      omega
  | .infinity _ | .notANumber => exact within.elim

/-- Nothing is left of a whole number without itself. -/
theorem IsWhole.sub_of_same {v : UnpackedFloat} (first : IsWhole format n u)
    (second : IsWhole format n v) : u.sub format v = .zero .positive := by
  obtain ⟨m, e, _, rfl, _, firstValue⟩ := first
  obtain ⟨k, f, _, rfl, _, secondValue⟩ := second
  -- Both are brought to the smaller exponent, where equal values have equal mantissas.
  have same : m <<< (e - min e f).toNat = k <<< (f - min e f).toNat := by
    have unit : (0 : ℚ) < 2 ^ min e f := by positivity
    have values := firstValue.trans secondValue.symm
    rw [← shiftLeft_mul_two_zpow m (min_le_left e f),
      ← shiftLeft_mul_two_zpow k (min_le_right e f)] at values
    exact_mod_cast mul_right_cancel₀ unit.ne' values
  simp only [UnpackedFloat.sub, decreaseExponent, same, sub_self]
  rfl

end WholePart

/-! ## Comparisons -/

theorem compare_swap (u v : UnpackedFloat) : (u.compare v).map Ordering.swap = v.compare u := by
  match u, v with
  | .notANumber, v => cases v <;> rfl
  | u, .notANumber => cases u <;> rfl
  | .infinity s, .infinity t => cases s <;> cases t <;> rfl
  | .infinity s, .zero t | .infinity s, .finite t _ _ _ => cases s <;> rfl
  | .zero s, .infinity t | .finite s _ _ _, .infinity t => cases t <;> rfl
  | .zero _, .zero _ => rfl
  | .finite s _ _ _, .zero _ => cases s <;> rfl
  | .zero _, .finite t _ _ _ => cases t <;> rfl
  | .finite s m e _, .finite t n f _ =>
    have exponents : (compare e f).swap = compare f e := Std.OrientedCmp.eq_swap.symm
    have mantissas : (compare m n).swap = compare n m := Std.OrientedCmp.eq_swap.symm
    cases s <;> cases t <;>
      simp only [UnpackedFloat.compare, Option.map_some, Ordering.swap_then, Ordering.swap_gt,
        Ordering.swap_lt, exponents, mantissas]

theorem isSome_compare {u v : UnpackedFloat} (left : u.isNaN = false) (right : v.isNaN = false) :
    (u.compare v).isSome := by
  match u, v with
  | .notANumber, _ => cases left
  | _, .notANumber => cases right
  | .infinity s, .infinity t => rfl
  | .infinity s, .zero t | .infinity s, .finite t _ _ _ => cases s <;> rfl
  | .zero s, .infinity t | .finite s _ _ _, .infinity t => cases t <;> rfl
  | .zero _, .zero _ => rfl
  | .finite s _ _ _, .zero _ => cases s <;> rfl
  | .zero _, .finite t _ _ _ => cases t <;> rfl
  | .finite s _ _ _, .finite t _ _ _ => cases s <;> cases t <;> rfl

/-- Two numbers with a value are ordered one way or the other. -/
theorem le_of_lt_eq_false {u v : UnpackedFloat} (left : u.isNaN = false) (right : v.isNaN = false)
    (less : u.lt v = false) : v.le u := by
  obtain ⟨order, ordered⟩ := Option.isSome_iff_exists.mp (isSome_compare left right)
  rw [UnpackedFloat.lt, ordered] at less
  rw [UnpackedFloat.le, ← compare_swap, ordered]
  cases order with
  | lt => cases less
  | eq | gt => rfl

/-! ## Products in single precision -/

namespace Single

variable {n : ℕ} {x y : Single}

theorem natCast_lt_range (small : n < 2 ^ 23) :
    (n : ℚ) < 2 ^ (Format.binary32.exponentBias + 1) := by
  exact_mod_cast small.trans (by decide)

theorem isWhole_ofNat (positive : 0 < n) (small : n < 2 ^ 23) :
    IsWhole .binary32 n (Scalar.ofNat n : Single).unpacked := by
  let spare := spareDigits .binary32 n
  let whole : UnpackedFloat := .finite .positive (n * 2 ^ spare) (-spare) (spare_pos positive)
  have few : n < 2 ^ Format.binary32.mantissaBits := small.trans (by decide)
  have canonical : IsCanonical .binary32 (n * 2 ^ spare) (-spare) :=
    isCanonical_whole (by decide) positive few
  have isWhole : IsWhole .binary32 n whole := ⟨_, _, _, rfl, canonical, value_whole n⟩
  have converted : n.toUInt64.toFloat32.toModel.unpack = whole := by
    have word : n.toUInt64.toNat = n := Nat.mod_eq_of_lt (small.trans (by decide))
    calc n.toUInt64.toFloat32.toModel.unpack
      _ = (Float32.Model.pack (.ofNat .binary32 n.toUInt64.toNat)).unpack := rfl
      _ = (Float32.Model.pack whole).unpack := by rw [word, ofNat_whole (by decide) positive few]
      _ = whole := unpack_pack isWhole.isWithin (by decide) (natCast_lt_range small)
  -- The conversion ends in a multiplication by the power of ten that belongs to whole numbers.
  have one : (Float32.ofBits 0x3f800000).toModel.unpack =
      .finite .positive (2 ^ 23) (-23) (by decide) := rfl
  have product : (Scalar.ofNat n : Single) = computed [] (.ofModel (.pack
      (n.toUInt64.toFloat32.toModel.unpack.mul .binary32
        (Float32.ofBits 0x3f800000).toModel.unpack))) := by
    show computed [] (Float32.ofScientific n false 0) = _
    rw [Float32.ofScientific, dif_pos ⟨small, Nat.zero_le 10⟩]
    rfl
  have unchanged : whole.mul .binary32 (.finite .positive (2 ^ 23) (-23) (by decide)) = whole :=
    canonical.roundWithAccuracy_eq (spare_pos positive) .positive 23
  rw [product, converted, one, unchanged,
    unpacked_computed [] (natCast_lt_range small) isWhole.isWithin]
  exact isWhole

theorem le_of_not_lt (left : Scalar.isNaN x = false) (right : Scalar.isNaN y = false)
    (less : ¬ x < y) : y ≤ x := by
  rw [BinaryScalar.lt_iff, Bool.not_eq_true] at less
  rw [BinaryScalar.le_iff]
  refine le_of_lt_eq_false ?_ ?_ less
  · exact (congrArg UnpackedFloat.isNaN x.unpack_value).symm.trans left
  · exact (congrArg UnpackedFloat.isNaN y.unpack_value).symm.trans right

/-- Every input is moved into the unit interval, also an infinite or undefined one. -/
theorem atMost_saturate (x : Single) : AtMost 1 0 (Scalar.saturate x) := by
  have zero : AtMost 1 0 (0 : Single) := (atMost_zero 0).mono zero_le_one (le_refl 0)
  unfold Scalar.saturate Scalar.clamp
  cases undefined : Scalar.isNaN x with
  | true => exact zero
  | false =>
    simp only [Bool.false_eq_true, if_false]
    split_ifs with negative beyond beyond
    · exact atMost_one
    · exact zero
    · exact atMost_one
    · have nonneg : 0 ≤ x := le_of_not_lt undefined rfl negative
      have le : x ≤ 1 := le_of_not_lt rfl undefined beyond
      exact atMost_one.of_le nonneg le

theorem isWithin_saturate (x : Single) : IsWithin .binary32 1 (Scalar.saturate x).unpacked := by
  have bounded := atMost_saturate x
  rw [AtMost, Nat.cast_one, pow_zero, one_mul] at bounded
  exact bounded

theorem isWithin_saturate_mul (x : Single) (positive : 0 < n) (small : n < 2 ^ 23) :
    IsWithin .binary32 n (Scalar.saturate x * Scalar.ofNat n).unpacked := by
  generalize factorEq : Scalar.saturate x = factor
  generalize wholeEq : (Scalar.ofNat n : Single) = whole
  have unit : IsWithin .binary32 1 factor.unpacked := factorEq ▸ isWithin_saturate x
  have isWhole : IsWhole .binary32 n whole.unpacked := wholeEq ▸ isWhole_ofNat positive small
  have few : n < 2 ^ Format.binary32.mantissaBits := small.trans (by decide)
  have product := unit.mul isWhole.isWithin few (k := 0) (by simp)
  rw [pow_zero, mul_one] at product
  have computed : (factor * whole).unpacked = factor.unpacked.mul .binary32 whole.unpacked :=
    BinaryScalar.unpacked_mul factor whole (natCast_lt_range small) product
  rwa [computed]

/-- Rounding a part of a whole number to the nearest one does not lead past it. -/
theorem nearestNat_saturate_mul_le (x : Single) (positive : 0 < n) (small : n < 2 ^ 23) :
    Scalar.nearestNat (Scalar.saturate x * Scalar.ofNat n) ≤ n := by
  generalize productEq : Scalar.saturate x * Scalar.ofNat n = product
  have within : IsWithin .binary32 n product.unpacked :=
    productEq ▸ isWithin_saturate_mul x positive small
  have wholePart : Scalar.wholePart product = product.unpacked.toUInt64.toNat := by
    rw [← product.unpack_value]
    rfl
  obtain ⟨le, reached⟩ := within.toUInt64_le
  rw [← wholePart] at le reached
  simp only [Scalar.nearestNat]
  split
  · rename_i half
    -- Only the number itself has it as its whole part, and then nothing is left to round.
    refine Nat.lt_of_le_of_ne le fun equal => ?_
    have whole := reached positive equal
    have nothing := whole.sub_of_same (isWhole_ofNat positive small)
    have within : IsWithin .binary32 n
        (product.unpacked.sub .binary32 (Scalar.ofNat n : Single).unpacked) :=
      nothing ▸ Nat.cast_nonneg n
    have difference : (product - Scalar.ofNat n).unpacked = .zero .positive :=
      (BinaryScalar.unpacked_sub product _ (natCast_lt_range small) within).trans nothing
    rw [equal, BinaryScalar.le_iff] at half
    have above : (0.5 : Single).unpacked.le (.zero .positive) := difference ▸ half
    cases above
  · exact le

end Single

end DisplayColor

import DisplayColor.Proofs.Scalar.Magnitude

/-! # Where results leave the range

A product or quotient of positive numbers is infinite exactly if the unrounded value is at least
half a unit above the largest number of the format, and zero exactly if it is at most half of the
smallest one.  In between it is a positive number.  So whether a formula with such steps has a
finite result, or one that is not zero, can be read off the unrounded values.

A quotient of two results has no value if both of them left the range on the same side, and only
then. -/

namespace DisplayColor

open Float.Model (Format UnpackedFloat totalExponent)
open Float.Model.UnpackedFloat

/-! ## The ends of the range -/

/-- The exponent of the largest numbers of a format. -/
def largestExponent (format : Format) : ℤ :=
  format.exponentBias - format.mantissaBitsWithoutImplicit

/-- From here on a number is infinite: half a unit above the largest number of the format. -/
def overflowBound (format : Format) : ℚ :=
  2 ^ (format.exponentBias + 1) - 2 ^ ((format.exponentBias : ℤ) - format.mantissaBits)

/-- Up to here a number is zero: half of the smallest number of the format. -/
def underflowBound (format : Format) : ℚ := 2 ^ (format.minExponent - 1)

section Round

variable {format : Format} {sign : Sign} {mantissa : ℕ} {exponent : ℤ} {accuracy : Accuracy} {x : ℚ}

theorem HasDigits.div_two_pow_lt (digits : HasDigits format mantissa exponent) :
    mantissa / 2 ^ targetShift format mantissa exponent < 2 ^ format.mantissaBits := by
  have target := digits.add_targetShift
  have enough : mantissa.log2 + 1 ≤ format.mantissaBits + targetShift format mantissa exponent := by
    omega
  rw [Nat.div_lt_iff_lt_mul (Nat.two_pow_pos _), ← pow_add]
  exact Nat.lt_log2_self.trans_le (Nat.pow_le_pow_right two_pos enough)

theorem HasDigits.le_div_two_pow (digits : HasDigits format mantissa exponent)
    (larger : format.minExponent < exponent + targetShift format mantissa exponent) :
    2 ^ (format.mantissaBits - 1) ≤ mantissa / 2 ^ targetShift format mantissa exponent := by
  have target := digits.add_targetShift
  have bits : 2 ≤ format.mantissaBits := Nat.add_le_add_left format.hm 1
  have nonzero : mantissa ≠ 0 := by
    rintro rfl
    unfold HasDigits at digits
    simp only [Nat.log2_zero] at digits target
    omega
  have enough : format.mantissaBits - 1 + targetShift format mantissa exponent ≤ mantissa.log2 := by
    omega
  rw [Nat.le_div_iff_mul_le (Nat.two_pow_pos _), ← pow_add]
  exact (Nat.pow_le_pow_right two_pos enough).trans (Nat.log2_self_le nonzero)

theorem HasDigits.placed_eq_zero_iff (digits : HasDigits format mantissa exponent)
    (le : format.minExponent ≤ exponent) :
    placed format sign mantissa exponent = .zero sign ↔ mantissa = 0 := by
  have target := digits.add_targetShift
  have bits : 1 ≤ format.mantissaBits := Nat.le_add_right 1 _
  simp only [placed]
  split
  · rename_i zero
    refine iff_of_true rfl ?_
    by_contra nonzero
    have few : targetShift format mantissa exponent ≤ mantissa.log2 := by omega
    have power := (Nat.pow_le_pow_right two_pos few).trans (Nat.log2_self_le nonzero)
    exact (Nat.div_pos power (Nat.two_pow_pos _)).ne' zero
  · rename_i nonzero
    refine iff_of_false (by simp) ?_
    rintro rfl
    simp at nonzero

theorem two_pow_log2_lt_iff (positive : 0 < mantissa) {bound : ℤ} :
    (mantissa : ℚ) * 2 ^ exponent < 2 ^ bound ↔ mantissa.log2 + exponent < bound := by
  constructor
  · intro less
    exact (zpow_lt_zpow_iff_right₀ one_lt_two).mp
      ((two_zpow_log2_le positive.ne' exponent).trans_lt less)
  · intro less
    calc (mantissa : ℚ) * 2 ^ exponent
      _ < 2 ^ (mantissa.log2 + 1) * 2 ^ exponent := by
        gcongr
        exact_mod_cast Nat.lt_log2_self
      _ = 2 ^ (mantissa.log2 + 1 + exponent) := by
        rw [zpow_add₀ two_ne_zero, ← zpow_natCast]
        push_cast
        rfl
      _ ≤ 2 ^ bound := zpow_le_zpow_right₀ one_le_two (by omega)

theorem unpack_packedInfinity : unpack format (packedInfinity format sign) = .infinity sign := by
  simp only [packedInfinity, unpack, unpackExponent_packComponents, unpackMantissa_packComponents,
    unpackSign_packComponents, Sign.ofBitVec_toBitVec, if_true]
  rfl

theorem unpack_pack_of_large (positive : 0 < mantissa)
    (large : largestExponent format < exponent) :
    unpack format (pack format (.finite sign mantissa exponent positive)) = .infinity sign := by
  have capacity := two_pow_exponentBits format
  unfold largestExponent at large
  have overflows : 2 ^ format.exponentBits ≤
      (exponent + format.exponentBias + format.mantissaBitsWithoutImplicit).toNat + 1 := by omega
  rw [pack, if_pos overflows, unpack_packedInfinity]

theorem isFinite_unpack_pack_finite (positive : 0 < mantissa)
    (canonical : IsCanonical format mantissa exponent) :
    (unpack format (pack format (.finite sign mantissa exponent positive))).isFinite ↔
      exponent ≤ largestExponent format := by
  constructor
  · intro finite
    by_contra! large
    rw [unpack_pack_of_large positive large] at finite
    cases finite
  · intro le
    rw [unpack_pack_finite sign positive canonical (le_sub_iff_add_le.mp le)]
    rfl

/-- The exponents of a format are not exhausted by the smallest one. -/
theorem minExponent_le_largest (bits : 2 ≤ format.exponentBits) :
    format.minExponent ≤ largestExponent format := by
  have bias : 2 ^ (2 - 1) ≤ 2 ^ (format.exponentBits - 1) :=
    Nat.pow_le_pow_right two_pos (Nat.sub_le_sub_right bits 1)
  rw [minExponent_eq]
  simp only [largestExponent, Format.exponentBias]
  omega

theorem HasDigits.isFinite_pack_placed (digits : HasDigits format mantissa exponent)
    (bits : 2 ≤ format.exponentBits) (le : format.minExponent ≤ exponent) :
    (unpack format (pack format (placed format sign mantissa exponent))).isFinite ↔
      (mantissa : ℚ) * 2 ^ exponent < 2 ^ (format.exponentBias + 1) := by
  have target := digits.add_targetShift
  obtain rfl | positive := Nat.eq_zero_or_pos mantissa
  · rw [(digits.placed_eq_zero_iff le).mpr rfl, pack, unpack_packedZero]
    exact iff_of_true rfl (by simp)
  · by_cases zero : mantissa / 2 ^ targetShift format mantissa exponent = 0
    · have none : placed format sign mantissa exponent = .zero sign := by
        simp only [placed, dif_pos zero]
      exact absurd ((digits.placed_eq_zero_iff le).mp none) positive.ne'
    · have smallest := minExponent_le_largest bits
      simp only [placed, dif_neg zero]
      rw [isFinite_unpack_pack_finite _ (digits.isCanonical zero), ← zpow_natCast,
        two_pow_log2_lt_iff positive]
      simp only [largestExponent, Format.mantissaBits] at target smallest ⊢
      omega

theorem two_pow_overflow (format : Format) : (2 : ℚ) ^ (format.exponentBias + 1) =
    2 ^ format.mantissaBits * 2 ^ largestExponent format := by
  rw [← zpow_natCast, ← zpow_natCast, ← zpow_add₀ two_ne_zero]
  congr 1
  simp only [largestExponent, Format.mantissaBits]
  push_cast
  ring

theorem overflowBound_eq (format : Format) :
    overflowBound format = (2 ^ format.mantissaBits - 1 / 2) * 2 ^ largestExponent format := by
  have half : ((format.exponentBias : ℤ) - format.mantissaBits) = largestExponent format - 1 := by
    simp only [largestExponent, Format.mantissaBits]
    push_cast
    ring
  rw [overflowBound, two_pow_overflow, half, zpow_sub_one₀ two_ne_zero]
  ring

/-- Among mantissas with the largest exponent, the first one that rounds up to too many digits is
half a unit below them. -/
theorem Locates.rounded_lt_iff {em : ExtendedMantissa} (located : Locates em x)
    (bits : 2 ≤ format.exponentBits) (less : x < 2 ^ format.mantissaBits)
    (full : format.minExponent < exponent → 2 ^ (format.mantissaBits - 1) ≤ x) :
    (em.roundedMantissa : ℚ) * 2 ^ exponent < 2 ^ (format.exponentBias + 1) ↔
      x * 2 ^ exponent < overflowBound format := by
  have largestLe := minExponent_le_largest bits
  rw [two_pow_overflow, overflowBound_eq]
  generalize largestExponent format = largest at largestLe ⊢
  have unit : (0 : ℚ) < 2 ^ largest := by positivity
  have one : (1 : ℚ) ≤ 2 ^ format.mantissaBits := one_le_pow₀ one_le_two
  obtain small | rfl | large := lt_trichotomy exponent largest
  · -- Even the first mantissa with too many digits is far from the end.
    have le : em.roundedMantissa ≤ 2 ^ format.mantissaBits := by
      by_contra! beyond
      rw [located.lt_roundedMantissa_iff] at beyond
      push_cast at beyond
      obtain above | ⟨half, -⟩ := beyond <;> linarith
    have half : (2 : ℚ) ^ exponent * 2 ≤ 2 ^ largest := by
      rw [← zpow_add_one₀ two_ne_zero]
      exact zpow_le_zpow_right₀ one_le_two small
    have pos : (0 : ℚ) < 2 ^ exponent := by positivity
    have le' : (em.roundedMantissa : ℚ) ≤ 2 ^ format.mantissaBits := by exact_mod_cast le
    refine iff_of_true ?_ ?_ <;> nlinarith
  · rw [mul_lt_mul_iff_of_pos_right unit, mul_lt_mul_iff_of_pos_right unit]
    have odd : (2 ^ format.mantissaBits - 1) % 2 = 1 := by
      have even : 2 ∣ 2 ^ format.mantissaBits := dvd_pow_self 2 (Nat.add_pos_left one_pos _).ne'
      have positive : 0 < 2 ^ format.mantissaBits := Nat.two_pow_pos _
      omega
    have last : ((2 ^ format.mantissaBits - 1 : ℕ) : ℚ) + 1 / 2 =
        2 ^ format.mantissaBits - 1 / 2 := by
      push_cast [Nat.one_le_two_pow]
      ring
    calc (em.roundedMantissa : ℚ) < 2 ^ format.mantissaBits
      _ ↔ ¬ 2 ^ format.mantissaBits - 1 < em.roundedMantissa := by
        rw [not_lt, Nat.le_sub_one_iff_lt (Nat.two_pow_pos _)]
        exact_mod_cast Iff.rfl
      _ ↔ ¬ 2 ^ format.mantissaBits - 1 / 2 ≤ x := by
        rw [located.lt_roundedMantissa_iff, last, le_iff_lt_or_eq]
        simp only [odd, and_true]
      _ ↔ x < 2 ^ format.mantissaBits - 1 / 2 := not_le
  · -- With a larger exponent already half of the mantissas is past the end.
    have le : 2 ^ (format.mantissaBits - 1) ≤ x := full (largestLe.trans_lt large)
    have twice : (2 : ℚ) ^ largest * 2 ≤ 2 ^ exponent := by
      rw [← zpow_add_one₀ two_ne_zero]
      exact zpow_le_zpow_right₀ one_le_two large
    have digits : (2 : ℚ) ^ format.mantissaBits = 2 ^ (format.mantissaBits - 1) * 2 := by
      have bits : 1 ≤ format.mantissaBits := Nat.le_add_right 1 _
      rw [← pow_succ, Nat.sub_add_cancel bits]
    have rounded : (2 : ℚ) ^ (format.mantissaBits - 1) ≤ em.roundedMantissa := by
      exact_mod_cast located.le_roundedMantissa_of_le (by exact_mod_cast le)
    have pos : (0 : ℚ) < 2 ^ exponent := by positivity
    refine iff_of_false ?_ ?_ <;> nlinarith

theorem Locates.rounded_pos_iff {em : ExtendedMantissa} (located : Locates em x)
    (le : format.minExponent ≤ exponent)
    (full : format.minExponent < exponent → 2 ^ (format.mantissaBits - 1) ≤ x) :
    0 < em.roundedMantissa ↔ underflowBound format < x * 2 ^ exponent := by
  have half : underflowBound format = 1 / 2 * 2 ^ format.minExponent := by
    rw [underflowBound, zpow_sub_one₀ two_ne_zero]
    ring
  rw [located.lt_roundedMantissa_iff, half]
  obtain rfl | larger := le.eq_or_lt
  · rw [mul_lt_mul_iff_of_pos_right (by positivity)]
    simp
  · have one : 1 ≤ x := (one_le_pow₀ one_le_two).trans (full larger)
    have more : (2 : ℚ) ^ format.minExponent ≤ 2 ^ exponent := zpow_le_zpow_right₀ one_le_two le
    have pos : (0 : ℚ) < 2 ^ format.minExponent := by positivity
    refine iff_of_true (.inl ?_) ?_
    · push_cast
      linarith
    · nlinarith

theorem HasDigits.minExponent_le (digits : HasDigits format mantissa exponent) :
    format.minExponent ≤ exponent + targetShift format mantissa exponent := by
  have target := digits.add_targetShift
  omega

/-- What is stored for a result with the given sign and magnitude: zero up to the lower bound,
infinity from the upper bound on, and a number of the format between the bounds. -/
inductive Stored (format : Format) (sign : Sign) (v : ℚ) : UnpackedFloat → Prop
  | vanished (small : v ≤ underflowBound format) : Stored format sign v (.zero sign)
  | kept {mantissa : ℕ} {exponent : ℤ} (positive : 0 < mantissa) (large : underflowBound format < v)
      (small : v < overflowBound format) :
      Stored format sign v (.finite sign mantissa exponent positive)
  | overflowed (large : overflowBound format ≤ v) : Stored format sign v (.infinity sign)

section Located

variable (located : Locates (.ofMantissaAndAccuracy mantissa accuracy) x)
  (digits : HasDigits format mantissa exponent)

include located digits

/-- What is rounded is smaller than the first mantissa with too many digits. -/
theorem Locates.shifted_lt :
    x / 2 ^ targetShift format mantissa exponent < 2 ^ format.mantissaBits := by
  have less := (located.shiftRight (targetShift format mantissa exponent)).lt_mantissa_add_one
  rw [mantissa_shiftRight, mantissa_ofMantissaAndAccuracy] at less
  exact less.trans_le (by exact_mod_cast digits.div_two_pow_lt)

/-- What is rounded has all digits unless the exponent is the smallest one. -/
theorem Locates.le_shifted
    (larger : format.minExponent < exponent + targetShift format mantissa exponent) :
    2 ^ (format.mantissaBits - 1) ≤ x / 2 ^ targetShift format mantissa exponent := by
  have le := (located.shiftRight (targetShift format mantissa exponent)).mantissa_le
  rw [mantissa_shiftRight, mantissa_ofMantissaAndAccuracy] at le
  exact le_trans (by exact_mod_cast digits.le_div_two_pow larger) le

/-- A rounded number can be stored exactly if it is below the bound before it is rounded. -/
theorem Locates.isFinite_roundWithAccuracy (bits : 2 ≤ format.exponentBits) (sign : Sign) :
    (unpack format (pack format
      (roundWithAccuracy format sign mantissa exponent accuracy))).isFinite ↔
        x * 2 ^ exponent < overflowBound format := by
  have shifted := located.shiftRight (targetShift format mantissa exponent)
  rw [roundWithAccuracy_eq,
    (digits.rounded accuracy).isFinite_pack_placed bits digits.minExponent_le,
    shifted.rounded_lt_iff bits (located.shifted_lt digits) (located.le_shifted digits),
    shifted_mul]

theorem Locates.roundWithAccuracy_eq_zero_iff (sign : Sign) :
    roundWithAccuracy format sign mantissa exponent accuracy = .zero sign ↔
      x * 2 ^ exponent ≤ underflowBound format := by
  have shifted := located.shiftRight (targetShift format mantissa exponent)
  rw [roundWithAccuracy_eq, (digits.rounded accuracy).placed_eq_zero_iff digits.minExponent_le,
    ← not_iff_not, ← ne_eq, ← Nat.pos_iff_ne_zero,
    shifted.rounded_pos_iff digits.minExponent_le (located.le_shifted digits), shifted_mul, not_le]

theorem Locates.stored (bits : 2 ≤ format.exponentBits) (sign : Sign) :
    Stored format sign (x * 2 ^ exponent) (unpack format (pack format
      (roundWithAccuracy format sign mantissa exponent accuracy))) := by
  have finite := located.isFinite_roundWithAccuracy digits bits sign
  have zero := located.roundWithAccuracy_eq_zero_iff digits sign
  by_cases small : x * 2 ^ exponent ≤ underflowBound format
  · rw [zero.mpr small, pack, unpack_packedZero]
    exact .vanished small
  · have large := not_le.mp small
    obtain ⟨m, e, positive, canonical, rounded⟩ :
        ∃ m e positive, IsCanonical format m e ∧
          roundWithAccuracy format sign mantissa exponent accuracy = .finite sign m e positive := by
      have nonzero := mt zero.mp small
      rw [roundWithAccuracy_eq] at nonzero ⊢
      simp only [placed] at nonzero ⊢
      split at nonzero
      · exact absurd rfl nonzero
      · rename_i kept
        exact ⟨_, _, _, (digits.rounded accuracy).isCanonical kept, dif_neg kept⟩
    rw [rounded] at finite ⊢
    by_cases fits : e ≤ largestExponent format
    · rw [unpack_pack_finite sign positive canonical (le_sub_iff_add_le.mp fits)] at finite ⊢
      exact .kept positive large (finite.mp rfl)
    · rw [unpack_pack_of_large positive (not_le.mp fits)] at finite ⊢
      exact .overflowed (not_lt.mp (mt finite.mpr Bool.false_ne_true))

end Located
end Round

/-! ## Products and quotients -/

/-- The distance of a number from zero. -/
def magnitude : UnpackedFloat → ℚ
  | .finite _ mantissa exponent _ => mantissa * 2 ^ exponent
  | _ => 0

@[simp] theorem magnitude_zero (sign : Sign) : magnitude (.zero sign) = 0 := rfl

theorem Stored.isNaN {format : Format} {sign : Sign} {v : ℚ} {u : UnpackedFloat}
    (stored : Stored format sign v u) : u.isNaN = false := by
  cases stored <;> rfl

theorem underflowBound_pos (format : Format) : 0 < underflowBound format := by
  rw [underflowBound]
  positivity

theorem underflowBound_lt_overflowBound {format : Format} (bits : 2 ≤ format.exponentBits) :
    underflowBound format < overflowBound format := by
  have one : (1 : ℚ) < 2 ^ format.mantissaBits :=
    one_lt_pow₀ one_lt_two (Nat.add_pos_left one_pos _).ne'
  calc underflowBound format
    _ = 1 / 2 * 2 ^ format.minExponent := by
      rw [underflowBound, zpow_sub_one₀ two_ne_zero]
      ring
    _ ≤ 1 / 2 * 2 ^ largestExponent format := by
      gcongr
      · exact one_le_two
      · exact minExponent_le_largest bits
    _ < (2 ^ format.mantissaBits - 1 / 2) * 2 ^ largestExponent format := by
      gcongr
      linarith
    _ = overflowBound format := (overflowBound_eq format).symm

section Operations

variable {format : Format} {m n : ℕ} {e f : ℤ}

theorem stored_mul (bits : 2 ≤ format.exponentBits) (s t : Sign) (left : IsCanonical format m e)
    (right : IsCanonical format n f) (mPositive : 0 < m) (nPositive : 0 < n) :
    Stored format (s * t) (m * 2 ^ e * (n * 2 ^ f)) (unpack format (pack format
      ((UnpackedFloat.finite s m e mPositive).mul format (.finite t n f nPositive)))) := by
  have stored := (Locates.ofMantissa (m * n)).stored
    (left.hasDigits_mul right mPositive nPositive) bits (s * t)
  rwa [mul_mul_two_zpow] at stored

theorem stored_div (bits : 2 ≤ format.exponentBits) (s t : Sign) (e f : ℤ) (mPositive : 0 < m)
    (nPositive : 0 < n) :
    Stored format (s / t) (m * 2 ^ e / (n * 2 ^ f)) (unpack format (pack format
      ((UnpackedFloat.finite s m e mPositive).div format (.finite t n f nPositive)))) := by
  have located := Locates.quotient (m <<< (e - f - (divCore format m e n f).2.1).toNat) nPositive
  have stored := located.stored (hasDigits_quotient format mPositive nPositive e f) bits (s / t)
  rwa [quotient_mul_two_zpow format nPositive] at stored

end Operations

/-- A number of a format is smaller than where infinity begins. -/
theorem magnitude_unpack_lt {format : Format} (bits : 2 ≤ format.exponentBits)
    (b : BitVec format.numBits) : magnitude (unpack format b) < overflowBound format := by
  have nonneg := (underflowBound_pos format).trans (underflowBound_lt_overflowBound bits)
  cases unpacked : unpack format b with
  | zero _ | infinity _ | notANumber => exact nonneg
  | finite sign mantissa exponent positive =>
    have canonical := isCanonical_of_unpack unpacked
    have fits : exponent ≤ largestExponent format := by
      by_contra! large
      have same := unpack_pack_unpack format b bits
      rw [unpacked, unpack_pack_of_large positive large] at same
      cases same
    have few : mantissa + 1 ≤ 2 ^ format.mantissaBits :=
      Nat.lt_log2_self.trans_le (Nat.pow_le_pow_right two_pos canonical.fits)
    have few' : (mantissa : ℚ) + 1 ≤ 2 ^ format.mantissaBits := by exact_mod_cast few
    have unit : (0 : ℚ) < 2 ^ largestExponent format := by positivity
    calc (mantissa : ℚ) * 2 ^ exponent
      _ ≤ mantissa * 2 ^ largestExponent format := by
        gcongr
        exact one_le_two
      _ < (2 ^ format.mantissaBits - 1 / 2) * 2 ^ largestExponent format := by
        gcongr
        linarith
      _ = overflowBound format := (overflowBound_eq format).symm

namespace Stored

variable {format : Format} {sign : Sign} {v : ℚ} {u : UnpackedFloat}

theorem eq_zero (stored : Stored format sign v u) (bits : 2 ≤ format.exponentBits)
    (small : v ≤ underflowBound format) : u = .zero sign := by
  have apart := underflowBound_lt_overflowBound bits
  cases stored with
  | vanished _ => rfl
  | kept _ large _ | overflowed large => linarith

theorem eq_infinity (stored : Stored format sign v u) (bits : 2 ≤ format.exponentBits)
    (large : overflowBound format ≤ v) : u = .infinity sign := by
  have apart := underflowBound_lt_overflowBound bits
  cases stored with
  | vanished small | kept _ _ small => linarith
  | overflowed _ => rfl

theorem isFinite_iff (stored : Stored format sign v u) (bits : 2 ≤ format.exponentBits) :
    u.isFinite ↔ v < overflowBound format := by
  cases stored with
  | vanished small =>
    exact iff_of_true rfl (small.trans_lt (underflowBound_lt_overflowBound bits))
  | kept _ _ small => exact iff_of_true rfl small
  | overflowed large => exact iff_of_false Bool.false_ne_true (not_lt.mpr large)

/-- A positive result stays positive unless it vanishes. -/
theorem zero_lt_iff (stored : Stored format .positive v u) (bits : 2 ≤ format.exponentBits)
    (zero : Sign) : (UnpackedFloat.zero zero).lt u ↔ underflowBound format < v := by
  cases stored with
  | vanished small => exact iff_of_false Bool.false_ne_true (not_lt.mpr small)
  | kept _ large _ => exact iff_of_true rfl large
  | overflowed large =>
    exact iff_of_true rfl ((underflowBound_lt_overflowBound bits).trans_le large)

end Stored

/-! ## Single precision -/

namespace Single

variable {x y : Single}

theorem isFinite_eq (x : Single) : Scalar.isFinite x = x.unpacked.isFinite :=
  congrArg UnpackedFloat.isFinite x.unpack_value

theorem isNaN_eq (x : Single) : Scalar.isNaN x = x.unpacked.isNaN :=
  congrArg UnpackedFloat.isNaN x.unpack_value

theorem lt_iff (x y : Single) : x < y ↔ x.unpacked.lt y.unpacked := BinaryScalar.lt_iff x y

theorem le_iff (x y : Single) : x ≤ y ↔ x.unpacked.le y.unpacked := BinaryScalar.le_iff x y

theorem unpacked_zero : (0 : Single).unpacked = .zero .positive := rfl

theorem unpacked_abs (x : Single) : (Scalar.abs x).unpacked = x.unpacked.abs :=
  BinaryScalar.unpacked_abs x

def magnitude (x : Single) : ℚ := DisplayColor.magnitude x.unpacked

theorem overflowBound_binary32 : overflowBound .binary32 = 2 ^ 128 - 2 ^ 103 := by
  norm_num [overflowBound, Format.exponentBias, Format.mantissaBits, Format.binary32]

theorem underflowBound_binary32 : underflowBound .binary32 = 1 / 2 ^ 150 := by
  norm_num [underflowBound, Format.minExponent, Format.mantissaBits, Format.binary32]

theorem magnitude_lt (x : Single) : x.magnitude < overflowBound .binary32 :=
  @magnitude_unpack_lt .binary32 (by decide) x.bits.toBitVec

theorem unpacked_computed_of_defined (operands : List Single) {u : UnpackedFloat}
    (defined : (unpack .binary32 (pack .binary32 u)).isNaN = false) :
    (computed operands (.ofModel (.pack u))).unpacked = unpack .binary32 (pack .binary32 u) := by
  have value : (Float32.ofModel (.pack u)).isNaN = false := defined
  rw [computed, if_neg (Bool.eq_false_iff.mp value)]
  rfl

theorem unpacked_mul_of_defined
    (defined : (unpack .binary32
      (pack .binary32 (x.unpacked.mul .binary32 y.unpacked))).isNaN = false) :
    (x * y).unpacked = unpack .binary32 (pack .binary32 (x.unpacked.mul .binary32 y.unpacked)) := by
  rw [← unpack_value x, ← unpack_value y] at defined ⊢
  exact unpacked_computed_of_defined [x, y] defined

theorem unpacked_div_of_defined
    (defined : (unpack .binary32
      (pack .binary32 (x.unpacked.div .binary32 y.unpacked))).isNaN = false) :
    (x / y).unpacked = unpack .binary32 (pack .binary32 (x.unpacked.div .binary32 y.unpacked)) := by
  rw [← unpack_value x, ← unpack_value y] at defined ⊢
  exact unpacked_computed_of_defined [x, y] defined

/-- Finite and above zero. -/
structure IsPositive (x : Single) : Prop where
  finite : Scalar.isFinite x
  pos : 0 < x

theorem IsPositive.exists_unpacked (positive : x.IsPositive) :
    ∃ mantissa exponent mantissaPos, x.unpacked = .finite .positive mantissa exponent mantissaPos ∧
      IsCanonical .binary32 mantissa exponent := by
  obtain ⟨finite, pos⟩ := positive
  rw [isFinite_eq] at finite
  rw [lt_iff, unpacked_zero] at pos
  cases unpacked : x.unpacked with
  | zero _ =>
    rw [unpacked] at pos
    cases pos
  | infinity _ | notANumber =>
    rw [unpacked] at finite
    cases finite
  | finite sign mantissa exponent mantissaPos =>
    cases sign with
    | positive => exact ⟨_, _, _, rfl, isCanonical_of_unpack unpacked⟩
    | negative =>
      rw [unpacked] at pos
      cases pos

theorem IsPositive.stored_div (dividend : x.IsPositive) (divisor : y.IsPositive) :
    Stored .binary32 .positive (x.magnitude / y.magnitude) (x / y).unpacked := by
  obtain ⟨m, e, mPositive, left, _⟩ := dividend.exists_unpacked
  obtain ⟨n, f, nPositive, right, _⟩ := divisor.exists_unpacked
  have bits : 2 ≤ Format.binary32.exponentBits := by decide
  have stored := DisplayColor.stored_div bits .positive .positive e f mPositive nPositive
  rw [← left, ← right] at stored
  rw [unpacked_div_of_defined stored.isNaN, magnitude, magnitude]
  rw [left, right] at stored ⊢
  exact stored

/-- The sign of a product with a positive number is that of the other factor. -/
theorem IsPositive.exists_stored_mul (factor : y.IsPositive) (finite : Scalar.isFinite x) :
    ∃ sign, Stored .binary32 sign (x.magnitude * y.magnitude) (x * y).unpacked ∧
      (x.IsPositive → sign = .positive) := by
  obtain ⟨n, f, nPositive, right, rightCanonical⟩ := factor.exists_unpacked
  rw [isFinite_eq] at finite
  cases left : x.unpacked with
  | zero s =>
    -- A zero has no digits, so the product is not rounded at all.
    have product : unpack .binary32 (pack .binary32 (x.unpacked.mul .binary32 y.unpacked)) =
        .zero (s * .positive) := by
      rw [left, right]
      exact unpack_packedZero
    have none : x.magnitude * y.magnitude ≤ underflowBound .binary32 := by
      rw [magnitude, left, magnitude_zero, zero_mul]
      exact (underflowBound_pos _).le
    rw [unpacked_mul_of_defined (product ▸ rfl), product]
    refine ⟨_, .vanished none, fun positive => ?_⟩
    obtain ⟨_, _, _, nonzero, -⟩ := positive.exists_unpacked
    rw [left] at nonzero
    cases nonzero
  | finite s m e mPositive =>
    have bits : 2 ≤ Format.binary32.exponentBits := by decide
    have stored := DisplayColor.stored_mul bits s .positive (isCanonical_of_unpack left)
      rightCanonical mPositive nPositive
    rw [← left, ← right] at stored
    rw [unpacked_mul_of_defined stored.isNaN, magnitude, magnitude]
    rw [left, right] at stored ⊢
    refine ⟨_, stored, fun positive => ?_⟩
    obtain ⟨_, _, _, sign, -⟩ := positive.exists_unpacked
    rw [left] at sign
    cases sign
    rfl
  | infinity _ | notANumber =>
    rw [left] at finite
    cases finite

/-! ## Results without a value -/

theorem div_eq_invalid (left : Scalar.isNaN x = false) (right : Scalar.isNaN y = false)
    (undefined : x.unpacked.div .binary32 y.unpacked = .notANumber) : x / y = invalid := by
  have value : x.value / y.value = Float32.ofModel (.pack .notANumber) := by
    rw [← undefined, ← unpack_value, ← unpack_value]
    rfl
  have noOperand : [x, y].find? (fun operand => operand.value.isNaN) = none := by
    rw [List.find?_eq_none]
    intro operand member
    obtain rfl | rfl : operand = x ∨ operand = y := by simpa using member
    · exact Bool.not_eq_true _ ▸ left
    · exact Bool.not_eq_true _ ▸ right
  have noValue : (Float32.ofModel (.pack .notANumber)).isNaN = true := by decide
  show computed [x, y] (x.value / y.value) = invalid
  rw [value, computed, if_pos noValue, noOperand]
  rfl

/-- What has no value is handed on. -/
theorem div_invalid (defined : Scalar.isNaN x = false) : x / invalid = invalid := by
  have value : x.value / invalid.value = Float32.ofModel (.pack .notANumber) := by
    have divisor : invalid.value.toModel.unpack = .notANumber := rfl
    show Float32.ofModel
      (.pack (x.value.toModel.unpack.div .binary32 invalid.value.toModel.unpack)) = _
    rw [divisor]
    cases x.value.toModel.unpack <;> rfl
  have dividend : x.value.isNaN = false := defined
  have noValue : (Float32.ofModel (.pack .notANumber)).isNaN = true := by decide
  show computed [x, invalid] (x.value / invalid.value) = invalid
  rw [value, computed, if_pos noValue]
  simp only [List.find?_cons, dividend]
  rfl

theorem not_lt_of_isNaN (undefined : Scalar.isNaN y) : ¬ x < y ∧ ¬ y < x := by
  rw [isNaN_eq] at undefined
  rw [lt_iff, lt_iff]
  cases unpacked : y.unpacked with
  | notANumber => cases x.unpacked <;> exact ⟨Bool.false_ne_true, Bool.false_ne_true⟩
  | zero _ | finite _ _ _ _ | infinity _ =>
    rw [unpacked] at undefined
    cases undefined

section Quotients

variable {v w : ℚ} (first : Stored .binary32 .positive v x.unpacked)
  (second : Stored .binary32 .positive w y.unpacked)

include first second

theorem div_of_overflowed (large : overflowBound .binary32 ≤ v)
    (large' : overflowBound .binary32 ≤ w) : x / y = invalid := by
  refine div_eq_invalid ((isNaN_eq x).trans first.isNaN) ((isNaN_eq y).trans second.isNaN) ?_
  rw [first.eq_infinity (by decide) large, second.eq_infinity (by decide) large']
  rfl

theorem div_of_vanished (small : v ≤ underflowBound .binary32)
    (small' : w ≤ underflowBound .binary32) : x / y = invalid := by
  refine div_eq_invalid ((isNaN_eq x).trans first.isNaN) ((isNaN_eq y).trans second.isNaN) ?_
  rw [first.eq_zero (by decide) small, second.eq_zero (by decide) small']
  rfl

/-- A quotient of two results that are not negative has a value unless both are infinite or both
are zero. -/
theorem isNaN_div (large : ¬ (overflowBound .binary32 ≤ v ∧ overflowBound .binary32 ≤ w))
    (small : ¬ (v ≤ underflowBound .binary32 ∧ w ≤ underflowBound .binary32)) :
    Scalar.isNaN (x / y) = false := by
  have defined (special : UnpackedFloat) (quotient : x.unpacked.div .binary32 y.unpacked = special)
      (value : (unpack .binary32 (pack .binary32 special)).isNaN = false) :
      Scalar.isNaN (x / y) = false := by
    rw [← quotient] at value
    rw [isNaN_eq, unpacked_div_of_defined value, value]
  -- Only the quotient of two numbers that are kept has to be rounded.
  generalize x.unpacked = dividend at first defined
  generalize y.unpacked = divisor at second defined
  cases first with
  | vanished smallDividend =>
    cases second with
    | vanished smallDivisor => exact absurd ⟨smallDividend, smallDivisor⟩ small
    | kept _ _ _ | overflowed _ => exact defined (.zero .positive) rfl rfl
  | kept positive _ _ =>
    cases second with
    | vanished _ => exact defined (.infinity .positive) rfl rfl
    | kept positive' _ _ =>
      exact defined _ rfl (stored_div (by decide) .positive .positive _ _ positive positive').isNaN
    | overflowed _ => exact defined (.zero .positive) rfl rfl
  | overflowed largeDividend =>
    cases second with
    | vanished _ | kept _ _ _ => exact defined (.infinity .positive) rfl rfl
    | overflowed largeDivisor => exact absurd ⟨largeDividend, largeDivisor⟩ large

end Quotients

end Single

end DisplayColor

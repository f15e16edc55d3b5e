import DisplayColor.Scalar.Binary
import DisplayColor.Proofs.Scalar.Mantissas

/-! # Rounding does not cross round numbers

Sums, products and quotients of unpacked numbers are computed exactly, or exactly but for residual
bits, and are then rounded to the digits of a format.  A number with few binary digits is in the
format itself, so rounding does not move anything past it: if the exact result is at most `c * 2 ^ k`
for a small `c`, then so is the rounded one.  Bounds can therefore be calculated with as if nothing
were rounded. -/

namespace DisplayColor

open Float.Model (Format UnpackedFloat totalExponent)
open Float.Model.UnpackedFloat

/-! ## Numbers of a format -/

theorem minExponent_nonpos (format : Format) : format.minExponent ≤ 0 := by
  have bits : 0 < format.mantissaBitsWithoutImplicit := format.hm
  have power : (1 : ℤ) ≤ 2 ^ (format.exponentBits - 1) := one_le_pow₀ one_le_two
  simp only [Format.minExponent, Format.mantissaBits]
  push_cast
  omega

/-- The form that a format prescribes: no more digits than fit, and fewer only with the smallest
exponent. -/
structure IsCanonical (format : Format) (mantissa : ℕ) (exponent : ℤ) : Prop where
  fits : mantissa.log2 + 1 ≤ format.mantissaBits
  le : format.minExponent ≤ exponent
  full : mantissa.log2 + 1 = format.mantissaBits ∨ exponent = format.minExponent

/-- A number of the format whose magnitude is at most the bound. -/
def IsWithin (format : Format) (bound : ℚ) : UnpackedFloat → Prop
  | .zero _ => 0 ≤ bound
  | .finite _ mantissa exponent _ =>
    IsCanonical format mantissa exponent ∧ (mantissa : ℚ) * 2 ^ exponent ≤ bound
  | .infinity _ | .notANumber => False

theorem log2_div_two_pow {mantissa shift : ℕ} (le : shift ≤ mantissa.log2) (nonzero : mantissa ≠ 0) :
    (mantissa / 2 ^ shift).log2 = mantissa.log2 - shift := by
  have positive : 0 < 2 ^ shift := Nat.two_pow_pos shift
  have lower : 2 ^ (mantissa.log2 - shift) ≤ mantissa / 2 ^ shift := by
    rw [Nat.le_div_iff_mul_le positive, ← pow_add, Nat.sub_add_cancel le]
    exact Nat.log2_self_le nonzero
  have upper : mantissa / 2 ^ shift < 2 ^ (mantissa.log2 - shift + 1) := by
    rw [Nat.div_lt_iff_lt_mul positive, ← pow_add, Nat.add_right_comm, Nat.sub_add_cancel le]
    exact Nat.lt_log2_self
  have nonzero : mantissa / 2 ^ shift ≠ 0 := (Nat.two_pow_pos _).trans_le lower |>.ne'
  exact (Nat.log2_eq_iff nonzero).mpr ⟨lower, upper⟩

theorem log2_le_log2 {small large : ℕ} (le : small ≤ large) : small.log2 ≤ large.log2 := by
  by_cases zero : small = 0
  · simp [zero]
  · have nonzero : large ≠ 0 := (Nat.pos_of_ne_zero zero).trans_le le |>.ne'
    exact (Nat.le_log2 nonzero).mpr ((Nat.log2_self_le zero).trans le)

theorem two_zpow_log2_le {mantissa : ℕ} (nonzero : mantissa ≠ 0) (exponent : ℤ) :
    (2 : ℚ) ^ (mantissa.log2 + exponent) ≤ mantissa * 2 ^ exponent := by
  have le : (2 : ℚ) ^ mantissa.log2 ≤ mantissa := by exact_mod_cast Nat.log2_self_le nonzero
  rw [zpow_add₀ two_ne_zero, zpow_natCast]
  gcongr

section Round

variable {format : Format} {sign : Sign} {mantissa : ℕ} {exponent : ℤ} {accuracy : Accuracy}

/-- There are enough digits, or as many as there can be with the smallest exponent.  Then rounding
only has to drop digits. -/
def HasDigits (format : Format) (mantissa : ℕ) (exponent : ℤ) : Prop :=
  format.mantissaBits ≤ mantissa.log2 + 1 ∨ exponent ≤ format.minExponent

/-- How far the mantissa is shifted to the exponent that the format prescribes. -/
def targetShift (format : Format) (mantissa : ℕ) (exponent : ℤ) : ℕ :=
  (format.targetExponent (totalExponent mantissa exponent) - exponent).toNat

theorem shiftToTargetExponent_eq (format : Format) (mantissa : ℕ) (exponent : ℤ)
    (accuracy : Accuracy) : shiftToTargetExponent format mantissa exponent accuracy =
      (ExtendedMantissa.ofMantissaAndAccuracy mantissa accuracy >>>
        targetShift format mantissa exponent, exponent + targetShift format mantissa exponent) :=
  rfl

theorem HasDigits.add_targetShift (digits : HasDigits format mantissa exponent) :
    exponent + targetShift format mantissa exponent =
      max (mantissa.log2 + 1 + exponent - format.mantissaBits) format.minExponent := by
  unfold HasDigits at digits
  simp only [targetShift, Format.targetExponent, totalExponent]
  omega

/-- Shifted to the exponent that the format prescribes, a mantissa is in the form it prescribes. -/
theorem HasDigits.isCanonical (digits : HasDigits format mantissa exponent)
    (nonzero : mantissa / 2 ^ targetShift format mantissa exponent ≠ 0) :
    IsCanonical format (mantissa / 2 ^ targetShift format mantissa exponent)
      (exponent + targetShift format mantissa exponent) := by
  have target := digits.add_targetShift
  have source : mantissa ≠ 0 := by
    rintro rfl
    simp at nonzero
  have le : targetShift format mantissa exponent ≤ mantissa.log2 := by
    by_contra! exceeds
    have small : mantissa < 2 ^ targetShift format mantissa exponent := (Nat.log2_lt source).mp exceeds
    exact nonzero (Nat.div_eq_of_lt small)
  have digitsLeft := log2_div_two_pow le source
  refine ⟨?_, ?_, ?_⟩ <;> omega

/-- A bound on the exact number is one on the exponent, too. -/
theorem HasDigits.add_targetShift_le (digits : HasDigits format mantissa exponent) {c k : ℕ}
    (small : c < 2 ^ format.mantissaBits) (le : (mantissa : ℚ) * 2 ^ exponent ≤ c * 2 ^ k) :
    exponent + targetShift format mantissa exponent ≤ k := by
  have smallest := minExponent_nonpos format
  rw [digits.add_targetShift]
  refine max_le ?_ (by omega)
  by_cases zero : mantissa = 0
  · have bits : 1 ≤ format.mantissaBits := by simp [Format.mantissaBits]
    have positive := format.hm
    simp only [HasDigits, zero, Nat.log2_zero, Format.mantissaBits] at digits ⊢
    omega
  · have lt : (2 : ℚ) ^ (mantissa.log2 + exponent) < 2 ^ ((format.mantissaBits : ℤ) + k) := by
      calc (2 : ℚ) ^ (mantissa.log2 + exponent)
        _ ≤ mantissa * 2 ^ exponent := two_zpow_log2_le zero exponent
        _ ≤ c * 2 ^ k := le
        _ < 2 ^ format.mantissaBits * 2 ^ k := by
          gcongr
          exact_mod_cast small
        _ = 2 ^ ((format.mantissaBits : ℤ) + k) := by
          rw [zpow_add₀ two_ne_zero, zpow_natCast, zpow_natCast]
    have exponents := (zpow_lt_zpow_iff_right₀ one_lt_two).mp lt
    omega

/-- Rounding does not take digits away. -/
theorem HasDigits.rounded (digits : HasDigits format mantissa exponent) (accuracy : Accuracy) :
    HasDigits format
      (ExtendedMantissa.ofMantissaAndAccuracy mantissa accuracy >>>
        targetShift format mantissa exponent).roundedMantissa
      (exponent + targetShift format mantissa exponent) := by
  have target := digits.add_targetShift
  have kept := log2_le_log2 (le_roundedMantissa
    (ExtendedMantissa.ofMantissaAndAccuracy mantissa accuracy >>>
      targetShift format mantissa exponent))
  rw [mantissa_shiftRight, mantissa_ofMantissaAndAccuracy] at kept
  have bits : 1 ≤ format.mantissaBits := Nat.le_add_right 1 _
  unfold HasDigits at digits ⊢
  by_cases smallest : exponent + targetShift format mantissa exponent = format.minExponent
  · exact .inr smallest.le
  · left
    have nonzero : mantissa ≠ 0 := by
      rintro rfl
      have two : 2 ≤ format.mantissaBits := Nat.add_le_add_left format.hm 1
      simp only [Nat.log2_zero] at digits target
      omega
    have le : targetShift format mantissa exponent ≤ mantissa.log2 := by omega
    have digitsLeft := log2_div_two_pow le nonzero
    omega

/-- The number with the given mantissa, shifted once more because rounding may have carried. -/
def placed (format : Format) (sign : Sign) (mantissa : ℕ) (exponent : ℤ) : UnpackedFloat :=
  let shift := targetShift format mantissa exponent
  if h : mantissa / 2 ^ shift = 0 then .zero sign
  else .finite sign (mantissa / 2 ^ shift) (exponent + shift) (Nat.pos_of_ne_zero h)

theorem roundWithAccuracy_eq (format : Format) (sign : Sign) (mantissa : ℕ) (exponent : ℤ)
    (accuracy : Accuracy) : roundWithAccuracy format sign mantissa exponent accuracy =
      let shift := targetShift format mantissa exponent
      placed format sign
        (ExtendedMantissa.ofMantissaAndAccuracy mantissa accuracy >>> shift).roundedMantissa
        (exponent + shift) := by
  simp only [roundWithAccuracy, shiftToTargetExponent_eq, placed, mantissa_shiftRight,
    mantissa_ofMantissaAndAccuracy]

theorem HasDigits.isWithin_placed (digits : HasDigits format mantissa exponent) {bound : ℚ}
    (le : (mantissa : ℚ) * 2 ^ exponent ≤ bound) (sign : Sign) :
    IsWithin format bound (placed format sign mantissa exponent) := by
  simp only [placed]
  split
  · exact le_trans (by positivity) le
  · rename_i nonzero
    refine ⟨digits.isCanonical nonzero, ?_⟩
    have floor : ((mantissa / 2 ^ targetShift format mantissa exponent : ℕ) : ℚ)
        * 2 ^ targetShift format mantissa exponent ≤ mantissa := by
      exact_mod_cast Nat.div_mul_le_self mantissa (2 ^ targetShift format mantissa exponent)
    calc ((mantissa / 2 ^ targetShift format mantissa exponent : ℕ) : ℚ)
        * 2 ^ (exponent + targetShift format mantissa exponent)
      _ = (mantissa / 2 ^ targetShift format mantissa exponent : ℕ)
          * 2 ^ targetShift format mantissa exponent * 2 ^ exponent := by
        rw [zpow_add₀ two_ne_zero, zpow_natCast]
        ring
      _ ≤ mantissa * 2 ^ exponent := by gcongr
      _ ≤ bound := le

/-- In units of an exponent that is not larger than its own, a bound is a whole number, and rounding
to a whole number of units does not cross it. -/
theorem Locates.rounded_le {em : ExtendedMantissa} {x : ℚ} (located : Locates em x)
    {c k : ℕ} (exponentLe : exponent ≤ k) (le : x * 2 ^ exponent ≤ c * 2 ^ k) :
    (em.roundedMantissa : ℚ) * 2 ^ exponent ≤ c * 2 ^ k := by
  obtain ⟨gap, gapEq⟩ := Int.le.dest exponentLe
  have units : (c : ℚ) * 2 ^ k = (c * 2 ^ gap : ℕ) * 2 ^ exponent := by
    have scale : (2 : ℚ) ^ k = 2 ^ gap * 2 ^ exponent := by
      rw [← zpow_natCast, ← zpow_natCast, ← zpow_add₀ two_ne_zero, ← gapEq, add_comm]
    rw [scale]
    push_cast
    ring
  have positive : (0 : ℚ) < 2 ^ exponent := zpow_pos two_pos exponent
  rw [units] at le ⊢
  have whole := located.roundedMantissa_le (le_of_mul_le_mul_right le positive)
  exact mul_le_mul_of_nonneg_right (Nat.cast_le.mpr whole) positive.le

theorem shifted_mul (format : Format) (mantissa : ℕ) (exponent : ℤ) (x : ℚ) :
    x / 2 ^ targetShift format mantissa exponent *
      2 ^ (exponent + targetShift format mantissa exponent) = x * 2 ^ exponent := by
  rw [zpow_add₀ two_ne_zero, zpow_natCast]
  field_simp

/-- What rounding leaves of a number is not above a bound with few digits. -/
theorem isWithin_roundWithAccuracy {x : ℚ}
    (located : Locates (.ofMantissaAndAccuracy mantissa accuracy) x)
    (digits : HasDigits format mantissa exponent) {c k : ℕ}
    (small : c < 2 ^ format.mantissaBits) (le : x * 2 ^ exponent ≤ c * 2 ^ k) (sign : Sign) :
    IsWithin format (c * 2 ^ k) (roundWithAccuracy format sign mantissa exponent accuracy) := by
  have floor : (mantissa : ℚ) * 2 ^ exponent ≤ c * 2 ^ k := by
    have whole := located.mantissa_le
    rw [mantissa_ofMantissaAndAccuracy] at whole
    exact (mul_le_mul_of_nonneg_right whole (by positivity)).trans le
  have shifted := located.shiftRight (targetShift format mantissa exponent)
  rw [roundWithAccuracy_eq]
  refine (digits.rounded accuracy).isWithin_placed ?_ sign
  exact shifted.rounded_le (digits.add_targetShift_le small floor) ((shifted_mul ..).trans_le le)

theorem log2_shiftLeft (nonzero : mantissa ≠ 0) (shift : ℕ) :
    (mantissa <<< shift).log2 = mantissa.log2 + shift := by
  rw [Nat.shiftLeft_eq]
  have positive : mantissa * 2 ^ shift ≠ 0 := Nat.mul_ne_zero nonzero (Nat.two_pow_pos _).ne'
  refine (Nat.log2_eq_iff positive).mpr ⟨?_, ?_⟩
  · rw [pow_add]
    exact Nat.mul_le_mul_right _ (Nat.log2_self_le nonzero)
  · rw [Nat.add_right_comm, pow_add]
    exact Nat.mul_lt_mul_of_pos_right Nat.lt_log2_self (Nat.two_pow_pos _)

/-- Any number is rounded with enough digits, since missing ones are added first. -/
theorem isWithin_round (positive : 0 < mantissa) {c k : ℕ} (small : c < 2 ^ format.mantissaBits)
    (le : (mantissa : ℚ) * 2 ^ exponent ≤ c * 2 ^ k) (sign : Sign) :
    IsWithin format (c * 2 ^ k) (UnpackedFloat.round format sign mantissa exponent) := by
  have nonzero := positive.ne'
  simp only [UnpackedFloat.round, decreaseExponent]
  generalize shiftEq :
    (exponent - format.targetExponent (totalExponent mantissa exponent)).toNat = shift
  have digits : HasDigits format (mantissa <<< shift) (exponent - shift) := by
    unfold HasDigits
    rw [log2_shiftLeft nonzero]
    simp only [Format.targetExponent, totalExponent] at shiftEq
    omega
  refine isWithin_roundWithAccuracy (.ofMantissa _) digits small ?_ sign
  calc ((mantissa <<< shift : ℕ) : ℚ) * 2 ^ (exponent - shift)
    _ = mantissa * 2 ^ exponent := by
      rw [Nat.shiftLeft_eq, zpow_sub₀ two_ne_zero, zpow_natCast]
      push_cast
      field_simp
    _ ≤ c * 2 ^ k := le

theorem isWithin_normalize {signed : ℤ} {c k : ℕ} (small : c < 2 ^ format.mantissaBits)
    (le : |(signed : ℚ)| * 2 ^ exponent ≤ c * 2 ^ k) (sign : Sign) :
    IsWithin format (c * 2 ^ k) (UnpackedFloat.normalize format signed exponent sign) := by
  unfold UnpackedFloat.normalize
  split
  · rename_i negative
    have negative : signed < 0 := compare_lt_iff_lt.mp negative
    refine isWithin_round (by omega) small ?_ _
    rw [abs_of_neg (by exact_mod_cast negative)] at le
    have cast : (((-signed).toNat : ℕ) : ℚ) = -signed := by
      exact_mod_cast Int.toNat_of_nonneg (by omega : 0 ≤ -signed)
    rwa [cast]
  · exact le_trans (by positivity) le
  · rename_i positive
    have positive : 0 < signed := compare_gt_iff_gt.mp positive
    refine isWithin_round (by omega) small ?_ _
    rw [abs_of_pos (by exact_mod_cast positive)] at le
    have cast : ((signed.toNat : ℕ) : ℚ) = signed := by
      exact_mod_cast Int.toNat_of_nonneg positive.le
    rwa [cast]

end Round

/-! ## Operations -/

section Operations

variable {format : Format} {a b : UnpackedFloat} {bound first second : ℚ} {c k : ℕ}

theorem IsWithin.nonneg (within : IsWithin format bound a) : 0 ≤ bound := by
  match a with
  | .zero _ => exact within
  | .finite _ _ _ _ => exact le_trans (by positivity) within.2
  | .infinity _ | .notANumber => exact within.elim

theorem IsWithin.mono {larger : ℚ} (within : IsWithin format bound a) (le : bound ≤ larger) :
    IsWithin format larger a := by
  match a with
  | .zero _ => exact within.nonneg.trans le
  | .finite _ _ _ _ => exact ⟨within.1, within.2.trans le⟩
  | .infinity _ | .notANumber => exact within.elim

theorem IsWithin.neg (within : IsWithin format bound a) : IsWithin format bound a.neg := by
  cases a <;> exact within

theorem abs_apply (sign : Sign) (mantissa : ℕ) : |((sign.apply mantissa : ℤ) : ℚ)| = mantissa := by
  cases sign <;> simp [Sign.apply]

theorem shiftLeft_mul_two_zpow (mantissa : ℕ) {exponent smaller : ℤ} (le : smaller ≤ exponent) :
    ((mantissa <<< (exponent - smaller).toNat : ℕ) : ℚ) * 2 ^ smaller = mantissa * 2 ^ exponent := by
  obtain ⟨gap, rfl⟩ := Int.le.dest le
  rw [add_sub_cancel_left, Int.toNat_natCast, Nat.shiftLeft_eq, zpow_add₀ two_ne_zero, zpow_natCast]
  push_cast
  ring

theorem IsWithin.add (left : IsWithin format first a) (right : IsWithin format second b)
    (small : c < 2 ^ format.mantissaBits) (le : first + second ≤ c * 2 ^ k) :
    IsWithin format (c * 2 ^ k) (a.add format b) := by
  have leftLe : first ≤ c * 2 ^ k := (le_add_of_nonneg_right right.nonneg).trans le
  have rightLe : second ≤ c * 2 ^ k := (le_add_of_nonneg_left left.nonneg).trans le
  match a, b with
  | .zero s, .zero t =>
    simp only [UnpackedFloat.add]
    split <;> exact left.nonneg.trans leftLe
  | .zero _, .finite _ _ _ _ => exact right.mono rightLe
  | .finite _ _ _ _, .zero _ => exact left.mono leftLe
  | .finite s m e _, .finite t n f _ =>
    refine isWithin_normalize small ?_ _
    push_cast
    calc |((s.apply (m <<< (e - min e f).toNat : ℕ) : ℤ) : ℚ)
          + ((t.apply (n <<< (f - min e f).toNat : ℕ) : ℤ) : ℚ)| * 2 ^ min e f
      _ ≤ (|((s.apply (m <<< (e - min e f).toNat : ℕ) : ℤ) : ℚ)|
          + |((t.apply (n <<< (f - min e f).toNat : ℕ) : ℤ) : ℚ)|) * 2 ^ min e f := by
        gcongr
        exact abs_add_le _ _
      _ = m * 2 ^ e + n * 2 ^ f := by
        rw [abs_apply, abs_apply, add_mul, shiftLeft_mul_two_zpow m (min_le_left e f),
          shiftLeft_mul_two_zpow n (min_le_right e f)]
      _ ≤ first + second := add_le_add left.2 right.2
      _ ≤ c * 2 ^ k := le
  | .infinity _, _ | .notANumber, _ => exact left.elim
  | .zero _, .infinity _ | .zero _, .notANumber => exact right.elim
  | .finite _ _ _ _, .infinity _ | .finite _ _ _ _, .notANumber => exact right.elim

theorem unpacked_sub_eq (format : Format) (a b : UnpackedFloat) :
    a.sub format b = a.add format b.neg := by
  cases a with
  | finite s m e _ =>
    cases b with
    | finite t n f _ =>
      cases t with
      | positive => rfl
      | negative => exact congrArg (UnpackedFloat.normalize format · _ _) (sub_neg_eq_add _ _)
    | _ => rfl
  | zero s =>
    cases b with
    | zero t => cases t <;> rfl
    | _ => rfl
  | infinity s =>
    cases b with
    | infinity t => cases t <;> rfl
    | _ => rfl
  | notANumber => rfl

theorem IsWithin.sub (left : IsWithin format first a) (right : IsWithin format second b)
    (small : c < 2 ^ format.mantissaBits) (le : first + second ≤ c * 2 ^ k) :
    IsWithin format (c * 2 ^ k) (a.sub format b) := by
  rw [unpacked_sub_eq]
  exact left.add right.neg small le

theorem le_log2_mul {m n : ℕ} (first : m ≠ 0) (second : n ≠ 0) :
    m.log2 + n.log2 ≤ (m * n).log2 := by
  refine (Nat.le_log2 (Nat.mul_ne_zero first second)).mpr ?_
  rw [pow_add]
  exact Nat.mul_le_mul (Nat.log2_self_le first) (Nat.log2_self_le second)

theorem IsCanonical.hasDigits_mul {m n : ℕ} {e f : ℤ} (left : IsCanonical format m e)
    (right : IsCanonical format n f) (mPositive : 0 < m) (nPositive : 0 < n) :
    HasDigits format (m * n) (e + f) := by
  have more := le_log2_mul mPositive.ne' nPositive.ne'
  have smallest := minExponent_nonpos format
  obtain full | smallestLeft := left.full
  · exact .inl (by omega)
  · obtain full | smallestRight := right.full
    · exact .inl (by omega)
    · exact .inr (by omega)

theorem mul_mul_two_zpow (m n : ℕ) (e f : ℤ) :
    ((m * n : ℕ) : ℚ) * 2 ^ (e + f) = m * 2 ^ e * (n * 2 ^ f) := by
  rw [zpow_add₀ two_ne_zero]
  push_cast
  ring

theorem IsWithin.mul (left : IsWithin format first a) (right : IsWithin format second b)
    (small : c < 2 ^ format.mantissaBits) (le : first * second ≤ c * 2 ^ k) :
    IsWithin format (c * 2 ^ k) (a.mul format b) := by
  have nonneg : (0 : ℚ) ≤ c * 2 ^ k := (mul_nonneg left.nonneg right.nonneg).trans le
  match a, b with
  | .zero _, .zero _ | .zero _, .finite _ _ _ _ | .finite _ _ _ _, .zero _ => exact nonneg
  | .finite s m e mPositive, .finite t n f nPositive =>
    have digits := left.1.hasDigits_mul right.1 mPositive nPositive
    refine isWithin_roundWithAccuracy (.ofMantissa _) digits small ?_ _
    calc ((m * n : ℕ) : ℚ) * 2 ^ (e + f)
      _ = m * 2 ^ e * (n * 2 ^ f) := mul_mul_two_zpow m n e f
      _ ≤ first * second := mul_le_mul left.2 right.2 (by positivity) left.nonneg
      _ ≤ c * 2 ^ k := le
  | .infinity _, _ | .notANumber, _ => exact left.elim
  | .zero _, .infinity _ | .zero _, .notANumber => exact right.elim
  | .finite _ _ _ _, .infinity _ | .finite _ _ _ _, .notANumber => exact right.elim

/-- A positive number of the format that is at least the bound. -/
def IsBeyond (format : Format) (bound : ℚ) : UnpackedFloat → Prop
  | .finite .positive mantissa exponent _ =>
    IsCanonical format mantissa exponent ∧ bound ≤ mantissa * 2 ^ exponent
  | _ => False

/-- The quotient is taken with enough digits. -/
theorem hasDigits_quotient (format : Format) {m n : ℕ} (mPositive : 0 < m) (nPositive : 0 < n)
    (e f : ℤ) : HasDigits format (divCore format m e n f).1 (divCore format m e n f).2.1 := by
  simp only [divCore]
  generalize exponentEq : min (e - f)
    (format.targetExponent (totalExponent m e - totalExponent n f)) = exponent
  simp only [Format.targetExponent, totalExponent] at exponentEq
  generalize shiftEq : (e - f - exponent).toNat = shift
  by_cases smallest : exponent ≤ format.minExponent
  · exact .inr smallest
  · left
    -- The divisor has fewer digits than the dividend, by as many as are wanted.
    have digits : n.log2 + format.mantissaBits ≤ m.log2 + shift := by omega
    have lower : 2 ^ (format.mantissaBits - 1) ≤ m <<< shift / n := by
      rw [Nat.le_div_iff_mul_le nPositive, Nat.shiftLeft_eq]
      have bits : 1 ≤ format.mantissaBits := Nat.le_add_right 1 _
      calc 2 ^ (format.mantissaBits - 1) * n
        _ ≤ 2 ^ (format.mantissaBits - 1) * 2 ^ (n.log2 + 1) :=
          Nat.mul_le_mul_left _ Nat.lt_log2_self.le
        _ = 2 ^ (n.log2 + format.mantissaBits) := by
          rw [← pow_add]
          congr 1
          omega
        _ ≤ 2 ^ (m.log2 + shift) := Nat.pow_le_pow_right two_pos digits
        _ ≤ m * 2 ^ shift := by
          rw [pow_add]
          exact Nat.mul_le_mul_right _ (Nat.log2_self_le mPositive.ne')
    have nonzero : m <<< shift / n ≠ 0 := ((Nat.two_pow_pos _).trans_le lower).ne'
    have log := (Nat.le_log2 nonzero).mpr lower
    omega

/-- The digits that are taken stand for the exact quotient. -/
theorem quotient_mul_two_zpow (format : Format) {m n : ℕ} (nPositive : 0 < n) (e f : ℤ) :
    ((m <<< (e - f - (divCore format m e n f).2.1).toNat : ℕ) : ℚ) / n
      * 2 ^ (divCore format m e n f).2.1 = m * 2 ^ e / (n * 2 ^ f) := by
  have divisor : (n : ℚ) ≠ 0 := Nat.cast_ne_zero.mpr nPositive.ne'
  have smaller : (divCore format m e n f).2.1 ≤ e - f := min_le_left _ _
  rw [div_mul_eq_mul_div, shiftLeft_mul_two_zpow m smaller, zpow_sub₀ two_ne_zero]
  field_simp

theorem IsWithin.div (left : IsWithin format first a) (right : IsBeyond format second b)
    (positive : 0 < second) (small : c < 2 ^ format.mantissaBits)
    (le : first ≤ c * 2 ^ k * second) : IsWithin format (c * 2 ^ k) (a.div format b) := by
  match a, b with
  | .zero _, .finite .positive _ _ _ =>
    exact nonneg_of_mul_nonneg_left (left.nonneg.trans le) positive
  | .finite s m e mPositive, .finite .positive n f nPositive =>
    refine isWithin_roundWithAccuracy (.quotient _ nPositive)
      (hasDigits_quotient format mPositive nPositive e f) small ?_ _
    calc ((m <<< (e - f - (divCore format m e n f).2.1).toNat : ℕ) : ℚ) / n
        * 2 ^ (divCore format m e n f).2.1
      _ = m * 2 ^ e / (n * 2 ^ f) := quotient_mul_two_zpow format nPositive e f
      _ ≤ first / second := div_le_div₀ left.nonneg left.2 positive right.2
      _ ≤ c * 2 ^ k := (div_le_iff₀ positive).mpr le
  | .infinity _, _ | .notANumber, _ => exact left.elim
  | .zero _, .infinity _ | .zero _, .notANumber | .zero _, .zero _ => exact right.elim
  | .zero _, .finite .negative _ _ _ | .finite _ _ _ _, .finite .negative _ _ _ => exact right.elim
  | .finite _ _ _ _, .infinity _ | .finite _ _ _ _, .notANumber => exact right.elim
  | .finite _ _ _ _, .zero _ => exact right.elim

theorem IsWithin.roundTo {other : Format} (within : IsWithin format bound a)
    (small : c < 2 ^ other.mantissaBits) (le : bound ≤ c * 2 ^ k) :
    IsWithin other (c * 2 ^ k) (roundTo other a) := by
  match a with
  | .zero _ => exact within.nonneg.trans le
  | .finite _ _ _ positive => exact isWithin_round positive small (within.2.trans le) _
  | .infinity _ | .notANumber => exact within.elim

end Operations

/-! ## Comparisons -/

section Comparisons

variable {format : Format} {a b : UnpackedFloat} {bound : ℚ} {m n : ℕ} {e f : ℤ}

/-- In the form that the format prescribes, larger exponents belong to larger numbers. -/
theorem IsCanonical.mul_le_mul (left : IsCanonical format m e) (right : IsCanonical format n f)
    (nPositive : 0 < n) (le : ((compare e f).then (compare m n)).isLE) :
    (m : ℚ) * 2 ^ e ≤ n * 2 ^ f := by
  obtain lt | ⟨rfl, le⟩ : e < f ∨ e = f ∧ m ≤ n := by
    obtain lt | eq | gt := lt_trichotomy e f
    · exact .inl lt
    · refine .inr ⟨eq, ?_⟩
      rw [compare_eq_iff_eq.mpr eq] at le
      exact Nat.isLE_compare.mp le
    · rw [compare_gt_iff_gt.mpr gt] at le
      cases le
  · have full := right.full.resolve_right (left.le.trans_lt lt).ne'
    have fits := left.fits
    have digits : (m.log2 + 1 : ℤ) + e ≤ n.log2 + f := by omega
    calc (m : ℚ) * 2 ^ e
      _ ≤ 2 ^ (m.log2 + 1) * 2 ^ e := by
        gcongr
        exact_mod_cast Nat.lt_log2_self.le
      _ = 2 ^ ((m.log2 + 1 : ℤ) + e) := by
        rw [zpow_add₀ two_ne_zero, ← zpow_natCast]
        push_cast
        rfl
      _ ≤ 2 ^ (n.log2 + f) := zpow_le_zpow_right₀ one_le_two digits
      _ ≤ n * 2 ^ f := two_zpow_log2_le nPositive.ne' f
  · gcongr

theorem isWithin_of_abs_le
    (canonical : ∀ s m e positive, a = .finite s m e positive → IsCanonical format m e)
    (le : a.abs.le b) (within : IsWithin format bound b) : IsWithin format bound a := by
  match a, b with
  | .zero _, _ => exact within.nonneg
  | .finite s m e _, .finite .positive n f positive =>
    have left := canonical s m e _ rfl
    exact ⟨left, (left.mul_le_mul within.1 positive le).trans within.2⟩
  | .finite _ _ _ _, .finite .negative _ _ _ | .finite _ _ _ _, .zero _ => cases le
  | .infinity _, .zero _ | .infinity _, .finite _ _ _ _ => cases le
  | .notANumber, _ => cases le
  | _, .infinity _ | _, .notANumber => exact within.elim

theorem isWithin_of_le
    (canonical : ∀ s m e positive, a = .finite s m e positive → IsCanonical format m e)
    (nonneg : (UnpackedFloat.zero .positive).le a) (le : a.le b)
    (within : IsWithin format bound b) : IsWithin format bound a := by
  match a with
  | .zero _ => exact within.nonneg
  | .finite .positive _ _ _ => exact isWithin_of_abs_le canonical le within
  | .infinity .positive => exact isWithin_of_abs_le canonical le within
  | .finite .negative _ _ _ | .infinity .negative | .notANumber => cases nonneg

theorem isBeyond_of_le {limit : ℚ} (within : IsWithin format limit a) (le : b.le a)
    (beyond : IsBeyond format bound b) : IsBeyond format bound a := by
  match a, b with
  | .finite .positive m e positive, .finite .positive n f _ =>
    exact ⟨within.1, beyond.2.trans (beyond.1.mul_le_mul within.1 positive le)⟩
  | .finite .negative _ _ _, .finite .positive _ _ _ | .zero _, .finite .positive _ _ _ => cases le
  | _, .finite .negative _ _ _ | _, .zero _ | _, .infinity _ | _, .notANumber =>
    exact beyond.elim
  | .infinity _, _ | .notANumber, _ => exact within.elim

end Comparisons

end DisplayColor

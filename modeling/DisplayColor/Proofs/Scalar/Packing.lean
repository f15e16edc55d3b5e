import DisplayColor.Proofs.Scalar.Rounding

/-! # Packing

Numbers are stored packed and computed with unpacked.  Packing a rounded number that is in the range
of its format loses nothing, and changes of the sign can be made on the packed form. -/

namespace DisplayColor

open Float.Model (Format UnpackedFloat totalExponent)
open Float.Model.UnpackedFloat

theorem two_pow_exponentBits (format : Format) :
    2 ^ format.exponentBits = 2 * format.exponentBias + 2 := by
  obtain ⟨bits, bitsEq⟩ := Nat.exists_eq_succ_of_ne_zero format.he.ne'
  have power : 1 ≤ 2 ^ bits := Nat.one_le_two_pow
  simp only [Format.exponentBias, bitsEq, Nat.succ_sub_one, Nat.pow_succ]
  omega

theorem minExponent_eq (format : Format) :
    format.minExponent = 1 - format.exponentBias - format.mantissaBitsWithoutImplicit := by
  have power : 1 ≤ 2 ^ (format.exponentBits - 1) := Nat.one_le_two_pow
  simp only [Format.minExponent, Format.exponentBias, Format.mantissaBits]
  push_cast [power]
  ring

theorem toNat_one_append {bits : ℕ} (fraction : BitVec bits) :
    (1#1 ++ fraction).toNat = 2 ^ bits + fraction.toNat := by
  rw [BitVec.toNat_append, ← Nat.shiftLeft_add_eq_or_of_lt fraction.isLt]
  simp [Nat.shiftLeft_eq]

/-- The largest exponent leaves room for all digits. -/
theorem IsCanonical.le_exponentBias {format : Format} {mantissa : ℕ} {exponent : ℤ}
    (canonical : IsCanonical format mantissa exponent) (positive : 0 < mantissa)
    (bits : 2 ≤ format.exponentBits)
    (le : (mantissa : ℚ) * 2 ^ exponent < 2 ^ (format.exponentBias + 1)) :
    exponent + format.mantissaBitsWithoutImplicit ≤ format.exponentBias := by
  obtain full | smallest := canonical.full
  · have lt := (two_zpow_log2_le positive.ne' exponent).trans_lt le
    rw [← zpow_natCast, zpow_lt_zpow_iff_right₀ one_lt_two] at lt
    simp only [Format.mantissaBits] at full
    push_cast at lt
    omega
  · have bias : 2 ^ (2 - 1) ≤ 2 ^ (format.exponentBits - 1) :=
      Nat.pow_le_pow_right two_pos (Nat.sub_le_sub_right bits 1)
    rw [smallest, minExponent_eq]
    simp only [Format.exponentBias]
    omega

theorem unpack_pack_finite {format : Format} (sign : Sign) {mantissa : ℕ} {exponent : ℤ}
    (positive : 0 < mantissa) (canonical : IsCanonical format mantissa exponent)
    (le : exponent + format.mantissaBitsWithoutImplicit ≤ format.exponentBias) :
    unpack format (pack format (.finite sign mantissa exponent positive)) =
      .finite sign mantissa exponent positive := by
  have capacity := two_pow_exponentBits format
  have smallest := minExponent_eq format
  have ge := canonical.le
  generalize biasedEq :
    (exponent + format.exponentBias + format.mantissaBitsWithoutImplicit).toNat = biased
  have small : biased + 1 < 2 ^ format.exponentBits := by omega
  have notSpecial {e : ℕ} (small : e + 1 < 2 ^ format.exponentBits) :
      BitVec.ofNat format.exponentBits e ≠ -1#_ := by
    intro special
    have all := congrArg BitVec.toNat special
    rw [BitVec.neg_one_eq_allOnes, BitVec.toNat_allOnes, BitVec.toNat_ofNat,
      Nat.mod_eq_of_lt (by omega)] at all
    omega
  have nonzero := positive.ne'
  by_cases full : mantissa.log2 + 1 = format.mantissaBits
  · have biasedNonzero : BitVec.ofNat format.exponentBits biased ≠ 0#_ := by
      intro zero
      have none := congrArg BitVec.toNat zero
      rw [BitVec.toNat_ofNat, Nat.mod_eq_of_lt (by omega), BitVec.toNat_zero] at none
      omega
    have fraction : 2 ^ format.mantissaBitsWithoutImplicit
        + mantissa % 2 ^ format.mantissaBitsWithoutImplicit = mantissa := by
      have lower := Nat.log2_self_le nonzero
      have upper : mantissa < 2 ^ (mantissa.log2 + 1) := Nat.lt_log2_self
      have log : mantissa.log2 = format.mantissaBitsWithoutImplicit := by
        simp only [Format.mantissaBits] at full
        omega
      rw [log] at lower upper
      rw [Nat.mod_eq_sub_mod lower, Nat.mod_eq_of_lt (by omega)]
      omega
    simp only [pack, biasedEq, if_neg (not_le.mpr small), if_pos full, unpack,
      unpackExponent_packComponents, unpackMantissa_packComponents, unpackSign_packComponents,
      notSpecial small, biasedNonzero, if_false, Sign.ofBitVec_toBitVec, toNat_one_append,
      BitVec.toNat_ofNat, Nat.mod_eq_of_lt (show biased < 2 ^ format.exponentBits by omega),
      fraction]
    congr 1
    omega
  · have exponentEq := canonical.full.resolve_left full
    have fits := canonical.fits
    have lt : mantissa < 2 ^ format.mantissaBitsWithoutImplicit := by
      refine (Nat.log2_lt nonzero).mp ?_
      simp only [Format.mantissaBits] at full fits
      omega
    have fractionNonzero : BitVec.ofNat format.mantissaBitsWithoutImplicit mantissa ≠ 0#_ := by
      intro zero
      have none := congrArg BitVec.toNat zero
      rw [BitVec.toNat_ofNat, Nat.mod_eq_of_lt lt, BitVec.toNat_zero] at none
      exact nonzero none
    have zeroNotSpecial : BitVec.ofNat format.exponentBits 0 ≠ -1#_ := notSpecial (by omega)
    simp only [pack, biasedEq, if_neg (not_le.mpr small), if_neg full, unpack,
      unpackExponent_packComponents, unpackMantissa_packComponents, unpackSign_packComponents,
      zeroNotSpecial, fractionNonzero, if_false, if_true, Sign.ofBitVec_toBitVec,
      BitVec.toNat_ofNat, Nat.mod_eq_of_lt lt, dite_false]
    congr 1
    simp
    omega

theorem unpack_pack {format : Format} {bound : ℚ} {u : UnpackedFloat}
    (within : IsWithin format bound u) (bits : 2 ≤ format.exponentBits)
    (range : bound < 2 ^ (format.exponentBias + 1)) : unpack format (pack format u) = u := by
  match u with
  | .zero _ => exact unpack_packedZero
  | .finite sign _ _ positive =>
    exact unpack_pack_finite sign positive within.1
      (within.1.le_exponentBias positive bits (within.2.trans_lt range))
  | .infinity _ | .notANumber => exact within.elim

/-! ## Unpacked numbers -/

section Unpack

variable {format : Format}

theorem isCanonical_of_unpack {b : BitVec format.numBits} {sign : Sign} {mantissa : ℕ}
    {exponent : ℤ} {positive : 0 < mantissa}
    (unpacked : unpack format b = .finite sign mantissa exponent positive) :
    IsCanonical format mantissa exponent := by
  have smallest := minExponent_eq format
  have bits : format.mantissaBits = 1 + format.mantissaBitsWithoutImplicit := rfl
  simp only [unpack] at unpacked
  split at unpacked
  · split at unpacked <;> cases unpacked
  · split at unpacked
    · rename_i zero
      split at unpacked
      · cases unpacked
      · -- Without the implicit digit the exponent is the smallest one.
        cases unpacked
        have log := (Nat.log2_lt positive.ne').mpr (unpackMantissa b).isLt
        simp only [zero, BitVec.toNat_zero]
        refine ⟨?_, ?_, .inr ?_⟩ <;> omega
    · rename_i nonzero
      cases unpacked
      have exponentPos : (unpackExponent b).toNat ≠ 0 := fun zero =>
        nonzero (BitVec.eq_of_toNat_eq zero)
      have log : (1#1 ++ unpackMantissa b).toNat.log2 = format.mantissaBitsWithoutImplicit := by
        have lt := (unpackMantissa b).isLt
        rw [toNat_one_append] at positive ⊢
        refine (Nat.log2_eq_iff positive.ne').mpr ⟨Nat.le_add_right _ _, ?_⟩
        rw [pow_succ]
        omega
      refine ⟨?_, ?_, .inl ?_⟩ <;> omega

theorem unpack_pack_unpack (format : Format) (b : BitVec format.numBits)
    (bits : 2 ≤ format.exponentBits) :
    unpack format (pack format (unpack format b)) = unpack format b := by
  rw [pack_unpack b bits]
  split
  · rename_i undefined
    have undefined := of_decide_eq_true undefined
    rw [unpack_packedNaN]
    simp only [unpack, undefined, if_true, if_false]
  · rfl

theorem unpack_xor_sign (format : Format) (b : BitVec format.numBits) :
    unpack format (b ^^^ packedZero format .negative) = (unpack format b).neg := by
  have flipped (sign : BitVec 1) : Sign.ofBitVec (sign ^^^ 1#1) = -Sign.ofBitVec sign := by
    obtain rfl | rfl := BitVec.eq_zero_or_eq_one sign <;> rfl
  have mantissa : unpackMantissa (b ^^^ packedZero format .negative) = unpackMantissa b := by
    have mask : unpackMantissa (packedZero format .negative) = 0 := unpackMantissa_packComponents
    rw [unpackMantissa_def] at mask ⊢
    rw [BitVec.extractLsb'_xor, mask, unpackMantissa_def]
    simp
  have exponent : unpackExponent (b ^^^ packedZero format .negative) = unpackExponent b := by
    have mask : unpackExponent (packedZero format .negative) = 0 := unpackExponent_packComponents
    rw [unpackExponent_def] at mask ⊢
    rw [BitVec.extractLsb'_xor, mask, unpackExponent_def]
    simp
  have sign : unpackSign (b ^^^ packedZero format .negative) = unpackSign b ^^^ 1#1 := by
    have mask : unpackSign (packedZero format .negative) = 1#1 := unpackSign_packComponents ..
    rw [unpackSign_def] at mask ⊢
    rw [BitVec.extractLsb'_xor, mask, unpackSign_def]
  simp only [unpack, mantissa, exponent, sign, flipped]
  split
  · split <;> rfl
  · split
    · split <;> rfl
    · rfl

theorem unpack_and_unsigned (format : Format) (b : BitVec format.numBits) :
    unpack format (b &&& packComponents format .positive (-1#_) (-1#_)) = (unpack format b).abs := by
  have cleared (sign : BitVec 1) : Sign.ofBitVec (sign &&& 0#1) = .positive := by
    obtain rfl | rfl := BitVec.eq_zero_or_eq_one sign <;> rfl
  have mantissa : unpackMantissa (b &&& packComponents format .positive (-1#_) (-1#_)) =
      unpackMantissa b := by
    have mask : unpackMantissa (packComponents format .positive (-1#_) (-1#_)) = -1#_ :=
      unpackMantissa_packComponents
    rw [unpackMantissa_def] at mask ⊢
    rw [BitVec.extractLsb'_and, mask, unpackMantissa_def, BitVec.neg_one_eq_allOnes,
      BitVec.and_allOnes]
  have exponent : unpackExponent (b &&& packComponents format .positive (-1#_) (-1#_)) =
      unpackExponent b := by
    have mask : unpackExponent (packComponents format .positive (-1#_) (-1#_)) = -1#_ :=
      unpackExponent_packComponents
    rw [unpackExponent_def] at mask ⊢
    rw [BitVec.extractLsb'_and, mask, unpackExponent_def, BitVec.neg_one_eq_allOnes,
      BitVec.and_allOnes]
  have sign : unpackSign (b &&& packComponents format .positive (-1#_) (-1#_)) =
      unpackSign b &&& 0#1 := by
    have mask : unpackSign (packComponents format .positive (-1#_) (-1#_)) = 0#1 :=
      unpackSign_packComponents ..
    rw [unpackSign_def] at mask ⊢
    rw [BitVec.extractLsb'_and, mask, unpackSign_def]
  simp only [unpack, mantissa, exponent, sign, cleared]
  split
  · split <;> rfl
  · split
    · split <;> rfl
    · rfl

end Unpack

end DisplayColor

import DisplayColor.Proofs.Scalar.Magnitude

/-! # Division by zero

What is divided by zero is infinite or undefined, whatever it is.  An undefined operand is handed on
with its own bits, made quiet, so this is also a statement about the bits of undefined numbers: the
quiet bit belongs to the fraction, and the exponent alone says that a number is not finite. -/

namespace DisplayColor

open Float.Model (Format UnpackedFloat)
open Float.Model.UnpackedFloat

theorem isFinite_unpack {format : Format} (b : BitVec format.numBits) :
    (unpack format b).isFinite = decide (unpackExponent b ≠ -1#_) := by
  simp only [unpack]
  split
  · rename_i special
    split <;> simp [special, UnpackedFloat.isFinite]
  · rename_i ordinary
    split
    · split <;> simp [ordinary, UnpackedFloat.isFinite]
    · simp [ordinary, UnpackedFloat.isFinite]

/-- Setting bits cannot make a number finite. -/
theorem isFinite_unpack_or {format : Format} {b : BitVec format.numBits}
    (special : (unpack format b).isFinite = false) (set : BitVec format.numBits) :
    (unpack format (b ||| set)).isFinite = false := by
  rw [isFinite_unpack, decide_eq_false_iff_not, not_not] at special ⊢
  rw [unpackExponent_def] at special ⊢
  rw [BitVec.extractLsb'_or, special, BitVec.neg_one_eq_allOnes, BitVec.allOnes_or]

theorem isFinite_unpacked_div_zero (format : Format) (u : UnpackedFloat) (sign : Sign) :
    (u.div format (.zero sign)).isFinite = false := by
  cases u <;> rfl

theorem exists_eq_zero_of_beq {u : UnpackedFloat} (equal : u.beq (.zero .positive)) :
    ∃ sign, u = .zero sign := by
  match u with
  | .zero sign => exact ⟨sign, rfl⟩
  | .finite .positive _ _ _ | .finite .negative _ _ _ => cases equal
  | .infinity .positive | .infinity .negative | .notANumber => cases equal

theorem isFinite_eq_false_of_isNaN {u : UnpackedFloat} (undefined : u.isNaN) :
    u.isFinite = false := by
  match u with
  | .notANumber | .infinity _ => rfl
  | .zero _ | .finite _ _ _ _ => cases undefined

namespace Double

theorem isFinite_quiet {x : Double} (undefined : x.value.isNaN) :
    Scalar.isFinite x.quiet = false := by
  have special : x.unpacked.isFinite = false := by
    rw [← unpack_value]
    exact isFinite_eq_false_of_isNaN undefined
  calc x.quiet.value.toModel.unpack.isFinite
    _ = x.quiet.unpacked.isFinite := by rw [unpack_value]
    _ = false := isFinite_unpack_or special 0x0008000000000000#64

theorem isFinite_computed {operands : List Double} {value : Float}
    (special : value.isFinite = false) : Scalar.isFinite (computed operands value) = false := by
  unfold computed
  split
  · cases found : operands.find? (fun x => x.value.isNaN) with
    | none => rfl
    | some x =>
      have undefined : x.value.isNaN := by simpa using List.find?_some found
      exact isFinite_quiet undefined
  · show (Float.ofBits value.toBits).isFinite = false
    rw [Float.ofBits_toBits, special]

theorem isFinite_unpack_pack {u : UnpackedFloat} (special : u.isFinite = false) :
    (Float.Model.pack u).unpack.isFinite = false := by
  match u with
  | .notANumber | .infinity .positive | .infinity .negative => rfl
  | .zero _ | .finite _ _ _ _ => cases special

theorem isFinite_div_zero (x : Double) {y : Double} (zero : y == 0) :
    Scalar.isFinite (x / y) = false := by
  obtain ⟨sign, unpacked⟩ : ∃ sign, y.value.toModel.unpack = .zero sign :=
    exists_eq_zero_of_beq zero
  refine isFinite_computed (isFinite_unpack_pack ?_)
  rw [unpacked]
  exact isFinite_unpacked_div_zero _ _ sign

end Double

end DisplayColor

import DisplayColor.Proofs.Description.Repair
import DisplayColor.Proofs.Fusion.Rules
import DisplayColor.Proofs.Scalar.Overflow

/-! # Gains folded into transfer functions

A uniform gain after a transfer function is never appended: the function takes it in by scaling its
range.  In single precision the scaled ends may be infinite, or rounded to one number, and then
there is no such function.  The default range of the curve takes its place, although the range
after the step is scaled by the gain as always, so the gain is lost and the colours change.

So a gain survives exactly if the scaled ends are finite and still apart. -/

namespace DisplayColor

open Float.Model (Format UnpackedFloat)
open Float.Model.UnpackedFloat

/-! ## Scaled ranges -/

/-- In a comparison the sign of a zero does not count. -/
theorem lt_of_zero_lt {s t : Sign} {u : UnpackedFloat} (less : (UnpackedFloat.zero s).lt u) :
    (UnpackedFloat.zero t).lt u := by
  match u with
  | .finite .positive _ _ _ | .infinity .positive => rfl
  | .finite .negative _ _ _ | .infinity .negative | .zero _ | .notANumber => cases less

namespace Single

variable {x y : Single}

theorem isFinite_mul_iff (finite : Scalar.isFinite x) (factor : y.IsPositive) :
    Scalar.isFinite (x * y) ↔ x.magnitude * y.magnitude < overflowBound .binary32 := by
  obtain ⟨_, stored, -⟩ := factor.exists_stored_mul finite
  rw [isFinite_eq]
  exact stored.isFinite_iff (by decide)

theorem IsPositive.not_le_zero (positive : x.IsPositive) : ¬ x ≤ 0 := by
  obtain ⟨_, _, _, unpacked, -⟩ := positive.exists_unpacked
  rw [le_iff, unpacked_zero, unpacked]
  exact Bool.false_ne_true

theorem exists_eq_zero_of_magnitude (finite : Scalar.isFinite x) (zero : x.magnitude = 0) :
    ∃ sign, x.unpacked = .zero sign := by
  rw [isFinite_eq] at finite
  rw [magnitude] at zero
  generalize x.unpacked = u at finite zero
  cases u with
  | zero sign => exact ⟨sign, rfl⟩
  | finite _ mantissa exponent positive =>
    have mantissaPos : (0 : ℚ) < mantissa := Nat.cast_pos.mpr positive
    have nonzero : (mantissa : ℚ) * 2 ^ exponent ≠ 0 := by positivity
    exact absurd zero nonzero
  | infinity _ | notANumber => cases finite

/-- Of a range that starts at zero, the ends stay apart unless the other one vanishes, too. -/
theorem IsPositive.mul_lt_mul_iff {gain : Single} (positive : gain.IsPositive)
    (finite : Scalar.isFinite x) (zero : x.magnitude = 0) (finite' : Scalar.isFinite y)
    (less : x < y) : x * gain < y * gain ↔
      underflowBound .binary32 < y.magnitude * gain.magnitude := by
  obtain ⟨sign, unpacked⟩ := exists_eq_zero_of_magnitude finite zero
  have upper : y.IsPositive := by
    refine ⟨finite', ?_⟩
    rw [lt_iff, unpacked] at less
    rw [lt_iff, unpacked_zero]
    exact lt_of_zero_lt less
  obtain ⟨_, lowerStored, -⟩ := positive.exists_stored_mul finite
  obtain ⟨_, upperStored, same⟩ := positive.exists_stored_mul finite'
  obtain rfl := same upper
  have vanished : x.magnitude * gain.magnitude ≤ underflowBound .binary32 := by
    rw [zero, zero_mul]
    exact (underflowBound_pos _).le
  rw [lt_iff, lowerStored.eq_zero (by decide) vanished]
  exact upperStored.zero_lt_iff (by decide) _

theorem unpacked_sub_self (finite : Scalar.isFinite x) : (x - x).unpacked = .zero .positive := by
  have nothing : x.unpacked.sub .binary32 x.unpacked = .zero .positive := by
    rw [isFinite_eq] at finite
    generalize x.unpacked = u at finite
    match u with
    | .zero .positive | .zero .negative => rfl
    | .finite _ _ _ _ =>
      simp only [UnpackedFloat.sub, sub_self, UnpackedFloat.normalize]
      rfl
    | .infinity _ | .notANumber => cases finite
  have within : IsWithin .binary32 0 (x.unpacked.sub .binary32 x.unpacked) := by
    rw [nothing]
    exact le_refl (0 : ℚ)
  exact (BinaryScalar.unpacked_sub x x (by positivity) within).trans nothing

end Single

namespace TransferFunction

variable {f : TransferFunction Single} {gain : Single}

/-- The ends of the range are finite and apart when they are scaled. -/
structure IsScalable (f : TransferFunction Single) (gain : Single) : Prop where
  finiteMin : f.min.magnitude * gain.magnitude < overflowBound .binary32
  finiteMax : f.max.magnitude * gain.magnitude < overflowBound .binary32
  increasing : f.min * gain < f.max * gain

theorem IsRanged.isScalable_iff (ranged : f.IsRanged) (positive : gain.IsPositive) :
    f.IsScalable gain ↔ Scalar.isFinite (f.min * gain) ∧ Scalar.isFinite (f.max * gain) ∧
      f.min * gain < f.max * gain := by
  rw [Single.isFinite_mul_iff ranged.finiteMin positive,
    Single.isFinite_mul_iff ranged.finiteMax positive]
  constructor
  · rintro ⟨finiteMin, finiteMax, increasing⟩
    exact ⟨finiteMin, finiteMax, increasing⟩
  · rintro ⟨finiteMin, finiteMax, increasing⟩
    exact ⟨finiteMin, finiteMax, increasing⟩

/-- A positive factor is never ignored. -/
theorem scaled_eq_withRange (f : TransferFunction Single) (positive : gain.IsPositive) :
    f.scaled gain = withRange f.curve (f.min * gain) (f.max * gain) := by
  have used : ¬ ((!Scalar.isFinite gain) = true ∨ gain ≤ 0) := by
    simp [positive.finite, positive.not_le_zero]
  rw [TransferFunction.scaled, if_neg used]

theorem IsRanged.scaled_eq (ranged : f.IsRanged) (positive : gain.IsPositive)
    (scalable : f.IsScalable gain) : f.scaled gain = ⟨f.curve, f.min * gain, f.max * gain⟩ := by
  have useful := (ranged.isScalable_iff positive).mp scalable
  rw [f.scaled_eq_withRange positive, withRange, if_pos useful]

theorem IsRanged.scaled_eq_ofCurve (ranged : f.IsRanged) (positive : gain.IsPositive)
    (lost : ¬ f.IsScalable gain) : f.scaled gain = ofCurve f.curve := by
  have useless := mt (ranged.isScalable_iff positive).mpr lost
  rw [f.scaled_eq_withRange positive, withRange, if_neg useless]

theorem IsRanged.isScalable_iff_of_zero (ranged : f.IsRanged) (positive : gain.IsPositive)
    (zero : f.min.magnitude = 0) : f.IsScalable gain ↔
      underflowBound .binary32 < f.max.magnitude * gain.magnitude ∧
        f.max.magnitude * gain.magnitude < overflowBound .binary32 := by
  have apart := positive.mul_lt_mul_iff ranged.finiteMin zero ranged.finiteMax ranged.increasing
  constructor
  · rintro ⟨-, finiteMax, increasing⟩
    exact ⟨apart.mp increasing, finiteMax⟩
  · rintro ⟨large, finiteMax⟩
    refine ⟨?_, finiteMax, apart.mpr large⟩
    rw [zero, zero_mul]
    exact (underflowBound_pos _).trans (underflowBound_lt_overflowBound (by decide))

end TransferFunction

/-! ## Folding -/

/-- Equal gains are uniform, if they are finite. -/
theorem Vec3.isUniform_splat_of_isFinite {gain : Single} (finite : Scalar.isFinite gain) :
    (Vec3.splat gain).isUniform := by
  have near : Scalar.near gain gain := by
    have gap : (Scalar.abs (gain - gain)).unpacked = .zero .positive := by
      rw [Single.unpacked_abs, Single.unpacked_sub_self finite]
      rfl
    rw [Scalar.near, decide_eq_true_iff, Single.le_iff, gap]
    decide
  simp [Vec3.isUniform, Vec3.splat, near]

namespace Pipeline

/-- The steps end in the function with its range scaled, or in the function as it was and then the
gains. -/
def CarryGains (f : TransferFunction Single) (gains : Vec3 Single) (steps : List (Step Single)) :
    Prop :=
  match steps.map Step.operation with
  | .decode g :: _ => g = ⟨f.curve, f.min * gains.x, f.max * gains.x⟩
  | .multiplier later :: .decode g :: _ => later = gains ∧ g = f
  | _ => False

section Folding

variable {p : Pipeline Single} {before after : ValueRange Single} {f : TransferFunction Single}
  {rest : List (Step Single)} {gains : Vec3 Single}

theorem latestFirst_addMultiplier (ends : p.latestFirst = ⟨before, .decode f, after⟩ :: rest)
    (foldable : gains.IsFoldable) (kept : ¬ (LinearOperation.multiplier gains).isNegligible)
    (output : ValueRange Single) : (p.addMultiplier (ω := Double) gains output).latestFirst =
      ⟨before, .decode (f.scaled gains.x), after * gains.x⟩ :: rest := by
  have added := absorbed (ω := Double) p.input output p.latestFirst (.multiplier gains)
  simp only [addMultiplier, addLinear]
  rw [ends] at added ⊢
  generalize absorb (ω := Double) p.input output _ _ = result at added ⊢
  cases added with
  | dropped negligible => exact absurd negligible kept
  | combined _ linear _ => cases linear
  | settled _ _ settled =>
    cases settled with
    | dropped negligible => exact absurd negligible kept
    | folded _ _ => rfl
    | appended _ apart => exact absurd foldable (apart _ f rfl ⟨_, rfl, rfl⟩)

/-- A gain is carried by the steps exactly if the range can be scaled by it.  If it is lost, the
default range takes the place of the chosen one, and only the range after the step tells of it. -/
theorem carryGains_addMultiplier_iff
    (ends : p.latestFirst = ⟨before, .decode f, after⟩ :: rest) (ranged : f.IsRanged)
    (uniform : gains.isUniform) (positive : gains.x.IsPositive)
    (kept : ¬ (LinearOperation.multiplier gains).isNegligible) (output : ValueRange Single) :
    let steps := (p.addMultiplier (ω := Double) gains output).latestFirst
    (CarryGains f gains steps ↔ f.IsScalable gains.x) ∧
      (¬ f.IsScalable gains.x →
        steps = ⟨before, .decode (.ofCurve f.curve), after * gains.x⟩ :: rest) ∧
      (f.min.magnitude = 0 → (f.IsScalable gains.x ↔
        underflowBound .binary32 < f.max.magnitude * gains.x.magnitude ∧
          f.max.magnitude * gains.x.magnitude < overflowBound .binary32)) := by
  intro steps
  have folded : steps = ⟨before, .decode (f.scaled gains.x), after * gains.x⟩ :: rest :=
    latestFirst_addMultiplier ends ⟨uniform, positive.finite, positive.pos⟩ kept output
  rw [folded]
  refine ⟨?_, fun lost => by rw [ranged.scaled_eq_ofCurve positive lost],
    ranged.isScalable_iff_of_zero positive⟩
  by_cases scalable : f.IsScalable gains.x
  · exact iff_of_true (ranged.scaled_eq positive scalable) scalable
  · refine iff_of_false (fun carried => scalable ?_) scalable
    -- If the default range were the scaled one, that would be of use after all.
    have same : f.scaled gains.x = ⟨f.curve, f.min * gains.x, f.max * gains.x⟩ := carried
    have useful := ranged.scaled gains.x
    rw [same] at useful
    exact (ranged.isScalable_iff positive).mpr ⟨useful.1, useful.2, useful.3⟩

/-- A gain of two brightens a range as it is. -/
theorem carryGains_addMultiplier_doubled :
    let srgb : TransferFunction Single := .ofCurve .srgb
    let p : Pipeline Single := ⟨.unit, [⟨.unit, .decode srgb, ⟨0, 80⟩⟩]⟩
    CarryGains srgb (Vec3.splat 2)
      (p.addMultiplier (ω := Double) (Vec3.splat 2) .unit).latestFirst := by
  intro srgb p
  -- As a variable the gain is not computed with where it only has to be recognised.
  generalize two : (2 : Single) = gain
  have ranged : srgb.IsRanged := TransferFunction.isRanged_ofCurve .srgb
  have positive : gain.IsPositive := two ▸ ⟨by decide, by decide⟩
  have uniform := Vec3.isUniform_splat_of_isFinite positive.finite
  have kept : ¬ (LinearOperation.multiplier (Vec3.splat gain)).isNegligible := by
    rw [← two]
    decide +kernel
  have scalable : srgb.IsScalable gain := by
    refine (ranged.isScalable_iff positive).mpr ?_
    rw [← two]
    decide +kernel
  exact (carryGains_addMultiplier_iff rfl ranged uniform positive kept .unit).1.mpr scalable

/-- A large gain is finite, but what it makes of 80 nits is not, and the range starts over. -/
theorem not_carryGains_addMultiplier : ¬ ∀ (p : Pipeline Single) (before after : ValueRange Single)
    (f : TransferFunction Single) (rest : List (Step Single)) (gain : Single)
    (output : ValueRange Single), p.latestFirst = ⟨before, .decode f, after⟩ :: rest →
    f.IsRanged → gain.IsPositive →
    ¬ (LinearOperation.multiplier (Vec3.splat gain)).isNegligible →
    CarryGains f (Vec3.splat gain)
      (p.addMultiplier (ω := Double) (Vec3.splat gain) output).latestFirst := by
  intro carried
  obtain ⟨gain, large⟩ : ∃ gain : Single, gain = 1e38 := ⟨1e38, rfl⟩
  have positive : gain.IsPositive := large ▸ ⟨by decide +kernel, by decide +kernel⟩
  have ranged := TransferFunction.isRanged_ofCurve .srgb
  have kept : ¬ (LinearOperation.multiplier (Vec3.splat gain)).isNegligible := by
    rw [large]
    decide +kernel
  have carry := carried ⟨.unit, [⟨.unit, .decode (.ofCurve .srgb), .unit⟩]⟩ .unit .unit
    (.ofCurve .srgb) [] gain .unit rfl ranged positive kept
  rw [latestFirst_addMultiplier rfl
    ⟨Vec3.isUniform_splat_of_isFinite positive.finite, positive.finite, positive.pos⟩ kept]
    at carry
  have same : (TransferFunction.ofCurve .srgb).scaled gain =
      ⟨.srgb, Curve.srgb.defaultMin * gain, Curve.srgb.defaultMax * gain⟩ := carry
  have finite := (ranged.scaled gain).finiteMax
  rw [same, large] at finite
  exact absurd finite (by decide +kernel)

end Folding

end Pipeline

end DisplayColor

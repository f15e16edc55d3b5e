import DisplayColor.Proofs.Gamut.Adaptation
import DisplayColor.Proofs.Scalar.Division

/-! # Whites that a cone does not respond to

An adaptation multiplies the cone responses by those to the white that is adapted to, and divides
them by those to the white that is adapted from.  A white without a response to one cone is
degenerate in either place, but only the quotients are looked at.

In the place of the divisor the quotient is not finite, and nothing is adapted.  In the other place
it is a plain zero.  It passes, and one response of every colour is lost: the adaptation still
carries the one white to the other, and nothing can undo it. -/

namespace DisplayColor

namespace Vec3

/-- Some component is a zero, of either sign. -/
def HasZero (v : Vec3 Double) : Prop := v.x == 0 ∨ v.y == 0 ∨ v.z == 0

theorem isFinite_div_of_hasZero (v : Vec3 Double) {w : Vec3 Double} (zero : w.HasZero) :
    (v / w).isFinite = false := by
  simp only [div_eq, isFinite, Bool.and_eq_false_iff]
  obtain zero | zero | zero := zero
  · exact .inl (.inl (Double.isFinite_div_zero v.x zero))
  · exact .inl (.inr (Double.isFinite_div_zero v.y zero))
  · exact .inr (Double.isFinite_div_zero v.z zero)

/-- Gains with a zero among them put out a whole channel. -/
theorem exists_mul_eq_zero {gains : Vec3 ℝ} (zero : ¬ gains.HasNoZero) :
    ∃ v, v ≠ splat 0 ∧ gains * v = splat 0 := by
  simp only [HasNoZero, ne_eq, not_and_or, not_not] at zero
  obtain zero | zero | zero := zero
  · exact ⟨⟨1, 0, 0⟩, by simp [splat], by simp [mul_eq, splat, zero]⟩
  · exact ⟨⟨0, 1, 0⟩, by simp [splat], by simp [mul_eq, splat, zero]⟩
  · exact ⟨⟨0, 0, 1⟩, by simp [splat], by simp [mul_eq, splat, zero]⟩

end Vec3

theorem Mat3.apply_zero (m : Mat3 ℝ) : m.apply (Vec3.splat 0) = Vec3.splat 0 := by
  simp [apply, Vec3.dot, Vec3.splat]

namespace Adaptation

/-- From a degenerate white nothing is adapted. -/
theorem between_of_hasZero {cones : Mat3 Double} {source : Vec3 Double}
    (degenerate : (cones.apply source).HasZero) (target : Vec3 Double) :
    between cones source target = Mat3.identity := by
  unfold between
  split
  · rfl
  · simp [Vec3.isFinite_div_of_hasZero _ degenerate]

/-- To a degenerate white some colour is adapted to black. -/
theorem exists_between_apply_eq_zero {cones : Mat3 ℝ} (invertible : cones.wideInverse?.isSome)
    (source : Vec3 ℝ) {target : Vec3 ℝ} (degenerate : ¬ (cones.apply target).HasNoZero) :
    ∃ v, v ≠ Vec3.splat 0 ∧ (between cones source target).apply v = Vec3.splat 0 := by
  obtain ⟨inverse, found⟩ := Option.isSome_iff_exists.mp invertible
  obtain ⟨_, cancel⟩ := Mat3.mul_of_wideInverse? found
  have gains : ¬ (cones.apply target / cones.apply source).HasNoZero := by
    rintro ⟨x, y, z⟩
    exact degenerate ⟨(div_ne_zero_iff.mp x).1, (div_ne_zero_iff.mp y).1, (div_ne_zero_iff.mp z).1⟩
  obtain ⟨response, visible, lost⟩ := Vec3.exists_mul_eq_zero gains
  have responds : cones.apply (inverse.apply response) = response := by
    rw [← Mat3.apply_mul, cancel, Mat3.one_apply]
  -- The colour that only the lost cone responds to.
  refine ⟨inverse.apply response, ?_, ?_⟩
  · intro black
    rw [black, Mat3.apply_zero] at responds
    exact visible responds.symm
  · rw [between_eq found, Mat3.apply_mul, Mat3.apply_mul, responds, Mat3.diagonal_apply, lost,
      Mat3.apply_zero]

theorem mul_between_ne_one {cones : Mat3 ℝ} (invertible : cones.wideInverse?.isSome)
    (source : Vec3 ℝ) {target : Vec3 ℝ} (degenerate : ¬ (cones.apply target).HasNoZero)
    (back : Mat3 ℝ) : back * between cones source target ≠ 1 := by
  intro undone
  obtain ⟨v, visible, lost⟩ := exists_between_apply_eq_zero invertible source degenerate
  refine visible ?_
  calc v
    _ = (back * between cones source target).apply v := by rw [undone, Mat3.one_apply]
    _ = Vec3.splat 0 := by rw [Mat3.apply_mul, lost, Mat3.apply_zero]

/-- What an adaptation does by the responses to its two whites.  In binary arithmetic nothing is
adapted from a degenerate white.  In exact arithmetic any other white is carried to the target.  The
adaptation from there undoes it if the target is not degenerate, and else nothing does. -/
theorem between_of_responses (binaryCones : Mat3 Double) (binarySource binaryTarget : Vec3 Double)
    (cones : Mat3 ℝ) (source target : Vec3 ℝ) :
    ((binaryCones.apply binarySource).HasZero →
      between binaryCones binarySource binaryTarget = Mat3.identity) ∧
    (cones.wideInverse?.isSome → (cones.apply source).HasNoZero →
      (between cones source target).apply source = target ∧
      ((cones.apply target).HasNoZero →
        between cones target source * between cones source target = Mat3.identity) ∧
      (¬ (cones.apply target).HasNoZero →
        between cones source target ≠ Mat3.identity ∧
          ∀ back, back * between cones source target ≠ Mat3.identity)) := by
  refine ⟨fun degenerate => between_of_hasZero degenerate binaryTarget, ?_⟩
  intro invertible responds
  refine ⟨between_apply invertible responds target, ?_, ?_⟩
  · intro targetResponds
    rw [between_mul_between invertible targetResponds, between_self invertible responds]
    rfl
  · intro degenerate
    have noWayBack := mul_between_ne_one invertible source degenerate
    refine ⟨?_, noWayBack⟩
    intro identity
    exact noWayBack 1 (by rw [identity, one_mul]; rfl)

/-- Daylight, and black in its place. -/
theorem between_of_responses_daylight :
    between (bradford (α := Single)).widen (Vec3.splat 0) (d65 (α := Single)).widen =
        (Mat3.identity : Mat3 Double) ∧
      (between bradford d65 d50 : Mat3 ℝ).apply d65 = d50 ∧
      (between bradford d50 d65 * between bradford d65 d50 : Mat3 ℝ) = Mat3.identity ∧
      (between bradford d65 (Vec3.splat 0) : Mat3 ℝ) ≠ Mat3.identity := by
  have daylight : ((bradford : Mat3 ℝ).apply d65).HasNoZero := by
    simp only [bradford, d65, Mat3.apply, Vec3.dot, Vec3.HasNoZero, Scalar.literal_one]
    norm_num
  have horizon : ((bradford : Mat3 ℝ).apply d50).HasNoZero := by
    simp only [bradford, d50, Mat3.apply, Vec3.dot, Vec3.HasNoZero, Scalar.literal_one]
    norm_num
  have black : ¬ ((bradford : Mat3 ℝ).apply (Vec3.splat 0)).HasNoZero := by
    rw [Mat3.apply_zero]
    exact fun noZero => noZero.1 rfl
  have light := between_of_responses (bradford (α := Single)).widen (Vec3.splat 0)
    (d65 (α := Single)).widen bradford d65 d50
  have dark := between_of_responses (bradford (α := Single)).widen (Vec3.splat 0)
    (d65 (α := Single)).widen bradford d65 (Vec3.splat 0)
  obtain ⟨carried, undone, -⟩ := light.2 invertible_bradford daylight
  refine ⟨light.1 (.inl (by decide +kernel)), carried, undone horizon, ?_⟩
  exact ((dark.2 invertible_bradford daylight).2.2 black).1

/-- Daylight is adapted to black by putting out all light. -/
theorem not_between_eq_identity :
    ¬ ∀ (cones : Mat3 Double) (source target : Vec3 Double), cones.wideInverse?.isSome →
      source.isFinite → target.isFinite →
      (cones.apply source).HasZero ∨ (cones.apply target).HasZero →
      between cones source target = Mat3.identity := by
  intro adapts
  have identity := adapts (bradford (α := Single)).widen (d65 (α := Single)).widen (Vec3.splat 0)
    (by decide +kernel) (by decide +kernel) (by decide +kernel) (.inr (.inl (by decide +kernel)))
  have corner := congrArg (fun m => m.r0.x.bits) identity
  revert corner
  decide +kernel

end Adaptation

end DisplayColor

import DisplayColor.Proofs.Lut.Cube

/-! # Affine functions as tables

In exact arithmetic a table of an affine function is read without loss inside of the cube: both
mixtures are affine in the way across the cell, and at the corners they are the function.  This is
an identity, true even for ways that are longer than the cell, so no bound on the size is needed.

Of the six orders of the fractions each has its own path across the cell.  What they share is that
the weighted edges of a path add up to the way, and this decides the value of an affine function. -/

namespace DisplayColor.CubeLut

/-! ## Mixtures of affine functions -/

/-- A point across a cell of the unit cube, from the lower corner of the cell on a grid with `n`
cells along each axis. -/
noncomputable def across (n : ℝ) (corner t : Vec3 ℝ) : Vec3 ℝ :=
  corner.zipWith (fun k s => (k + s) / n) t

def stepsToReal (steps : Steps) : Vec3 ℝ := steps.map fun step : Fin 2 => ((step : ℕ) : ℝ)

variable {mix : (Steps → ℝ) → Vec3 ℝ → ℝ}

theorem mixLinear_affine (row corner t : Vec3 ℝ) (n offset : ℝ) :
    mixLinear (fun steps => row.dot (across n corner (stepsToReal steps)) + offset) t =
      row.dot (across n corner t) + offset := by
  simp only [mixLinear, Scalar.lerp_eq, across, stepsToReal, Vec3.dot, Vec3.map, Vec3.zipWith,
    Fin.val_zero, Fin.val_one, Nat.cast_zero, Nat.cast_one]
  ring

/-- The edges of a path, each with its weight, add up to the way across the cell. -/
theorem edgePath_telescopes (t : Vec3 ℝ) :
    let weights := (edgePath t).weights
    let first := stepsToReal (toSteps (edgePath t).first)
    let second := stepsToReal (toSteps (edgePath t).second)
    ⟨weights.x * first.x + weights.y * (second.x - first.x) + weights.z * (1 - second.x),
      weights.x * first.y + weights.y * (second.y - first.y) + weights.z * (1 - second.y),
      weights.x * first.z + weights.y * (second.z - first.z) + weights.z * (1 - second.z)⟩ = t := by
  unfold edgePath
  -- One case for each order of the fractions.
  split_ifs <;> apply Vec3.ext <;> simp [toSteps, stepsToReal, Vec3.map]

theorem mixTetrahedral_affine (row corner t : Vec3 ℝ) (n offset : ℝ) :
    mixTetrahedral (fun steps => row.dot (across n corner (stepsToReal steps)) + offset) t =
      row.dot (across n corner t) + offset := by
  have lower : stepsToReal ⟨0, 0, 0⟩ = ⟨0, 0, 0⟩ := by simp [stepsToReal, Vec3.map]
  have upper : stepsToReal ⟨1, 1, 1⟩ = ⟨1, 1, 1⟩ := by simp [stepsToReal, Vec3.map]
  -- The steps of an affine function along the path are linear in its edges, whichever they are.
  conv_rhs => rw [← edgePath_telescopes t]
  simp only [mixTetrahedral, lower, upper, across, Vec3.dot, Vec3.zipWith]
  ring

/-- Mixing the values of an affine function at the corners gives its value. -/
theorem IsMixture.affine (mixture : IsMixture mix) (row corner t : Vec3 ℝ) (n offset : ℝ) :
    mix (fun steps => row.dot (across n corner (stepsToReal steps)) + offset) t =
      row.dot (across n corner t) + offset := by
  cases mixture with
  | linear => exact mixLinear_affine row corner t n offset
  | tetrahedral => exact mixTetrahedral_affine row corner t n offset

/-! ## Tables of affine functions -/

/-- The lower corner of the cell in which a position is looked up, as a position. -/
noncomputable def lowerCorner (lut : CubeLut ℝ) (position : Vec3 ℝ) : Vec3 ℝ :=
  position.map fun c => (lut.cellIndex c : ℝ)

/-- Going the way across the cell leads back to the colour. -/
theorem across_wayAcross (lut : CubeLut ℝ) (v : Vec3 ℝ) :
    across lut.last (lut.lowerCorner (lut.gridPosition v)) (lut.wayAcross (lut.gridPosition v)) =
      v.map fun c : ℝ => min 1 (max 0 c) := by
  have back (c : ℝ) : let p := Scalar.saturate c * (lut.last : ℝ)
      ((lut.cellIndex p : ℝ) + (p - lut.cellIndex p)) / lut.last = min 1 (max 0 c) := by
    intro p
    rw [add_sub_cancel, mul_div_cancel_right₀ _ lut.last_pos.ne', Scalar.saturate_real]
  exact Vec3.ext (back v.x) (back v.y) (back v.z)

theorem corners_ofFunction (size : ℕ) (f : Vec3 ℝ → Vec3 ℝ) (position : Vec3 ℝ) (steps : Steps) :
    let lut := ofFunction size f
    lut.corners (isComplete_ofFunction size f) (lut.cellAt position) steps =
      f (across lut.last (lut.lowerCorner position) (stepsToReal steps)) := by
  intro lut
  have coordinate (c : ℝ) (step : Fin 2) :
      (((lut.cellIndex c + step : ℕ) : ℝ)) / ((max size 2 - 1 : ℕ) : ℝ) =
        ((lut.cellIndex c : ℝ) + (step : ℕ)) / lut.last :=
    congrArg (· / (lut.last : ℝ)) (Nat.cast_add _ _)
  rw [corners, node_ofFunction]
  exact congrArg f (Vec3.ext (coordinate position.x steps.x) (coordinate position.y steps.y)
    (coordinate position.z steps.z))

/-- Inside of the cube a table of an affine function is the function, whichever way it is
interpolated.  Outside of it the colour is moved into the cube first. -/
theorem apply_ofFunction_affine (size : ℕ) (linear : Mat3 ℝ) (offset v : Vec3 ℝ) :
    let f (w : Vec3 ℝ) : Vec3 ℝ := linear.apply w + offset
    let clamped := v.map fun c : ℝ => min 1 (max 0 c)
    ((ofFunction size f).withInterpolation .linear).apply v = .ok (f clamped) ∧
      ((ofFunction size f).withInterpolation .tetrahedral).apply v = .ok (f clamped) := by
  intro f clamped
  have reproduced (interpolation : Interpolation) (between : interpolation ≠ .nearest) :
      ((ofFunction size f).withInterpolation interpolation).apply v = .ok (f clamped) := by
    let lut := (ofFunction size f).withInterpolation interpolation
    have complete : lut.IsComplete := isComplete_ofFunction size f
    obtain ⟨mix, mixture, read⟩ := apply_of_ne_nearest complete between
    have corner (steps : Steps) :
        lut.corners complete (lut.cellAt (lut.gridPosition v)) steps =
          f (across lut.last (lut.lowerCorner (lut.gridPosition v)) (stepsToReal steps)) :=
      corners_ofFunction size f (lut.gridPosition v) steps
    have value (row : Vec3 ℝ) (shift : ℝ) :
        mix (fun steps => row.dot
          (across lut.last (lut.lowerCorner (lut.gridPosition v)) (stepsToReal steps)) + shift)
          (lut.wayAcross (lut.gridPosition v)) = row.dot clamped + shift := by
      rw [mixture.affine, across_wayAcross]
    rw [read]
    simp only [corner]
    exact congrArg Except.ok (Vec3.ext (value linear.r0 offset.x) (value linear.r1 offset.y)
      (value linear.r2 offset.z))
  exact ⟨reproduced .linear (by decide), reproduced .tetrahedral (by decide)⟩

end DisplayColor.CubeLut

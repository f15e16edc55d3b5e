import DisplayColor.Proofs.Fusion.Composition
import DisplayColor.Proofs.Fusion.NormalForm
import DisplayColor.Proofs.Fusion.Tolerance

/-! # What the tolerance costs

Adding a linear operation can lose something in four places: an operation that is almost the
identity is dropped, entries off the diagonal that are almost zero are, a gain that is almost one is,
and gains that are almost the same go into a transfer function as if they were.  No comparison is
assumed to be exact here.

Several of these can happen in one addition, and yet their errors do not add up.  Whatever is done,
a pipeline ends as if one matrix had been carried out in place of the operation, and each entry of
the two differs by twice the tolerance at most: entries off the diagonal are only ever replaced by
zeros, and of the gains on it only one is compared with one, or two of them with each other.  A
pipeline in normal form has at most one linear step at the end, so there is only one such
replacement, and it is for what enters that step. -/

namespace DisplayColor

/-! ## Matrices with almost the same entries -/

namespace Vec3

/-- The sum of the magnitudes of the channels. -/
def sumAbs (v : Vec3 ℝ) : ℝ := |v.x| + |v.y| + |v.z|

/-- In every channel at most the bound apart. -/
structure AreWithin (bound : ℝ) (v w : Vec3 ℝ) : Prop where
  x : |v.x - w.x| ≤ bound
  y : |v.y - w.y| ≤ bound
  z : |v.z - w.z| ≤ bound

theorem AreWithin.mono {bound larger : ℝ} {v w : Vec3 ℝ} (within : AreWithin bound v w)
    (le : bound ≤ larger) : AreWithin larger v w :=
  ⟨within.x.trans le, within.y.trans le, within.z.trans le⟩

theorem areWithin_self (v : Vec3 ℝ) : AreWithin 2e-5 v v := by
  refine ⟨?_, ?_, ?_⟩ <;> norm_num

end Vec3

namespace Vec4

structure IsCloseTo (r s : Vec4 ℝ) : Prop where
  x : |r.x - s.x| ≤ 2e-5
  y : |r.y - s.y| ≤ 2e-5
  z : |r.z - s.z| ≤ 2e-5
  w : |r.w - s.w| ≤ 2e-5

theorem IsCloseTo.abs_sub_le {r s : Vec4 ℝ} (close : r.IsCloseTo s) (v : Vec3 ℝ) :
    |(r.x * v.x + r.y * v.y + r.z * v.z + r.w) - (s.x * v.x + s.y * v.y + s.z * v.z + s.w)| ≤
      2e-5 * (1 + v.sumAbs) := by
  have difference : (r.x * v.x + r.y * v.y + r.z * v.z + r.w)
      - (s.x * v.x + s.y * v.y + s.z * v.z + s.w) =
      (r.x - s.x) * v.x + (r.y - s.y) * v.y + (r.z - s.z) * v.z + (r.w - s.w) := by ring
  calc |(r.x * v.x + r.y * v.y + r.z * v.z + r.w) - (s.x * v.x + s.y * v.y + s.z * v.z + s.w)|
    _ ≤ |(r.x - s.x) * v.x + (r.y - s.y) * v.y + (r.z - s.z) * v.z| + |r.w - s.w| := by
      rw [difference]
      exact abs_add_le _ _
    _ ≤ |(r.x - s.x) * v.x| + |(r.y - s.y) * v.y| + |(r.z - s.z) * v.z| + |r.w - s.w| := by
      gcongr
      exact abs_add_three _ _ _
    _ = |r.x - s.x| * |v.x| + |r.y - s.y| * |v.y| + |r.z - s.z| * |v.z| + |r.w - s.w| := by
      simp only [abs_mul]
    _ ≤ 2e-5 * |v.x| + 2e-5 * |v.y| + 2e-5 * |v.z| + 2e-5 := by
      gcongr
      · exact close.x
      · exact close.y
      · exact close.z
      · exact close.w
    _ = 2e-5 * (1 + v.sumAbs) := by
      rw [Vec3.sumAbs]
      ring

end Vec4

namespace Mat4

/-- Entry by entry at most twice the tolerance apart, the bottom row left out. -/
structure IsCloseTo (a b : Mat4 ℝ) : Prop where
  r0 : a.r0.IsCloseTo b.r0
  r1 : a.r1.IsCloseTo b.r1
  r2 : a.r2.IsCloseTo b.r2

theorem isCloseTo_self (m : Mat4 ℝ) : m.IsCloseTo m := by
  refine ⟨⟨?_, ?_, ?_, ?_⟩, ⟨?_, ?_, ?_, ?_⟩, ⟨?_, ?_, ?_, ?_⟩⟩ <;> norm_num

theorem isCloseTo_one {m : Mat4 ℝ} (identity : m.isNearIdentity) : m.IsCloseTo 1 := by
  simp only [isNearIdentity_iff, one_eq, near, Vec4.near, Bool.and_eq_true, Scalar.near_real]
    at identity
  rw [one_eq]
  refine ⟨⟨?_, ?_, ?_, ?_⟩, ⟨?_, ?_, ?_, ?_⟩, ⟨?_, ?_, ?_, ?_⟩⟩ <;> dsimp only <;> linarith

/-- Entries off the diagonal that are almost zero may be dropped and the gains changed a little. -/
theorem isCloseTo_scaling {m : Mat4 ℝ} (scales : m.isNearScaling) {gains : Vec3 ℝ}
    (close : Vec3.AreWithin 2e-5 m.gains gains) : m.IsCloseTo (scaling gains) := by
  obtain ⟨x, y, z⟩ := close
  simp only [isNearScaling, Bool.and_eq_true, Scalar.nearZero_real] at scales
  refine ⟨⟨x, ?_, ?_, ?_⟩, ⟨?_, y, ?_, ?_⟩, ⟨?_, ?_, z, ?_⟩⟩ <;>
    simp only [scaling, ofLinear, affine, Mat3.diagonal, Vec3.splat, Scalar.literal_zero,
      sub_zero] <;> linarith

theorem IsCloseTo.apply {a b : Mat4 ℝ} (close : a.IsCloseTo b) (v : Vec3 ℝ) :
    Vec3.AreWithin (2e-5 * (1 + v.sumAbs)) (b.apply v) (a.apply v) := by
  refine ⟨?_, ?_, ?_⟩ <;> rw [abs_sub_comm]
  · exact close.r0.abs_sub_le v
  · exact close.r1.abs_sub_le v
  · exact close.r2.abs_sub_le v

theorem isNearScaling_scaling (gains : Vec3 ℝ) : (scaling gains).isNearScaling := by
  simp only [isNearScaling, scaling, ofLinear, affine, Mat3.diagonal, Vec3.splat,
    Bool.and_eq_true, Scalar.near_real, Scalar.nearZero_real, Scalar.literal_one,
    Scalar.literal_zero]
  norm_num

end Mat4

/-- Gains that are almost one. -/
theorem Vec3.areWithin_one {gains : Vec3 ℝ}
    (negligible : (LinearOperation.multiplier gains).isNegligible) :
    AreWithin 2e-5 gains (splat 1) := by
  have square : (gains.x - 1) * (gains.x - 1) + (gains.y - 1) * (gains.y - 1)
      + (gains.z - 1) * (gains.z - 1) < 1e-10 := by
    have short := of_decide_eq_true negligible
    simpa [LinearOperation.unitGainTolerance, lengthSquared, dot, sub_eq, splat] using short
  refine ⟨?_, ?_, ?_⟩ <;> refine abs_le_of_sq_le_sq ?_ (by norm_num) <;> simp only [splat] <;>
    nlinarith [mul_self_nonneg (gains.x - 1), mul_self_nonneg (gains.y - 1),
      mul_self_nonneg (gains.z - 1)]

/-- Only neighbours are compared, so the first gain and the last may be twice the tolerance
apart. -/
theorem Vec3.areWithin_uniform {gains : Vec3 ℝ} (uniform : gains.isUniform) :
    AreWithin 2e-5 gains (splat gains.x) := by
  simp only [isUniform, Bool.and_eq_true, Scalar.near_real] at uniform
  obtain ⟨first, second⟩ := uniform
  rw [abs_sub_comm] at first second
  refine ⟨?_, ?_, ?_⟩ <;> simp only [splat]
  · norm_num
  · linarith
  · have both := abs_sub_le gains.z gains.y gains.x
    linarith

/-! ## The matrix that takes the place of an operation -/

namespace LinearOperation

noncomputable def toMatrix : LinearOperation ℝ → Mat4 ℝ
  | matrix m => m
  | multiplier gains => Mat4.scaling gains

theorem toMatrix_apply (operation : LinearOperation ℝ) (v : Vec3 ℝ) :
    operation.toMatrix.apply v = operation.apply v := by
  cases operation with
  | matrix m => rfl
  | multiplier gains => exact Mat4.scaling_apply gains v

theorem isCloseTo_one {operation : LinearOperation ℝ} (negligible : operation.isNegligible) :
    operation.toMatrix.IsCloseTo 1 := by
  cases operation with
  | matrix m => exact Mat4.isCloseTo_one negligible
  | multiplier gains =>
    rw [← Mat4.uniform_one]
    exact Mat4.isCloseTo_scaling (Mat4.isNearScaling_scaling gains) (Vec3.areWithin_one negligible)

/-- What is simplified to gains may as well have other gains that differ a little from them. -/
theorem isCloseTo_scaling {operation : LinearOperation ℝ} {gains kept : Vec3 ℝ}
    (simplified : operation.simplified = .multiplier gains)
    (close : Vec3.AreWithin 2e-5 gains kept) :
    operation.toMatrix.IsCloseTo (Mat4.scaling kept) := by
  cases operation with
  | matrix m =>
    by_cases scales : m.isNearScaling
    · rw [LinearOperation.simplified, if_pos scales] at simplified
      cases simplified
      exact Mat4.isCloseTo_scaling scales close
    · rw [LinearOperation.simplified, if_neg scales] at simplified
      cases simplified
  | multiplier previous =>
    cases simplified
    exact Mat4.isCloseTo_scaling (Mat4.isNearScaling_scaling gains) close

/-- Only what is simplified to gains is changed by it. -/
theorem eq_matrix_of_simplified {operation : LinearOperation ℝ} {m : Mat4 ℝ}
    (simplified : operation.simplified = .matrix m) : operation = .matrix m := by
  cases operation with
  | matrix previous =>
    by_cases scales : previous.isNearScaling
    · rw [LinearOperation.simplified, if_pos scales] at simplified
      cases simplified
    · rwa [LinearOperation.simplified, if_neg scales] at simplified
  | multiplier gains => cases simplified

theorem isCloseTo_simplified (operation : LinearOperation ℝ) :
    operation.toMatrix.IsCloseTo operation.simplified.toMatrix := by
  cases simplified : operation.simplified with
  | matrix m =>
    rw [eq_matrix_of_simplified simplified]
    exact Mat4.isCloseTo_self m
  | multiplier gains => exact isCloseTo_scaling simplified (Vec3.areWithin_self gains)

theorem isCloseTo_one_of_simplified {operation : LinearOperation ℝ}
    (negligible : operation.simplified.isNegligible) : operation.toMatrix.IsCloseTo 1 := by
  cases simplified : operation.simplified with
  | matrix m =>
    rw [simplified] at negligible
    rw [eq_matrix_of_simplified simplified]
    exact Mat4.isCloseTo_one negligible
  | multiplier gains =>
    rw [simplified] at negligible
    rw [← Mat4.uniform_one]
    exact isCloseTo_scaling simplified (Vec3.areWithin_one negligible)

end LinearOperation

namespace Pipeline

variable {input output : ValueRange ℝ} {steps result : List (Step ℝ)}
  {operation : LinearOperation ℝ}

theorem extends_one (steps : List (Step ℝ)) : Extends steps steps (.matrix 1) := by
  refine extends_of_neutral ?_ steps
  exact Mat4.one_apply

theorem Settled.exists_replacement
    (settled : Settled input output steps operation.simplified result) (sound : AreSound steps) :
    ∃ m, operation.toMatrix.IsCloseTo m ∧ Extends steps result (.matrix m) := by
  generalize simplification : operation.simplified = simple at settled
  cases settled with
  | dropped negligible =>
    rw [← simplification] at negligible
    exact ⟨1, LinearOperation.isCloseTo_one_of_simplified negligible, extends_one steps⟩
  | @folded before after f rest gains kept foldable =>
    have increasing : f.IsIncreasing := sound _ (List.mem_cons_self ..)
    have positive : 0 < gains.x := by simpa using foldable.2.2
    -- All channels get the gain of the first one.
    refine ⟨Mat4.uniform gains.x, LinearOperation.isCloseTo_scaling simplification
      (Vec3.areWithin_uniform foldable.1), ?_⟩
    intro v
    simp only [carryOut, bind_assoc]
    refine bind_congr ?_
    intro w
    have scaled : w.map (f.scaled gains.x).decode = w.map f.decode * gains.x := by
      ext <;> exact TransferFunction.decode_scaled increasing positive _
    calc Except.ok (w.map (f.scaled gains.x).decode)
      _ = .ok (w.map f.decode * gains.x) := congrArg Except.ok scaled
      _ = .ok ((Mat4.uniform gains.x).apply (w.map f.decode)) := by rw [Mat4.uniform_apply]
  | appended _ _ =>
    refine ⟨simple.toMatrix, ?_, ?_⟩
    · rw [← simplification]
      exact operation.isCloseTo_simplified
    · intro v
      refine bind_congr ?_
      intro w
      rw [LinearOperation.apply_toOperation, ← LinearOperation.toMatrix_apply]
      rfl

/-- Either the operation itself is replaced, or it is combined with the last step first.  The step
before that is not linear, so there is no further one to combine with. -/
theorem Absorbed.exists_replacement (absorbed : Absorbed input output steps operation result)
    (fused : AreFused steps) (sound : AreSound steps) :
    (∃ m, operation.toMatrix.IsCloseTo m ∧ Extends steps result (.matrix m)) ∨
    ∃ last rest before m, steps = last :: rest ∧ last.operation.linear? = some before ∧
      (operation.after before).toMatrix.IsCloseTo m ∧ Extends rest result (.matrix m) := by
  cases absorbed with
  | dropped negligible =>
    exact .inl ⟨1, LinearOperation.isCloseTo_one negligible, extends_one steps⟩
  | settled _ _ settled => exact .inl (settled.exists_replacement sound)
  | @combined last rest _ _ before _ linear added =>
    right
    cases added with
    | dropped negligible =>
      exact ⟨last, _, before, 1, rfl, linear, LinearOperation.isCloseTo_one negligible,
        extends_one _⟩
    | settled _ _ settled =>
      obtain ⟨m, close, extends'⟩ := settled.exists_replacement sound.tail
      exact ⟨last, _, before, m, rfl, linear, close, extends'⟩
    | combined _ earlier _ =>
      have apart := (List.isChain_cons_cons.mp fused.apart).1
      exact absurd (Operation.fusesWith_of_linear (by rw [earlier]; rfl) (by rw [linear]; rfl)) apart

/-! ## Channel by channel -/

/-- The steps without the last one if that is linear. -/
def withoutLinear {α : Type} : List (Step α) → List (Step α)
  | [] => []
  | last :: rest => if last.operation.linear?.isSome then rest else last :: rest

/-- The colour that enters the last step if that is linear, else the one that leaves it. -/
noncomputable def entering (p : Pipeline ℝ) (v : Vec3 ℝ) : Except OutOfBounds (Vec3 ℝ) :=
  evaluate { p with latestFirst := withoutLinear p.latestFirst } v

theorem exists_entering {p : Pipeline ℝ} {v u : Vec3 ℝ} (reached : p.evaluate v = .ok u) :
    ∃ w, p.entering v = .ok w ∧ ∀ last rest before, p.latestFirst = last :: rest →
      last.operation.linear? = some before → carryOut rest v = .ok w ∧ before.apply w = u := by
  rw [evaluate_eq] at reached
  rw [entering, evaluate_eq]
  cases ends : p.latestFirst with
  | nil =>
    rw [ends] at reached
    exact ⟨u, reached, by simp⟩
  | cons last rest =>
    rw [ends] at reached
    cases linear : last.operation.linear? with
    | none =>
      simp only [withoutLinear, linear]
      refine ⟨u, reached, ?_⟩
      rintro _ _ before ⟨rfl, rfl⟩ found
      rw [linear] at found
      cases found
    | some before =>
      simp only [withoutLinear, linear]
      rw [carryOut] at reached
      cases entered : carryOut rest v with
      | error outOfBounds =>
        rw [entered] at reached
        cases reached
      | ok w =>
        refine ⟨w, entered, ?_⟩
        rintro _ _ _ ⟨rfl, rfl⟩ found
        rw [linear] at found
        cases found
        rw [entered] at reached
        have applied := (LinearOperation.apply_of_linear? linear w).symm.trans reached
        exact ⟨entered, Except.ok.inj applied⟩

theorem exists_evaluate_addLinear {p : Pipeline ℝ} (fused : p.IsFused)
    (sound : AreSound p.latestFirst) {v u w : Vec3 ℝ} (reached : p.evaluate v = .ok u)
    (entered : p.entering v = .ok w) (operation : LinearOperation ℝ) (output : ValueRange ℝ) :
    ∃ result, (p.addLinear operation output).evaluate v = .ok result ∧
      Vec3.AreWithin (2e-5 * (1 + Max.max u.sumAbs w.sumAbs)) result (operation.apply u) := by
  obtain ⟨w', entered', last⟩ := exists_entering reached
  obtain rfl : w' = w := Except.ok.inj (entered'.symm.trans entered)
  rw [evaluate_eq] at reached
  simp only [evaluate_eq, addLinear]
  have added := absorbed (ω := ℝ) p.input output p.latestFirst operation
  obtain ⟨m, close, replaced⟩ | ⟨_, rest, before, m, ends, linear, close, replaced⟩ :=
    added.exists_replacement (isFused_iff.mp fused) sound
  · refine ⟨m.apply u, ?_, ?_⟩
    · rw [replaced, reached]
      rfl
    · rw [← operation.toMatrix_apply]
      refine (close.apply u).mono ?_
      gcongr
      exact le_max_left _ _
  · obtain ⟨entersLast, left⟩ := last _ _ _ ends linear
    have beforeSound : before.toOperation.IsSound := by
      rw [ends] at sound
      exact LinearOperation.isSound_of_linear? linear (sound _ (List.mem_cons_self ..))
    refine ⟨m.apply w', ?_, ?_⟩
    · rw [replaced, entersLast]
      rfl
    · -- Combining is exact, so what is compared is the combination with its replacement.
      rw [← left, ← LinearOperation.apply_after operation beforeSound,
        ← (operation.after before).toMatrix_apply]
      refine (close.apply w').mono ?_
      gcongr
      exact le_max_right _ _

end Pipeline

/-- Adding a matrix or gains to a pipeline whose matrices are affine does what they do, up to twice
the tolerance in proportion to the colours before and after the last linear step.  No comparison has
to be exact for it, and the bottom row of the matrix that is added does not matter. -/
theorem Build.addLinear_drift {b : Build ℝ ℝ}
    (sound : ∀ step ∈ b.pipeline.steps, step.operation.IsSound) {v u : Vec3 ℝ}
    (reached : b.pipeline.evaluate v = .ok u) (output : ValueRange ℝ) :
    ∃ w, b.pipeline.entering v = .ok w ∧
      (∀ m : Mat4 ℝ, ∃ result, (b.pipeline.addMatrix m output).evaluate v = .ok result ∧
        Vec3.AreWithin (2e-5 * (1 + Max.max u.sumAbs w.sumAbs)) result (m.apply u)) ∧
      ∀ gains : Vec3 ℝ, ∃ result,
        (b.pipeline.addMultiplier gains output).evaluate v = .ok result ∧
          Vec3.AreWithin (2e-5 * (1 + Max.max u.sumAbs w.sumAbs)) result (u * gains) := by
  have stepsSound : Pipeline.AreSound b.pipeline.latestFirst :=
    fun step member => sound step (List.mem_reverse.mpr member)
  obtain ⟨w, entered, _⟩ := Pipeline.exists_entering reached
  refine ⟨w, entered, ?_, ?_⟩
  · intro m
    exact Pipeline.exists_evaluate_addLinear b.isFused stepsSound reached entered (.matrix m) output
  · intro gains
    exact Pipeline.exists_evaluate_addLinear b.isFused stepsSound reached entered
      (.multiplier gains) output

/-- Gains that differ in the last channel are added as if they did not. -/
theorem Build.addLinear_drift_doubled :
    ∃ u w result, doubled.pipeline.evaluate ⟨0, 0.01, 0.04⟩ = .ok u ∧
      doubled.pipeline.entering ⟨0, 0.01, 0.04⟩ = .ok w ∧
      (doubled.pipeline.addMultiplier ⟨0.5, 0.5, 0.50001⟩ .unit).evaluate ⟨0, 0.01, 0.04⟩ =
        .ok result ∧
      Vec3.AreWithin (2e-5 * (1 + Max.max u.sumAbs w.sumAbs)) result (u * ⟨0.5, 0.5, 0.50001⟩) := by
  have reached : doubled.pipeline.evaluate ⟨0, 0.01, 0.04⟩ =
      .ok (Vec3.map (TransferFunction.decode ⟨.srgb, 0, 160⟩) ⟨0, 0.01, 0.04⟩) := by
    rw [doubled_pipeline]
    rfl
  have sound : ∀ step ∈ doubled.pipeline.steps, step.operation.IsSound := by
    rw [doubled_pipeline]
    simp [Pipeline.steps, Operation.IsSound, TransferFunction.IsIncreasing]
  obtain ⟨w, entered, -, multiplied⟩ := addLinear_drift sound reached .unit
  obtain ⟨result, evaluated, within⟩ := multiplied ⟨0.5, 0.5, 0.50001⟩
  exact ⟨_, w, result, reached, entered, evaluated, within⟩

end DisplayColor

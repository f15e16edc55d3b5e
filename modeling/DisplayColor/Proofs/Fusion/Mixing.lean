import DisplayColor.Proofs.Fusion.Drift
import DisplayColor.Proofs.Fusion.Replay

/-! # Which mixing of channels survives

Whether a matrix mixes channels at all is decided with one tolerance, whatever the scale of the
matrix.  Where every entry off the diagonal is within it, they are all dropped, and what is kept are
the gains on the diagonal.  For a matrix with entries near one this is noise, but the entries of a
matrix to a linear signal for a bright display can all be that small, and then its mixing is lost.

Here the loss is put in proportion to the largest entry, for colours between black and full.  A row
with the entries `a` and `b` off the diagonal adds `a * s + b * t` to its channel, and this is
largest in magnitude where both channels are black or full, so three sums decide. -/

namespace DisplayColor

namespace Vec3

/-- Every channel is between black and full. -/
structure IsInUnitCube (v : Vec3 ℝ) : Prop where
  x : v.x ∈ Set.Icc 0 1
  y : v.y ∈ Set.Icc 0 1
  z : v.z ∈ Set.Icc 0 1

/-- The largest magnitude of a component. -/
noncomputable def largest (v : Vec3 ℝ) : ℝ := Max.max (Max.max |v.x| |v.y|) |v.z|

theorem IsInUnitCube.sumAbs_le {v : Vec3 ℝ} (inside : v.IsInUnitCube) : v.sumAbs ≤ 3 := by
  rw [sumAbs, abs_of_nonneg inside.x.1, abs_of_nonneg inside.y.1, abs_of_nonneg inside.z.1]
  linarith [inside.x.2, inside.y.2, inside.z.2]

end Vec3

/-- At most the bound, with either channel full and with both. -/
def IsWeak (bound : ℝ) (entries : ℝ × ℝ) : Prop :=
  |entries.1| ≤ bound ∧ |entries.2| ≤ bound ∧ |entries.1 + entries.2| ≤ bound

/-- Below the diagonal of the square a contribution is an average of those in the corners. -/
theorem abs_contribution_le {bound a b s t : ℝ} (both : |a + b| ≤ bound) (second : |b| ≤ bound)
    (nonneg : 0 ≤ s) (less : s ≤ t) (full : t ≤ 1) : |a * s + b * t| ≤ bound := by
  have rest : 0 ≤ t - s := sub_nonneg.mpr less
  have bounded : 0 ≤ bound := (abs_nonneg b).trans second
  calc |a * s + b * t|
    _ = |(a + b) * s + b * (t - s)| := by ring_nf
    _ ≤ |(a + b) * s| + |b * (t - s)| := abs_add_le _ _
    _ = |a + b| * s + |b| * (t - s) := by
      rw [abs_mul, abs_mul, abs_of_nonneg nonneg, abs_of_nonneg rest]
    _ ≤ bound * s + bound * (t - s) := by gcongr
    _ = bound * t := by ring
    _ ≤ bound := mul_le_of_le_one_right bounded full

theorem isWeak_iff {bound a b : ℝ} : IsWeak bound (a, b) ↔
    ∀ s ∈ Set.Icc (0 : ℝ) 1, ∀ t ∈ Set.Icc (0 : ℝ) 1, |a * s + b * t| ≤ bound := by
  refine ⟨?_, ?_⟩
  · rintro ⟨first, second, both⟩ s ⟨sNonneg, sFull⟩ t ⟨tNonneg, tFull⟩
    rcases le_total s t with less | less
    · exact abs_contribution_le both second sNonneg less tFull
    · rw [add_comm] at both ⊢
      exact abs_contribution_le both first tNonneg less sFull
  · intro within
    have black : (0 : ℝ) ∈ Set.Icc (0 : ℝ) 1 := ⟨le_rfl, zero_le_one⟩
    have full : (1 : ℝ) ∈ Set.Icc (0 : ℝ) 1 := ⟨zero_le_one, le_rfl⟩
    refine ⟨?_, ?_, ?_⟩
    · simpa using within 1 full 0 black
    · simpa using within 0 black 1 full
    · simpa using within 1 full 1 full

namespace Mat3

/-- The entries off the diagonal, the two of each row together. -/
def mixing {α : Type} (m : Mat3 α) : List (α × α) :=
  [(m.r0.y, m.r0.z), (m.r1.x, m.r1.z), (m.r2.x, m.r2.y)]

/-- The largest magnitude of an entry. -/
noncomputable def largest (m : Mat3 ℝ) : ℝ :=
  Max.max (Max.max m.r0.largest m.r1.largest) m.r2.largest

theorem abs_first_le_largest (m : Mat3 ℝ) : |m.r0.x| ≤ m.largest :=
  calc |m.r0.x|
    _ ≤ m.r0.largest := (le_max_left _ _).trans (le_max_left _ _)
    _ ≤ m.largest := (le_max_left _ _).trans (le_max_left _ _)

theorem largest_nonneg (m : Mat3 ℝ) : 0 ≤ m.largest :=
  (abs_nonneg _).trans m.abs_first_le_largest

/-- Every entry off the diagonal is within the tolerance of zero. -/
def IsUnmixed (m : Mat3 ℝ) : Prop :=
  ∀ entries ∈ m.mixing, |entries.1| ≤ 1e-5 ∧ |entries.2| ≤ 1e-5

/-- The entries off the diagonal contribute at most the bound to any channel. -/
def MixesAtMost (bound : ℝ) (m : Mat3 ℝ) : Prop := ∀ entries ∈ m.mixing, IsWeak bound entries

theorem IsUnmixed.mixesAtMost {m : Mat3 ℝ} (unmixed : m.IsUnmixed) {bound : ℝ}
    (large : 2e-5 ≤ bound) : m.MixesAtMost bound := by
  intro entries member
  obtain ⟨first, second⟩ := unmixed entries member
  refine ⟨by linarith, by linarith, ?_⟩
  linarith [abs_add_le entries.1 entries.2]

end Mat3

namespace Mat4

variable {m : Mat4 ℝ}

theorem isNearScaling_iff (affine : m.IsAffine) (still : m.offset = Vec3.splat 0) :
    m.isNearScaling ↔ m.linear.IsUnmixed := by
  obtain ⟨r0, r1, r2, r3⟩ := m
  simp only [IsAffine] at affine
  subst affine
  simp only [offset, Vec3.splat, Vec3.mk.injEq] at still
  obtain ⟨x, y, z⟩ := still
  -- The last row and the offset pass their comparisons, which leaves the six off the diagonal.
  simp only [isNearScaling, Mat3.IsUnmixed, Mat3.mixing, linear, Bool.and_eq_true,
    Scalar.near_real, Scalar.nearZero_real, Scalar.literal_one, List.forall_mem_cons, x, y, z]
  norm_num
  tauto

theorem offset_ofLinear (linear : Mat3 ℝ) : (ofLinear linear).offset = Vec3.splat 0 := by
  simp [offset, ofLinear, affine, Vec3.splat]

/-- What a matrix without an offset does beyond its gains. -/
theorem apply_eq_gains_add (still : m.offset = Vec3.splat 0) (v : Vec3 ℝ) :
    m.apply v = v * m.gains + ⟨m.r0.y * v.y + m.r0.z * v.z, m.r1.x * v.x + m.r1.z * v.z,
      m.r2.x * v.x + m.r2.y * v.y⟩ := by
  simp only [offset, Vec3.splat, Vec3.mk.injEq] at still
  obtain ⟨x, y, z⟩ := still
  ext <;> simp only [apply_eq, applyDirect, gains, Vec3.mul_eq, Vec3.add_eq, x, y, z] <;> ring

end Mat4

/-- A matrix close to the identity has an entry that is not small. -/
theorem Mat4.IsCloseTo.le_largest {m : Mat4 ℝ} (close : m.IsCloseTo 1) :
    0.99 ≤ m.linear.largest := by
  have near : |m.r0.x - 1| ≤ 2e-5 := by simpa [Mat4.one_eq] using close.r0.x
  have first : |m.r0.x| ≤ m.linear.largest := m.linear.abs_first_le_largest
  linarith [abs_sub_le_iff.mp near, le_abs_self m.r0.x]

/-- The difference that is added is all that counts. -/
theorem Vec3.areWithin_add_iff {bound : ℝ} {v difference : Vec3 ℝ} :
    AreWithin bound v (v + difference) ↔
      |difference.x| ≤ bound ∧ |difference.y| ≤ bound ∧ |difference.z| ≤ bound := by
  have gap (a b : ℝ) : |a - (a + b)| = |b| := by rw [sub_add_cancel_left, abs_neg]
  refine ⟨?_, ?_⟩
  · rintro ⟨x, y, z⟩
    simp only [add_eq, gap] at x y z
    exact ⟨x, y, z⟩
  · rintro ⟨x, y, z⟩
    refine ⟨?_, ?_, ?_⟩ <;> simpa only [add_eq, gap]

namespace Pipeline

/-- On colours between black and full, to within the bound what the matrix does. -/
def Approximates (p : Pipeline ℝ) (m : Mat4 ℝ) (bound : ℝ) : Prop :=
  ∀ v : Vec3 ℝ, v.IsInUnitCube →
    ∃ result, p.evaluate v = .ok result ∧ Vec3.AreWithin bound result (m.apply v)

variable {m : Mat4 ℝ} {bound : ℝ}

/-! ## What is left of a matrix -/

theorem addMatrix_empty_of_mixed (mixes : ¬ m.isNearScaling) (input output : ValueRange ℝ) :
    (empty input).addMatrix m output = (empty input).push (.matrix m) output := by
  have stays : Stays [] (.matrix m) := by
    refine ⟨?_, by simp, by simp⟩
    rintro (identity | scales)
    · exact mixes (Mat4.isNearScaling_of_isNearIdentity identity)
    · exact mixes scales
  exact congrArg (Pipeline.mk input) (absorb_of_stays (.matrix m) stays input output)

/-- Of a matrix that mixes nothing the gains are left, or nothing where these are almost one. -/
theorem addMatrix_empty_of_unmixed (scales : m.isNearScaling) (input output : ValueRange ℝ) :
    ((empty input).addMatrix m output = empty input ∧ m.IsCloseTo 1) ∨
      (empty input).addMatrix m output = (empty input).push (.multiplier m.gains) output := by
  have simplified : (LinearOperation.matrix m).simplified = .multiplier m.gains := if_pos scales
  have added := absorbed (ω := ℝ) input output [] (.matrix m)
  simp only [addMatrix, addLinear, empty]
  generalize absorb input output [] (.matrix m) = result at added ⊢
  cases added with
  | dropped negligible => exact .inl ⟨rfl, LinearOperation.isCloseTo_one negligible⟩
  | settled _ _ settled =>
    rw [simplified] at settled
    cases settled with
    -- Gains are compared with one by another tolerance than a matrix with the identity.
    | dropped negligible =>
      rw [← simplified] at negligible
      exact .inl ⟨rfl, LinearOperation.isCloseTo_one_of_simplified negligible⟩
    | appended _ _ => exact .inr rfl

/-! ## How close it comes -/

theorem approximates_gains_iff (still : m.offset = Vec3.splat 0) (input output : ValueRange ℝ) :
    ((empty input).push (.multiplier m.gains) output).Approximates m bound ↔
      m.linear.MixesAtMost bound := by
  have evaluated (v : Vec3 ℝ) :
      ((empty input).push (.multiplier m.gains) output).evaluate v = .ok (v * m.gains) := rfl
  simp only [Approximates, evaluated, Except.ok.injEq, exists_eq_left',
    Mat4.apply_eq_gains_add still, Vec3.areWithin_add_iff, Mat3.MixesAtMost, Mat3.mixing,
    Mat4.linear, List.forall_mem_cons, List.not_mem_nil, false_imp_iff, implies_true, and_true,
    isWeak_iff]
  have black : (0 : ℝ) ∈ Set.Icc (0 : ℝ) 1 := ⟨le_rfl, zero_le_one⟩
  refine ⟨?_, ?_⟩
  · intro within
    -- What is added to a channel depends on the two others only, so the channel itself is black.
    refine ⟨?_, ?_, ?_⟩ <;> intro s sIn t tIn
    · exact (within ⟨0, s, t⟩ ⟨black, sIn, tIn⟩).1
    · exact (within ⟨s, 0, t⟩ ⟨sIn, black, tIn⟩).2.1
    · exact (within ⟨s, t, 0⟩ ⟨sIn, tIn, black⟩).2.2
  · rintro ⟨first, second, third⟩ v ⟨x, y, z⟩
    exact ⟨first _ y _ z, second _ x _ z, third _ x _ y⟩

theorem approximates_empty (close : m.IsCloseTo 1) (input : ValueRange ℝ) :
    (empty input).Approximates m (1e-3 * m.linear.largest) := by
  have large := close.le_largest
  intro v inside
  refine ⟨v, rfl, ?_⟩
  have within := close.apply v
  rw [Mat4.one_apply] at within
  -- The tolerance counts once for each of three full channels and once for the offset.
  refine within.mono ?_
  linarith [inside.sumAbs_le]

theorem approximates_iff_of_isUnmixed (affine : m.IsAffine) (still : m.offset = Vec3.splat 0)
    (unmixed : m.linear.IsUnmixed) (input output : ValueRange ℝ) :
    ((empty input).addMatrix m output).Approximates m (1e-3 * m.linear.largest) ↔
      m.linear.MixesAtMost (1e-3 * m.linear.largest) := by
  have scales := (Mat4.isNearScaling_iff affine still).mpr unmixed
  obtain ⟨dropped, close⟩ | kept := addMatrix_empty_of_unmixed scales input output
  · rw [dropped]
    have large := close.le_largest
    exact ⟨fun _ => unmixed.mixesAtMost (by linarith), fun _ => approximates_empty close input⟩
  · rw [kept]
    exact approximates_gains_iff still input output

theorem approximates_of_not_isUnmixed (affine : m.IsAffine) (still : m.offset = Vec3.splat 0)
    (mixed : ¬ m.linear.IsUnmixed) (nonneg : 0 ≤ bound) (input output : ValueRange ℝ) :
    ((empty input).addMatrix m output).Approximates m bound := by
  rw [addMatrix_empty_of_mixed (mt (Mat4.isNearScaling_iff affine still).mp mixed)]
  intro v _
  refine ⟨m.apply v, rfl, ?_, ?_, ?_⟩ <;> rwa [sub_self, abs_zero]

/-- A matrix without an offset that is added to an empty pipeline is carried out, on all colours
between black and full, to within a thousandth of its largest entry exactly when it has an entry off
the diagonal beyond the tolerance or its entries off the diagonal contribute no more than that.  If
the largest entry is at least `0.02`, it always is. -/
theorem addMatrix_keeps_mixing_iff (affine : m.IsAffine) (still : m.offset = Vec3.splat 0)
    (input output : ValueRange ℝ) :
    (((empty input).addMatrix m output).Approximates m (1e-3 * m.linear.largest) ↔
      ¬ m.linear.IsUnmixed ∨ m.linear.MixesAtMost (1e-3 * m.linear.largest)) ∧
    (2e-2 ≤ m.linear.largest →
      ((empty input).addMatrix m output).Approximates m (1e-3 * m.linear.largest)) := by
  have nonneg : 0 ≤ 1e-3 * m.linear.largest := mul_nonneg (by norm_num) m.linear.largest_nonneg
  by_cases unmixed : m.linear.IsUnmixed
  · have decided := approximates_iff_of_isUnmixed affine still unmixed input output
    refine ⟨?_, fun large => decided.mpr (unmixed.mixesAtMost (by linarith))⟩
    rw [decided]
    exact (or_iff_right (not_not.mpr unmixed)).symm
  · have kept := approximates_of_not_isUnmixed affine still unmixed nonneg input output
    exact ⟨iff_of_true kept (.inl unmixed), fun _ => kept⟩

/-- What the entry at the tolerance adds to red is lost, but it is small beside the gains. -/
theorem addMatrix_keeps_mixing_faint :
    let m : Mat4 ℝ := .ofLinear ⟨⟨0.02, 1e-5, 0⟩, ⟨0, 0.02, 0⟩, ⟨0, 0, 0.02⟩⟩
    2e-2 ≤ m.linear.largest ∧
      ((empty .unit).addMatrix m .unit).Approximates m (1e-3 * m.linear.largest) := by
  intro m
  have large : 2e-2 ≤ m.linear.largest := by
    refine le_trans ?_ m.linear.abs_first_le_largest
    norm_num [m, Mat4.ofLinear, Mat4.affine, Mat4.linear]
  exact ⟨large, (addMatrix_keeps_mixing_iff (Mat4.isAffine_ofLinear _)
    (Mat4.offset_ofLinear _) .unit .unit).2 large⟩

/-- Red and green are exchanged at a scale where both entries are within the tolerance. -/
theorem not_addMatrix_keeps_mixing :
    ¬ ∀ (m : Mat4 ℝ) (input output : ValueRange ℝ), m.IsAffine → m.offset = Vec3.splat 0 →
      ((empty input).addMatrix m output).Approximates m (1e-3 * m.linear.largest) := by
  intro keeps
  let m : Mat4 ℝ := .ofLinear ⟨⟨0, 5e-6, 0⟩, ⟨5e-6, 0, 0⟩, ⟨0, 0, 5e-6⟩⟩
  have affine : m.IsAffine := Mat4.isAffine_ofLinear _
  have still : m.offset = Vec3.splat 0 := Mat4.offset_ofLinear _
  have unmixed : m.linear.IsUnmixed := by
    norm_num [m, Mat3.IsUnmixed, Mat3.mixing, Mat4.ofLinear, Mat4.affine, Mat4.linear]
  have mixes := (approximates_iff_of_isUnmixed affine still unmixed .unit .unit).mp
    (keeps m .unit .unit affine still)
  have largest : m.linear.largest = 5e-6 := by
    norm_num [m, Mat3.largest, Vec3.largest, Mat4.ofLinear, Mat4.affine, Mat4.linear]
  have red : |(5e-6 : ℝ)| ≤ 1e-3 * m.linear.largest := (mixes _ (List.mem_cons_self ..)).1
  rw [largest] at red
  norm_num at red

end Pipeline

end DisplayColor

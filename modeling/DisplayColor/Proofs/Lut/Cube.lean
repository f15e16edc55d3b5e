import DisplayColor.Proofs.Fusion.Mixing
import DisplayColor.Proofs.Lut.Cells
import DisplayColor.Proofs.Lut.Positions

/-! # Lookups in cube tables

In exact arithmetic both mixtures are averages of the corners of a cell: the lines of the first one
have their parameters between zero and one, and the weights of the second one, which are the
fractions in decreasing order, telescope.  So no lookup leaves the range of its cell.

A grid point is a corner of the cell in which it is looked up.  It need not be the lower one, since
there is no cell beyond the last grid point: there the way across is a whole step. -/

namespace DisplayColor

/-! ## Mixtures as averages -/

namespace CubeLut

variable {corners : Steps → ℝ} {t : Vec3 ℝ} {lo hi : ℝ}

theorem mixLinear_mem (bounded : ∀ steps, corners steps ∈ Set.Icc lo hi) (unit : t.IsInUnitCube) :
    mixLinear corners t ∈ Set.Icc lo hi := by
  have edge (y z : Fin 2) :
      Scalar.lerp (corners ⟨0, y, z⟩) (corners ⟨1, y, z⟩) t.x ∈ Set.Icc lo hi :=
    Scalar.lerp_mem_Icc (bounded _) (bounded _) unit.x
  exact Scalar.lerp_mem_Icc (Scalar.lerp_mem_Icc (edge 0 0) (edge 1 0) unit.y)
    (Scalar.lerp_mem_Icc (edge 0 1) (edge 1 1) unit.y) unit.z

/-- The weights of a path across a cell decrease from one to zero. -/
structure EdgePath.IsDecreasing (path : EdgePath ℝ) : Prop where
  full : path.weights.x ≤ 1
  second : path.weights.y ≤ path.weights.x
  third : path.weights.z ≤ path.weights.y
  nonneg : 0 ≤ path.weights.z

theorem isDecreasing_edgePath (unit : t.IsInUnitCube) : (edgePath t).IsDecreasing := by
  obtain ⟨⟨x0, x1⟩, ⟨y0, y1⟩, ⟨z0, z1⟩⟩ := unit
  unfold edgePath
  split_ifs with xy zy zx zy zx
  · exact ⟨x1, xy.le, zy.le, z0⟩
  · exact ⟨x1, zx.le, not_lt.mp zy, y0⟩
  · exact ⟨z1, not_lt.mp zx, xy.le, y0⟩
  · exact ⟨y1, not_lt.mp xy, zx.le, z0⟩
  · exact ⟨y1, zy.le, not_lt.mp zx, x0⟩
  · exact ⟨z1, not_lt.mp zy, not_lt.mp xy, x0⟩

/-- A walk with decreasing weights is an average of the corners that it visits. -/
theorem walk_mem {a b c d u v w : ℝ} (ha : a ∈ Set.Icc lo hi) (hb : b ∈ Set.Icc lo hi)
    (hc : c ∈ Set.Icc lo hi) (hd : d ∈ Set.Icc lo hi) (full : u ≤ 1) (second : v ≤ u)
    (third : w ≤ v) (nonneg : 0 ≤ w) :
    a + u * (b - a) + v * (c - b) + w * (d - c) ∈ Set.Icc lo hi := by
  have average : a + u * (b - a) + v * (c - b) + w * (d - c) =
      (1 - u) * a + (u - v) * b + (v - w) * c + w * d := by ring
  have total (bound : ℝ) :
      (1 - u) * bound + (u - v) * bound + (v - w) * bound + w * bound = bound := by ring
  have first : 0 ≤ 1 - u := sub_nonneg.mpr full
  have second : 0 ≤ u - v := sub_nonneg.mpr second
  have third : 0 ≤ v - w := sub_nonneg.mpr third
  rw [average]
  constructor
  · rw [← total lo]
    gcongr
    exacts [ha.1, hb.1, hc.1, hd.1]
  · rw [← total hi]
    gcongr
    exacts [ha.2, hb.2, hc.2, hd.2]

theorem mixTetrahedral_mem (bounded : ∀ steps, corners steps ∈ Set.Icc lo hi)
    (unit : t.IsInUnitCube) : mixTetrahedral corners t ∈ Set.Icc lo hi := by
  obtain ⟨full, second, third, nonneg⟩ := isDecreasing_edgePath unit
  exact walk_mem (bounded _) (bounded _) (bounded _) (bounded _) full second third nonneg

variable {mix : (Steps → ℝ) → Vec3 ℝ → ℝ}

theorem IsMixture.mem (mixture : IsMixture mix) (bounded : ∀ steps, corners steps ∈ Set.Icc lo hi)
    (unit : t.IsInUnitCube) : mix corners t ∈ Set.Icc lo hi := by
  cases mixture with
  | linear => exact mixLinear_mem bounded unit
  | tetrahedral => exact mixTetrahedral_mem bounded unit

/-- A mixture lies between the smallest and the largest of the corners. -/
theorem IsMixture.mem_Icc_iInf_iSup (mixture : IsMixture mix) (corners : Steps → ℝ)
    (unit : t.IsInUnitCube) :
    mix corners t ∈ Set.Icc (⨅ steps, corners steps) (⨆ steps, corners steps) :=
  mixture.mem (fun steps => ⟨ciInf_le (Set.finite_range corners).bddBelow steps,
    le_ciSup (Set.finite_range corners).bddAbove steps⟩) unit

/-! ## Mixtures at the corners -/

theorem lerp_step (ends : Fin 2 → ℝ) (step : Fin 2) :
    Scalar.lerp (ends 0) (ends 1) ((step : ℕ) : ℝ) = ends step := by
  fin_cases step
  · exact (congrArg _ Nat.cast_zero).trans (Scalar.lerp_zero _ _)
  · exact (congrArg _ Nat.cast_one).trans (Scalar.lerp_one _ _)

theorem mixLinear_corner (corners : Steps → ℝ) (steps : Steps) :
    mixLinear corners (steps.map fun step : Fin 2 => ((step : ℕ) : ℝ)) = corners steps := by
  obtain ⟨x, y, z⟩ := steps
  have edge (y z : Fin 2) := lerp_step (fun x => corners ⟨x, y, z⟩) x
  have face (z : Fin 2) := lerp_step (fun y => corners ⟨x, y, z⟩) y
  have whole := lerp_step (fun z => corners ⟨x, y, z⟩) z
  simp only [mixLinear, Vec3.map, edge, face, whole]

theorem mixTetrahedral_corner (corners : Steps → ℝ) (steps : Steps) :
    mixTetrahedral corners (steps.map fun step : Fin 2 => ((step : ℕ) : ℝ)) = corners steps := by
  obtain ⟨x, y, z⟩ := steps
  -- Which path leads to a corner depends on how ties between its fractions are broken.
  fin_cases x <;> fin_cases y <;> fin_cases z <;>
    norm_num [mixTetrahedral, edgePath, toSteps, Vec3.map] <;> rfl

theorem IsMixture.corner (mixture : IsMixture mix) (corners : Steps → ℝ) (steps : Steps) :
    mix corners (steps.map fun step : Fin 2 => ((step : ℕ) : ℝ)) = corners steps := by
  cases mixture with
  | linear => exact mixLinear_corner corners steps
  | tetrahedral => exact mixTetrahedral_corner corners steps

end CubeLut

/-! ## Positions -/

/-- A position between the two planes that bound the cell along each axis. -/
structure Cell.Holds {n : ℕ} (cell : Cell n) (position : Vec3 ℝ) : Prop where
  x : position.x ∈ Set.Icc ((cell.x : ℕ) : ℝ) ((cell.x : ℕ) + 1)
  y : position.y ∈ Set.Icc ((cell.y : ℕ) : ℝ) ((cell.y : ℕ) + 1)
  z : position.z ∈ Set.Icc ((cell.z : ℕ) : ℝ) ((cell.z : ℕ) + 1)

namespace CubeLut

variable {lut : CubeLut ℝ}

/-- The index of the last grid point along an axis. -/
def last {α : Type} (lut : CubeLut α) : ℕ := lut.size - 1

theorem last_pos (lut : CubeLut ℝ) : (0 : ℝ) < lut.last := by
  have atLeast := lut.two_le_size
  exact_mod_cast (by simp only [last]; omega : 0 < lut.last)

theorem last_eq (lut : CubeLut ℝ) : (lut.last : ℝ) = lut.size - 1 := by
  have atLeast : 1 ≤ lut.size := one_le_two.trans lut.two_le_size
  simp only [last, Nat.cast_sub atLeast, Nat.cast_one]

theorem last_lt_wordCount (word : lut.size ≤ wordCount) : lut.last < wordCount := by
  have atLeast := lut.two_le_size
  simp only [last]
  omega

theorem gridPosition_eq (lut : CubeLut ℝ) (v : Vec3 ℝ) :
    lut.gridPosition v = v.map fun c : ℝ => min 1 (max 0 c) * (lut.size - 1) := by
  simp only [gridPosition, Scalar.saturate_real, ← last_eq]
  rfl

theorem cellIndex_eq (word : lut.size ≤ wordCount) {p : ℝ} (le : p ≤ lut.last) :
    lut.cellIndex p = min ⌊p⌋₊ (lut.size - 2) := by
  rw [cellIndex, Scalar.wholePart_eq_floor le (last_lt_wordCount word)]

/-- The cell that is cut off at the last plane still holds the position. -/
theorem cellIndex_mem (word : lut.size ≤ wordCount) {p : ℝ} (mem : p ∈ Set.Icc 0 (lut.last : ℝ)) :
    p ∈ Set.Icc (lut.cellIndex p : ℝ) (lut.cellIndex p + 1) := by
  have atLeast := lut.two_le_size
  rw [cellIndex_eq word mem.2]
  obtain le | beyond := le_total ⌊p⌋₊ (lut.size - 2)
  · rw [min_eq_left le]
    exact ⟨Nat.floor_le mem.1, (Nat.lt_floor_add_one p).le⟩
  · -- Past the last cell there is only its upper plane.
    rw [min_eq_right beyond]
    have next : lut.last = lut.size - 2 + 1 := by
      simp only [last]
      omega
    refine ⟨(Nat.cast_le.mpr beyond).trans (Nat.floor_le mem.1), ?_⟩
    exact_mod_cast next ▸ mem.2

theorem holds_cellAt (word : lut.size ≤ wordCount) (v : Vec3 ℝ) :
    (lut.cellAt (lut.gridPosition v)).Holds (lut.gridPosition v) := by
  have mem (c : ℝ) := cellIndex_mem word (Scalar.saturate_mul_mem c lut.last)
  exact ⟨mem v.x, mem v.y, mem v.z⟩

theorem isInUnitCube_wayAcross (word : lut.size ≤ wordCount) (v : Vec3 ℝ) :
    (lut.wayAcross (lut.gridPosition v)).IsInUnitCube := by
  have mem (c : ℝ) : let p := Scalar.saturate c * (lut.last : ℝ)
      p - (lut.cellIndex p : ℝ) ∈ Set.Icc 0 1 := by
    obtain ⟨below, above⟩ := cellIndex_mem word (Scalar.saturate_mul_mem c lut.last)
    exact ⟨sub_nonneg.mpr below, sub_le_iff_le_add'.mpr above⟩
  exact ⟨mem v.x, mem v.y, mem v.z⟩

/-! ## Grid points as colours -/

/-- The colour for which a grid point stands. -/
noncomputable def colour (lut : CubeLut ℝ) (i : GridPoint lut.size) : Vec3 ℝ :=
  i.map fun k : Fin lut.size => ((k : ℕ) : ℝ) / (lut.size - 1)

theorem le_last (k : Fin lut.size) : (k : ℕ) ≤ lut.last := Nat.le_sub_one_of_lt k.isLt

theorem saturate_mul_last (k : Fin lut.size) :
    Scalar.saturate (((k : ℕ) : ℝ) / (lut.size - 1)) * lut.last = (k : ℕ) := by
  have le : ((k : ℕ) : ℝ) ≤ lut.last := Nat.cast_le.mpr (le_last k)
  have unit : ((k : ℕ) : ℝ) / lut.last ∈ Set.Icc (0 : ℝ) 1 :=
    ⟨div_nonneg (Nat.cast_nonneg _) lut.last_pos.le, (div_le_one lut.last_pos).mpr le⟩
  rw [← last_eq, Scalar.saturate_of_mem unit, div_mul_cancel₀ _ lut.last_pos.ne']

theorem gridPosition_colour (lut : CubeLut ℝ) (i : GridPoint lut.size) :
    lut.gridPosition (lut.colour i) = i.map fun k : Fin lut.size => ((k : ℕ) : ℝ) :=
  Vec3.ext (saturate_mul_last i.x) (saturate_mul_last i.y) (saturate_mul_last i.z)

/-- A grid index is that of the cell in which it is looked up, or the next one. -/
def stepTo (k : Fin lut.size) : Fin 2 :=
  ⟨k - min (k : ℕ) (lut.size - 2), by omega⟩

theorem cellIndex_natCast (word : lut.size ≤ wordCount) (k : Fin lut.size) :
    lut.cellIndex ((k : ℕ) : ℝ) = min (k : ℕ) (lut.size - 2) := by
  rw [cellIndex_eq word (Nat.cast_le.mpr (le_last k)), Nat.floor_natCast]

theorem cellIndex_add_stepTo (word : lut.size ≤ wordCount) (k : Fin lut.size) :
    lut.cellIndex ((k : ℕ) : ℝ) + (stepTo k : ℕ) = k := by
  rw [cellIndex_natCast word]
  simp only [stepTo]
  omega

theorem sub_cellIndex (word : lut.size ≤ wordCount) (k : Fin lut.size) :
    ((k : ℕ) : ℝ) - lut.cellIndex ((k : ℕ) : ℝ) = (stepTo k : ℕ) := by
  rw [sub_eq_iff_eq_add']
  exact_mod_cast (cellIndex_add_stepTo word k).symm

theorem corners_stepTo (complete : lut.IsComplete) (word : lut.size ≤ wordCount)
    (i : GridPoint lut.size) :
    lut.corners complete (lut.cellAt (lut.gridPosition (lut.colour i))) (i.map stepTo) =
      lut.node complete i := by
  have index := cellIndex_add_stepTo word
  rw [gridPosition_colour, corners]
  exact congrArg (lut.node complete)
    (Vec3.ext (Fin.ext (index i.x)) (Fin.ext (index i.y)) (Fin.ext (index i.z)))

theorem wayAcross_colour (word : lut.size ≤ wordCount) (i : GridPoint lut.size) :
    lut.wayAcross (lut.gridPosition (lut.colour i)) =
      (i.map stepTo).map fun step : Fin 2 => ((step : ℕ) : ℝ) := by
  rw [gridPosition_colour]
  exact Vec3.ext (sub_cellIndex word i.x) (sub_cellIndex word i.y) (sub_cellIndex word i.z)

/-! ## The lookup -/

theorem nearestIndex_lt (word : lut.size ≤ wordCount) (c : ℝ) :
    lut.nearestIndex c < lut.size := by
  have mem := Scalar.saturate_mul_mem c lut.last
  have le := (Scalar.nearestNat_real mem (last_lt_wordCount word)).1
  exact (Nat.le_sub_one_iff_lt (two_pos.trans_le lut.two_le_size)).mp le

theorem nearestIndex_colour (word : lut.size ≤ wordCount) (k : Fin lut.size) :
    lut.nearestIndex (((k : ℕ) : ℝ) / (lut.size - 1)) = k := by
  have position := saturate_mul_last k
  rw [nearestIndex]
  exact (congrArg Scalar.nearestNat position).trans
    (Scalar.nearestNat_natCast (le_last k) (last_lt_wordCount word))

theorem apply_colour (complete : lut.IsComplete) (word : lut.size ≤ wordCount)
    (i : GridPoint lut.size) : lut.apply (lut.colour i) = .ok (lut.node complete i) := by
  by_cases nearest : lut.interpolation = .nearest
  · rw [apply_of_nearest complete nearest (nearestIndex_lt word)]
    have index := nearestIndex_colour word
    exact congrArg (fun point => Except.ok (lut.node complete point))
      (Vec3.ext (Fin.ext (index i.x)) (Fin.ext (index i.y)) (Fin.ext (index i.z)))
  · obtain ⟨mix, mixture, read⟩ := apply_of_ne_nearest complete nearest
    rw [read, wayAcross_colour word]
    simp only [mixture.corner, corners_stepTo complete word]
    rfl

/-- A complete table is always read inside its data: at a grid point at most half a step along each
axis from the colour, or in a cell that holds the colour, with every channel between the smallest
and the largest of its corners.  At a grid point its entry is read, whatever the method. -/
theorem apply_interpolates (complete : lut.IsComplete) (word : lut.size ≤ wordCount) :
    (lut.interpolation = .nearest → ∀ v, ∃ point : GridPoint lut.size,
      lut.apply v = .ok (lut.node complete point) ∧
      ∀ channel ∈ Vec3.channels, |channel (lut.gridPosition v) -
        channel (point.map fun k : Fin lut.size => ((k : ℕ) : ℝ))| ≤ 1 / 2) ∧
    (lut.interpolation ≠ .nearest → ∀ v, ∃ (cell : Cell lut.size) (c : Vec3 ℝ),
      lut.apply v = .ok c ∧
      cell.Holds (v.map fun c : ℝ => min 1 (max 0 c) * (lut.size - 1)) ∧
      ∀ channel ∈ Vec3.channels, channel c ∈
        Set.Icc (⨅ steps, channel (lut.corners complete cell steps))
          (⨆ steps, channel (lut.corners complete cell steps))) ∧
    ∀ i : GridPoint lut.size,
      lut.apply (i.map fun k : Fin lut.size => ((k : ℕ) : ℝ) / (lut.size - 1)) =
        .ok (lut.node complete i) := by
  refine ⟨?_, ?_, apply_colour complete word⟩
  · intro nearest v
    have close (c : ℝ) := (Scalar.nearestNat_real (Scalar.saturate_mul_mem c lut.last)
      (last_lt_wordCount word)).2
    refine ⟨_, apply_of_nearest complete nearest (nearestIndex_lt word) v, ?_⟩
    exact Vec3.forall_channels.mpr ⟨close v.x, close v.y, close v.z⟩
  · intro between v
    obtain ⟨mix, mixture, read⟩ := apply_of_ne_nearest complete between
    refine ⟨lut.cellAt (lut.gridPosition v), _, read v, ?_, ?_⟩
    · rw [← gridPosition_eq]
      exact holds_cellAt word v
    · intro channel mem
      rw [Vec3.channel_ofChannels _ channel mem]
      exact mixture.mem_Icc_iInf_iSup _ (isInUnitCube_wayAcross word v)

/-- A table that is no function of any one channel, read at a corner and at a colour outside of the
cube. -/
theorem apply_interpolates_skewed :
    let lut : CubeLut ℝ := ⟨#[.splat 0, .splat 1, .splat 0, .splat 3, .splat 0, .splat 2, .splat 0,
      .splat 4], 2, .tetrahedral, le_refl 2⟩
    (lut.IsComplete ∧ lut.size ≤ wordCount) ∧ lut.apply ⟨1, 1, 0⟩ = .ok (.splat 3) ∧
      ∃ c, lut.apply ⟨0.25, 7, -3⟩ = .ok c ∧ c.x ∈ Set.Icc 0 4 := by
  intro lut
  have complete : lut.IsComplete := rfl
  have word : lut.size ≤ wordCount := by decide
  have bounded (i : GridPoint 2) : (lut.node complete i).x ∈ Set.Icc 0 4 := by
    obtain ⟨x, y, z⟩ := i
    fin_cases x <;> fin_cases y <;> fin_cases z <;> norm_num [node, address, lut, Vec3.splat]
  obtain ⟨-, between, points⟩ := apply_interpolates complete word
  refine ⟨⟨complete, word⟩, ?_, ?_⟩
  · have corner := points ⟨1, 1, 0⟩
    norm_num [Vec3.map, lut] at corner
    exact corner
  · obtain ⟨cell, c, read, -, range⟩ := between (by decide) ⟨0.25, 7, -3⟩
    obtain ⟨least, greatest⟩ := range Vec3.x (by simp [Vec3.channels])
    refine ⟨c, read, le_trans ?_ least, greatest.trans ?_⟩
    · exact le_ciInf fun steps => (bounded _).1
    · exact ciSup_le fun steps => (bounded _).2

end CubeLut

end DisplayColor

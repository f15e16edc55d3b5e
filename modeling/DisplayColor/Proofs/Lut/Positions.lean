import Mathlib.Analysis.Convex.Basic
import DisplayColor.Lut.Table
import DisplayColor.Proofs.Fusion.Tolerance

/-! # Positions on a grid

In exact arithmetic a lookup moves its input to a position between the first and the last grid point
and splits the position into the grid point below it and the way left.  Grid points are counted in
words, so a grid whose last point is a word is never left by the split. -/

namespace DisplayColor.Scalar

theorem saturate_real (x : ℝ) : saturate x = Min.min 1 (Max.max 0 x) := by
  simp only [saturate, isNaN_real, Bool.false_eq_true, if_false, literal_zero, literal_one,
    clamp_real]

theorem saturate_mem (x : ℝ) : saturate x ∈ Set.Icc 0 1 := by
  rw [saturate_real]
  exact ⟨le_min zero_le_one (le_max_left _ _), min_le_left _ _⟩

theorem saturate_of_mem {x : ℝ} (unit : x ∈ Set.Icc 0 1) : saturate x = x := by
  rw [saturate_real, max_eq_right unit.1, min_eq_right unit.2]

theorem monotone_saturate : Monotone (saturate : ℝ → ℝ) := by
  intro x y le
  rw [saturate_real, saturate_real]
  gcongr

/-- The input of a lookup lies on the grid once it is saturated and scaled to the last point. -/
theorem saturate_mul_mem (x : ℝ) (last : ℕ) : saturate x * last ∈ Set.Icc 0 (last : ℝ) := by
  obtain ⟨nonneg, le⟩ := saturate_mem x
  exact ⟨mul_nonneg nonneg last.cast_nonneg, mul_le_of_le_one_left last.cast_nonneg le⟩

theorem wholePart_eq_floor {x : ℝ} {last : ℕ} (le : x ≤ last) (word : last < wordCount) :
    wholePart x = ⌊x⌋₊ := by
  have floor : ⌊x⌋₊ ≤ last := Nat.floor_le_of_le le
  have largest : wordCount = 2 ^ 64 := rfl
  exact min_eq_left (floor.trans (by omega))

theorem nearestNat_eq {x : ℝ} {last : ℕ} (le : x ≤ last) (word : last < wordCount) :
    nearestNat x = if 1 / 2 ≤ x - ⌊x⌋₊ then ⌊x⌋₊ + 1 else ⌊x⌋₊ := by
  have half : (0.5 : ℝ) = 1 / 2 := by norm_num
  simp only [nearestNat, wholePart_eq_floor le word, ← half]
  rfl

/-- The nearest grid point is half a step away at most, and does not lie beyond the last one. -/
theorem nearestNat_real {x : ℝ} {last : ℕ} (mem : x ∈ Set.Icc 0 (last : ℝ))
    (word : last < wordCount) : nearestNat x ≤ last ∧ |x - nearestNat x| ≤ 1 / 2 := by
  have below : (⌊x⌋₊ : ℝ) ≤ x := Nat.floor_le mem.1
  have above : x < ⌊x⌋₊ + 1 := Nat.lt_floor_add_one x
  rw [nearestNat_eq mem.2 word]
  split
  · rename_i up
    have next : (⌊x⌋₊ : ℝ) < last := by linarith [mem.2]
    refine ⟨by exact_mod_cast next, ?_⟩
    push_cast
    exact abs_le.mpr ⟨by linarith, by linarith⟩
  · rename_i down
    refine ⟨Nat.floor_le_of_le mem.2, abs_le.mpr ⟨by linarith, by linarith⟩⟩

theorem nearestNat_natCast {i last : ℕ} (le : i ≤ last) (word : last < wordCount) :
    nearestNat (i : ℝ) = i := by
  rw [nearestNat_eq (Nat.cast_le.mpr le) word, Nat.floor_natCast, sub_self, if_neg (by norm_num)]

theorem lerp_eq (a b t : ℝ) : lerp a b t = a + (b - a) * t := rfl

theorem lerp_zero (a b : ℝ) : lerp a b 0 = a := by rw [lerp_eq, mul_zero, add_zero]

theorem lerp_one (a b : ℝ) : lerp a b 1 = b := by rw [lerp_eq, mul_one, add_sub_cancel]

/-- A line stays between the bounds of its ends. -/
theorem lerp_mem_Icc {a b lo hi t : ℝ} (first : a ∈ Set.Icc lo hi) (second : b ∈ Set.Icc lo hi)
    (unit : t ∈ Set.Icc 0 1) : lerp a b t ∈ Set.Icc lo hi := by
  have mixed : lerp a b t = (1 - t) * a + t * b := by
    rw [lerp_eq]
    ring
  rw [mixed]
  exact convex_Icc lo hi first second (sub_nonneg.mpr unit.2) unit.1 (sub_add_cancel 1 t)

theorem lerp_mem_uIcc (a b : ℝ) {t : ℝ} (unit : t ∈ Set.Icc 0 1) : lerp a b t ∈ Set.uIcc a b :=
  lerp_mem_Icc Set.left_mem_uIcc Set.right_mem_uIcc unit

end DisplayColor.Scalar

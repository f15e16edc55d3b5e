import DisplayColor.Proofs.Lut.Cells
import DisplayColor.Proofs.Scalar.WholeNumbers

/-! # Raw cube tables

A raw table that is accepted is read without a check, so accepting it must mean that it is complete.
It does for every size whose cube is a word, and for no other one: there the count of entries is
compared with what is left of the cube in a word, and some table with too few entries has it.

A complete table of single precision numbers is read inside its data for every input.  Between grid
points that is so for all scalars; at grid points it is a fact about rounding, which may not lead
past the last grid point.  It holds for all sizes up to `2 ^ 23`, and the cubes of larger ones are
no words. -/

namespace DisplayColor.CubeLut

/-! ## Accepted tables -/

section Accepted

variable {α : Type} {data : Array (Vec3 α)} {size index : ℕ}

/-- What a raw table is held against before its entries are. -/
def HasCount (data : Array (Vec3 α)) (size : ℕ) : Prop :=
  2 ≤ size ∧ data.size = size * size * size % wordCount

/-- Where the cube of the size is a word, it is the count. -/
theorem hasCount_iff (fits : size ^ 3 < wordCount) :
    HasCount data size ↔ 2 ≤ size ∧ data.size = size ^ 3 := by
  have cube : size * size * size % wordCount = size ^ 3 := by
    rw [← Nat.mod_eq_of_lt fits, pow_three']
  rw [HasCount, cube]

variable [Scalar α]

/-- The entries of a table with `size` grid points along each axis, one for each grid point and all
of them finite. -/
structure IsUsable (data : Array (Vec3 α)) (size : ℕ) : Prop where
  two_le : 2 ≤ size
  count : data.size = size ^ 3
  finite : ∀ e ∈ data, e.isFinite

/-- The indices of the entries with an infinite or undefined component. -/
def notFinite (data : Array (Vec3 α)) : Set ℕ :=
  {index | ∃ inside : index < data.size, data[index].isFinite = false}

theorem findIdx?_eq_some_iff_isLeast :
    data.findIdx? (fun e => !e.isFinite) = some index ↔ IsLeast (notFinite data) index := by
  simp only [Array.findIdx?_eq_some_iff_getElem, Bool.not_eq_true', Bool.not_eq_false]
  constructor
  · rintro ⟨inside, infinite, before⟩
    refine ⟨⟨inside, infinite⟩, ?_⟩
    rintro other ⟨_, otherInfinite⟩
    by_contra! earlier
    rw [before other earlier] at otherInfinite
    cases otherInfinite
  · rintro ⟨⟨inside, infinite⟩, least⟩
    refine ⟨inside, infinite, fun other earlier => ?_⟩
    by_contra otherInfinite
    rw [Bool.not_eq_true] at otherInfinite
    exact (least ⟨earlier.trans inside, otherInfinite⟩).not_gt earlier

theorem ofData_of_not_hasCount (other : ¬ HasCount data size) :
    ofData data size = .error (.entryCount (size * size * size % wordCount) size data.size) := by
  by_cases atLeast : 2 ≤ size
  · have differ : data.size ≠ size * size * size % wordCount := fun count => other ⟨atLeast, count⟩
    simp only [ofData, dif_pos atLeast, if_pos differ]
  · simp only [ofData, dif_neg atLeast]

theorem ofData_of_none (same : HasCount data size)
    (found : data.findIdx? (fun e => !e.isFinite) = none) :
    ofData data size = .ok ⟨data, size, .linear, same.1⟩ := by
  simp only [ofData, dif_pos same.1, if_neg (not_not.mpr same.2), found]

theorem ofData_of_some (same : HasCount data size)
    (found : data.findIdx? (fun e => !e.isFinite) = some index) :
    ofData data size = .error (.notFinite index) := by
  simp only [ofData, dif_pos same.1, if_neg (not_not.mpr same.2), found]

theorem ofData_eq_ok_iff {lut : CubeLut α} : ofData data size = .ok lut ↔
    ∃ same : HasCount data size, (∀ e ∈ data, e.isFinite) ∧
      lut = ⟨data, size, .linear, same.1⟩ := by
  by_cases same : HasCount data size
  · cases found : data.findIdx? fun e => !e.isFinite with
    | some index =>
      obtain ⟨inside, infinite, -⟩ := Array.findIdx?_eq_some_iff_getElem.mp found
      rw [Bool.not_eq_true'] at infinite
      simp only [ofData_of_some same found, reduceCtorEq, false_iff]
      rintro ⟨-, finite, -⟩
      rw [finite _ (Array.getElem_mem inside)] at infinite
      cases infinite
    | none =>
      have finite : ∀ e ∈ data, e.isFinite := by simpa using found
      simp only [ofData_of_none same found, Except.ok.injEq, exists_prop_of_true same]
      exact ⟨fun equal => ⟨finite, equal.symm⟩, fun accepted => accepted.2.symm⟩
  · simp [ofData_of_not_hasCount same, same]

theorem ofData_eq_notFinite_iff : ofData data size = .error (.notFinite index) ↔
    HasCount data size ∧ IsLeast (notFinite data) index := by
  rw [← findIdx?_eq_some_iff_isLeast]
  by_cases same : HasCount data size
  · cases found : data.findIdx? fun e => !e.isFinite with
    | some first => simp [ofData_of_some same found, same]
    | none => simp [ofData_of_none same found]
  · simp [ofData_of_not_hasCount same, same]

/-! ## Tables without entries -/

theorem exists_apply_eq_error {lut : CubeLut α} (empty : lut.data = #[]) (v : Vec3 α) :
    ∃ cause, lut.apply v = .error cause := by
  have unread (r g b : ℕ) :
      lut.entry r g b = .error ⟨0, address lut.size r g b % wordCount⟩ := by simp [entry, empty]
  cases method : lut.interpolation with
  | nearest =>
    simp only [apply, method]
    exact ⟨_, unread _ _ _⟩
  | linear =>
    simp only [apply, method, trilinear, unread]
    exact ⟨_, rfl⟩
  | tetrahedral =>
    simp only [apply, method, tetrahedral, unread]
    exact ⟨_, rfl⟩

end Accepted

/-! ## Lookups -/

section Lookup

variable {lut : CubeLut Single}

theorem size_lt_of_fits (fits : lut.size ^ 3 < wordCount) : lut.size < 2 ^ 22 := by
  by_contra! large
  have cube : (2 ^ 22) ^ 3 ≤ lut.size ^ 3 := Nat.pow_le_pow_left large 3
  have word : wordCount < (2 ^ 22) ^ 3 := by decide
  exact absurd fits (word.trans_le cube).not_gt

theorem nearestIndex_lt_size (fits : lut.size ^ 3 < wordCount) (c : Single) :
    lut.nearestIndex c < lut.size := by
  have atLeast := lut.two_le_size
  have small := size_lt_of_fits fits
  have le := Single.nearestNat_saturate_mul_le c (n := lut.size - 1) (by omega) (by omega)
  exact (Nat.le_sub_one_iff_lt (by omega)).mp le

/-- A complete table is read inside its data, whatever the input. -/
theorem exists_apply_eq_ok (complete : lut.IsComplete) (fits : lut.size ^ 3 < wordCount)
    (v : Vec3 Single) : ∃ c, lut.apply v = .ok c := by
  by_cases nearest : lut.interpolation = .nearest
  · exact ⟨_, apply_of_nearest complete nearest (nearestIndex_lt_size fits) v⟩
  · obtain ⟨mix, -, read⟩ := apply_of_ne_nearest complete nearest
    exact ⟨_, read v⟩

/-- For every size some table is accepted that has no more entries than a word can count: as many
black ones as are left of the cube in a word. -/
theorem exists_accepted {size : ℕ} (atLeast : 2 ≤ size) : ∃ data : Array (Vec3 Single),
    data.size < wordCount ∧ ∃ lut, ofData data size = .ok lut := by
  let data : Array (Vec3 Single) := .replicate (size * size * size % wordCount) (.splat 0)
  have finite : ∀ e ∈ data, e.isFinite := by
    intro e member
    rw [Array.eq_of_mem_replicate member]
    rfl
  have same : HasCount data size := ⟨atLeast, Array.size_replicate⟩
  have fewer : data.size < wordCount := same.2.trans_lt (Nat.mod_lt _ (by decide))
  exact ⟨data, fewer, _, ofData_eq_ok_iff.mpr ⟨same, finite, rfl⟩⟩

/-- Raw tables of a size are accepted exactly when they are usable, refused for the first entry that
is not finite exactly when there are as many as needed, and read inside their data once they are
accepted, if and only if the cube of the size is a word. -/
theorem ofData_usable_iff (size : ℕ) : size ^ 3 < wordCount ↔ ∀ data : Array (Vec3 Single),
    ((∃ lut, ofData data size = .ok lut) ↔ IsUsable data size) ∧
    (∀ index, ofData data size = .error (.notFinite index) ↔
      2 ≤ size ∧ data.size = size ^ 3 ∧ IsLeast (notFinite data) index) ∧
    ∀ lut, ofData data size = .ok lut → ∀ interpolation v,
      ∃ c, (lut.withInterpolation interpolation).apply v = .ok c := by
  constructor
  · intro fits data
    have count : HasCount data size ↔ 2 ≤ size ∧ data.size = size ^ 3 := hasCount_iff fits
    refine ⟨⟨?_, ?_⟩, fun index => ?_, ?_⟩
    · rintro ⟨lut, accepted⟩
      obtain ⟨same, finite, -⟩ := ofData_eq_ok_iff.mp accepted
      exact ⟨(count.mp same).1, (count.mp same).2, finite⟩
    · rintro ⟨atLeast, number, finite⟩
      exact ⟨_, ofData_eq_ok_iff.mpr ⟨count.mpr ⟨atLeast, number⟩, finite, rfl⟩⟩
    · rw [ofData_eq_notFinite_iff, count, and_assoc]
    · intro lut accepted interpolation v
      obtain ⟨same, -, rfl⟩ := ofData_eq_ok_iff.mp accepted
      refine exists_apply_eq_ok ?_ fits v
      rw [IsComplete]
      exact (count.mp same).2.trans (pow_three' size)
  · -- A table that is accepted for a larger size has fewer entries than grid points.
    intro usable
    by_contra! large
    have atLeast : 2 ≤ size := by
      by_contra! small
      have cube : size ^ 3 ≤ 1 ^ 3 := Nat.pow_le_pow_left (Nat.le_of_lt_succ small) 3
      exact absurd (large.trans cube) (by decide)
    obtain ⟨data, fewer, accepted⟩ := exists_accepted atLeast
    have count : data.size = size ^ 3 := ((usable data).1.mp accepted).count
    exact absurd (count.symm.trans_lt fewer) large.not_gt

/-- The eight corners of the cube, of which every channel is read as it is, and an input that is
undefined, infinite and outside of the cube. -/
theorem ofData_usable_iff_corners :
    let data : Array (Vec3 Single) := #[⟨0, 0, 0⟩, ⟨1, 0, 0⟩, ⟨0, 1, 0⟩, ⟨1, 1, 0⟩, ⟨0, 0, 1⟩,
      ⟨1, 0, 1⟩, ⟨0, 1, 1⟩, ⟨1, 1, 1⟩]
    ∃ lut, ofData data 2 = .ok lut ∧
      ∃ c, (lut.withInterpolation .tetrahedral).apply ⟨.undefined, ⟨0x7f800000⟩, -1⟩ = .ok c := by
  intro data
  obtain ⟨accepted, -, read⟩ := (ofData_usable_iff 2).mp (by decide) data
  have finite : ∀ e ∈ data, e.isFinite := by decide
  obtain ⟨lut, isOk⟩ := accepted.mpr ⟨le_refl 2, rfl, finite⟩
  exact ⟨lut, isOk, read lut isOk .tetrahedral _⟩

/-- A table of size `2 ^ 22` needs no entries at all to be accepted, and then nothing can be read
from it. -/
theorem ofData_accepts_empty :
    ∃ lut : CubeLut Single, ofData #[] 4194304 = .ok lut ∧
      (#[] : Array (Vec3 Single)).size ≠ 4194304 ^ 3 ∧
      ∀ interpolation v, ∃ cause, (lut.withInterpolation interpolation).apply v = .error cause := by
  have same : HasCount (#[] : Array (Vec3 Single)) 4194304 := ⟨by decide, by decide⟩
  refine ⟨_, ofData_eq_ok_iff.mpr ⟨same, by simp, rfl⟩, by decide, fun interpolation v => ?_⟩
  exact exists_apply_eq_error rfl v

end Lookup

end DisplayColor.CubeLut

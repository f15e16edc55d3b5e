import DisplayColor.Proofs.Lut.Grids
import Mathlib.Data.Fin.VecNotation
import Mathlib.Algebra.Order.Ring.Nat
import Mathlib.Data.Finite.Prod

/-! # Cells of a cube table

A complete table has an entry for every grid point, and between grid points it is read in a cell: a
lower corner that is not on the last plane of any axis, and the eight points that are at most one
step along each axis away from it.  Which cell is read depends on the scalars, but it is a cell
whatever the scalars are, since the lower corner is cut off before the last plane.  So the two ways
of interpolation never leave a complete table, and what they give is a mixture of eight entries. -/

namespace DisplayColor

instance {β : Type} [Finite β] : Finite (Vec3 β) :=
  .of_injective (fun v => (v.x, v.y, v.z)) fun ⟨_, _, _⟩ ⟨_, _, _⟩ equal => by
    obtain ⟨rfl, rfl, rfl⟩ : _ ∧ _ ∧ _ := by simpa using equal
    rfl

namespace Vec3

variable {α β : Type}

def channels : List (Vec3 α → α) := [Vec3.x, Vec3.y, Vec3.z]

/-- A colour whose channels are calculated alike. -/
def ofChannels (f : (Vec3 β → β) → α) : Vec3 α := ⟨f Vec3.x, f Vec3.y, f Vec3.z⟩

theorem forall_channels {p : (Vec3 α → α) → Prop} :
    (∀ channel ∈ channels, p channel) ↔ p Vec3.x ∧ p Vec3.y ∧ p Vec3.z := by
  simp [channels]

theorem channel_ofChannels (f : (Vec3 α → α) → α) :
    ∀ channel ∈ channels, channel (ofChannels f) = f channel :=
  forall_channels.mpr ⟨rfl, rfl, rfl⟩

end Vec3

/-- The lower corner of a cell of a grid with `n` points along each axis. -/
abbrev Cell (n : ℕ) : Type := Vec3 (Fin (n - 1))

/-- From the lower corner of a cell at most one step along each axis. -/
abbrev Steps : Type := Vec3 (Fin 2)

namespace Cell

variable {n : ℕ}

def point (cell : Cell n) (steps : Steps) : GridPoint n :=
  Vec3.zipWith (fun (i : Fin (n - 1)) (step : Fin 2) => ⟨i + step, by omega⟩) cell steps

end Cell

namespace CubeLut

/-! ## Entries -/

variable {α : Type} {lut : CubeLut α}

theorem IsComplete.address_lt (complete : lut.IsComplete) (i : GridPoint lut.size) :
    address lut.size i.x i.y i.z < lut.data.size :=
  (CubeLut.address_lt i).trans_eq complete.symm

/-- The entry of a complete table for a grid point. -/
def node (lut : CubeLut α) (complete : lut.IsComplete) (i : GridPoint lut.size) : Vec3 α :=
  have inside := complete.address_lt i
  lut.data[address lut.size i.x i.y i.z]

theorem entry_eq (complete : lut.IsComplete) (i : GridPoint lut.size) :
    lut.entry i.x i.y i.z = .ok (lut.node complete i) := by
  simp only [entry, Array.getElem?_eq_getElem (complete.address_lt i), node]

/-- The entries at the corners of a cell. -/
def corners (lut : CubeLut α) (complete : lut.IsComplete) (cell : Cell lut.size) (steps : Steps) :
    Vec3 α :=
  lut.node complete (cell.point steps)

theorem entry_corner (complete : lut.IsComplete) (cell : Cell lut.size) (steps : Steps) :
    lut.entry (cell.x + steps.x) (cell.y + steps.y) (cell.z + steps.z) =
      .ok (lut.corners complete cell steps) :=
  entry_eq complete (cell.point steps)

/-! ## Mixtures -/

section Mixtures

variable [Scalar α]

/-- Along red, then along green, then along blue. -/
def mixLinear (corners : Steps → α) (t : Vec3 α) : α :=
  let edge (y z : Fin 2) : α := Scalar.lerp (corners ⟨0, y, z⟩) (corners ⟨1, y, z⟩) t.x
  let face (z : Fin 2) : α := Scalar.lerp (edge 0 z) (edge 1 z) t.y
  Scalar.lerp (face 0) (face 1) t.z

def toSteps (steps : Vec3 ℕ) : Steps := steps.map (Fin.ofNat 2)

/-- From the lower to the upper corner, through the corners on the way of `edgePath`. -/
def mixTetrahedral (corners : Steps → α) (t : Vec3 α) : α :=
  let path := edgePath t
  let lower := corners ⟨0, 0, 0⟩
  let first := corners (toSteps path.first)
  let second := corners (toSteps path.second)
  let upper := corners ⟨1, 1, 1⟩
  lower + path.weights.x * (first - lower) + path.weights.y * (second - first)
    + path.weights.z * (upper - second)

/-- The corners on the way are at most one step along each axis away. -/
theorem map_toSteps_edgePath (t : Vec3 α) :
    (toSteps (edgePath t).first).map Fin.val = (edgePath t).first ∧
      (toSteps (edgePath t).second).map Fin.val = (edgePath t).second := by
  unfold edgePath
  split_ifs <;> exact ⟨rfl, rfl⟩

/-! ## Lookups between grid points -/

/-- The cell in which a position is looked up. -/
def cellAt (lut : CubeLut α) (position : Vec3 α) : Cell lut.size :=
  position.map fun c => ⟨lut.cellIndex c, by
    have atLeast := lut.two_le_size
    simp only [cellIndex]
    omega⟩

/-- How far a position is across the cell in which it is looked up. -/
def wayAcross (lut : CubeLut α) (position : Vec3 α) : Vec3 α :=
  position.map fun c => c - Scalar.ofNat (lut.cellIndex c)

theorem entry_toSteps (complete : lut.IsComplete) (position : Vec3 α) (steps : Vec3 ℕ)
    (few : (toSteps steps).map Fin.val = steps) :
    lut.entry (lut.cellIndex position.x + steps.x) (lut.cellIndex position.y + steps.y)
      (lut.cellIndex position.z + steps.z) =
    .ok (lut.corners complete (lut.cellAt position) (toSteps steps)) := by
  have corner := entry_corner complete (lut.cellAt position) (toSteps steps)
  have x : ((toSteps steps).x : ℕ) = steps.x := congrArg Vec3.x few
  have y : ((toSteps steps).y : ℕ) = steps.y := congrArg Vec3.y few
  have z : ((toSteps steps).z : ℕ) = steps.z := congrArg Vec3.z few
  rwa [x, y, z] at corner

theorem trilinear_eq (complete : lut.IsComplete) (position : Vec3 α) : lut.trilinear position =
    .ok (.ofChannels fun channel => mixLinear
      (fun steps => channel (lut.corners complete (lut.cellAt position) steps))
      (lut.wayAcross position)) := by
  have corner := entry_toSteps complete position
  have c000 := corner ⟨0, 0, 0⟩ rfl
  have c100 := corner ⟨1, 0, 0⟩ rfl
  have c010 := corner ⟨0, 1, 0⟩ rfl
  have c110 := corner ⟨1, 1, 0⟩ rfl
  have c001 := corner ⟨0, 0, 1⟩ rfl
  have c101 := corner ⟨1, 0, 1⟩ rfl
  have c011 := corner ⟨0, 1, 1⟩ rfl
  have c111 := corner ⟨1, 1, 1⟩ rfl
  -- Where no step is taken along an axis, the definition does not add one.
  simp only [Nat.add_zero] at c000 c100 c010 c110 c001 c101 c011
  have split : lut.cell position = (position.map lut.cellIndex, lut.wayAcross position) := rfl
  simp only [trilinear, split, Vec3.map, c000, c100, c010, c110, c001, c101, c011, c111]
  rfl

theorem tetrahedral_eq (complete : lut.IsComplete) (position : Vec3 α) : lut.tetrahedral position =
    .ok (.ofChannels fun channel => mixTetrahedral
      (fun steps => channel (lut.corners complete (lut.cellAt position) steps))
      (lut.wayAcross position)) := by
  have corner := entry_toSteps complete position
  have c000 := corner ⟨0, 0, 0⟩ rfl
  have c111 := corner ⟨1, 1, 1⟩ rfl
  simp only [Nat.add_zero] at c000
  obtain ⟨first, second⟩ := map_toSteps_edgePath (lut.wayAcross position)
  have c1 := corner _ first
  have c2 := corner _ second
  have split : lut.cell position = (position.map lut.cellIndex, lut.wayAcross position) := rfl
  simp only [tetrahedral, split, Vec3.map, c000, c111, c1, c2]
  rfl

/-- Where a colour is looked up: moved into the cube and scaled to the grid. -/
def gridPosition (lut : CubeLut α) (v : Vec3 α) : Vec3 α :=
  v.map fun c => Scalar.saturate c * Scalar.ofNat (lut.size - 1)

/-- The two ways of interpolation, each as the mixture that it makes of a cell. -/
inductive IsMixture : ((Steps → α) → Vec3 α → α) → Prop
  | linear : IsMixture mixLinear
  | tetrahedral : IsMixture mixTetrahedral

/-- Between grid points a complete table is read in the corners of one cell, each channel by
itself. -/
theorem apply_of_ne_nearest (complete : lut.IsComplete) (between : lut.interpolation ≠ .nearest) :
    ∃ mix : (Steps → α) → Vec3 α → α, IsMixture mix ∧ ∀ v, lut.apply v =
      .ok (.ofChannels fun channel =>
        mix (fun steps => channel (lut.corners complete (lut.cellAt (lut.gridPosition v)) steps))
          (lut.wayAcross (lut.gridPosition v))) := by
  cases method : lut.interpolation with
  | nearest => exact absurd method between
  | linear =>
    refine ⟨mixLinear, .linear, fun v => ?_⟩
    simp only [apply, method]
    exact trilinear_eq complete _
  | tetrahedral =>
    refine ⟨mixTetrahedral, .tetrahedral, fun v => ?_⟩
    simp only [apply, method]
    exact tetrahedral_eq complete _

/-- The grid point along one axis that is nearest to an input. -/
def nearestIndex (lut : CubeLut α) (c : α) : ℕ :=
  Scalar.nearestNat (Scalar.saturate c * Scalar.ofNat (lut.size - 1))

/-- At grid points a complete table is read inside as long as rounding does not lead out of the
grid. -/
theorem apply_of_nearest (complete : lut.IsComplete) (nearest : lut.interpolation = .nearest)
    (inside : ∀ c, lut.nearestIndex c < lut.size) (v : Vec3 α) :
    lut.apply v = .ok (lut.node complete (v.map fun c => ⟨lut.nearestIndex c, inside c⟩)) := by
  simp only [apply, nearest]
  exact entry_eq complete (v.map fun c => ⟨lut.nearestIndex c, inside c⟩)

end Mixtures

/-! ## Tables of functions -/

section OfFunction

variable [Scalar α]

theorem isComplete_ofFunction (size : ℕ) (f : Vec3 α → Vec3 α) : (ofFunction size f).IsComplete :=
  size_onGrid _ _

theorem node_ofFunction (size : ℕ) (f : Vec3 α → Vec3 α) (i : GridPoint (ofFunction size f).size) :
    (ofFunction size f).node (isComplete_ofFunction size f) i =
      f (i.map fun k : Fin _ => Scalar.ofNat k / Scalar.ofNat (max size 2 - 1)) :=
  getElem_onGrid _ i _

end OfFunction

end CubeLut

end DisplayColor

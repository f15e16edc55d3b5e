import DisplayColor.Lut.Table
import DisplayColor.Vec3

/-! # Cube tables

A three-dimensional table gives a colour for each point of a grid over the unit cube, the first
channel varying fastest.  Inputs are moved into the cube; between grid points the table is read at
the nearest one, or interpolated linearly along each axis, or in one of six tetrahedra.

The number of entries is counted in 64-bit words, as it is where tables are stored.  A raw table
whose count only agrees up to `2 ^ 64` is therefore accepted, and reading it can fail with an index
outside the data; a complete table is always read inside it. -/

namespace DisplayColor

/-- How a cube table is read between its grid points. -/
inductive Interpolation
  | nearest
  | linear
  | tetrahedral
deriving DecidableEq, Repr, Inhabited

namespace Interpolation

def all : List Interpolation := [.nearest, .linear, .tetrahedral]

def name : Interpolation → String
  | nearest => "nearest"
  | linear => "linear"
  | tetrahedral => "tetrahedral"

def ofName? (text : String) : Option Interpolation := all.find? (·.name = text)

end Interpolation

/-- A table over the unit cube with `size` grid points along each axis. -/
structure CubeLut (α : Type) where
  data : Array (Vec3 α)
  size : Nat
  interpolation : Interpolation
  two_le_size : 2 ≤ size

namespace CubeLut

/-- There is an entry for every grid point. -/
def IsComplete {α : Type} (lut : CubeLut α) : Prop :=
  lut.data.size = lut.size * lut.size * lut.size

def address (size r g b : Nat) : Nat := (b * size + g) * size + r

section Grids

variable {β : Type} (n : Nat) (f : Nat → Nat → Nat → β)

/-- Appends what `f` gives along one row of a grid. -/
def addRow (g b : Nat) (entries : Array β) : Array β :=
  n.fold (fun r _ written => written.push (f r g b)) entries

/-- Appends the rows of one plane of a grid. -/
def addPlane (b : Nat) (entries : Array β) : Array β :=
  n.fold (fun g _ written => addRow n f g b written) entries

/-- Calls `f` at every point of a grid with `n` points along each axis, the first coordinate varying
fastest. -/
def onGrid : Array β :=
  n.fold (fun b _ written => addPlane n f b written) #[]

end Grids

variable {α : Type} [Scalar α]

/-- Samples `f` on a grid over the unit cube; sizes below two are raised to two. -/
def ofFunction (size : Nat) (f : Vec3 α → Vec3 α) : CubeLut α :=
  let count := max size 2
  let coordinate (i : Nat) : α := Scalar.ofNat i / Scalar.ofNat (count - 1)
  { data := onGrid count fun r g b => f ⟨coordinate r, coordinate g, coordinate b⟩
    size := count
    interpolation := .linear
    two_le_size := Nat.le_max_right size 2 }

def identity (size : Nat) : CubeLut α := ofFunction size id

/-- The table with the given entries, as many as the grid has points and all finite. -/
def ofData (data : Array (Vec3 α)) (size : Nat) : Except (LutError α) (CubeLut α) :=
  let expected := size * size * size % wordCount
  if h : 2 ≤ size then
    if data.size ≠ expected then .error (.entryCount expected size data.size)
    else
      match data.findIdx? fun e => !e.isFinite with
      | some index => .error (.notFinite index)
      | none => .ok ⟨data, size, .linear, h⟩
  else .error (.entryCount expected size data.size)

def withInterpolation {α : Type} (lut : CubeLut α) (interpolation : Interpolation) : CubeLut α :=
  { lut with interpolation := interpolation }

def entry {α : Type} (lut : CubeLut α) (r g b : Nat) : Except OutOfBounds (Vec3 α) :=
  let index := address lut.size r g b
  match lut.data[index]? with
  | some e => .ok e
  | none =>
    -- The address is a word, and one that is too large for it has come round to the front.
    match lut.data[index % wordCount]? with
    | some e => .ok e
    | none => .error ⟨lut.data.size, index % wordCount⟩

/-- The grid point below a position along one axis, at most the last but one. -/
def cellIndex (lut : CubeLut α) (position : α) : Nat :=
  min (Scalar.wholePart position) (lut.size - 2)

/-- The grid point of the cell that holds a position, and the way from it across the cell. -/
def cell (lut : CubeLut α) (position : Vec3 α) : Vec3 Nat × Vec3 α :=
  let corner := position.map lut.cellIndex
  (corner, position.zipWith (fun p i => p - Scalar.ofNat i) corner)

def trilinear (lut : CubeLut α) (position : Vec3 α) : Except OutOfBounds (Vec3 α) := do
  let (⟨r, g, b⟩, t) := lut.cell position
  let c000 ← lut.entry r g b
  let c100 ← lut.entry (r + 1) g b
  let c010 ← lut.entry r (g + 1) b
  let c110 ← lut.entry (r + 1) (g + 1) b
  let c001 ← lut.entry r g (b + 1)
  let c101 ← lut.entry (r + 1) g (b + 1)
  let c011 ← lut.entry r (g + 1) (b + 1)
  let c111 ← lut.entry (r + 1) (g + 1) (b + 1)
  -- A corner is named for the steps to it along red, green and blue.
  let mix (channel : Vec3 α → α) : α :=
    let c00 := Scalar.lerp (channel c000) (channel c100) t.x
    let c10 := Scalar.lerp (channel c010) (channel c110) t.x
    let c01 := Scalar.lerp (channel c001) (channel c101) t.x
    let c11 := Scalar.lerp (channel c011) (channel c111) t.x
    Scalar.lerp (Scalar.lerp c00 c10 t.y) (Scalar.lerp c01 c11 t.y) t.z
  pure ⟨mix Vec3.x, mix Vec3.y, mix Vec3.z⟩

/-- The way across a cell along its edges: the three fractions from the largest to the smallest, and
the corners reached after the first and the second edge, as steps from the lower corner. -/
structure EdgePath (α : Type) where
  weights : Vec3 α
  first : Vec3 Nat
  second : Vec3 Nat

/-- The path that takes the axes in the order of their fractions; of equal fractions the later axis
comes first. -/
def edgePath (t : Vec3 α) : EdgePath α :=
  if t.y < t.x then
    if t.z < t.y then ⟨⟨t.x, t.y, t.z⟩, ⟨1, 0, 0⟩, ⟨1, 1, 0⟩⟩
    else if t.z < t.x then ⟨⟨t.x, t.z, t.y⟩, ⟨1, 0, 0⟩, ⟨1, 0, 1⟩⟩
    else ⟨⟨t.z, t.x, t.y⟩, ⟨0, 0, 1⟩, ⟨1, 0, 1⟩⟩
  else if t.z < t.y then
    if t.z < t.x then ⟨⟨t.y, t.x, t.z⟩, ⟨0, 1, 0⟩, ⟨1, 1, 0⟩⟩
    else ⟨⟨t.y, t.z, t.x⟩, ⟨0, 1, 0⟩, ⟨0, 1, 1⟩⟩
  else ⟨⟨t.z, t.y, t.x⟩, ⟨0, 0, 1⟩, ⟨0, 1, 1⟩⟩

/-- Walks from the lower corner of the cell to the upper one along `edgePath`. -/
def tetrahedral (lut : CubeLut α) (position : Vec3 α) : Except OutOfBounds (Vec3 α) := do
  let (⟨r, g, b⟩, t) := lut.cell position
  let c000 ← lut.entry r g b
  let c111 ← lut.entry (r + 1) (g + 1) (b + 1)
  let path := edgePath t
  let c1 ← lut.entry (r + path.first.x) (g + path.first.y) (b + path.first.z)
  let c2 ← lut.entry (r + path.second.x) (g + path.second.y) (b + path.second.z)
  let walk (channel : Vec3 α → α) : α :=
    channel c000 + path.weights.x * (channel c1 - channel c000)
      + path.weights.y * (channel c2 - channel c1) + path.weights.z * (channel c111 - channel c2)
  pure ⟨walk Vec3.x, walk Vec3.y, walk Vec3.z⟩

def apply (lut : CubeLut α) (v : Vec3 α) : Except OutOfBounds (Vec3 α) :=
  let position := v.map fun c => Scalar.saturate c * Scalar.ofNat (lut.size - 1)
  match lut.interpolation with
  | .nearest =>
    let point := position.map Scalar.nearestNat
    lut.entry point.x point.y point.z
  | .linear => lut.trilinear position
  | .tetrahedral => lut.tetrahedral position

end CubeLut

end DisplayColor

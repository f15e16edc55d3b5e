import DisplayColor.Lut.Table
import DisplayColor.Vec3

/-! # Curve tables

A one-dimensional table bends each channel by a curve of its own.  Its entries are evenly spaced
over an interval of inputs, `[0, 1]` unless another is set; between two entries the curve is
straight, and outside the interval it keeps the value of the end.  Every table has at least two
entries. -/

namespace DisplayColor

/-- A table of one curve for each channel. -/
structure CurveLut (α : Type) where
  entries : Array (Vec3 α)
  domainMin : α
  domainMax : α
  two_le_size : 2 ≤ entries.size

namespace CurveLut

variable {α : Type} [Scalar α]

def size {α : Type} (lut : CurveLut α) : Nat := lut.entries.size

/-- Samples `f` at `size` points evenly spaced over `[0, 1]`; sizes below two are raised to two. -/
def ofFunction (size : Nat) (f : α → Vec3 α) : CurveLut α :=
  let count := max size 2
  { entries := Array.ofFn fun i : Fin count => f (Scalar.ofNat i / Scalar.ofNat (count - 1))
    domainMin := 0
    domainMax := 1
    two_le_size := by simp only [count, Array.size_ofFn]; omega }

def identity (size : Nat) : CurveLut α := ofFunction size Vec3.splat

def power (size : Nat) (exponent : α) : CurveLut α :=
  ofFunction size fun t => Vec3.splat (Scalar.pow t exponent)

/-- The table with the given entries, of which there are at least two and all are finite. -/
def ofEntries (entries : Array (Vec3 α)) : Except (LutError α) (CurveLut α) :=
  if h : 2 ≤ entries.size then
    match entries.findIdx? fun e => !e.isFinite with
    | some index => .error (.notFinite index)
    | none => .ok ⟨entries, 0, 1, h⟩
  else .error (.tooFewEntries entries.size)

def ofMono (curve : Array α) : Except (LutError α) (CurveLut α) :=
  ofEntries (curve.map Vec3.splat)

def ofChannels (red green blue : Array α) : Except (LutError α) (CurveLut α) :=
  if red.size ≠ green.size ∨ red.size ≠ blue.size then
    .error (.channelLengths red.size green.size blue.size)
  else
    ofEntries ((red.zip (green.zip blue)).map fun (r, g, b) => ⟨r, g, b⟩)

def withDomain (lut : CurveLut α) (min max : α) : Except (LutError α) (CurveLut α) :=
  if Scalar.isFinite min ∧ Scalar.isFinite max ∧ min < max then
    .ok { lut with domainMin := min, domainMax := max }
  else .error (.domain min max)

def entry {α : Type} (lut : CurveLut α) (index : Nat) : Except OutOfBounds (Vec3 α) :=
  match lut.entries[index]? with
  | some e => .ok e
  | none => .error ⟨lut.entries.size, index⟩

def position (lut : CurveLut α) (value : α) : α :=
  Scalar.saturate ((value - lut.domainMin) / (lut.domainMax - lut.domainMin))
    * Scalar.ofNat (lut.size - 1)

/-- One channel of a lookup: the mixture of the two entries next to the position. -/
def sample (lut : CurveLut α) (channel : Vec3 α → α) (value : α) : Except OutOfBounds α := do
  let position := lut.position value
  let below := min (Scalar.wholePart position) (lut.size - 1)
  let above := min (below + 1) (lut.size - 1)
  let lower ← lut.entry below
  let upper ← lut.entry above
  pure (Scalar.lerp (channel lower) (channel upper) (position - Scalar.ofNat below))

def apply (lut : CurveLut α) (v : Vec3 α) : Except OutOfBounds (Vec3 α) := do
  let x ← lut.sample Vec3.x v.x
  let y ← lut.sample Vec3.y v.y
  let z ← lut.sample Vec3.z v.z
  pure ⟨x, y, z⟩

end CurveLut

end DisplayColor

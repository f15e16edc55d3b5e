import DisplayColor.Lut.Cube
import DisplayColor.Lut.Curves
import DisplayColor.Lut.Table
import DisplayColor.Mat4
import DisplayColor.Pipeline.ToneCurve
import DisplayColor.Numeral.Layout
import DisplayColor.Scalar.Binary
import DisplayColor.Transfer.Function

/-! # Operations

The closed set of operations that a pipeline is made of, and a step: an operation together with the
ranges of values expected before and after it.  Applying an operation can fail in one way only, when
a table is read outside its data. -/

namespace DisplayColor

/-! ## Value ranges

The range of values expected at a point of a pipeline.  It is bookkeeping: nothing is moved into it.
It says whether tone mapping is needed and how large a tone curve has to be.  A matrix that flips
signs can make the upper end the smaller one. -/

/-- The ends of an expected range. -/
structure ValueRange (α : Type) where
  min : α
  max : α
deriving BEq, Repr, Inhabited

namespace ValueRange

def map {α β : Type} (f : α → β) (range : ValueRange α) : ValueRange β := ⟨f range.min, f range.max⟩

variable {α : Type} [Scalar α]

def unit : ValueRange α := ⟨0, 1⟩

instance : HMul (ValueRange α) α (ValueRange α) := ⟨fun range factor => range.map (· * factor)⟩

def span (range : ValueRange α) : α := range.max - range.min

def text (range : ValueRange Single) : String :=
  "[" ++ plainText range.min ++ ", " ++ plainText range.max ++ "]"

end ValueRange

/-! ## Operations and steps -/

/-- What one step of a pipeline does to a colour. -/
inductive Operation (α : Type)
  | matrix (m : Mat4 α)
  | multiplier (gains : Vec3 α)
  /-- Signal to nits. -/
  | decode (f : TransferFunction α)
  /-- Nits to signal. -/
  | encode (f : TransferFunction α)
  | toneMap (curve : ToneCurve α)
  | curves (lut : Shared (CurveLut α))
  | cube (lut : Shared (CubeLut α))

namespace Operation

def name {α : Type} : Operation α → String
  | matrix _ => "matrix"
  | multiplier _ => "multiplier"
  | decode _ => "transfer"
  | encode _ => "inverse-transfer"
  | toneMap _ => "tonemapper"
  | curves _ => "lut1d"
  | cube _ => "lut3d"

/-- The same kind of operation on equal data; tables are the same when they are shared. -/
instance {α : Type} [Scalar α] : BEq (Operation α) where
  beq
    | matrix a, matrix b => a == b
    | multiplier a, multiplier b => a == b
    | decode a, decode b => a == b
    | encode a, encode b => a == b
    | toneMap a, toneMap b => a == b
    | curves a, curves b => a.same b
    | cube a, cube b => a.same b
    | _, _ => false

section Apply

variable {α ω : Type} [Scalar α] [Scalar ω] [Precision α ω]

def apply : Operation α → Vec3 α → Except OutOfBounds (Vec3 α)
  | matrix m, v => pure (m.apply v)
  | multiplier gains, v => pure (v * gains)
  | decode f, v => pure (v.map f.decode)
  | encode f, v => pure (v.map f.encode)
  | toneMap curve, v => pure { v with x := curve.map v.x }
  | curves lut, v => lut.table.apply v
  | cube lut, v => lut.table.apply v

end Apply

end Operation

structure Step (α : Type) where
  input : ValueRange α
  operation : Operation α
  output : ValueRange α

instance {α : Type} [Scalar α] : BEq (Step α) where
  beq a b := a.input == b.input && a.operation == b.operation && a.output == b.output

end DisplayColor

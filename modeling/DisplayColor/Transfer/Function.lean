import DisplayColor.Transfer.Curve
import DisplayColor.Vec3

/-! # Transfer functions

A transfer function is a curve bound to a luminance range: signal `0` stands for `min` nits and
signal `1` for `max` nits.  With its default range the quantizer is the absolute curve of its
standard; other ranges arise when a uniform change of brightness is folded into a function.

A range that is infinite, undefined or not increasing is replaced by the default of the curve, so
that encoding never divides by zero. -/

namespace DisplayColor

/-- A curve with its luminance range, in nits. -/
structure TransferFunction (α : Type) where
  curve : Curve
  min : α
  max : α
deriving Repr, Inhabited

namespace TransferFunction

variable {α : Type} [Scalar α]

def ofCurve (curve : Curve) : TransferFunction α := ⟨curve, curve.defaultMin, curve.defaultMax⟩

/-- The curve with the given range, or with its default if that range is of no use. -/
def withRange (curve : Curve) (min max : α) : TransferFunction α :=
  if Scalar.isFinite min ∧ Scalar.isFinite max ∧ min < max then ⟨curve, min, max⟩
  else ofCurve curve

def ofName? (name : String) : Except NameError (TransferFunction α) :=
  (Curve.ofName? name).map ofCurve

def defaultReference (f : TransferFunction α) : α := f.curve.defaultReference

/-- Multiplies both ends of the range, which is the same as scaling what the function decodes.  A
factor that is not finite and positive changes nothing. -/
def scaled (f : TransferFunction α) (factor : α) : TransferFunction α :=
  if !Scalar.isFinite factor ∨ factor ≤ 0 then f
  else withRange f.curve (f.min * factor) (f.max * factor)

/-- Signal to nits. -/
def decode (f : TransferFunction α) (signal : α) : α :=
  f.curve.decode signal * (f.max - f.min) + f.min

/-- Nits to signal. -/
def encode (f : TransferFunction α) (nits : α) : α :=
  f.curve.encode ((nits - f.min) / (f.max - f.min))

/-- How far apart, relative to the larger, the ends of equal ranges may lie. -/
def rangeTolerance : α := 1e-4

/-- Transfer functions are equal when their curves are and their ranges agree up to rounding. -/
instance : BEq (TransferFunction α) where
  beq f g :=
    f.curve = g.curve && Scalar.nearRelative f.min g.min rangeTolerance
      && Scalar.nearRelative f.max g.max rangeTolerance

end TransferFunction

end DisplayColor

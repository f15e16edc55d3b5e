import DisplayColor.Numeral.Layout
import DisplayColor.Transfer.Formulas

/-! # Tone curves

A tone curve maps a bright source into a darker target.  It acts on the quantized intensity of a
colour.  Up to the reference luminance it compresses linearly and gives up at most `maxHeadroom` of
brightness for highlights; above, the rest of the input range rolls off logarithmically into the
rest of the output range. -/

namespace DisplayColor

/-- A tone curve: the four luminances it is made from and the constants derived from them. -/
structure ToneCurve (α : Type) where
  /-- The luminance of diffuse white, in nits. -/
  reference : α
  /-- The brightest input, in nits. -/
  maxInput : α
  /-- The brightest output, in nits. -/
  maxOutput : α
  /-- By how much the reference may be dimmed at most. -/
  maxHeadroom : α
  /-- The brightest input over the reference. -/
  inputRange : α
  /-- The brightest output over the reference. -/
  outputRange : α
  /-- By how much the reference is dimmed. -/
  addedRange : α
  /-- The luminance of diffuse white after mapping, in nits. -/
  outputReference : α
deriving BEq, Repr, Inhabited

namespace ToneCurve

variable {α : Type} [Scalar α]

/-- Takes the place of a reference luminance that is not finite and positive. -/
def fallbackReference : α := 203

/-- `value` if it is finite and positive, else `fallback`. -/
def positiveOr (value fallback : α) : α :=
  if Scalar.isFinite value ∧ 0 < value then value else fallback

/-- The tone curve for the given luminances and headroom.  One that is not finite and positive is
replaced: the reference by `fallbackReference`, the bounds by the reference, the headroom by one. -/
def ofLuminances (reference maxInput maxOutput maxHeadroom : α) : ToneCurve α :=
  let reference := positiveOr reference fallbackReference
  let maxInput := positiveOr maxInput reference
  let maxOutput := positiveOr maxOutput reference
  let maxHeadroom := Scalar.max (positiveOr maxHeadroom 1) 1
  let inputRange := maxInput / reference
  let outputRange := maxOutput / reference
  let addedRange := Scalar.clamp (inputRange / outputRange) 1 maxHeadroom
  { reference, maxInput, maxOutput, maxHeadroom, inputRange, outputRange, addedRange
    outputReference := reference / addedRange }

def mapNits (curve : ToneCurve α) (nits : α) : α :=
  let low := Scalar.min (nits / curve.addedRange) curve.outputReference
  let relative : α :=
    if 1 < curve.inputRange then
      Scalar.clamp ((nits / curve.reference - 1) / (curve.inputRange - 1)) 0 1
    else 0
  let high := Scalar.log (relative * (Scalar.euler - 1) + 1)
    * (curve.maxOutput - curve.outputReference)
  low + high

def map (curve : ToneCurve α) (intensity : α) : α :=
  Pq.ofNits (curve.mapNits (Pq.toNits intensity))

def text (curve : ToneCurve Single) : String :=
  "tonemap ref " ++ plainText curve.reference ++ " nits, " ++ plainText curve.maxInput ++ " -> "
    ++ plainText curve.maxOutput ++ " nits"

end ToneCurve

end DisplayColor

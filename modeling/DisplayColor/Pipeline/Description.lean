import DisplayColor.Pipeline.Listing

/-! # Colour descriptions

A description says what is needed to interpret a signal: its colorimetry, its transfer function and
the luminances of the content or display, in nits.  Luminances that make no sense are repaired, so a
description always has a positive reference with the black level below it. -/

namespace DisplayColor

/-- The colorimetry, transfer function and luminances of a signal. -/
structure Description (α ω : Type) where
  colorimetry : Colorimetry α ω
  transfer : TransferFunction α
  reference : α
  min : α
  /-- The largest average luminance of a frame, if known. -/
  maxAverage : Option α
  /-- The luminance of the brightest highlights, if known. -/
  peak : Option α
deriving Inhabited

namespace Description

variable {α ω : Type} [Scalar α] [Scalar ω]

/-- Descriptions are equal when all parts are; transfer functions are compared up to rounding. -/
instance : BEq (Description α ω) where
  beq a b :=
    a.colorimetry == b.colorimetry && a.transfer == b.transfer && a.reference == b.reference
      && a.min == b.min && a.maxAverage == b.maxAverage && a.peak == b.peak

def isLuminance (x : α) : Bool := Scalar.isFinite x && decide (0 < x)

/-- The description with repaired luminances: a reference that is not finite and positive becomes
the default of the curve, a black level that is not finite or outside `[0, reference)` becomes zero,
and peaks that are not finite and positive are dropped. -/
def repaired (colorimetry : Colorimetry α ω) (transfer : TransferFunction α) (reference min : α)
    (maxAverage peak : Option α) : Description α ω :=
  let reference := if isLuminance reference then reference else transfer.defaultReference
  let min := if Scalar.isFinite min ∧ 0 ≤ min ∧ min < reference then min else 0
  ⟨colorimetry, transfer, reference, min, maxAverage.filter isLuminance, peak.filter isLuminance⟩

def ofTransfer (colorimetry : Colorimetry α ω) (transfer : TransferFunction α) : Description α ω :=
  repaired colorimetry transfer transfer.defaultReference transfer.min (some transfer.max)
    (some transfer.max)

def maxLuminance (d : Description α ω) : α := d.peak.getD d.reference

def withTransfer (d : Description α ω) (transfer : TransferFunction α) : Description α ω :=
  { d with transfer }

def withReference (d : Description α ω) (reference : α) : Description α ω :=
  repaired d.colorimetry d.transfer reference d.min d.maxAverage d.peak

/-- The same description with its reference luminance scaled; the peak of the display stays where it
is. -/
def dimmed (d : Description α ω) (factor : α) : Description α ω :=
  d.withReference (d.reference * factor)

variable [Precision α ω]

/-- The usual desktop: BT.709 primaries and the power law with white at 80 nits. -/
def srgb : Description α ω := ofTransfer (.ofNamed .bt709) (.ofCurve .gamma22)

/-- High dynamic range: BT.2020 primaries and the quantizer, with white at 203 nits. -/
def bt2100Pq : Description α ω := ofTransfer (.ofNamed .bt2020) (.ofCurve .pq)

/-- The conversion of linear light between two descriptions, in the wide type.  Where black is
compensated, `[min, reference]` is mapped onto the same interval of the target; else light is scaled
by the ratio of the references. -/
def wideConversion (source target : Description α ω) (intent : Intent) : Mat4 ω :=
  let gamut := Mat4.ofLinear (source.colorimetry.wideConversion target.colorimetry intent)
  let min : ω := widen source.min
  let reference : ω := widen source.reference
  let targetMin : ω := widen target.min
  let targetReference : ω := widen target.reference
  if intent.compensatesBlack then
    -- Black has to be at zero before the gamuts are converted, since they are converted linearly.
    let normalize :=
      (Mat4.uniform (1 / (reference - min))).product (Mat4.translation (Vec3.splat (-min)))
    let restore :=
      (Mat4.translation (Vec3.splat targetMin)).product (Mat4.uniform (targetReference - targetMin))
    (restore.product gamut).product normalize
  else gamut.product (Mat4.uniform (targetReference / reference))

/-- The conversion of linear light between two descriptions, rounded once. -/
def lightConversion (source target : Description α ω) (intent : Intent) : Mat4 α :=
  (wideConversion source target intent).narrow

end Description

def Colorimetry.text (c : Colorimetry Single Double) : String :=
  match c.name with
  | some named => named.name
  | none =>
    let white := Chromaticity.ofXyz c.white
    "custom (white " ++ writeFixed 4 white.x ++ ", " ++ writeFixed 4 white.y ++ ")"

/-- The parts of a description; the frame average is not shown. -/
def Description.text (d : Description Single Double) : String :=
  d.colorimetry.text ++ " / " ++ d.transfer.text ++ ", ref " ++ plainText d.reference
    ++ " nits, min " ++ plainText d.min ++ " nits"
    ++ (match d.peak with
      | some peak => ", max " ++ plainText peak ++ " nits"
      | none => "")

end DisplayColor

import DisplayColor.Adaptation
import DisplayColor.Gamut.Intent
import DisplayColor.Gamut.Named
import DisplayColor.Mat4

/-! # Colorimetries

A colorimetry is given by the tristimulus values of three primaries and a white, so that gamuts with
a primary at `y = 0` can be represented.  Its matrix from RGB to XYZ has the primaries as columns,
each scaled so that equal amounts of all three give the white.  The matrices are derived in the wide
type; a conversion and its reverse then cancel up to one rounding.

A gamut without area has no inverse.  Such a colorimetry is marked as not valid and uses the
identity in place of both matrices. -/

namespace DisplayColor

/-! ## Tristimulus values and chromaticities

A stimulus is given by its CIE 1931 tristimulus values X, Y, Z or by its chromaticity x, y with the
luminance Y.  Both conversions have a result where the other form has none: black has chromaticity
`(0, 0)` and luminance `1`, and a chromaticity with `y = 0` stands for black. -/

structure Chromaticity (α : Type) where
  x : α
  y : α
  luminance : α
deriving BEq, Repr, Inhabited

section Stimuli

variable {α : Type} [Scalar α]

/-- The tristimulus values; `y = 0` gives black. -/
def Chromaticity.toXyz (c : Chromaticity α) : Vec3 α :=
  if c.y == 0 then Vec3.splat 0
  else
    let scale := c.luminance / c.y
    ⟨c.x * scale, c.luminance, (1 - c.x - c.y) * scale⟩

def Chromaticity.ofXy (x y : α) : Chromaticity α := ⟨x, y, 1⟩

/-- The chromaticity of tristimulus values whose sum is not within the tolerance of zero. -/
def Chromaticity.ofXyz (v : Vec3 α) : Chromaticity α :=
  let sum := v.sum
  if Scalar.nearZero sum then ⟨0, 0, 1⟩ else ⟨v.x / sum, v.y / sum, v.y⟩

/-- Tristimulus values scaled to `Y = 1`, or unchanged when `Y` is within the tolerance of zero. -/
def normalizedXyz (v : Vec3 α) : Vec3 α :=
  if Scalar.nearZero v.y then v else v / v.y

end Stimuli

/-! ## Primaries and white -/

/-- Three primaries and a white, with the matrices derived from them. -/
structure Colorimetry (α ω : Type) where
  red : Vec3 α
  green : Vec3 α
  blue : Vec3 α
  /-- The white, scaled to `Y = 1`. -/
  white : Vec3 α
  name : Option NamedColorimetry
  isValid : Bool
  toXyz : Mat3 ω
  fromXyz : Mat3 ω
deriving BEq, Repr, Inhabited

namespace Colorimetry

section Constants

variable {α : Type} [Scalar α]

/-- Tristimulus values to the cone responses of BT.2100. -/
def xyzToLms : Mat3 α :=
  ⟨⟨0.3592, 0.6976, -0.0358⟩, ⟨-0.1922, 1.1004, 0.0755⟩, ⟨0.0070, 0.0749, 0.8434⟩⟩

/-- The inverse of `xyzToLms`, rounded. -/
def lmsToXyz : Mat3 α :=
  ⟨⟨2.0701801, -1.3264569, 0.2066160⟩, ⟨0.36498825, 0.6804674, -0.045421753⟩,
    ⟨-0.049595542, -0.04942116, 1.187996⟩⟩

def lmsToIctcp : Mat3 α :=
  ⟨⟨2048 / 4096, 2048 / 4096, 0⟩, ⟨6610 / 4096, -13613 / 4096, 7003 / 4096⟩,
    ⟨17933 / 4096, -17390 / 4096, -543 / 4096⟩⟩

/-- The inverse of `lmsToIctcp`, rounded. -/
def ictcpToLms : Mat3 α :=
  ⟨⟨1, 0.008609037, 0.111029625⟩, ⟨1, -0.008609037, -0.111029625⟩,
    ⟨1, 0.56003134, -0.32062717⟩⟩

end Constants

variable {α ω : Type} [Scalar α] [Scalar ω] [Precision α ω]

/-- The matrices to and from tristimulus values for primaries as columns and a white, unless the
gamut has no area. -/
def matrices? (primaries : Mat3 ω) (white : Vec3 ω) : Option (Mat3 ω × Mat3 ω) := do
  let inverse ← primaries.wideInverse?
  let amounts := inverse.apply white
  let toXyz := Mat3.ofColumns (primaries.column0 * amounts.x) (primaries.column1 * amounts.y)
    (primaries.column2 * amounts.z)
  let fromXyz ← toXyz.wideInverse?
  pure (toXyz, fromXyz)

/-- The colorimetry of the given primaries, of which only the direction matters, and white. -/
def ofXyz (red green blue white : Vec3 α) : Colorimetry α ω :=
  let white := normalizedXyz white
  let primaries := Mat3.ofColumns red.widen green.widen blue.widen
  match matrices? primaries white.widen with
  | some (toXyz, fromXyz) => ⟨red, green, blue, white, none, true, toXyz, fromXyz⟩
  | none => ⟨red, green, blue, white, none, false, Mat3.identity, Mat3.identity⟩

def ofPrimaries (p : Primaries α) : Colorimetry α ω :=
  let xyz (xy : α × α) : Vec3 α := (Chromaticity.ofXy xy.1 xy.2).toXyz
  ofXyz (xyz p.red) (xyz p.green) (xyz p.blue) (xyz p.white)

def ofNamed (named : NamedColorimetry) : Colorimetry α ω :=
  let unnamed : Colorimetry α ω :=
    match named.primaries? (α := α) with
    | some primaries => ofPrimaries primaries
    | none => ofXyz ⟨1, 0, 0⟩ ⟨0, 1, 0⟩ ⟨0, 0, 1⟩ ⟨1, 1, 1⟩
  { unnamed with name := some named }

/-- RGB to cone responses, rounded once. -/
def toLms (c : Colorimetry α ω) : Mat3 α := ((xyzToLms (α := α)).widen * c.toXyz).narrow

/-- Cone responses to RGB, rounded once. -/
def fromLms (c : Colorimetry α ω) : Mat3 α :=
  let lmsToXyz := ((xyzToLms (α := α)).widen.wideInverse?).getD (lmsToXyz (α := α)).widen
  (c.fromXyz * lmsToXyz).narrow

/-- Linear light in `source` to linear light in `target`: white is adapted unless the intent keeps
chromaticities. -/
def wideConversion (source target : Colorimetry α ω) (intent : Intent) : Mat3 ω :=
  let adaptation :=
    if intent.adaptsWhite then
      Adaptation.between (Adaptation.bradford (α := α)).widen source.white.widen target.white.widen
    else Mat3.identity
  target.fromXyz * adaptation * source.toXyz

/-- `wideConversion` as an affine matrix, rounded once. -/
def conversion (source target : Colorimetry α ω) (intent : Intent) : Mat4 α :=
  Mat4.ofLinear (wideConversion source target intent).narrow

def adaptedTo (c : Colorimetry α ω) (white : Vec3 α) : Colorimetry α ω :=
  let white := normalizedXyz white
  let adaptation := Adaptation.rounded (ω := ω) Adaptation.bradford c.white white
  ofXyz (adaptation.apply c.red) (adaptation.apply c.green) (adaptation.apply c.blue) white

end Colorimetry

end DisplayColor

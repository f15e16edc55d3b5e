import DisplayColor.Numeral.Fixed
import DisplayColor.Pipeline.Fusion

/-! # Listings

Two ways to show what a pipeline does: a line of text for each step, with rounded numbers, and the
full structure of each operation. -/

namespace DisplayColor

def rightAligned (width n : Nat) : String :=
  let digits := toString n
  "".pushn ' ' (width - digits.length) ++ digits

namespace TransferFunction

def text (f : TransferFunction Single) : String :=
  f.curve.name ++ " [" ++ plainText f.min ++ ", " ++ plainText f.max ++ "] nits"

end TransferFunction

namespace Operation

/-- One line about an operation; the bottom row of a matrix is left out. -/
def text : Operation Single → String
  | matrix m =>
    let row (r : Vec4 Single) : String :=
      " [" ++ writeFixed 6 r.x ++ " " ++ writeFixed 6 r.y ++ " " ++ writeFixed 6 r.z ++ " | "
        ++ writeFixed 6 r.w ++ "]"
    "matrix" ++ row m.r0 ++ row m.r1 ++ row m.r2
  | multiplier gains =>
    "multiplier (" ++ writeFixed 6 gains.x ++ ", " ++ writeFixed 6 gains.y ++ ", "
      ++ writeFixed 6 gains.z ++ ")"
  | decode f => "transfer " ++ f.text
  | encode f => "inverse-transfer " ++ f.text
  | toneMap curve => curve.text
  | curves lut => s!"lut1d {lut.table.size} entries"
  | cube lut => s!"lut3d {lut.table.size}^3"

def exactText (x : Single) : String := writeSingle .structural x

def record (name : String) (fields : List (String × String)) : String :=
  name ++ " \x7b " ++ ", ".intercalate (fields.map fun (field, value) => field ++ ": " ++ value)
    ++ " \x7d"

def curveConstructor : Curve → String
  | .linear => "Linear"
  | .srgb => "Srgb"
  | .gamma22 => "Gamma22"
  | .pq => "PerceptualQuantizer"
  | .hlg => "Hlg"

def transferStructure (f : TransferFunction Single) : String :=
  record "TransferFunction"
    [("ty", curveConstructor f.curve), ("min_luminance", exactText f.min),
      ("max_luminance", exactText f.max)]

/-- The full structure of an operation; tables are shown by their size only. -/
def structureText : Operation Single → String
  | matrix m =>
    let row (r : Vec4 Single) : String := "[" ++ ", ".intercalate (r.toList.map exactText) ++ "]"
    "Matrix([" ++ ", ".intercalate (m.rows.map row) ++ "])"
  | multiplier gains =>
    let fields := [("x", exactText gains.x), ("y", exactText gains.y), ("z", exactText gains.z)]
    "Multiplier(" ++ record "Vec3" fields ++ ")"
  | decode f => "TransferFunction(" ++ transferStructure f ++ ")"
  | encode f => "InverseTransferFunction(" ++ transferStructure f ++ ")"
  | toneMap curve =>
    "Tonemapper(" ++ record "ColorTonemapper"
      [("reference_luminance", exactText curve.reference),
        ("max_input_luminance", exactText curve.maxInput),
        ("max_output_luminance", exactText curve.maxOutput),
        ("max_added_headroom", exactText curve.maxHeadroom),
        ("input_range", exactText curve.inputRange), ("output_range", exactText curve.outputRange),
        ("added_range", exactText curve.addedRange),
        ("output_reference_luminance", exactText curve.outputReference)] ++ ")"
  | curves lut => s!"Lut1D({lut.table.size} entries)"
  | cube lut => s!"Lut3D({lut.table.size}^3)"

end Operation

namespace Step

def text (step : Step Single) : String :=
  step.operation.text ++ " " ++ step.input.text ++ " -> " ++ step.output.text

end Step

namespace Pipeline

def text (p : Pipeline Single) : String :=
  if p.isIdentity then "identity " ++ p.input.text
  else
    "\n".intercalate (p.steps.mapIdx fun i step => rightAligned 2 i ++ ": " ++ step.text)

end Pipeline

end DisplayColor

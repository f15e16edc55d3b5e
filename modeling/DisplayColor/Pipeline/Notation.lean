import DisplayColor.Pipeline.Description

/-! # Written descriptions

A description is written as `colorimetry:transfer` or as the name of a preset.  Luminances can be
set beside it.  Curves of relative light follow another reference: signal `1` stays at the same
multiple of white.  The quantizer and hybrid log-gamma keep their range. -/

namespace DisplayColor

/-- Luminances, in nits, that take the place of those a description comes with. -/
structure LuminanceOverrides (α : Type) where
  reference : Option α := none
  min : Option α := none
  max : Option α := none
deriving Inhabited

inductive DescriptionError
  /-- Neither a preset nor two parts with a colon between them. -/
  | form (text : String)
  | part (text : String) (cause : NameError)
deriving BEq, Repr

/-- The report to the reader, from the outermost cause to the innermost. -/
def DescriptionError.chain : DescriptionError → List String
  | .form text =>
    ["Invalid description '" ++ text
      ++ "': expected <colorimetry>:<transfer> or a preset (srgb, hdr10)"]
  | .part text cause => ["Invalid description '" ++ text ++ "'", cause.message]

namespace Description

/-- The colorimetry and the curve that a written description names. -/
structure Names where
  colorimetry : NamedColorimetry
  curve : Curve
deriving DecidableEq, Repr

def presetNames? : String → Option Names
  | "srgb" => some ⟨.bt709, .gamma22⟩
  | "hdr10" => some ⟨.bt2020, .pq⟩
  | "bt2100-pq" => some ⟨.bt2020, .pq⟩
  | "bt2100" => some ⟨.bt2020, .pq⟩
  | _ => none

def splitAtColon? (text : String) : Option (String × String) :=
  match text.toList.dropWhile (· ≠ ':') with
  | [] => none
  | _ :: rest => some (String.ofList (text.toList.takeWhile (· ≠ ':')), String.ofList rest)

/-- The names in a written description; of two unknown ones the colorimetry is reported. -/
def readNames (text : String) : Except DescriptionError Names :=
  match presetNames? text.toLower with
  | some names => .ok names
  | none =>
    match splitAtColon? text with
    | none => .error (.form text)
    | some (colorimetry, transfer) => do
      let colorimetry ← (NamedColorimetry.ofName? colorimetry).mapError (.part text)
      let curve ← (Curve.ofName? transfer).mapError (.part text)
      pure ⟨colorimetry, curve⟩

variable {α ω : Type} [Scalar α] [Scalar ω] [Precision α ω]

def ofNames (names : Names) : Description α ω :=
  ofTransfer (.ofNamed names.colorimetry) (.ofCurve names.curve)

/-- By how much the range of a description is scaled to follow another reference. -/
def referenceScale (base : Description α ω) (reference : Option α) : α :=
  match base.transfer.curve, reference with
  | .pq, _ => 1
  | .hlg, _ => 1
  | _, some reference => if isLuminance reference then reference / base.reference else 1
  | _, none => 1

/-- The description with some luminances set; the frame average is kept at or below the peak. -/
def override (base : Description α ω) (overrides : LuminanceOverrides α) : Description α ω :=
  let scale := base.referenceScale overrides.reference
  let peak := overrides.max <|> base.peak.map (· * scale)
  let maxAverage := base.maxAverage.map fun average =>
    let average := average * scale
    match peak with
    | some peak => Scalar.min average peak
    | none => average
  repaired base.colorimetry (base.transfer.scaled scale)
    (overrides.reference.getD base.reference) (overrides.min.getD (base.min * scale)) maxAverage
    peak

def read (text : String) (overrides : LuminanceOverrides α) :
    Except DescriptionError (Description α ω) := do
  let names ← readNames text
  pure ((ofNames names).override overrides)

end Description

end DisplayColor

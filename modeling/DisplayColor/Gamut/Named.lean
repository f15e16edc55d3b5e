import DisplayColor.Transfer.Curve
import DisplayColor.Scalar

/-! # Well-known colorimetries

The colorimetries that have a name, with the chromaticities of their primaries and white. -/

namespace DisplayColor

inductive NamedColorimetry
  | bt709
  /-- BT.470 System M. -/
  | palM
  /-- BT.601 with 625 lines. -/
  | pal
  /-- SMPTE 170M. -/
  | ntsc
  /-- Film under illuminant C. -/
  | film
  | bt2020
  | cieXyz
  | dciP3
  /-- P3 primaries with daylight white. -/
  | displayP3
  | adobeRgb
deriving DecidableEq, Repr, Inhabited

namespace NamedColorimetry

def all : List NamedColorimetry :=
  [bt709, palM, pal, ntsc, film, bt2020, cieXyz, dciP3, displayP3, adobeRgb]

def name : NamedColorimetry → String
  | bt709 => "bt709"
  | palM => "pal-m"
  | pal => "pal"
  | ntsc => "ntsc"
  | film => "film"
  | bt2020 => "bt2020"
  | cieXyz => "ciexyz"
  | dciP3 => "dci-p3"
  | displayP3 => "display-p3"
  | adobeRgb => "adobe-rgb"

/-- The names under which a colorimetry is known, in lower case and with hyphens. -/
def ofKey? : String → Option NamedColorimetry
  | "bt709" => some bt709
  | "rec709" => some bt709
  | "srgb" => some bt709
  | "pal-m" => some palM
  | "palm" => some palM
  | "pal" => some pal
  | "ntsc" => some ntsc
  | "film" => some film
  | "generic-film" => some film
  | "bt2020" => some bt2020
  | "rec2020" => some bt2020
  | "bt2100" => some bt2020
  | "ciexyz" => some cieXyz
  | "xyz" => some cieXyz
  | "dci-p3" => some dciP3
  | "dcip3" => some dciP3
  | "display-p3" => some displayP3
  | "displayp3" => some displayP3
  | "p3" => some displayP3
  | "adobe-rgb" => some adobeRgb
  | "adobergb" => some adobeRgb
  | _ => none

/-- Reads the name of a colorimetry; the case of ASCII letters does not matter, and an underscore or
a full stop stands for a hyphen. -/
def ofName? (name : String) : Except NameError NamedColorimetry :=
  match ofKey? (hyphenate ['_', '.'] name.toLower) with
  | some named => .ok named
  | none => .error (.colorimetry name)

end NamedColorimetry

/-- The chromaticities, as pairs x, y, of three primaries and a white. -/
structure Primaries (α : Type) where
  red : α × α
  green : α × α
  blue : α × α
  white : α × α

namespace NamedColorimetry

variable {α : Type} [Scalar α]

def daylight : α × α := (0.3127, 0.3290)

/-- The CIE illuminant C. -/
def illuminantC : α × α := (0.310, 0.316)

def cinemaWhite : α × α := (0.314, 0.351)

/-- The chromaticities of a named colorimetry.  Those of CIE XYZ cannot be given this way, since two
of its primaries have `y = 0`. -/
def primaries? : NamedColorimetry → Option (Primaries α)
  | bt709 => some ⟨(0.64, 0.33), (0.30, 0.60), (0.15, 0.06), daylight⟩
  | palM => some ⟨(0.67, 0.33), (0.21, 0.71), (0.14, 0.08), illuminantC⟩
  | pal => some ⟨(0.64, 0.33), (0.29, 0.60), (0.15, 0.06), daylight⟩
  | ntsc => some ⟨(0.630, 0.340), (0.310, 0.595), (0.155, 0.070), daylight⟩
  | film => some ⟨(0.681, 0.319), (0.243, 0.692), (0.145, 0.049), illuminantC⟩
  | bt2020 => some ⟨(0.708, 0.292), (0.170, 0.797), (0.131, 0.046), daylight⟩
  | cieXyz => none
  | dciP3 => some ⟨(0.680, 0.320), (0.265, 0.690), (0.150, 0.060), cinemaWhite⟩
  | displayP3 => some ⟨(0.680, 0.320), (0.265, 0.690), (0.150, 0.060), daylight⟩
  | adobeRgb => some ⟨(0.64, 0.33), (0.21, 0.71), (0.15, 0.06), daylight⟩

end NamedColorimetry

end DisplayColor

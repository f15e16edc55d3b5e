import DisplayColor.Transfer.Curve

/-! # Rendering intents

What a conversion does about white points, black levels and highlights. -/

namespace DisplayColor

/-- How a conversion treats what the target cannot show as it is. -/
inductive Intent
  /-- Adapts white, compensates black and tone maps highlights. -/
  | perceptual
  /-- Adapts white and scales by the reference luminances. -/
  | relative
  | absolute
  /-- Adapts white and compensates black. -/
  | relativeWithBlackPoint
deriving DecidableEq, Repr, Inhabited

namespace Intent

def all : List Intent := [perceptual, relative, absolute, relativeWithBlackPoint]

/-- Whether the white of the source is carried to the white of the target. -/
def adaptsWhite : Intent → Bool
  | absolute => false
  | _ => true

def compensatesBlack : Intent → Bool
  | perceptual => true
  | relativeWithBlackPoint => true
  | _ => false

def name : Intent → String
  | perceptual => "perceptual"
  | relative => "relative"
  | absolute => "absolute"
  | relativeWithBlackPoint => "relative-bpc"

/-- The names under which an intent is known, in lower case and with hyphens. -/
def ofKey? : String → Option Intent
  | "perceptual" => some perceptual
  | "relative" => some relative
  | "relative-colorimetric" => some relative
  | "absolute" => some absolute
  | "absolute-colorimetric" => some absolute
  | "relative-bpc" => some relativeWithBlackPoint
  | "relative-colorimetric-bpc" => some relativeWithBlackPoint
  | _ => none

/-- Reads the name of an intent; the case of ASCII letters does not matter and an underscore stands
for a hyphen. -/
def ofName? (name : String) : Except NameError Intent :=
  match ofKey? (hyphenate ['_'] name.toLower) with
  | some intent => .ok intent
  | none => .error (.intent name)

end Intent

end DisplayColor

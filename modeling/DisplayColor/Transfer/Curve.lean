import DisplayColor.Transfer.Formulas

/-! # Transfer curves

The shapes that a transfer function can have, as maps between a signal and relative luminance, with
the luminance range each is used with unless another is given. -/

namespace DisplayColor

/-! ## Unknown names

The names of curves, colorimetries and rendering intents are typed by people; one that is not known
is reported with the kind of thing it should have been. -/

inductive NameError
  | transferFunction (name : String)
  | colorimetry (name : String)
  | intent (name : String)
deriving BEq, Repr

def NameError.message : NameError → String
  | .transferFunction name => "unknown transfer function: " ++ name
  | .colorimetry name => "unknown colorimetry: " ++ name
  | .intent name =>
    "unknown rendering intent: " ++ name
      ++ " (expected perceptual, relative, absolute or relative-bpc)"

def hyphenate (separators : List Char) (name : String) : String :=
  name.map fun c => if c ∈ separators then '-' else c

/-! ## Curves -/

inductive Curve
  | linear
  | srgb
  | gamma22
  | pq
  | hlg
deriving DecidableEq, Repr, Inhabited

namespace Curve

def all : List Curve := [linear, srgb, gamma22, pq, hlg]

def name : Curve → String
  | linear => "linear"
  | srgb => "srgb"
  | gamma22 => "gamma22"
  | pq => "pq"
  | hlg => "hlg"

def ofKey? : String → Option Curve
  | "linear" => some linear
  | "srgb" => some srgb
  | "gamma22" => some gamma22
  | "gamma2.2" => some gamma22
  | "pq" => some pq
  | "st2084" => some pq
  | "perceptualquantizer" => some pq
  | "hlg" => some hlg
  | _ => none

/-- Reads the name of a curve; the case of ASCII letters does not matter. -/
def ofName? (name : String) : Except NameError Curve :=
  match ofKey? name.toLower with
  | some curve => .ok curve
  | none => .error (.transferFunction name)

section Defaults

variable {α : Type} [Scalar α]

/-- The luminance of signal `0`, in nits. -/
def defaultMin (_ : Curve) : α := 0

/-- The luminance of signal `1`, in nits. -/
def defaultMax : Curve → α
  | linear => 1
  | srgb => 80
  | gamma22 => 80
  | pq => Pq.peak
  | hlg => 1000

/-- The luminance of diffuse white, in nits. -/
def defaultReference : Curve → α
  | linear => 1
  | srgb => 80
  | gamma22 => 80
  | pq => 203
  | hlg => 203

/-- Signal to relative luminance. -/
def decode : Curve → α → α
  | linear, signal => signal
  | srgb, signal => Srgb.decode signal
  | gamma22, signal => PowerLaw.decodeDisplay signal
  | pq, signal => Pq.decode signal
  | hlg, signal => Hlg.decode signal

/-- Relative luminance to signal. -/
def encode : Curve → α → α
  | linear, light => light
  | srgb, light => Srgb.encode light
  | gamma22, light => PowerLaw.encodeDisplay light
  | pq, light => Pq.encode light
  | hlg, light => Hlg.encode light

end Defaults

end Curve

end DisplayColor

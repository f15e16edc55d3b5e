import DisplayColor.Scalar

/-! # Formulas of transfer curves

What the standards give for the conversion between signals and relative light, each with both of its
directions. -/

namespace DisplayColor

variable {α : Type} [Scalar α]

/-! ## The sRGB curve

A linear toe and a power segment.  Negative values stay on the toe and values above one continue the
power segment, so signals of extended range survive a round trip. -/

namespace Srgb

def decode (signal : α) : α :=
  if signal ≤ 0.04045 then signal / 12.92
  else Scalar.pow ((signal + 0.055) / 1.055) 2.4

def encode (light : α) : α :=
  if light ≤ 0.0031308 then light * 12.92
  else 1.055 * Scalar.pow light (1 / 2.4) - 0.055

end Srgb

/-! ## Power law

The pure power law.  The sign of the argument is kept, so that a negative component, which lies
outside the gamut, follows the mirrored curve. -/

namespace PowerLaw

def displayExponent : α := 2.2

def decode (signal exponent : α) : α :=
  Scalar.signum signal * Scalar.pow (Scalar.abs signal) exponent

def encode (light exponent : α) : α :=
  Scalar.signum light * Scalar.pow (Scalar.abs light) (1 / exponent)

def decodeDisplay (signal : α) : α := decode signal displayExponent

def encodeDisplay (light : α) : α := encode light displayExponent

end PowerLaw

/-! ## The perceptual quantizer

The curve of SMPTE ST 2084, which encodes absolute luminance up to `peak`.  Arguments outside the
range of the standard are moved to its ends. -/

namespace Pq

/-- The luminance of a full signal, in nits. -/
def peak : α := 10000

def m1 : α := 2610 / 16384

def m2 : α := 2523 / 4096 * 128

def c1 : α := 3424 / 4096

def c2 : α := 2413 / 4096 * 32

def c3 : α := 2392 / 4096 * 32

def decode (signal : α) : α :=
  if signal ≤ 0 then 0
  else
    let p := Scalar.pow (Scalar.min signal 1) (1 / m2)
    let numerator := Scalar.max (p - c1) 0
    let denominator := c2 - c3 * p
    Scalar.pow (numerator / denominator) (1 / m1)

def encode (light : α) : α :=
  if light ≤ 0 then 0
  else
    let p := Scalar.pow (Scalar.min light 1) m1
    Scalar.pow ((c1 + c2 * p) / (1 + c3 * p)) m2

def toNits (signal : α) : α := peak * decode signal

def ofNits (nits : α) : α := encode (nits / peak)

end Pq

/-! ## Hybrid log-gamma

The curve of BT.2100 for broadcast: a square root below one twelfth of full light and a logarithm
above.  The system gamma of a display is not applied, so decoded values are relative scene light. -/

namespace Hlg

def a : α := 0.17883277

/-- `1 - 4 * a`. -/
def b : α := 0.28466892

/-- `0.5 - a * log (4 * a)`. -/
def c : α := 0.55991073

def encode (light : α) : α :=
  if light ≤ 0 then 0
  else if light ≤ 1 / 12 then Scalar.sqrt (3 * light)
  else a * Scalar.log (12 * light - b) + c

def decode (signal : α) : α :=
  if signal ≤ 0 then 0
  else if signal ≤ 0.5 then signal * signal / 3
  else (Scalar.exp ((signal - c) / a) + b) / 12

end Hlg

end DisplayColor

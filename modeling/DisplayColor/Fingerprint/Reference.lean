import DisplayColor.Fingerprint.Sha256
import DisplayColor.Pipeline.Conversion

/-! # Reference conversions

A few conversions are watched for changes by fingerprints: the colours of a grid are converted,
rounded to four decimals, which absorbs differences between mathematical libraries, and digested. -/

namespace DisplayColor

/-- The colours of a grid with `n` points along each axis, the first channel varying fastest. -/
def colorGrid {α : Type} [Scalar α] (n : Nat) : Array (Vec3 α) :=
  let step : α := 1 / Scalar.ofNat (max n 2 - 1)
  CubeLut.onGrid n fun r g b =>
    ⟨Scalar.ofNat r * step, Scalar.ofNat g * step, Scalar.ofNat b * step⟩

namespace Fingerprint

def places : Nat := 4

/-- A component in units of the last decimal kept, halves away from zero. -/
def quantize (x : Single) : Int64 :=
  ((widen x : Double) * Scalar.ofNat (Nat.pow 10 places)).value.round.toInt64

/-- The eight bytes of a whole number, the lowest first. -/
def wordBytes (n : Int64) : List UInt8 :=
  (List.range 8).map fun i => UInt8.ofNat (n.toUInt64.toNat >>> (8 * i))

/-- The digest of the rounded components of colours. -/
def ofColors (colors : List (Vec3 Single)) : String :=
  Sha256.hexDigest (colors.flatMap fun v => v.toList.flatMap fun x => wordBytes (quantize x))

end Fingerprint

structure ReferenceConversion where
  name : String
  source : Description Single Double
  target : Description Single Double
  intent : Intent

structure Fingerprint where
  name : String
  steps : Nat
  digest : String
deriving BEq, Repr

namespace ReferenceConversion

def all : List ReferenceConversion :=
  let described (colorimetry : NamedColorimetry) (curve : Curve) : Description Single Double :=
    .ofTransfer (.ofNamed colorimetry) (.ofCurve curve)
  [⟨"srgb_to_hdr10_perceptual", .srgb, .bt2100Pq, .perceptual⟩,
    ⟨"hdr10_to_srgb_perceptual", .bt2100Pq, .srgb, .perceptual⟩,
    ⟨"hdr10_to_srgb_relative", .bt2100Pq, .srgb, .relative⟩,
    ⟨"p3_to_bt709_relative_bpc", described .displayP3 .srgb, described .bt709 .gamma22,
      .relativeWithBlackPoint⟩,
    ⟨"dci_p3_to_bt709_absolute", described .dciP3 .gamma22, described .bt709 .srgb, .absolute⟩,
    ⟨"hlg_to_pq_perceptual", described .bt2020 .hlg, described .bt2020 .pq, .perceptual⟩]

/-- The fingerprint of a conversion over a grid with `n` points along each axis. -/
def fingerprint (conversion : ReferenceConversion) (n : Nat) : Except OutOfBounds Fingerprint := do
  let pipeline :=
    Pipeline.conversion conversion.source conversion.target conversion.intent .standard
  let colors ← (colorGrid n).toList.mapM pipeline.evaluate
  pure ⟨conversion.name, pipeline.length, Fingerprint.ofColors colors⟩

def storedAt : String := "dcolor-tests/golden/pipelines.json"

/-- The fingerprints that are kept: none are. -/
def stored : Option (List Fingerprint) := none

end ReferenceConversion

end DisplayColor

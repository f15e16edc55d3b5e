import DisplayColor.Pipeline.Description
import DisplayColor.Pipeline.Settings

/-! # Conversions

The conversion from one description to another always has the same shape before fusion: the source
signal is decoded to nits, gamut and luminance are converted in linear light, highlights are tone
mapped if the source is brighter than the target, and the result is encoded for the target. -/

namespace DisplayColor

variable {α ω : Type} [Scalar α] [Scalar ω] [Precision α ω]

namespace Pipeline

def lightConversion (source target : Description α ω) (intent : Intent) : Pipeline α :=
  let input : ValueRange α :=
    ⟨source.transfer.encode source.min, source.transfer.encode source.maxLuminance⟩
  let decoded := (empty input).addDecode source.transfer
  let range := decoded.output * (target.reference / source.reference)
  decoded.addMatrix (source.lightConversion target intent) range

/-- Whether light with the given peak, in nits of the target, is tone mapped for it. -/
def needsToneMapping (settings : Settings α) (intent : Intent) (peak targetPeak : α) : Bool :=
  settings.toneMapping && decide (intent = .perceptual)
    && decide (targetPeak * settings.threshold < peak)

def conversion (source target : Description α ω) (intent : Intent) (settings : Settings α) :
    Pipeline α :=
  let light := lightConversion source target intent
  let mapped :=
    if needsToneMapping settings intent light.output.max target.maxLuminance then
      light.addToneMapping target.colorimetry
        (.ofLuminances target.reference light.output.max target.maxLuminance settings.maxHeadroom)
    else light
  mapped.addEncode target.transfer

end Pipeline

namespace Description

def convert (source target : Description α ω) (intent : Intent) (v : Vec3 α) :
    Except OutOfBounds (Vec3 α) :=
  (Pipeline.conversion source target intent .standard).evaluate v

end Description

end DisplayColor

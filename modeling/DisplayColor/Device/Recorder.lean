import DisplayColor.Device.Binder
import DisplayColor.Shader.Block

/-! # A recording device

A device that draws nothing.  It numbers its textures from one, logs the calls that succeed, and
fails where it is told to. -/

namespace DisplayColor

inductive DeviceCall
  | createCurves (size texture : Nat)
  | createCube (size texture : Nat)
  | bindCurves (slot texture : Nat)
  | bindCube (texture : Nat)
  | upload (byteCount : Nat)
deriving DecidableEq, Repr

structure DeviceLimits where
  largestCube : Nat := 64
  failCurves : Bool := false
  failUpload : Bool := false
deriving DecidableEq, Repr

structure Recorder where
  limits : DeviceLimits
  textures : Nat
  /-- The calls that have not been reported yet, the latest first. -/
  latestFirst : List DeviceCall
deriving DecidableEq, Repr

namespace Recorder

def start : Recorder := ⟨{}, 0, []⟩

def pending (recorder : Recorder) : List DeviceCall := recorder.latestFirst.reverse

def reported (recorder : Recorder) : Recorder := { recorder with latestFirst := [] }

def log (recorder : Recorder) (call : DeviceCall) : Recorder :=
  { recorder with latestFirst := call :: recorder.latestFirst }

def create (recorder : Recorder) (call : Nat → DeviceCall) : Except String Nat × Recorder :=
  let texture := recorder.textures + 1
  (.ok texture, { recorder with textures := texture }.log (call texture))

def device : Device Single Recorder Nat where
  upload block recorder :=
    if recorder.limits.failUpload then (.error "upload failed", recorder)
    else (.ok (), recorder.log (.upload block.bytes.length))
  createCurves lut recorder :=
    if recorder.limits.failCurves then (.error "1D texture rejected", recorder)
    else recorder.create (.createCurves lut.table.size)
  createCube lut recorder :=
    if recorder.limits.largestCube < lut.table.size then (.error "3D texture too large", recorder)
    else recorder.create (.createCube lut.table.size)
  bindCurves slot texture recorder := recorder.log (.bindCurves slot texture)
  bindCube texture recorder := recorder.log (.bindCube texture)

end Recorder

end DisplayColor

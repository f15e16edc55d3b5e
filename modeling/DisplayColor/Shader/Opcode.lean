import DisplayColor.Shader.Slots

/-! # Shader codes

The numbers under which the shader knows its operations and curves.  The shader ignores an operation
with an unknown code, and a curve with an unknown code passes values through. -/

namespace DisplayColor

inductive Opcode
  | matrix
  | decode
  | encode
  | toneMap
  | curves
  | cube
deriving DecidableEq, Repr

namespace Opcode

def code : Opcode → UInt32
  | matrix => 0
  | decode => 1
  | encode => 2
  | toneMap => 3
  | curves => 4
  | cube => 5

def all : List Opcode := [matrix, decode, encode, toneMap, curves, cube]

def ofCode? (code : UInt32) : Option Opcode := all.find? fun opcode => opcode.code == code

def slotKind : Opcode → SlotKind
  | matrix => .matrix
  | decode => .transfer
  | encode => .transfer
  | toneMap => .toneCurve
  | curves => .curves
  | cube => .cube

def constant : Opcode → String
  | matrix => "OP_MATRIX"
  | decode => "OP_TRANSFER_FUNCTION"
  | encode => "OP_INVERSE_TRANSFER_FUNCTION"
  | toneMap => "OP_TONEMAPPER"
  | curves => "OP_LUT1D"
  | cube => "OP_LUT3D"

end Opcode

/-- The operation of the shader that carries out a pipeline operation; gains are carried out as a
diagonal matrix. -/
def Operation.opcode {α : Type} : Operation α → Opcode
  | matrix _ => .matrix
  | multiplier _ => .matrix
  | decode _ => .decode
  | encode _ => .encode
  | toneMap _ => .toneMap
  | curves _ => .curves
  | cube _ => .cube

namespace Curve

def code : Curve → UInt32
  | linear => 0
  | srgb => 1
  | gamma22 => 2
  | pq => 3
  | hlg => 4

def ofCode? (code : UInt32) : Option Curve := all.find? fun curve => curve.code == code

def constant : Curve → String
  | linear => "TF_LINEAR"
  | srgb => "TF_SRGB"
  | gamma22 => "TF_GAMMA22"
  | pq => "TF_PQ"
  | hlg => "TF_HLG"

end Curve

end DisplayColor

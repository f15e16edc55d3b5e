import DisplayColor.Shader.Opcode

/-! # The uniform block

What the shader reads for one pipeline: the data of its operations, in slots of fixed number, and a
list of instructions, each an operation with the slot that holds its data.

`UniformBlock.evaluate` carries out a block in the arithmetic of the shader, which computes in the
narrow type throughout.  Blocks need not come from a pipeline: an unknown operation and a slot that
does not exist leave the colour as it is. -/

namespace DisplayColor

/-- A matrix as the shader holds it: sixteen numbers, column by column. -/
structure MatrixSlot (α : Type) where
  entries : Vector α 16
deriving BEq, Repr

/-- A transfer function as the shader holds it. -/
structure TransferSlot (α : Type) where
  kind : UInt32
  min : α
  max : α
deriving BEq, Repr

/-- The constants of a tone curve that the shader needs. -/
structure ToneSlot (α : Type) where
  reference : α
  inputRange : α
  addedRange : α
  outputReference : α
  maxOutput : α
deriving BEq, Repr

/-- An operation and the slot that holds its data. -/
structure Instruction where
  kind : UInt32
  index : UInt32
deriving BEq, DecidableEq, Repr

/-- The data of a pipeline as the shader reads it. -/
structure UniformBlock (α : Type) where
  matrices : Vector (MatrixSlot α) SlotKind.matrix.limit
  transfers : Vector (TransferSlot α) SlotKind.transfer.limit
  toneCurve : ToneSlot α
  instructions : Vector Instruction operationLimit
  /-- For each curve table the ends of its domain and its size. -/
  curves : Vector (Vec4 α) SlotKind.curves.limit
  cube : Vec4 α
  count : UInt32
deriving BEq, Repr

/-- The tables that the shader reads besides its uniform block, in the order of their slots. -/
structure BoundTables (α : Type) where
  curves : List (Shared (CurveLut α))
  cubes : List (Shared (CubeLut α))

namespace BoundTables

def none {α : Type} : BoundTables α := ⟨[], []⟩

/-- The tables of a pipeline in the order of its steps. -/
def ofPipeline {α : Type} (p : Pipeline α) : BoundTables α where
  curves := p.steps.filterMap fun step =>
    match step.operation with
    | .curves lut => some lut
    | _ => Option.none
  cubes := p.steps.filterMap fun step =>
    match step.operation with
    | .cube lut => some lut
    | _ => Option.none

end BoundTables

def MatrixSlot.ofMatrix {α : Type} (m : Mat4 α) : MatrixSlot α := ⟨m.columnMajor⟩

variable {α : Type} [Scalar α]

/-- The columns, weighted by the channels of a colour and added up; the last one is the offset, and
the bottom row is left out. -/
def MatrixSlot.apply (slot : MatrixSlot α) (v : Vec3 α) : Vec3 α :=
  let m := slot.entries
  ⟨m[0] * v.x + m[4] * v.y + m[8] * v.z + m[12],
    m[1] * v.x + m[5] * v.y + m[9] * v.z + m[13],
    m[2] * v.x + m[6] * v.y + m[10] * v.z + m[14]⟩

def TransferSlot.ofTransfer (f : TransferFunction α) : TransferSlot α :=
  ⟨f.curve.code, f.min, f.max⟩

namespace TransferSlot

def decode (slot : TransferSlot α) (signal : α) : α :=
  let light :=
    match Curve.ofCode? slot.kind with
    | some curve => curve.decode signal
    | none => signal
  light * (slot.max - slot.min) + slot.min

def encode (slot : TransferSlot α) (nits : α) : α :=
  let light := (nits - slot.min) / (slot.max - slot.min)
  match Curve.ofCode? slot.kind with
  | some curve => curve.encode light
  | none => light

end TransferSlot

def ToneSlot.ofCurve (curve : ToneCurve α) : ToneSlot α :=
  ⟨curve.reference, curve.inputRange, curve.addedRange, curve.outputReference, curve.maxOutput⟩

def ToneSlot.map (slot : ToneSlot α) (intensity : α) : α :=
  let nits := Pq.toNits intensity
  let low := Scalar.min (nits / slot.addedRange) slot.outputReference
  let relative : α :=
    if 1 < slot.inputRange then
      Scalar.clamp ((nits / slot.reference - 1) / (slot.inputRange - 1)) 0 1
    else 0
  let high :=
    Scalar.log (relative * (Scalar.euler - 1) + 1) * (slot.maxOutput - slot.outputReference)
  Pq.ofNits (low + high)

namespace UniformBlock

def zero : UniformBlock α :=
  let zeros : Vec4 α := ⟨0, 0, 0, 0⟩
  { matrices := .replicate _ ⟨.replicate _ 0⟩
    transfers := .replicate _ ⟨0, 0, 0⟩
    toneCurve := ⟨0, 0, 0, 0, 0⟩
    instructions := .replicate _ ⟨0, 0⟩
    curves := .replicate _ zeros
    cube := zeros
    count := 0 }

def active {α : Type} (block : UniformBlock α) : List Instruction :=
  block.instructions.toList.take block.count.toNat

/-- The slots that the active instructions refer to, whether or not they exist. -/
def usage {α : Type} (block : UniformBlock α) : SlotUsage :=
  block.active.foldl (fun usage instruction =>
    match Opcode.ofCode? instruction.kind with
    | some opcode => usage.take opcode.slotKind
    | none => usage.skip) .none

/-- The colour after one instruction. -/
def execute (block : UniformBlock α) (tables : BoundTables α) (v : Vec3 α)
    (instruction : Instruction) : Except OutOfBounds (Vec3 α) :=
  let slot := instruction.index.toNat
  match Opcode.ofCode? instruction.kind with
  | some .matrix => pure ((block.matrices[slot]?.map fun m => m.apply v).getD v)
  | some .decode => pure ((block.transfers[slot]?.map fun f => v.map f.decode).getD v)
  | some .encode => pure ((block.transfers[slot]?.map fun f => v.map f.encode).getD v)
  | some .toneMap => pure { v with x := block.toneCurve.map v.x }
  | some .curves => (tables.curves[slot]?.map fun lut => lut.table.apply v).getD (pure v)
  | some .cube => (tables.cubes[slot]?.map fun lut => lut.table.apply v).getD (pure v)
  | none => pure v

def evaluate (block : UniformBlock α) (tables : BoundTables α) (v : Vec3 α) :
    Except OutOfBounds (Vec3 α) :=
  block.active.foldlM (block.execute tables) v

end UniformBlock

/-! ## Uploads

A block is uploaded as 32-bit words, the lowest byte first, in rows of four words.  Matrices are
stored column by column.  Every part begins a row of its own, so no hidden padding is needed. -/

def MatrixSlot.words (slot : MatrixSlot Single) : List UInt32 := slot.entries.toList.map Single.bits

def TransferSlot.words (slot : TransferSlot Single) : List UInt32 :=
  [slot.kind, slot.min.bits, slot.max.bits, 0]

def ToneSlot.words (slot : ToneSlot Single) : List UInt32 :=
  [slot.reference, slot.inputRange, slot.addedRange, slot.outputReference,
    slot.maxOutput].map Single.bits ++ [0, 0, 0]

def Instruction.words (instruction : Instruction) : List UInt32 :=
  [instruction.kind, instruction.index, 0, 0]

def Vec4.words (v : Vec4 Single) : List UInt32 := v.toList.map Single.bits

/-- The four bytes of a word, the lowest first. -/
def littleEndian (word : UInt32) : List UInt8 :=
  [word.toUInt8, (word >>> 8).toUInt8, (word >>> 16).toUInt8, (word >>> 24).toUInt8]

namespace UniformBlock

def words (block : UniformBlock Single) : List UInt32 :=
  block.matrices.toList.flatMap MatrixSlot.words
    ++ block.transfers.toList.flatMap TransferSlot.words
    ++ block.toneCurve.words
    ++ block.instructions.toList.flatMap Instruction.words
    ++ block.curves.toList.flatMap Vec4.words
    ++ block.cube.words
    ++ [block.count, 0, 0, 0]

def bytes (block : UniformBlock Single) : List UInt8 := block.words.flatMap littleEndian

end UniformBlock

end DisplayColor

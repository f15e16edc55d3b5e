import DisplayColor.Shader.Block

/-! # Packing a pipeline

A pipeline is packed into a uniform block operation by operation.  Each operation takes the next
free slot of its kind, so the slots in use are without gaps; the first operation for which none is
left is reported. -/

namespace DisplayColor

/-- A partly filled block and the slots taken in it. -/
structure Packing (α : Type) where
  block : UniformBlock α
  usage : SlotUsage

namespace Packing

variable {α : Type} [Scalar α]

def start : Packing α := ⟨.zero, .none⟩

def store (block : UniformBlock α) (slot : Nat) : Operation α → UniformBlock α
  | .matrix m => { block with matrices := block.matrices.setIfInBounds slot (.ofMatrix m) }
  | .multiplier gains =>
    { block with matrices := block.matrices.setIfInBounds slot (.ofMatrix (.scaling gains)) }
  | .decode f => { block with transfers := block.transfers.setIfInBounds slot (.ofTransfer f) }
  | .encode f => { block with transfers := block.transfers.setIfInBounds slot (.ofTransfer f) }
  | .toneMap curve => { block with toneCurve := .ofCurve curve }
  | .curves lut =>
    let table := lut.table
    let parameters : Vec4 α := ⟨table.domainMin, table.domainMax, Scalar.ofNat table.size, 0⟩
    { block with curves := block.curves.setIfInBounds slot parameters }
  | .cube lut => { block with cube := ⟨Scalar.ofNat lut.table.size, 0, 0, 0⟩ }

def schedule {α : Type} (block : UniformBlock α) (position : Nat) (instruction : Instruction) :
    UniformBlock α :=
  { block with
    instructions := block.instructions.setIfInBounds position instruction
    count := UInt32.ofNat (position + 1) }

def place (packing : Packing α) (operation : Operation α) : Except FitError (Packing α) :=
  let opcode := operation.opcode
  let slot := packing.usage.taken opcode.slotKind
  -- The slots before this one are those of the earlier operations of its kind.
  if opcode.slotKind.limit ≤ slot then .error (.tooMany opcode.slotKind)
  else
    let stored := store packing.block slot operation
    .ok
      { block := schedule stored packing.usage.operations ⟨opcode.code, UInt32.ofNat slot⟩
        usage := packing.usage.take opcode.slotKind }

end Packing

/-- The uniform block of a pipeline, if it fits. -/
def UniformBlock.ofPipeline {α : Type} [Scalar α] (p : Pipeline α) :
    Except FitError (UniformBlock α) :=
  if operationLimit < p.length then .error (.tooManyOperations p.length)
  else
    (p.steps.foldlM (fun (packing : Packing α) step => packing.place step.operation) .start).map
      Packing.block

end DisplayColor

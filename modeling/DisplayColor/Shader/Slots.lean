import DisplayColor.Pipeline.Listing

/-! # Shader slots

The shader has a fixed number of places for the data of each kind of operation.  Matrices and gains
share one kind of slot, and so do transfer functions and their inverses. -/

namespace DisplayColor

inductive SlotKind
  | matrix
  | transfer
  | toneCurve
  | curves
  | cube
deriving DecidableEq, Repr

namespace SlotKind

def limit : SlotKind → Nat
  | matrix => 8
  | transfer => 8
  | toneCurve => 1
  | curves => 2
  | cube => 1

def contents : SlotKind → String
  | matrix => "matrices"
  | transfer => "transfer functions"
  | toneCurve => "tonemappers"
  | curves => "1D LUTs"
  | cube => "3D LUTs"

def all : List SlotKind := [matrix, transfer, toneCurve, curves, cube]

end SlotKind

/-- How many operations the shader carries out at most. -/
def operationLimit : Nat := 16

/-- How many operations there are, and how many slots of each kind they take. -/
structure SlotUsage where
  operations : Nat
  matrices : Nat
  transfers : Nat
  toneCurves : Nat
  curves : Nat
  cubes : Nat
deriving DecidableEq, Repr

namespace SlotUsage

def none : SlotUsage := ⟨0, 0, 0, 0, 0, 0⟩

def taken (usage : SlotUsage) : SlotKind → Nat
  | .matrix => usage.matrices
  | .transfer => usage.transfers
  | .toneCurve => usage.toneCurves
  | .curves => usage.curves
  | .cube => usage.cubes

def take (usage : SlotUsage) (kind : SlotKind) : SlotUsage :=
  let counted := { usage with operations := usage.operations + 1 }
  match kind with
  | .matrix => { counted with matrices := usage.matrices + 1 }
  | .transfer => { counted with transfers := usage.transfers + 1 }
  | .toneCurve => { counted with toneCurves := usage.toneCurves + 1 }
  | .curves => { counted with curves := usage.curves + 1 }
  | .cube => { counted with cubes := usage.cubes + 1 }

def skip (usage : SlotUsage) : SlotUsage := { usage with operations := usage.operations + 1 }

/-- One line for each kind of slot: how many are taken, and how many there are. -/
def text (usage : SlotUsage) : String :=
  let line (label : String) (taken limit : Nat) : String :=
    label ++ "".pushn ' ' (20 - label.length) ++ rightAligned 2 taken ++ s!" / {limit}"
  "\n".intercalate
    (line "ops:" usage.operations operationLimit
      :: SlotKind.all.map fun kind => line (kind.contents ++ ":") (usage.taken kind) kind.limit)

end SlotUsage

/-- Why a pipeline does not fit the shader. -/
inductive FitError
  | tooManyOperations (count : Nat)
  | tooMany (kind : SlotKind)
deriving DecidableEq, Repr

def FitError.message : FitError → String
  | .tooManyOperations count => s!"too many ops: {count} (max {operationLimit})"
  | .tooMany kind =>
    let contents := kind.contents
    let limit := kind.limit
    s!"too many {contents} (max {limit})"

end DisplayColor

import DisplayColor.Gamut.Colorimetry
import DisplayColor.Pipeline.Operation

/-! # Fusing pipelines

A pipeline is an ordered list of steps.  Steps are never simply appended: each addition first looks
at the last step and folds the new operation into it where that is exact.

* An identity matrix or a unit gain is dropped.
* A matrix or gain after a matrix or gain becomes one matrix or gain.
* A uniform positive gain after a transfer function rescales the range of the function.
* A transfer function and its inverse, in either order, cancel.

A linear transfer function is affine; it becomes a matrix and takes part in the fusion of matrices.
What a fusion produces is added again by the same rules, so a fused identity disappears and a fused
gain can go on into a transfer function.

Because only the end of the list is looked at, the steps are held latest first. -/

namespace DisplayColor

/-- A fused list of steps. -/
structure Pipeline (α : Type) where
  input : ValueRange α
  /-- The steps, the last one to be carried out first. -/
  latestFirst : List (Step α)

inductive LinearOperation (α : Type)
  | matrix (m : Mat4 α)
  | multiplier (gains : Vec3 α)

namespace LinearOperation

variable {α ω : Type} [Scalar α] [Scalar ω] [Precision α ω]

/-- Gains whose squared distance from one is smaller than this count as one. -/
def unitGainTolerance : α := 1e-10

def isNegligible : LinearOperation α → Bool
  | matrix m => m.isNearIdentity
  | multiplier gains => (gains - Vec3.splat 1).lengthSquared < (unitGainTolerance : α)

/-- The operation that first does `before` and then `next`. -/
def after (next before : LinearOperation α) : LinearOperation α :=
  match next, before with
  | matrix m, matrix previous => matrix (m * previous)
  | matrix m, multiplier gains => matrix (m * Mat4.scaling gains)
  | multiplier gains, matrix previous => matrix (Mat4.scaling gains * previous)
  | multiplier gains, multiplier previous => multiplier (previous * gains)

/-- A matrix that only scales channels, as gains; anything else as it is. -/
def simplified : LinearOperation α → LinearOperation α
  | matrix m => if m.isNearScaling then multiplier m.gains else matrix m
  | multiplier gains => multiplier gains

def toOperation {α : Type} : LinearOperation α → Operation α
  | matrix m => .matrix m
  | multiplier gains => .multiplier gains

end LinearOperation

/-- The operation as a linear one, if it is. -/
def Operation.linear? {α : Type} : Operation α → Option (LinearOperation α)
  | matrix m => some (.matrix m)
  | multiplier gains => some (.multiplier gains)
  | _ => none

namespace Pipeline

/-- The range after the given steps, or the range before them when there are none. -/
def rangeAfter {α : Type} (input : ValueRange α) : List (Step α) → ValueRange α
  | [] => input
  | last :: _ => last.output

def steps {α : Type} (p : Pipeline α) : List (Step α) := p.latestFirst.reverse

def length {α : Type} (p : Pipeline α) : Nat := p.latestFirst.length

def output {α : Type} (p : Pipeline α) : ValueRange α := rangeAfter p.input p.latestFirst

/-- Leaves every colour as it is.  Fusion removes identities as they appear, so this is the same as
having no steps. -/
def isIdentity {α : Type} (p : Pipeline α) : Bool := p.latestFirst.isEmpty

def empty {α : Type} (input : ValueRange α) : Pipeline α := ⟨input, []⟩

instance {α : Type} [Scalar α] : BEq (Pipeline α) where
  beq p q := p.input == q.input && p.latestFirst == q.latestFirst

def push {α : Type} (p : Pipeline α) (operation : Operation α) (output : ValueRange α) :
    Pipeline α :=
  { p with latestFirst := ⟨p.output, operation, output⟩ :: p.latestFirst }

section Fusion

variable {α ω : Type} [Scalar α] [Scalar ω] [Precision α ω]

/-- Adds a linear operation after steps of which the last is not linear: dropped if negligible,
folded into a transfer function if it is a uniform positive gain after one, else appended. -/
def settle (input : ValueRange α) (steps : List (Step α)) (operation : LinearOperation α)
    (output : ValueRange α) : List (Step α) :=
  let operation := operation.simplified
  let appended := ⟨rangeAfter input steps, operation.toOperation, output⟩ :: steps
  if operation.isNegligible then steps
  else
    match operation, steps with
    | .multiplier gains, ⟨before, .decode f, after⟩ :: rest =>
      if gains.isUniform ∧ Scalar.isFinite gains.x ∧ 0 < gains.x then
        -- The step keeps its place, and what it produces grows by the gain.
        ⟨before, .decode (f.scaled gains.x), after * gains.x⟩ :: rest
      else appended
    | _, _ => appended

/-- Adds a linear operation: dropped if negligible, fused with the last step if that is linear too,
and settled when it is not. -/
def absorb (input : ValueRange α) (output : ValueRange α) :
    List (Step α) → LinearOperation α → List (Step α)
  | [], operation =>
    if operation.isNegligible then [] else settle input [] operation output
  | last :: rest, operation =>
    if operation.isNegligible then last :: rest
    else
      match last.operation.linear? with
      -- The last step is popped, and what both amount to meets the step before it.
      | some before => absorb input output rest (operation.after before)
      | none => settle input (last :: rest) operation output

def addLinear (p : Pipeline α) (operation : LinearOperation α) (output : ValueRange α) :
    Pipeline α :=
  { p with latestFirst := absorb p.input output p.latestFirst operation }

def addMatrix (p : Pipeline α) (m : Mat4 α) (output : ValueRange α) : Pipeline α :=
  p.addLinear (.matrix m) output

def addMultiplier (p : Pipeline α) (gains : Vec3 α) (output : ValueRange α) : Pipeline α :=
  p.addLinear (.multiplier gains) output

def decodeMatrix (f : TransferFunction α) : Mat4 α :=
  Mat4.translation (Vec3.splat f.min) * Mat4.uniform (f.max - f.min)

def encodeMatrix (f : TransferFunction α) : Mat4 α :=
  Mat4.uniform (1 / (f.max - f.min)) * Mat4.translation (Vec3.splat (-f.min))

/-- Adds a transfer function where the last step does not undo it. -/
def appendDecode (p : Pipeline α) (f : TransferFunction α) : Pipeline α :=
  let output := p.output.map f.decode
  if f.curve = .linear then p.addMatrix (decodeMatrix f) output else p.push (.decode f) output

/-- Adds the inverse of a transfer function where the last step does not undo it. -/
def appendEncode (p : Pipeline α) (f : TransferFunction α) : Pipeline α :=
  let output := p.output.map f.encode
  if f.curve = .linear then p.addMatrix (encodeMatrix f) output else p.push (.encode f) output

/-- Adds a transfer function, signal to nits; cancels an equal inverse at the end. -/
def addDecode (p : Pipeline α) (f : TransferFunction α) : Pipeline α :=
  match p.latestFirst with
  | ⟨_, .encode previous, _⟩ :: rest =>
    if previous == f then { p with latestFirst := rest } else p.appendDecode f
  | _ => p.appendDecode f

/-- Adds the inverse of a transfer function, nits to signal; cancels an equal one at the end. -/
def addEncode (p : Pipeline α) (f : TransferFunction α) : Pipeline α :=
  match p.latestFirst with
  | ⟨_, .decode previous, _⟩ :: rest =>
    if previous == f then { p with latestFirst := rest } else p.appendEncode f
  | _ => p.appendEncode f

/-- Adds tone mapping of linear light in nits with the given colorimetry: to quantized intensity and
chroma, through the tone curve, and back. -/
def addToneMapping (p : Pipeline α) (colorimetry : Colorimetry α ω) (curve : ToneCurve α) :
    Pipeline α :=
  let quantizer : TransferFunction α := .ofCurve .pq
  let range := p.output
  -- The cones respond to linear light, and intensity is a mixture of their quantized responses.
  let intensity := ((p.addMatrix (.ofLinear colorimetry.toLms) range).addEncode quantizer).addMatrix
    (.ofLinear Colorimetry.lmsToIctcp) .unit
  let mapped := intensity.push (.toneMap curve) ⟨0, quantizer.encode curve.maxOutput⟩
  ((mapped.addMatrix (.ofLinear Colorimetry.ictcpToLms) .unit).addDecode quantizer).addMatrix
    (.ofLinear colorimetry.fromLms) ⟨Scalar.min 0 range.min, curve.maxOutput⟩

/-- Adds a curve table; its output is expected in its own domain. -/
def addCurves (p : Pipeline α) (lut : Shared (CurveLut α)) : Pipeline α :=
  p.push (.curves lut) ⟨lut.table.domainMin, lut.table.domainMax⟩

def addCube (p : Pipeline α) (lut : Shared (CubeLut α)) : Pipeline α :=
  p.push (.cube lut) .unit

/-- Adds an operation through the fusing rules.  Tone curves and tables never fuse. -/
def add (p : Pipeline α) (operation : Operation α) (output : ValueRange α) : Pipeline α :=
  match operation with
  | .matrix m => p.addMatrix m output
  | .multiplier gains => p.addMultiplier gains output
  | .decode f => p.addDecode f
  | .encode f => p.addEncode f
  | .toneMap curve => p.push (.toneMap curve) output
  | .curves lut => p.push (.curves lut) output
  | .cube lut => p.push (.cube lut) output

/-- This pipeline followed by another, fused where they meet. -/
def merged (p onTop : Pipeline α) : Pipeline α :=
  onTop.steps.foldl (fun p step => p.add step.operation step.output) p

end Fusion

section Evaluation

variable {α ω : Type} [Scalar α] [Scalar ω] [Precision α ω]

def evaluate (p : Pipeline α) (v : Vec3 α) : Except OutOfBounds (Vec3 α) :=
  p.steps.foldlM (fun v step => step.operation.apply v) v

def trace (p : Pipeline α) (v : Vec3 α) : Except OutOfBounds (List (Vec3 α)) :=
  go v p.steps
where
  go (v : Vec3 α) : List (Step α) → Except OutOfBounds (List (Vec3 α))
    | [] => pure []
    | step :: rest => do
      let next ← step.operation.apply v
      let later ← go next rest
      pure (next :: later)

end Evaluation

end Pipeline

end DisplayColor

import DisplayColor.Pipeline.Conversion

/-! # Builds

A pipeline comes about by calls of its builder: from nothing or from a conversion, by additions, and
by merging with another pipeline that came about in the same way.  `Build` is the record of these
calls and `Build.pipeline` carries them out.

Every call amounts to a sequence of single additions, so what one addition preserves, every build
has: this is `Build.induction`, through which all facts about the shape of pipelines are proved. -/

namespace DisplayColor

/-- A call of the builder that adds to a pipeline. -/
inductive Call (α ω : Type)
  | matrix (m : Mat4 α) (output : ValueRange α)
  | multiplier (gains : Vec3 α) (output : ValueRange α)
  | decode (f : TransferFunction α)
  | encode (f : TransferFunction α)
  | toneMapping (colorimetry : Colorimetry α ω) (curve : ToneCurve α)
  | curves (lut : Shared (CurveLut α))
  | cube (lut : Shared (CubeLut α))
  | add (operation : Operation α) (output : ValueRange α)

/-- The calls by which a pipeline came about, the last one outermost. -/
inductive Build (α ω : Type)
  | empty (input : ValueRange α)
  | conversion (source target : Description α ω) (intent : Intent) (settings : Settings α)
  | call (before : Build α ω) (next : Call α ω)
  | merged (before onTop : Build α ω)

structure Addition (α : Type) where
  operation : Operation α
  output : ValueRange α

def Step.toAddition {α : Type} (step : Step α) : Addition α := ⟨step.operation, step.output⟩

variable {α ω : Type} [Scalar α] [Scalar ω] [Precision α ω]

/-! ## Pipelines as lists of operations

What a pipeline does to a colour depends on its operations alone, in the order in which they are
carried out.  The ranges of its steps do not matter. -/

namespace Operation

def applyAll (operations : List (Operation α)) (v : Vec3 α) : Except OutOfBounds (Vec3 α) :=
  operations.foldlM (fun w operation => operation.apply w) v

theorem applyAll_append (first second : List (Operation α)) (v : Vec3 α) :
    applyAll (first ++ second) v = applyAll first v >>= applyAll second := List.foldlM_append

end Operation

namespace Pipeline

/-- The operations in the order in which they are carried out. -/
def operations {α : Type} (p : Pipeline α) : List (Operation α) := p.steps.map Step.operation

@[simp] theorem length_operations {α : Type} (p : Pipeline α) : p.operations.length = p.length := by
  simp [operations, steps, length]

theorem evaluate_eq_applyAll (p : Pipeline α) (v : Vec3 α) :
    p.evaluate v = Operation.applyAll p.operations v := by
  rw [evaluate, Operation.applyAll, operations, List.foldlM_map]

end Pipeline

/-! ## Calls -/

namespace Pipeline

def call (p : Pipeline α) : Call α ω → Pipeline α
  | .matrix m output => p.addMatrix m output
  | .multiplier gains output => p.addMultiplier gains output
  | .decode f => p.addDecode f
  | .encode f => p.addEncode f
  | .toneMapping colorimetry curve => p.addToneMapping colorimetry curve
  | .curves lut => p.addCurves lut
  | .cube lut => p.addCube lut
  | .add operation output => p.add operation output

def addAll (p : Pipeline α) (additions : List (Addition α)) : Pipeline α :=
  additions.foldl (fun p addition => p.add addition.operation addition.output) p

/-- The operations of tone mapping where `range` is expected before it. -/
def toneMappingAdditions (range : ValueRange α) (colorimetry : Colorimetry α ω)
    (curve : ToneCurve α) : List (Addition α) :=
  let quantizer : TransferFunction α := .ofCurve .pq
  [⟨.matrix (.ofLinear colorimetry.toLms), range⟩,
    ⟨.encode quantizer, range.map quantizer.encode⟩,
    ⟨.matrix (.ofLinear Colorimetry.lmsToIctcp), .unit⟩,
    ⟨.toneMap curve, ⟨0, quantizer.encode curve.maxOutput⟩⟩,
    ⟨.matrix (.ofLinear Colorimetry.ictcpToLms), .unit⟩,
    ⟨.decode quantizer, ⟨0, curve.maxOutput⟩⟩,
    ⟨.matrix (.ofLinear colorimetry.fromLms), ⟨Scalar.min 0 range.min, curve.maxOutput⟩⟩]

/-- The range that the first step of a conversion expects. -/
def conversionInput (source : Description α ω) : ValueRange α :=
  ⟨source.transfer.encode source.min, source.transfer.encode source.maxLuminance⟩

/-- The operations of a conversion. -/
def conversionAdditions (source target : Description α ω) (intent : Intent)
    (settings : Settings α) : List (Addition α) :=
  let decoded := (empty (conversionInput source)).addDecode source.transfer
  let light := lightConversion source target intent
  let toneMapping :=
    if needsToneMapping settings intent light.output.max target.maxLuminance then
      toneMappingAdditions light.output target.colorimetry
        (.ofLuminances target.reference light.output.max target.maxLuminance settings.maxHeadroom)
    else []
  ⟨.decode source.transfer, decoded.output⟩
    :: ⟨.matrix (source.lightConversion target intent),
        decoded.output * (target.reference / source.reference)⟩
    :: toneMapping ++ [⟨.encode target.transfer, .unit⟩]

end Pipeline

/-- The operations of a call where `range` is expected before it. -/
def Call.additions (range : ValueRange α) : Call α ω → List (Addition α)
  | .matrix m output => [⟨.matrix m, output⟩]
  | .multiplier gains output => [⟨.multiplier gains, output⟩]
  | .decode f => [⟨.decode f, range.map f.decode⟩]
  | .encode f => [⟨.encode f, range.map f.encode⟩]
  | .toneMapping colorimetry curve => Pipeline.toneMappingAdditions range colorimetry curve
  | .curves lut => [⟨.curves lut, ⟨lut.table.domainMin, lut.table.domainMax⟩⟩]
  | .cube lut => [⟨.cube lut, .unit⟩]
  | .add operation output => [⟨operation, output⟩]

namespace Pipeline

@[simp] theorem addAll_nil (p : Pipeline α) : p.addAll [] = p := rfl

@[simp] theorem addAll_cons (p : Pipeline α) (addition : Addition α)
    (additions : List (Addition α)) :
    p.addAll (addition :: additions) =
      (p.add addition.operation addition.output).addAll additions := rfl

theorem addAll_append (p : Pipeline α) (first second : List (Addition α)) :
    p.addAll (first ++ second) = (p.addAll first).addAll second := List.foldl_append

theorem call_eq (p : Pipeline α) (call : Call α ω) :
    p.call call = p.addAll (call.additions p.output) := by
  cases call <;> rfl

theorem merged_eq (p onTop : Pipeline α) :
    p.merged (ω := ω) onTop = p.addAll (onTop.steps.map Step.toAddition) := by
  simp only [merged, addAll, List.foldl_map, Step.toAddition]

theorem conversion_eq (source target : Description α ω) (intent : Intent)
    (settings : Settings α) :
    conversion source target intent settings =
      (empty (conversionInput source)).addAll
        (conversionAdditions source target intent settings) := by
  simp only [conversion, conversionAdditions, addAll_cons, addAll_append]
  split <;> rfl

end Pipeline

namespace Build

def pipeline : Build α ω → Pipeline α
  | empty input => .empty input
  | conversion source target intent settings => .conversion source target intent settings
  | call before next => before.pipeline.call next
  | merged before onTop => before.pipeline.merged (ω := ω) onTop.pipeline

/-- The operations that were asked for, in the order of the calls and before any fusion. -/
def requested : Build α ω → List (Operation α)
  | empty _ => []
  | conversion source target intent settings =>
    (Pipeline.conversionAdditions source target intent settings).map Addition.operation
  | call before next =>
    before.requested ++ (next.additions before.pipeline.output).map Addition.operation
  | merged before onTop => before.requested ++ onTop.requested

/-- What holds of empty pipelines, and is preserved by every addition of an operation of the allowed
sort, holds of every build that asks for such operations only.  A build that merges two others adds
steps of the second, so what is left of allowed operations has to be allowed as well. -/
theorem induction_requested (property : Pipeline α → Prop) (allowed : Operation α → Prop)
    (empty : ∀ input, property (.empty input))
    (add : ∀ p operation output, property p → allowed operation →
      property (Pipeline.add (ω := ω) p operation output))
    (left : ∀ p, property p → ∀ step ∈ p.latestFirst, allowed step.operation)
    {b : Build α ω} (requested : ∀ operation ∈ b.requested, allowed operation) :
    property b.pipeline := by
  -- Every call is a sequence of additions to what was built before.
  have addAll (additions : List (Addition α)) (p : Pipeline α) (start : property p)
      (each : ∀ addition ∈ additions, allowed addition.operation) :
      property (p.addAll (ω := ω) additions) := by
    induction additions generalizing p with
    | nil => exact start
    | cons addition additions inductionHypothesis =>
      obtain ⟨first, later⟩ := List.forall_mem_cons.mp each
      exact inductionHypothesis _ (add p addition.operation addition.output start first) later
  induction b with
  | empty input => exact empty input
  | conversion source target intent settings =>
    rw [pipeline, Pipeline.conversion_eq]
    exact addAll _ _ (empty _) (List.forall_mem_map.mp requested)
  | call before next inductionHypothesis =>
    obtain ⟨beforeAllowed, nextAllowed⟩ := List.forall_mem_append.mp requested
    rw [pipeline, Pipeline.call_eq]
    exact addAll _ _ (inductionHypothesis beforeAllowed) (List.forall_mem_map.mp nextAllowed)
  | merged before onTop beforeHypothesis onTopHypothesis =>
    obtain ⟨beforeAllowed, onTopAllowed⟩ := List.forall_mem_append.mp requested
    rw [pipeline, Pipeline.merged_eq]
    refine addAll _ _ (beforeHypothesis beforeAllowed) ?_
    simp only [List.forall_mem_map, Pipeline.steps, List.mem_reverse]
    exact left _ (onTopHypothesis onTopAllowed)

/-- A property of empty pipelines that every addition preserves is a property of every build. -/
theorem induction {property : Pipeline α → Prop} (empty : ∀ input, property (.empty input))
    (add : ∀ p operation output, property p →
      property (Pipeline.add (ω := ω) p operation output))
    (b : Build α ω) : property b.pipeline :=
  b.induction_requested property (fun _ => True) empty
    (fun p operation output holds _ => add p operation output holds)
    (fun _ _ _ _ => trivial) (fun _ _ => trivial)

end Build

end DisplayColor

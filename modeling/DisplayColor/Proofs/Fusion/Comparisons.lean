import DisplayColor.Proofs.Fusion.Rules
import DisplayColor.Proofs.Fusion.Build

/-! # The comparisons that fusion makes

Fusion decides by comparisons up to a tolerance, and where one succeeds on values that are not
exactly what it takes them for, colours change.  This module lists the comparisons of an addition,
of a sequence of additions and of a whole build in the order in which they are made, so that a
statement about fusion can say of which of them it depends that they were exact. -/

namespace DisplayColor

/-- A comparison up to a tolerance. -/
inductive FuzzyTest (α : Type)
  | identity (m : Mat4 α)
  | scaling (m : Mat4 α)
  | unitGain (gains : Vec3 α)
  | uniform (gains : Vec3 α)
  | sameTransfer (f g : TransferFunction α)

variable {α ω : Type} [Scalar α] [Scalar ω] [Precision α ω]

namespace FuzzyTest

def Succeeds : FuzzyTest α → Prop
  | identity m => m.isNearIdentity
  | scaling m => m.isNearScaling
  | unitGain gains => (LinearOperation.multiplier gains).isNegligible
  | uniform gains => gains.isUniform
  | sameTransfer f g => f == g

/-- What is compared is the same without any tolerance. -/
def IsExact : FuzzyTest α → Prop
  | identity m => m = Mat4.identity
  | scaling m => m = Mat4.scaling m.gains
  | unitGain gains => gains = Vec3.splat 1
  | uniform gains => gains = Vec3.splat gains.x
  | sameTransfer f g => f = g

end FuzzyTest

/-- Comparisons say yes only where there is no difference at all. -/
def AreExact (tests : List (FuzzyTest α)) : Prop := ∀ test ∈ tests, test.Succeeds → test.IsExact

theorem AreExact.of_subset {tests more : List (FuzzyTest α)} (exact : AreExact more)
    (subset : tests ⊆ more) : AreExact tests := fun test member => exact test (subset member)

/-! ## The comparisons of each function, in the order in which it makes them -/

namespace LinearOperation

def dropTest {α : Type} : LinearOperation α → FuzzyTest α
  | matrix m => .identity m
  | multiplier gains => .unitGain gains

def simplificationTests {α : Type} : LinearOperation α → List (FuzzyTest α)
  | matrix m => [.scaling m]
  | multiplier _ => []

end LinearOperation

namespace Pipeline

def foldTests {α : Type} : LinearOperation α → List (Step α) → List (FuzzyTest α)
  | .multiplier gains, ⟨_, .decode _, _⟩ :: _ => [.uniform gains]
  | _, _ => []

def settleTests (steps : List (Step α)) (operation : LinearOperation α) : List (FuzzyTest α) :=
  let simplified := operation.simplified
  operation.simplificationTests ++ simplified.dropTest ::
    if simplified.isNegligible then [] else foldTests simplified steps

def absorbTests : List (Step α) → LinearOperation α → List (FuzzyTest α)
  | [], operation =>
    operation.dropTest :: if operation.isNegligible then [] else settleTests [] operation
  | last :: rest, operation =>
    operation.dropTest ::
      if operation.isNegligible then []
      else
        match last.operation.linear? with
        | some before => absorbTests rest (operation.after (ω := ω) before)
        | none => settleTests (last :: rest) operation

def decodeTests (p : Pipeline α) (f : TransferFunction α) : List (FuzzyTest α) :=
  let append :=
    if f.curve = .linear then
      absorbTests (ω := ω) p.latestFirst (.matrix (decodeMatrix (ω := ω) f))
    else []
  match p.latestFirst with
  | ⟨_, .encode previous, _⟩ :: _ =>
    .sameTransfer previous f :: if previous == f then [] else append
  | _ => append

def encodeTests (p : Pipeline α) (f : TransferFunction α) : List (FuzzyTest α) :=
  let append :=
    if f.curve = .linear then
      absorbTests (ω := ω) p.latestFirst (.matrix (encodeMatrix (ω := ω) f))
    else []
  match p.latestFirst with
  | ⟨_, .decode previous, _⟩ :: _ =>
    .sameTransfer previous f :: if previous == f then [] else append
  | _ => append

def addTests (p : Pipeline α) : Operation α → List (FuzzyTest α)
  | .matrix m => absorbTests (ω := ω) p.latestFirst (.matrix m)
  | .multiplier gains => absorbTests (ω := ω) p.latestFirst (.multiplier gains)
  | .decode f => p.decodeTests (ω := ω) f
  | .encode f => p.encodeTests (ω := ω) f
  | _ => []

def addAllTests (p : Pipeline α) : List (Addition α) → List (FuzzyTest α)
  | [] => []
  | addition :: additions =>
    p.addTests (ω := ω) addition.operation ++
      (p.add (ω := ω) addition.operation addition.output).addAllTests additions

/-! ## Which comparisons lead to which outcome -/

theorem dropTest_mem_absorbTests (steps : List (Step α)) (operation : LinearOperation α) :
    operation.dropTest ∈ absorbTests (ω := ω) steps operation := by
  cases steps <;> exact List.mem_cons_self ..

theorem absorbTests_combined {last : Step α} {rest : List (Step α)}
    {operation before : LinearOperation α} (kept : ¬ operation.isNegligible)
    (linear : last.operation.linear? = some before) :
    absorbTests (ω := ω) rest (operation.after (ω := ω) before) ⊆
      absorbTests (ω := ω) (last :: rest) operation := by
  simp only [absorbTests, kept, linear]
  exact List.subset_cons_self ..

theorem absorbTests_settled {steps : List (Step α)} {operation : LinearOperation α}
    (kept : ¬ operation.isNegligible) (nonlinear : EndsNonlinear steps) :
    settleTests steps operation ⊆ absorbTests (ω := ω) steps operation := by
  cases steps with
  | nil =>
    simp only [absorbTests, kept]
    exact List.subset_cons_self ..
  | cons last rest =>
    have notLinear : last.operation.linear? = none := nonlinear last rfl
    simp only [absorbTests, kept, notLinear]
    exact List.subset_cons_self ..

theorem simplificationTests_subset (steps : List (Step α)) (operation : LinearOperation α) :
    operation.simplificationTests ⊆ settleTests steps operation := List.subset_append_left ..

theorem dropTest_mem_settleTests (steps : List (Step α)) (operation : LinearOperation α) :
    operation.simplified.dropTest ∈ settleTests steps operation :=
  List.mem_append_right _ (List.mem_cons_self ..)

theorem uniform_mem_settleTests {before after : ValueRange α} {f : TransferFunction α}
    {rest : List (Step α)} {operation : LinearOperation α} {gains : Vec3 α}
    (simplified : operation.simplified = .multiplier gains)
    (kept : ¬ (LinearOperation.multiplier gains).isNegligible) :
    .uniform gains ∈ settleTests (⟨before, .decode f, after⟩ :: rest) operation := by
  simp [settleTests, simplified, kept, foldTests]

theorem sameTransfer_mem_decodeTests {p : Pipeline α} {f previous : TransferFunction α}
    {input output : ValueRange α} {rest : List (Step α)}
    (last : p.latestFirst = ⟨input, .encode previous, output⟩ :: rest) :
    .sameTransfer previous f ∈ p.decodeTests (ω := ω) f := by
  simp [decodeTests, last]

theorem sameTransfer_mem_encodeTests {p : Pipeline α} {f previous : TransferFunction α}
    {input output : ValueRange α} {rest : List (Step α)}
    (last : p.latestFirst = ⟨input, .decode previous, output⟩ :: rest) :
    .sameTransfer previous f ∈ p.encodeTests (ω := ω) f := by
  simp [encodeTests, last]

theorem absorbTests_subset_decodeTests {p : Pipeline α} {f : TransferFunction α}
    (curve : f.curve = .linear) (apart : EndsWithoutEncode p.latestFirst f) :
    absorbTests (ω := ω) p.latestFirst (.matrix (decodeMatrix (ω := ω) f)) ⊆
      p.decodeTests (ω := ω) f := by
  simp only [decodeTests, curve]
  split
  · rename_i last
    have differs := apart _ (by rw [last]; rfl) _ rfl
    simp only [differs]
    exact List.subset_cons_self ..
  · exact List.Subset.refl _

theorem absorbTests_subset_encodeTests {p : Pipeline α} {f : TransferFunction α}
    (curve : f.curve = .linear) (apart : EndsWithoutDecode p.latestFirst f) :
    absorbTests (ω := ω) p.latestFirst (.matrix (encodeMatrix (ω := ω) f)) ⊆
      p.encodeTests (ω := ω) f := by
  simp only [encodeTests, curve]
  split
  · rename_i last
    have differs := apart _ (by rw [last]; rfl) _ rfl
    simp only [differs]
    exact List.subset_cons_self ..
  · exact List.Subset.refl _

end Pipeline

def Build.tests : Build α ω → List (FuzzyTest α)
  | empty _ => []
  | conversion source target intent settings =>
    (Pipeline.empty (Pipeline.conversionInput source)).addAllTests (ω := ω)
      (Pipeline.conversionAdditions source target intent settings)
  | call before next =>
    before.tests ++
      before.pipeline.addAllTests (ω := ω) (next.additions before.pipeline.output)
  | merged before onTop =>
    before.tests ++ onTop.tests ++
      before.pipeline.addAllTests (ω := ω) (onTop.pipeline.steps.map Step.toAddition)

end DisplayColor

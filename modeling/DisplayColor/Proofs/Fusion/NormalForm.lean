import Mathlib.Data.List.Chain
import DisplayColor.Proofs.Fusion.Build
import DisplayColor.Proofs.Fusion.Rules

/-! # The normal form of pipelines

Fusion only looks at the end of a pipeline, and yet nothing is left anywhere in it that its rules
would still fuse, drop or cancel.  The reason is that `IsFused` survives the loss of the last step:
a step that is popped for fusion or by a cancellation leaves a pipeline in normal form, and what is
appended to it has just been compared with the step it follows.

No law of arithmetic is used.  The facts hold of every type of scalars, so also where comparisons
see undefined values, and of matrices with any bottom row. -/

namespace DisplayColor

variable {α ω : Type} [Scalar α] [Scalar ω] [Precision α ω]

namespace Operation

/-- Fusion never leaves the operation as it is, wherever it stands: a matrix that is the identity or
only scales up to the tolerance, a unit gain, or a linear transfer function. -/
def IsReducible : Operation α → Prop
  | matrix m => m.isNearIdentity ∨ m.isNearScaling
  | multiplier gains => (LinearOperation.multiplier gains).isNegligible
  | decode f => f.curve = .linear
  | encode f => f.curve = .linear
  | _ => False

/-- Fusion never leaves the second operation right after the first: two linear operations, a uniform
positive gain after a transfer function, or the inverse of an equal transfer function. -/
def FusesWith : Operation α → Operation α → Prop
  | matrix _, matrix _ => True
  | matrix _, multiplier _ => True
  | multiplier _, matrix _ => True
  | multiplier _, multiplier _ => True
  | decode _, multiplier gains => gains.IsFoldable
  | decode f, encode g => f == g
  | _, _ => False

theorem not_fusesWith_decode (before : Operation α) (f : TransferFunction α) :
    ¬ before.FusesWith (.decode f) := by
  cases before <;> simp [FusesWith]

theorem fusesWith_of_linear {before after : Operation α} (first : before.linear?.isSome)
    (second : after.linear?.isSome) : before.FusesWith after := by
  cases before with
  | matrix _ | multiplier _ =>
    cases after with
    | matrix _ | multiplier _ => trivial
    | _ => cases second
  | _ => cases first

end Operation

/-- Every step stays as it is, and so do every two neighbours. -/
def Pipeline.IsFused (p : Pipeline α) : Prop :=
  (∀ step ∈ p.steps, ¬ step.operation.IsReducible) ∧
    p.steps.IsChain fun before after => ¬ before.operation.FusesWith after.operation

/-- `Pipeline.IsFused` for steps that are held latest first. -/
structure AreFused (latestFirst : List (Step α)) : Prop where
  irreducible : ∀ step ∈ latestFirst, ¬ step.operation.IsReducible
  apart : latestFirst.IsChain fun after before => ¬ before.operation.FusesWith after.operation

theorem Pipeline.isFused_iff {p : Pipeline α} : p.IsFused ↔ AreFused p.latestFirst := by
  simp only [IsFused, steps, List.mem_reverse, List.isChain_reverse]
  refine ⟨?_, fun fused => ⟨fused.1, fused.2⟩⟩
  rintro ⟨irreducible, apart⟩
  exact ⟨irreducible, apart⟩

namespace AreFused

theorem nil : AreFused ([] : List (Step α)) := ⟨by simp, by simp⟩

theorem tail {last : Step α} {rest : List (Step α)} (fused : AreFused (last :: rest)) :
    AreFused rest :=
  ⟨fun step member => fused.irreducible step (List.mem_cons_of_mem last member), fused.apart.tail⟩

theorem cons {next : Step α} {steps : List (Step α)} (fused : AreFused steps)
    (irreducible : ¬ next.operation.IsReducible)
    (apart : ∀ last ∈ steps.head?, ¬ last.operation.FusesWith next.operation) :
    AreFused (next :: steps) := by
  refine ⟨?_, ?_⟩
  · intro step member
    cases member with
    | head => exact irreducible
    | tail _ member => exact fused.irreducible step member
  · exact List.IsChain.cons fused.apart apart

/-- What is known of a transfer function at the end depends on its curve alone. -/
theorem replaceDecode {f g : TransferFunction α} {input output input' output' : ValueRange α}
    {rest : List (Step α)} (fused : AreFused (⟨input, .decode f, output⟩ :: rest))
    (curve : g.curve = f.curve) : AreFused (⟨input', .decode g, output'⟩ :: rest) := by
  refine fused.tail.cons ?_ fun last _ => Operation.not_fusesWith_decode _ _
  have irreducible := fused.irreducible _ (List.mem_cons_self ..)
  simpa only [Operation.IsReducible, curve] using irreducible

end AreFused

namespace TransferFunction

theorem curve_withRange (curve : Curve) (min max : α) :
    (withRange curve min max).curve = curve := by
  unfold withRange
  split <;> rfl

theorem curve_scaled (f : TransferFunction α) (factor : α) : (f.scaled factor).curve = f.curve := by
  unfold scaled
  split
  · rfl
  · exact curve_withRange _ _ _

end TransferFunction

namespace LinearOperation

theorem not_isReducible {operation : LinearOperation α}
    (kept : ¬ operation.simplified.isNegligible) :
    ¬ operation.simplified.toOperation.IsReducible := by
  cases operation with
  | multiplier gains => exact kept
  | matrix m =>
    cases scaling : m.isNearScaling with
    | true => simpa [simplified, scaling, toOperation, Operation.IsReducible] using kept
    | false =>
      simpa [simplified, scaling, toOperation, Operation.IsReducible, isNegligible] using kept

end LinearOperation

namespace Pipeline

theorem Settled.areFused {input output : ValueRange α} {steps result : List (Step α)}
    {operation : LinearOperation α} (settled : Settled input output steps operation result)
    (fused : AreFused steps) (nonlinear : EndsNonlinear steps)
    (irreducible : ¬ operation.isNegligible → ¬ operation.toOperation.IsReducible) :
    AreFused result := by
  cases settled with
  | dropped _ => exact fused
  | folded _ _ => exact fused.replaceDecode (TransferFunction.curve_scaled _ _)
  | appended kept apart =>
    refine fused.cons (irreducible kept) ?_
    rintro ⟨before, last, after⟩ member
    have notLinear := nonlinear _ member
    cases last with
    | matrix m | multiplier gains => cases notLinear
    | encode f | toneMap curve | curves lut | cube lut => cases operation <;> exact id
    | decode f =>
      cases operation with
      | matrix m => exact id
      | multiplier gains => exact apart gains f rfl ⟨_, member, rfl⟩

theorem Absorbed.areFused {input output : ValueRange α} {steps result : List (Step α)}
    {operation : LinearOperation α}
    (absorbed : Absorbed (ω := ω) input output steps operation result) (fused : AreFused steps) :
    AreFused result := by
  induction absorbed with
  | dropped _ => exact fused
  | combined _ _ _ inductionHypothesis => exact inductionHypothesis fused.tail
  | settled _ nonlinear settled =>
    exact settled.areFused fused nonlinear LinearOperation.not_isReducible

theorem isFused_addLinear {p : Pipeline α} (fused : p.IsFused) (operation : LinearOperation α)
    (output : ValueRange α) : (p.addLinear (ω := ω) operation output).IsFused :=
  isFused_iff.mpr
    ((absorbed p.input output p.latestFirst operation).areFused (isFused_iff.mp fused))

theorem DecodeAdded.isFused {p q : Pipeline α} {f : TransferFunction α}
    (added : DecodeAdded (ω := ω) p f q) (fused : p.IsFused) : q.IsFused := by
  cases added with
  | cancelled last _ =>
    rw [isFused_iff, last] at fused
    exact isFused_iff.mpr fused.tail
  | linear _ _ => exact isFused_addLinear fused _ _
  | pushed _ curve =>
    exact isFused_iff.mpr ((isFused_iff.mp fused).cons curve
      fun last _ => Operation.not_fusesWith_decode _ _)

theorem EncodeAdded.isFused {p q : Pipeline α} {f : TransferFunction α}
    (added : EncodeAdded (ω := ω) p f q) (fused : p.IsFused) : q.IsFused := by
  cases added with
  | cancelled last _ =>
    rw [isFused_iff, last] at fused
    exact isFused_iff.mpr fused.tail
  | linear _ _ => exact isFused_addLinear fused _ _
  | pushed apart curve =>
    refine isFused_iff.mpr ((isFused_iff.mp fused).cons curve ?_)
    rintro ⟨_, last, _⟩ member
    cases last with
    | decode previous => exact apart _ member previous rfl
    | _ => exact id

theorem isFused_push {p : Pipeline α} (fused : p.IsFused) {operation : Operation α}
    (irreducible : ¬ operation.IsReducible)
    (apart : ∀ before : Operation α, ¬ before.FusesWith operation) (output : ValueRange α) :
    (p.push operation output).IsFused :=
  isFused_iff.mpr ((isFused_iff.mp fused).cons irreducible fun last _ => apart last.operation)

theorem isFused_add {p : Pipeline α} (fused : p.IsFused) (operation : Operation α)
    (output : ValueRange α) : (p.add (ω := ω) operation output).IsFused := by
  cases operation with
  | matrix m => exact isFused_addLinear fused _ _
  | multiplier gains => exact isFused_addLinear fused _ _
  | decode f => exact (decodeAdded p f).isFused fused
  | encode f => exact (encodeAdded p f).isFused fused
  | toneMap _ | curves _ | cube _ =>
    exact isFused_push fused id (fun before => by cases before <;> exact id) output

end Pipeline

theorem Build.isFused (b : Build α ω) : b.pipeline.IsFused := by
  refine b.induction ?_ ?_
  · intro input
    exact Pipeline.isFused_iff.mpr .nil
  · intro p operation output fused
    exact Pipeline.isFused_add fused operation output

/-- Of a pipeline that comes about by calls of the builder, with whatever arguments: no two
neighbours are both linear, no matrix is the identity or only scales, no gain is a unit gain, no
uniform positive gain follows a transfer function, no transfer function is linear, and none is
followed by the inverse of an equal one. -/
theorem Build.steps_normal_form (b : Build α ω) :
    b.pipeline.steps.IsChain (fun before after =>
      ¬ (before.operation.linear?.isSome ∧ after.operation.linear?.isSome)) ∧
    (∀ step ∈ b.pipeline.steps, ∀ m, step.operation = .matrix m →
      ¬ m.isNearIdentity ∧ ¬ m.isNearScaling) ∧
    (∀ step ∈ b.pipeline.steps, ∀ gains, step.operation = .multiplier gains →
      ¬ (gains - Vec3.splat 1).lengthSquared < (1e-10 : α)) ∧
    b.pipeline.steps.IsChain (fun before after =>
      ∀ f gains, before.operation = .decode f → after.operation = .multiplier gains →
        ¬ (gains.isUniform ∧ Scalar.isFinite gains.x ∧ 0 < gains.x)) ∧
    (∀ step ∈ b.pipeline.steps, ∀ f, step.operation = .decode f ∨ step.operation = .encode f →
      f.curve ≠ .linear) ∧
    b.pipeline.steps.IsChain (fun before after =>
      ∀ f g, before.operation = .decode f → after.operation = .encode g → ¬ f == g) := by
  obtain ⟨irreducible, apart⟩ := b.isFused
  refine ⟨?_, ?_, ?_, ?_, ?_, ?_⟩
  · refine apart.imp ?_
    intro before after separate linear
    exact separate (Operation.fusesWith_of_linear linear.1 linear.2)
  · rintro ⟨_, _, _⟩ member m rfl
    exact not_or.mp (irreducible _ member)
  · rintro ⟨_, _, _⟩ member gains rfl unit
    exact irreducible _ member (decide_eq_true unit)
  · refine apart.imp ?_
    rintro ⟨_, _, _⟩ ⟨_, _, _⟩ separate f gains rfl rfl
    exact separate
  · rintro ⟨_, _, _⟩ member f (rfl | rfl)
    · exact irreducible _ member
    · exact irreducible _ member
  · refine apart.imp ?_
    rintro ⟨_, _, _⟩ ⟨_, _, _⟩ separate f g rfl rfl
    exact separate

end DisplayColor

import DisplayColor.Proofs.Fusion.NormalForm
import DisplayColor.Proofs.Fusion.Undoing
import DisplayColor.Proofs.Fusion.Build

/-! # Replaying a pipeline

A pipeline that is already fused is a fixed point of fusion: added one after another to an empty
pipeline, its operations come out as they went in, data and all.  Each of them meets the same
neighbour as before, and in normal form no rule applies to the two.

The one rule that a pipeline in normal form can still break is that a transfer function cancels with
an equal inverse one before it.  Such a pair is dropped by a replay, and what is left is shorter
then, since no addition makes a pipeline longer by more than one step.  So a replay changes nothing
exactly when there is no such pair.

Only comparisons that were made before are made again, so nothing depends on what the numbers are:
undefined values and a comparison that is not reflexive do no harm. -/

namespace DisplayColor

variable {α ω : Type} [Scalar α] [Scalar ω] [Precision α ω]

namespace LinearOperation

theorem isReducible_of_isNegligible {operation : LinearOperation α}
    (negligible : operation.isNegligible) : operation.toOperation.IsReducible := by
  cases operation with
  | matrix m => exact .inl negligible
  | multiplier gains => exact negligible

theorem simplified_eq_self {operation : LinearOperation α}
    (irreducible : ¬ operation.toOperation.IsReducible) : operation.simplified = operation := by
  cases operation with
  | matrix m => exact if_neg fun scales => irreducible (.inr scales)
  | multiplier gains => rfl

end LinearOperation

namespace Pipeline

/-! ## One addition -/

/-- Added right after these steps, no rule applies to the operation. -/
structure Stays (steps : List (Step α)) (operation : Operation α) : Prop where
  irreducible : ¬ operation.IsReducible
  apart : ∀ last ∈ steps.head?, ¬ last.operation.FusesWith operation
  keeps : ∀ last ∈ steps.head?, ¬ operation.undoes last.operation

/-- Whether an operation stays depends on the last operation alone, not on its ranges. -/
theorem Stays.of_operations_eq {steps others : List (Step α)} {operation : Operation α}
    (stays : Stays steps operation)
    (same : others.map Step.operation = steps.map Step.operation) : Stays others operation := by
  have heads : others.head?.map Step.operation = steps.head?.map Step.operation := by
    rw [← List.head?_map, ← List.head?_map, same]
  have counterpart : ∀ last ∈ others.head?, ∃ first ∈ steps.head?,
      first.operation = last.operation := by
    intro last member
    rw [Option.mem_def.mp member] at heads
    exact Option.map_eq_some_iff.mp heads.symm
  refine ⟨stays.irreducible, ?_, ?_⟩
  · intro last member
    obtain ⟨first, memberFirst, equal⟩ := counterpart last member
    rw [← equal]
    exact stays.apart first memberFirst
  · intro last member
    obtain ⟨first, memberFirst, equal⟩ := counterpart last member
    rw [← equal]
    exact stays.keeps first memberFirst

theorem absorb_of_stays {steps : List (Step α)} (operation : LinearOperation α)
    (stays : Stays steps operation.toOperation) (input output : ValueRange α) :
    absorb (ω := ω) input output steps operation =
      ⟨rangeAfter input steps, operation.toOperation, output⟩ :: steps := by
  have added := absorbed (ω := ω) input output steps operation
  generalize absorb (ω := ω) input output steps operation = result at added ⊢
  -- Each way to absorb an operation other than to append it is a rule that does not apply.
  cases added with
  | dropped negligible =>
    exact absurd (LinearOperation.isReducible_of_isNegligible negligible) stays.irreducible
  | combined _ linear _ =>
    refine absurd (Operation.fusesWith_of_linear ?_ ?_) (stays.apart _ rfl)
    · rw [linear]
      rfl
    · rw [operation.linear?_toOperation]
      rfl
  | settled kept _ settled =>
    rw [LinearOperation.simplified_eq_self stays.irreducible] at settled
    cases settled with
    | dropped negligible => exact absurd negligible kept
    | folded _ foldable => exact absurd foldable (stays.apart _ rfl)
    | appended _ _ => rfl

/-- Where no rule applies, the operation becomes the last step. -/
theorem exists_add_eq_push {p : Pipeline α} {operation : Operation α}
    (stays : Stays p.latestFirst operation) (output : ValueRange α) :
    ∃ range, p.add (ω := ω) operation output = p.push operation range := by
  cases operation with
  | matrix m =>
    exact ⟨output, congrArg (Pipeline.mk p.input)
      (absorb_of_stays (.matrix m) stays p.input output)⟩
  | multiplier gains =>
    exact ⟨output, congrArg (Pipeline.mk p.input)
      (absorb_of_stays (.multiplier gains) stays p.input output)⟩
  | decode f =>
    have decoded := decodeAdded (ω := ω) p f
    simp only [add]
    generalize p.addDecode (ω := ω) f = result at decoded ⊢
    cases decoded with
    | cancelled ends same =>
      exact absurd same (stays.keeps _ (List.head?_eq_some_iff.mpr ⟨_, ends⟩))
    | linear _ curve => exact absurd curve stays.irreducible
    | pushed _ _ => exact ⟨_, rfl⟩
  | encode f =>
    have encoded := encodeAdded (ω := ω) p f
    simp only [add]
    generalize p.addEncode (ω := ω) f = result at encoded ⊢
    cases encoded with
    | cancelled ends same =>
      exact absurd same (stays.apart _ (List.head?_eq_some_iff.mpr ⟨_, ends⟩))
    | linear _ curve => exact absurd curve stays.irreducible
    | pushed _ _ => exact ⟨_, rfl⟩
  | toneMap _ | curves _ | cube _ => exact ⟨output, rfl⟩

theorem Absorbed.length_le {input output : ValueRange α} {steps result : List (Step α)}
    {operation : LinearOperation α}
    (absorbed : Absorbed (ω := ω) input output steps operation result) :
    result.length ≤ steps.length + 1 := by
  induction absorbed with
  | dropped _ => exact Nat.le_succ _
  | combined _ _ _ inductionHypothesis =>
    rw [List.length_cons]
    omega
  | @settled _ _ operation _ _ settled =>
    generalize operation.simplified = simplified at settled
    cases settled with
    | dropped _ | folded _ _ => exact Nat.le_succ _
    | appended _ _ => exact Nat.le_refl _

theorem length_add_le (p : Pipeline α) (operation : Operation α) (output : ValueRange α) :
    (p.add (ω := ω) operation output).length ≤ p.length + 1 := by
  have added := added (ω := ω) p operation output
  generalize p.add (ω := ω) operation output = result at added ⊢
  cases added with
  | cancelled ends =>
    simp only [length, ends, List.length_cons]
    omega
  | linear linear output => exact (absorbed p.input output p.latestFirst linear).length_le
  | pushed _ _ => exact Nat.le_refl _

/-- An operation that undoes the last one takes it away. -/
theorem length_add_lt {p : Pipeline α} {last : Step α} {rest : List (Step α)}
    {operation : Operation α} (ends : p.latestFirst = last :: rest)
    (undoes : operation.undoes last.operation) (output : ValueRange α) :
    (p.add (ω := ω) operation output).length < p.length := by
  obtain ⟨input, before, after⟩ := last
  cases operation with
  | decode f =>
    cases before with
    | encode previous =>
      have same : previous == f := undoes
      simp only [add, addDecode, length, ends, same, if_true, List.length_cons]
      exact Nat.lt_succ_self _
    | matrix _ | multiplier _ | decode _ | toneMap _ | curves _ | cube _ => cases undoes
  | matrix _ | multiplier _ | encode _ | toneMap _ | curves _ | cube _ => cases undoes

/-! ## All operations of a pipeline -/

/-- What comes out when steps, held latest first, are added again from the earliest on. -/
def replay (input : ValueRange α) (steps : List (Step α)) : Pipeline α :=
  (empty input).addAll (ω := ω) (steps.reverse.map Step.toAddition)

theorem replay_cons (input : ValueRange α) (last : Step α) (rest : List (Step α)) :
    replay (ω := ω) input (last :: rest) =
      (replay (ω := ω) input rest).add (ω := ω) last.operation last.output := by
  simp only [replay, List.reverse_cons, List.map_append, addAll_append]
  rfl

theorem replay_eq_merged (p : Pipeline α) :
    replay (ω := ω) p.input p.latestFirst = (empty p.input).merged (ω := ω) p :=
  (merged_eq (empty p.input) p).symm

theorem length_replay_le (input : ValueRange α) (steps : List (Step α)) :
    (replay (ω := ω) input steps).length ≤ steps.length := by
  induction steps with
  | nil => exact Nat.le_refl _
  | cons last rest inductionHypothesis =>
    rw [replay_cons, List.length_cons]
    exact Nat.le_trans (length_add_le _ _ _) (Nat.succ_le_succ inductionHypothesis)

theorem operations_replay {steps : List (Step α)} (fused : AreFused steps)
    (apart : ArePairsApart steps) (input : ValueRange α) :
    (replay (ω := ω) input steps).latestFirst.map Step.operation = steps.map Step.operation := by
  induction steps with
  | nil => rfl
  | cons last rest inductionHypothesis =>
    obtain ⟨separate, _⟩ := List.isChain_cons.mp fused.apart
    obtain ⟨keeps, apart⟩ := List.isChain_cons.mp apart
    have same := inductionHypothesis fused.tail apart
    -- In the replay the operation has the neighbour that it had, though perhaps with other ranges.
    have stays : Stays rest last.operation :=
      ⟨fused.irreducible _ (List.mem_cons_self ..), separate, keeps⟩
    obtain ⟨range, pushed⟩ := exists_add_eq_push (ω := ω) (stays.of_operations_eq same) last.output
    rw [replay_cons, pushed, push, List.map_cons, same, List.map_cons]

/-- Where a replay has as many steps as before, no pair was dropped. -/
theorem arePairsApart_of_length_replay {steps : List (Step α)} (fused : AreFused steps)
    {input : ValueRange α} (whole : (replay (ω := ω) input steps).length = steps.length) :
    ArePairsApart steps := by
  induction steps with
  | nil => exact List.isChain_nil
  | cons last rest inductionHypothesis =>
    rw [replay_cons, List.length_cons] at whole
    have shorter := length_replay_le (ω := ω) input rest
    have longer := length_add_le (ω := ω) (replay (ω := ω) input rest) last.operation last.output
    -- Neither the steps before nor the last addition can have lost one.
    have apart := inductionHypothesis fused.tail (by omega)
    have same := operations_replay (ω := ω) fused.tail apart input
    refine apart.cons ?_
    intro before member undoes
    obtain ⟨earlier, rfl⟩ := List.head?_eq_some_iff.mp member
    obtain ⟨counterpart, _, ends, equal, _⟩ := List.map_eq_cons_iff.mp same
    rw [← equal] at undoes
    have lost := length_add_lt (ω := ω) ends undoes last.output
    omega

end Pipeline

/-- Adding a pipeline that came about by calls of the builder, with whatever arguments, to an empty
one gives the same operations in the same order, with the same data, exactly when no inverse
transfer function in it is followed by an equal transfer function. -/
theorem Build.operations_replayed (b : Build α ω) :
    ((Pipeline.empty b.pipeline.input).merged (ω := ω) b.pipeline).operations =
        b.pipeline.operations ↔
      b.pipeline.steps.IsChain fun before after =>
        ∀ f g, before.operation = .encode f → after.operation = .decode g → ¬ f == g := by
  have fused := Pipeline.isFused_iff.mp b.isFused
  rw [← Pipeline.arePairsApart_iff, ← Pipeline.replay_eq_merged]
  simp only [Pipeline.operations, Pipeline.steps, List.map_reverse, List.reverse_inj]
  refine ⟨?_, fun apart => Pipeline.operations_replay fused apart _⟩
  intro same
  have lengths := congrArg List.length same
  rw [List.length_map, List.length_map] at lengths
  exact Pipeline.arePairsApart_of_length_replay fused lengths

end DisplayColor

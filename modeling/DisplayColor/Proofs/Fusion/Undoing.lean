import Mathlib.Data.List.Chain
import DisplayColor.Proofs.Fusion.Rules
import DisplayColor.Proofs.Fusion.Build
import DisplayColor.Scalar.Binary

/-! # A transfer function after its own inverse

An inverse transfer function and an equal transfer function after it do nothing, and where they meet
both are dropped.  They are compared once, when the second one is added.  A gain that is added later
goes into the second one in place, and it is not compared again, so the two can come to be equal
after all, and then they stay.

This is the only way in which such a pair can arise: no step is ever taken away between two others,
and an addition that changes the last step in any other way compares it with what comes before. -/

namespace DisplayColor

variable {α ω : Type} [Scalar α] [Scalar ω] [Precision α ω]

namespace Operation

/-- A transfer function undoes an equal inverse one before it. -/
def undoes : Operation α → Operation α → Bool
  | decode f, encode before => before == f
  | _, _ => false

theorem not_undoes_iff {after before : Operation α} :
    ¬ after.undoes before ↔ ∀ f g, before = encode f → after = decode g → ¬ f == g := by
  refine ⟨?_, ?_⟩
  · rintro apart f g rfl rfl
    exact apart
  · intro apart
    cases after with
    | decode g =>
      cases before with
      | encode f => exact apart f g rfl rfl
      | matrix _ | multiplier _ | decode _ | toneMap _ | curves _ | cube _ =>
        exact Bool.false_ne_true
    | matrix _ | multiplier _ | encode _ | toneMap _ | curves _ | cube _ =>
      exact Bool.false_ne_true

theorem not_undoes_linear (linear : LinearOperation α) (before : Operation α) :
    ¬ linear.toOperation.undoes before := by
  cases linear <;> exact Bool.false_ne_true

end Operation

namespace Pipeline

/-- No step undoes the one right before it.  The steps are held latest first. -/
def ArePairsApart (steps : List (Step α)) : Prop :=
  steps.IsChain fun after before => ¬ after.operation.undoes before.operation

instance (steps : List (Step α)) : Decidable (ArePairsApart steps) :=
  inferInstanceAs (Decidable (steps.IsChain _))

theorem arePairsApart_iff {p : Pipeline α} :
    ArePairsApart p.latestFirst ↔ p.steps.IsChain fun before after =>
      ∀ f g, before.operation = .encode f → after.operation = .decode g → ¬ f == g := by
  simp only [ArePairsApart, steps, List.isChain_reverse, Operation.not_undoes_iff]

/-- The linear steps at the end are popped, and the gain that they and the new operation amount to
goes into the transfer function before them.  By this, and not earlier, the function comes to undo
the step before it. -/
inductive Completes : List (Step α) → List (Step α) → Prop
  | intro (popped : List (Step α)) {rest : List (Step α)} {before : Step α}
      {input output : ValueRange α} {f : TransferFunction α} {gain : α}
      (linear : ∀ step ∈ popped, step.operation.linear?.isSome) (positive : 0 < gain)
      (apart : ¬ (Operation.decode f).undoes before.operation)
      (undoes : (Operation.decode (f.scaled gain)).undoes before.operation) :
      Completes (popped ++ ⟨input, .decode f, output⟩ :: before :: rest)
        (⟨input, .decode (f.scaled gain), output * gain⟩ :: before :: rest)

theorem Completes.cons {last : Step α} {steps result : List (Step α)}
    (completes : Completes steps result) (linear : last.operation.linear?.isSome) :
    Completes (last :: steps) result := by
  cases completes with
  | intro popped poppedLinear positive apart undoes =>
    exact .intro (last :: popped) (List.forall_mem_cons.mpr ⟨linear, poppedLinear⟩) positive apart
      undoes

theorem Completes.not_arePairsApart {steps result : List (Step α)}
    (completes : Completes steps result) : ¬ ArePairsApart result := by
  obtain ⟨_, _, _, _, undoes⟩ := completes
  intro apart
  exact (List.isChain_cons_cons.mp apart).1 undoes

/-! ## One addition -/

theorem ArePairsApart.cons {last : Step α} {steps : List (Step α)} (apart : ArePairsApart steps)
    (keeps : ∀ before ∈ steps.head?, ¬ last.operation.undoes before.operation) :
    ArePairsApart (last :: steps) := List.IsChain.cons apart keeps

theorem Settled.arePairsApart {input output : ValueRange α} {steps result : List (Step α)}
    {operation : LinearOperation α} (settled : Settled input output steps operation result)
    (apart : ArePairsApart steps) : ArePairsApart result ∨ Completes steps result := by
  cases settled with
  | dropped _ => exact .inl apart
  | @folded _ _ f rest gains _ foldable =>
    cases rest with
    | nil => exact .inl (List.isChain_singleton _)
    | cons before earlier =>
      obtain ⟨differs, apart⟩ := List.isChain_cons_cons.mp apart
      -- The function has changed and its neighbour has not.
      by_cases undoes : (Operation.decode (f.scaled gains.x)).undoes before.operation
      · exact .inr (.intro [] (List.forall_mem_nil _) foldable.2.2 differs undoes)
      · exact .inl (List.isChain_cons_cons.mpr ⟨undoes, apart⟩)
  | appended _ _ => exact .inl (apart.cons fun _ _ => Operation.not_undoes_linear operation _)

theorem Absorbed.arePairsApart {input output : ValueRange α} {steps result : List (Step α)}
    {operation : LinearOperation α}
    (absorbed : Absorbed (ω := ω) input output steps operation result)
    (apart : ArePairsApart steps) : ArePairsApart result ∨ Completes steps result := by
  induction absorbed with
  | dropped _ => exact .inl apart
  | combined _ linear _ inductionHypothesis =>
    have popped := Option.isSome_of_eq_some linear
    exact (inductionHypothesis apart.tail).imp_right fun completes => completes.cons popped
  | settled _ _ settled => exact settled.arePairsApart apart

theorem arePairsApart_addLinear {p : Pipeline α} (apart : ArePairsApart p.latestFirst)
    (operation : LinearOperation α) (output : ValueRange α) :
    ArePairsApart (p.addLinear (ω := ω) operation output).latestFirst ∨
      Completes p.latestFirst (p.addLinear (ω := ω) operation output).latestFirst :=
  (absorbed (ω := ω) p.input output p.latestFirst operation).arePairsApart apart

theorem EndsWithoutEncode.not_undoes {steps : List (Step α)} {f : TransferFunction α}
    (differs : EndsWithoutEncode steps f) :
    ∀ before ∈ steps.head?, ¬ (Operation.decode f).undoes before.operation := by
  rintro ⟨_, before, _⟩ member
  cases before with
  | encode previous => exact differs _ member previous rfl
  | matrix _ | multiplier _ | decode _ | toneMap _ | curves _ | cube _ => exact Bool.false_ne_true

theorem DecodeAdded.arePairsApart {p q : Pipeline α} {f : TransferFunction α}
    (added : DecodeAdded (ω := ω) p f q) (apart : ArePairsApart p.latestFirst) :
    ArePairsApart q.latestFirst ∨ Completes p.latestFirst q.latestFirst := by
  cases added with
  | cancelled last _ =>
    rw [last] at apart
    exact .inl apart.tail
  | linear _ _ => exact arePairsApart_addLinear apart _ _
  | pushed differs _ => exact .inl (apart.cons differs.not_undoes)

theorem EncodeAdded.arePairsApart {p q : Pipeline α} {f : TransferFunction α}
    (added : EncodeAdded (ω := ω) p f q) (apart : ArePairsApart p.latestFirst) :
    ArePairsApart q.latestFirst ∨ Completes p.latestFirst q.latestFirst := by
  cases added with
  | cancelled last _ =>
    rw [last] at apart
    exact .inl apart.tail
  | linear _ _ => exact arePairsApart_addLinear apart _ _
  | pushed _ _ => exact .inl (apart.cons fun _ _ => Bool.false_ne_true)

theorem arePairsApart_add {p : Pipeline α} (apart : ArePairsApart p.latestFirst)
    (operation : Operation α) (output : ValueRange α) :
    ArePairsApart (p.add (ω := ω) operation output).latestFirst ∨
      Completes p.latestFirst (p.add (ω := ω) operation output).latestFirst := by
  cases operation with
  | matrix _ | multiplier _ => exact arePairsApart_addLinear apart _ _
  | decode f => exact (decodeAdded p f).arePairsApart apart
  | encode f => exact (encodeAdded p f).arePairsApart apart
  | toneMap _ | curves _ | cube _ => exact .inl (apart.cons fun _ _ => Bool.false_ne_true)

/-! ## Whole builds -/

/-- The pipelines before and after each of the additions. -/
def transitions (p : Pipeline α) : List (Addition α) → List (Pipeline α × Pipeline α)
  | [] => []
  | addition :: additions =>
    let next := p.add (ω := ω) addition.operation addition.output
    (p, next) :: next.transitions additions

theorem arePairsApart_addAll {additions : List (Addition α)} {p : Pipeline α}
    (apart : ArePairsApart p.latestFirst)
    (never : ∀ change ∈ p.transitions (ω := ω) additions,
      ¬ Completes change.1.latestFirst change.2.latestFirst) :
    ArePairsApart (p.addAll (ω := ω) additions).latestFirst := by
  induction additions generalizing p with
  | nil => exact apart
  | cons addition additions inductionHypothesis =>
    obtain ⟨first, later⟩ := List.forall_mem_cons.mp never
    have kept := (arePairsApart_add apart addition.operation addition.output).resolve_right first
    exact inductionHypothesis kept later

end Pipeline

namespace Build

/-- The pipelines before and after each addition to the pipeline that is built. -/
def transitions : Build α ω → List (Pipeline α × Pipeline α)
  | empty _ => []
  | conversion source target intent settings =>
    (Pipeline.empty (Pipeline.conversionInput source)).transitions (ω := ω)
      (Pipeline.conversionAdditions source target intent settings)
  | call before next =>
    before.transitions ++
      before.pipeline.transitions (ω := ω) (next.additions before.pipeline.output)
  | merged before onTop =>
    before.transitions ++
      before.pipeline.transitions (ω := ω) (onTop.pipeline.steps.map Step.toAddition)

theorem arePairsApart {b : Build α ω}
    (never : ∀ change ∈ b.transitions,
      ¬ Pipeline.Completes change.1.latestFirst change.2.latestFirst) :
    Pipeline.ArePairsApart b.pipeline.latestFirst := by
  induction b with
  | empty _ => exact List.isChain_nil
  | conversion source target intent settings =>
    rw [pipeline, Pipeline.conversion_eq]
    exact Pipeline.arePairsApart_addAll List.isChain_nil never
  | call before next inductionHypothesis =>
    obtain ⟨beforeNever, nextNever⟩ := List.forall_mem_append.mp never
    rw [pipeline, Pipeline.call_eq]
    exact Pipeline.arePairsApart_addAll (inductionHypothesis beforeNever) nextNever
  | merged before onTop beforeHypothesis _ =>
    -- A pair in the second pipeline meets the comparison when its steps are added to the first.
    obtain ⟨beforeNever, onTopNever⟩ := List.forall_mem_append.mp never
    rw [pipeline, Pipeline.merged_eq]
    exact Pipeline.arePairsApart_addAll (beforeHypothesis beforeNever) onTopNever

/-- No transfer function comes right after an equal inverse one, unless it became equal by a gain
that went into it when both were there already. -/
theorem steps_not_undone (b : Build α ω)
    (never : ∀ change ∈ b.transitions,
      ¬ Pipeline.Completes change.1.latestFirst change.2.latestFirst) :
    b.pipeline.steps.IsChain fun before after =>
      ∀ f g, before.operation = .encode f → after.operation = .decode g → ¬ f == g :=
  Pipeline.arePairsApart_iff.mp (arePairsApart never)

/-- Encodes for the full range of the quantizer, decodes half of it, and adds a gain. -/
def halved (gain : Single) : Build Single Double :=
  .call (.call (.call (.empty .unit) (.encode (.ofCurve .pq)))
    (.decode (.withRange .pq 0 5000))) (.multiplier (.splat gain) ⟨0, 10000⟩)

/-- With a gain of three the function decodes more than the full range, and nothing is undone. -/
theorem steps_not_undone_halved :
    (halved 3).pipeline.steps.IsChain fun before after =>
      ∀ f g, before.operation = .encode f → after.operation = .decode g → ¬ f == g := by
  refine steps_not_undone (halved 3) ?_
  have apart : ∀ change ∈ (halved 3).transitions,
      Pipeline.ArePairsApart change.2.latestFirst := by decide +kernel
  intro change member completes
  exact completes.not_arePairsApart (apart change member)

/-- With a gain of two the function decodes the full range, and both steps are still there. -/
theorem not_steps_not_undone :
    ¬ ∀ b : Build Single Double, b.pipeline.steps.IsChain fun before after =>
      ∀ f g, before.operation = .encode f → after.operation = .decode g → ¬ f == g := by
  intro apart
  have undone : ¬ Pipeline.ArePairsApart (halved 2).pipeline.latestFirst := by decide +kernel
  exact undone (Pipeline.arePairsApart_iff.mpr (apart (halved 2)))

end Build

end DisplayColor

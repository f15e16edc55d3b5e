import DisplayColor.Proofs.Fusion.Composition

/-! # Ranges from step to step

Every step records the range that it expects and the range that it produces, and tone mapping is
decided by them.  Fusion pops steps, cancels them, and changes the last one in place, and steps that
come from another pipeline bring ranges of their own.  Still every step expects exactly what the
step before it produces, because what is appended takes its input from the step that it follows, and
a step that is changed in place keeps its input and has none after it.

In exact arithmetic the range after a transfer function is what the function makes of the range
before it, also when gains have gone into the function. -/

namespace DisplayColor

namespace Pipeline

/-! ## The chain -/

section Linked

variable {α ω : Type}

/-- Every step expects what the step before it produces, and the first one expects the input.  The
steps are held latest first. -/
def AreLinked (input : ValueRange α) : List (Step α) → Prop
  | [] => True
  | last :: rest => last.input = rangeAfter input rest ∧ AreLinked input rest

theorem AreLinked.isChain {input : ValueRange α} {steps : List (Step α)}
    (linked : AreLinked input steps) :
    steps.IsChain fun after before => after.input = before.output := by
  induction steps with
  | nil => exact List.isChain_nil
  | cons last rest inductionHypothesis =>
    obtain ⟨expected, linked⟩ := linked
    refine List.IsChain.cons (inductionHypothesis linked) ?_
    intro before member
    obtain ⟨earlier, rfl⟩ := List.head?_eq_some_iff.mp member
    exact expected

theorem AreLinked.first {input : ValueRange α} {steps : List (Step α)}
    (linked : AreLinked input steps) : ∀ first ∈ steps.getLast?, first.input = input := by
  induction steps with
  | nil => simp
  | cons last rest inductionHypothesis =>
    obtain ⟨expected, linked⟩ := linked
    cases rest with
    | nil =>
      rintro _ ⟨⟩
      exact expected
    | cons before earlier =>
      rw [List.getLast?_cons_cons]
      exact inductionHypothesis linked

variable [Scalar α] [Scalar ω] [Precision α ω]

theorem Settled.areLinked {input output : ValueRange α} {steps result : List (Step α)}
    {operation : LinearOperation α} (settled : Settled input output steps operation result)
    (linked : AreLinked input steps) : AreLinked input result := by
  cases settled with
  | dropped _ => exact linked
  | folded _ _ => exact linked
  | appended _ _ => exact ⟨rfl, linked⟩

theorem Absorbed.areLinked {input output : ValueRange α} {steps result : List (Step α)}
    {operation : LinearOperation α}
    (absorbed : Absorbed (ω := ω) input output steps operation result)
    (linked : AreLinked input steps) : AreLinked input result := by
  induction absorbed with
  | dropped _ => exact linked
  | combined _ _ _ inductionHypothesis => exact inductionHypothesis linked.2
  | settled _ _ settled => exact settled.areLinked linked

def IsLinked (p : Pipeline α) : Prop := AreLinked p.input p.latestFirst

theorem Added.isLinked {p q : Pipeline α} {operation : Operation α}
    (added : Added (ω := ω) p operation q) (linked : p.IsLinked) : q.IsLinked := by
  cases added with
  | cancelled ends =>
    rw [IsLinked, ends] at linked
    exact linked.2
  | linear linear output =>
    exact (absorbed (ω := ω) p.input output p.latestFirst linear).areLinked linked
  | pushed _ _ => exact ⟨rfl, linked⟩

end Linked

end Pipeline

theorem Build.isLinked {α ω : Type} [Scalar α] [Scalar ω] [Precision α ω] (b : Build α ω) :
    b.pipeline.IsLinked := by
  refine b.induction ?_ ?_
  · intro input
    trivial
  · intro p operation output linked
    exact (Pipeline.added p operation output).isLinked linked

/-! ## Transfer functions -/

/-- A step with a transfer function produces what the function makes of the range it expects.  That
this stays so when a gain goes into the function needs its range to be increasing. -/
def Step.IsImage (step : Step ℝ) : Prop :=
  match step.operation with
  | .decode f => f.IsIncreasing ∧ step.output = step.input.map f.decode
  | .encode f => step.output = step.input.map f.encode
  | _ => True

theorem TransferFunction.map_decode_scaled {f : TransferFunction ℝ} (increasing : f.IsIncreasing)
    {factor : ℝ} (positive : 0 < factor) (range : ValueRange ℝ) :
    range.map (f.scaled factor).decode = range.map f.decode * factor :=
  congrArg₂ ValueRange.mk (decode_scaled increasing positive range.min)
    (decode_scaled increasing positive range.max)

namespace Pipeline

def AreImages (steps : List (Step ℝ)) : Prop := ∀ step ∈ steps, step.IsImage

namespace AreImages

theorem tail {last : Step ℝ} {rest : List (Step ℝ)} (images : AreImages (last :: rest)) :
    AreImages rest := fun step member => images step (List.mem_cons_of_mem last member)

theorem cons {last : Step ℝ} {rest : List (Step ℝ)} (first : last.IsImage)
    (images : AreImages rest) : AreImages (last :: rest) := List.forall_mem_cons.mpr ⟨first, images⟩

end AreImages

theorem Settled.areImages {input output : ValueRange ℝ} {steps result : List (Step ℝ)}
    {operation : LinearOperation ℝ} (settled : Settled input output steps operation result)
    (images : AreImages steps) : AreImages result := by
  cases settled with
  | dropped _ => exact images
  | @folded before after f rest gains _ foldable =>
    have positive : 0 < gains.x := by simpa using foldable.2.2
    obtain ⟨increasing, image⟩ : f.IsIncreasing ∧ after = before.map f.decode :=
      images _ (List.mem_cons_self ..)
    refine images.tail.cons ⟨increasing.scaled gains.x, ?_⟩
    rw [TransferFunction.map_decode_scaled increasing positive, image]
  | appended _ _ =>
    refine images.cons ?_
    cases operation <;> trivial

theorem Absorbed.areImages {input output : ValueRange ℝ} {steps result : List (Step ℝ)}
    {operation : LinearOperation ℝ} (absorbed : Absorbed input output steps operation result)
    (images : AreImages steps) : AreImages result := by
  induction absorbed with
  | dropped _ => exact images
  | combined _ _ _ inductionHypothesis => exact inductionHypothesis images.tail
  | settled _ _ settled => exact settled.areImages images

theorem areImages_addLinear {p : Pipeline ℝ} (images : AreImages p.latestFirst)
    (operation : LinearOperation ℝ) (output : ValueRange ℝ) :
    AreImages (p.addLinear operation output).latestFirst :=
  (absorbed p.input output p.latestFirst operation).areImages images

theorem DecodeAdded.areImages {p q : Pipeline ℝ} {f : TransferFunction ℝ}
    (added : DecodeAdded p f q) (images : AreImages p.latestFirst)
    (increasing : f.IsIncreasing) : AreImages q.latestFirst := by
  cases added with
  | cancelled last _ =>
    rw [last] at images
    exact images.tail
  | linear _ _ => exact areImages_addLinear images _ _
  | pushed _ _ => exact images.cons ⟨increasing, rfl⟩

theorem EncodeAdded.areImages {p q : Pipeline ℝ} {f : TransferFunction ℝ}
    (added : EncodeAdded p f q) (images : AreImages p.latestFirst) :
    AreImages q.latestFirst := by
  cases added with
  | cancelled last _ =>
    rw [last] at images
    exact images.tail
  | linear _ _ => exact areImages_addLinear images _ _
  | pushed _ _ => exact images.cons rfl

theorem areImages_add {p : Pipeline ℝ} {operation : Operation ℝ} (output : ValueRange ℝ)
    (images : AreImages p.latestFirst)
    (increasing : ∀ f, operation = .decode f → f.IsIncreasing) :
    AreImages (p.add operation output).latestFirst := by
  cases operation with
  | matrix _ | multiplier _ => exact areImages_addLinear images _ _
  | decode f => exact (decodeAdded p f).areImages images (increasing f rfl)
  | encode f => exact (encodeAdded p f).areImages images
  | toneMap _ | curves _ | cube _ => exact images.cons trivial

end Pipeline

namespace Build

theorem areImages {b : Build ℝ ℝ}
    (increasing : ∀ f, .decode f ∈ b.requested → f.IsIncreasing) :
    Pipeline.AreImages b.pipeline.latestFirst := by
  refine b.induction_requested (fun p => Pipeline.AreImages p.latestFirst)
    (fun operation => ∀ f, operation = .decode f → f.IsIncreasing) ?_ ?_ ?_ ?_
  · intro input
    exact List.forall_mem_nil _
  · intro p operation output images allowed
    exact Pipeline.areImages_add output images allowed
  · rintro p images ⟨_, _, _⟩ member f rfl
    exact (images _ member).1
  · rintro _ member f rfl
    exact increasing f member

/-- The first step expects the input of the pipeline, and every other step expects exactly what the
step before it produces.  In exact arithmetic, what a transfer function or its inverse produces is
the image of what it expects, under the function as it is after all gains that went into it. -/
theorem ranges_linked :
    (∀ {α ω : Type} [Scalar α] [Scalar ω] [Precision α ω] (b : Build α ω),
      (∀ first ∈ b.pipeline.steps.head?, first.input = b.pipeline.input) ∧
        b.pipeline.steps.IsChain fun before after => after.input = before.output) ∧
    ∀ b : Build ℝ ℝ, (∀ f, .decode f ∈ b.requested → f.IsIncreasing) →
      ∀ step ∈ b.pipeline.steps, ∀ f,
        (step.operation = .decode f → step.output = step.input.map f.decode) ∧
          (step.operation = .encode f → step.output = step.input.map f.encode) := by
  refine ⟨?_, ?_⟩
  · intro α ω _ _ _ b
    have linked : Pipeline.AreLinked b.pipeline.input b.pipeline.latestFirst := b.isLinked
    simp only [Pipeline.steps, List.head?_reverse, List.isChain_reverse]
    exact ⟨linked.first, linked.isChain⟩
  · rintro b increasing ⟨_, _, _⟩ member f
    have image := areImages increasing _ (List.mem_reverse.mp member)
    refine ⟨?_, ?_⟩
    · rintro rfl
      exact image.2
    · rintro rfl
      exact image

/-- The gain has gone into the function, and with it into the range. -/
theorem ranges_linked_doubled : ∃ step, doubled.pipeline.steps = [step] ∧
    step.operation = .decode ⟨.srgb, 0, 160⟩ ∧
    step.output = ValueRange.unit.map (TransferFunction.decode ⟨.srgb, 0, 160⟩) := by
  have increasing (f : TransferFunction ℝ) (asked : .decode f ∈ doubled.requested) :
      f.IsIncreasing := by
    obtain rfl : f = .ofCurve .srgb := by simpa [requested, doubled, Call.additions] using asked
    exact TransferFunction.isIncreasing_ofCurve .srgb
  have images := ranges_linked.2 doubled increasing
  rw [doubled_pipeline] at images ⊢
  exact ⟨_, rfl, rfl, (images _ (List.mem_singleton_self _) _).1 rfl⟩

end Build

end DisplayColor

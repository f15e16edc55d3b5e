import DisplayColor.Pipeline.Fusion

/-! # What an addition can come to

Each function that adds to the steps of a pipeline is read here once, as a relation with one case
for each way in which it can end.  Later proofs go through the cases and never open the functions.

Steps are held latest first, as they are in a pipeline. -/

namespace DisplayColor

variable {α ω : Type} [Scalar α] [Scalar ω] [Precision α ω]

/-- A gain that can be taken into a transfer function. -/
def Vec3.IsFoldable (gains : Vec3 α) : Prop :=
  gains.isUniform ∧ Scalar.isFinite gains.x ∧ 0 < gains.x

theorem LinearOperation.linear?_toOperation {α : Type} (operation : LinearOperation α) :
    operation.toOperation.linear? = some operation := by
  cases operation <;> rfl

namespace Pipeline

def EndsNonlinear (steps : List (Step α)) : Prop :=
  ∀ last ∈ steps.head?, last.operation.linear? = none

/-! ## Linear operations -/

/-- The ways in which an operation that cannot be simplified further is settled after steps of which
the last is not linear. -/
inductive Settled (input output : ValueRange α) :
    List (Step α) → LinearOperation α → List (Step α) → Prop
  | dropped {steps : List (Step α)} {operation : LinearOperation α}
      (negligible : operation.isNegligible) : Settled input output steps operation steps
  | folded {before after : ValueRange α} {f : TransferFunction α} {rest : List (Step α)}
      {gains : Vec3 α} (kept : ¬ (LinearOperation.multiplier gains).isNegligible)
      (foldable : gains.IsFoldable) :
      Settled input output (⟨before, .decode f, after⟩ :: rest) (.multiplier gains)
        (⟨before, .decode (f.scaled gains.x), after * gains.x⟩ :: rest)
  | appended {steps : List (Step α)} {operation : LinearOperation α}
      (kept : ¬ operation.isNegligible)
      (apart : ∀ gains f, operation = .multiplier gains →
        (∃ last ∈ steps.head?, last.operation = .decode f) → ¬ gains.IsFoldable) :
      Settled input output steps operation
        (⟨rangeAfter input steps, operation.toOperation, output⟩ :: steps)

theorem settled (input output : ValueRange α) (steps : List (Step α))
    (operation : LinearOperation α) :
    Settled input output steps operation.simplified (settle input steps operation output) := by
  simp only [settle]
  generalize operation.simplified = simplified
  split
  · exact .dropped ‹_›
  · rename_i kept
    split
    · split
      · exact .folded kept ‹_›
      · rename_i notFoldable
        refine .appended kept ?_
        intro _ _ same _
        cases same
        exact notFoldable
    · rename_i noPair
      -- The match fell through, so there cannot be a gain with a transfer function before it.
      refine .appended kept ?_
      rintro gains f rfl ⟨⟨before, _, after⟩, member, rfl⟩
      obtain ⟨rest, rfl⟩ := List.head?_eq_some_iff.mp member
      exact (noPair gains before f after rest rfl rfl).elim

/-- The ways in which a linear operation is added: nothing is left of it, it is combined with a
linear step and what comes out is added in its place, or it is settled. -/
inductive Absorbed (input output : ValueRange α) :
    List (Step α) → LinearOperation α → List (Step α) → Prop
  | dropped {steps : List (Step α)} {operation : LinearOperation α}
      (negligible : operation.isNegligible) : Absorbed input output steps operation steps
  | combined {last : Step α} {rest result : List (Step α)}
      {operation before : LinearOperation α} (kept : ¬ operation.isNegligible)
      (linear : last.operation.linear? = some before)
      (added : Absorbed input output rest (operation.after (ω := ω) before) result) :
      Absorbed input output (last :: rest) operation result
  | settled {steps result : List (Step α)} {operation : LinearOperation α}
      (kept : ¬ operation.isNegligible) (nonlinear : EndsNonlinear steps)
      (settled : Settled input output steps operation.simplified result) :
      Absorbed input output steps operation result

theorem absorbed (input output : ValueRange α) (steps : List (Step α))
    (operation : LinearOperation α) :
    Absorbed (ω := ω) input output steps operation
      (absorb (ω := ω) input output steps operation) := by
  -- Each linear step that is popped changes the operation, so the induction is for all of them.
  induction steps generalizing operation with
  | nil =>
    simp only [absorb]
    split
    · exact .dropped ‹_›
    · exact .settled ‹_› (by simp [EndsNonlinear]) (settled ..)
  | cons last rest inductionHypothesis =>
    simp only [absorb]
    split
    · exact .dropped ‹_›
    · split
      · exact .combined ‹_› ‹_› (inductionHypothesis _)
      · exact .settled ‹_› (by simpa [EndsNonlinear]) (settled ..)

/-! ## Transfer functions -/

def EndsWithoutDecode (steps : List (Step α)) (f : TransferFunction α) : Prop :=
  ∀ last ∈ steps.head?, ∀ previous, last.operation = .decode previous → ¬ previous == f

def EndsWithoutEncode (steps : List (Step α)) (f : TransferFunction α) : Prop :=
  ∀ last ∈ steps.head?, ∀ previous, last.operation = .encode previous → ¬ previous == f

inductive DecodeAdded (p : Pipeline α) (f : TransferFunction α) : Pipeline α → Prop
  | cancelled {input output : ValueRange α} {previous : TransferFunction α}
      {rest : List (Step α)} (last : p.latestFirst = ⟨input, .encode previous, output⟩ :: rest)
      (same : previous == f) : DecodeAdded p f { p with latestFirst := rest }
  | linear (apart : EndsWithoutEncode p.latestFirst f) (curve : f.curve = .linear) :
      DecodeAdded p f (p.addMatrix (ω := ω) (decodeMatrix (ω := ω) f) (p.output.map f.decode))
  | pushed (apart : EndsWithoutEncode p.latestFirst f) (curve : f.curve ≠ .linear) :
      DecodeAdded p f (p.push (.decode f) (p.output.map f.decode))

theorem decodeAdded (p : Pipeline α) (f : TransferFunction α) :
    DecodeAdded (ω := ω) p f (p.addDecode (ω := ω) f) := by
  have appended (apart : EndsWithoutEncode p.latestFirst f) :
      DecodeAdded (ω := ω) p f (p.appendDecode (ω := ω) f) := by
    unfold appendDecode
    split
    · exact .linear apart ‹_›
    · exact .pushed apart ‹_›
  unfold addDecode
  split
  · rename_i last
    split
    · exact .cancelled last ‹_›
    · rename_i differs
      apply appended
      simp only [EndsWithoutEncode, last, List.head?_cons, Option.mem_some_iff]
      rintro _ rfl _ ⟨⟩
      exact differs
  · rename_i noPair
    apply appended
    rintro ⟨input, _, output⟩ member previous rfl
    obtain ⟨rest, last⟩ := List.head?_eq_some_iff.mp member
    exact (noPair input previous output rest last).elim

theorem latestFirst_addDecode_empty (input : ValueRange α) {f : TransferFunction α}
    (curve : f.curve ≠ .linear) :
    ((empty input).addDecode (ω := ω) f).latestFirst =
      [⟨input, .decode f, input.map f.decode⟩] := by
  simp [addDecode, appendDecode, empty, push, output, rangeAfter, curve]

inductive EncodeAdded (p : Pipeline α) (f : TransferFunction α) : Pipeline α → Prop
  | cancelled {input output : ValueRange α} {previous : TransferFunction α}
      {rest : List (Step α)} (last : p.latestFirst = ⟨input, .decode previous, output⟩ :: rest)
      (same : previous == f) : EncodeAdded p f { p with latestFirst := rest }
  | linear (apart : EndsWithoutDecode p.latestFirst f) (curve : f.curve = .linear) :
      EncodeAdded p f (p.addMatrix (ω := ω) (encodeMatrix (ω := ω) f) (p.output.map f.encode))
  | pushed (apart : EndsWithoutDecode p.latestFirst f) (curve : f.curve ≠ .linear) :
      EncodeAdded p f (p.push (.encode f) (p.output.map f.encode))

theorem encodeAdded (p : Pipeline α) (f : TransferFunction α) :
    EncodeAdded (ω := ω) p f (p.addEncode (ω := ω) f) := by
  have appended (apart : EndsWithoutDecode p.latestFirst f) :
      EncodeAdded (ω := ω) p f (p.appendEncode (ω := ω) f) := by
    unfold appendEncode
    split
    · exact .linear apart ‹_›
    · exact .pushed apart ‹_›
  unfold addEncode
  split
  · rename_i last
    split
    · exact .cancelled last ‹_›
    · rename_i differs
      apply appended
      simp only [EndsWithoutDecode, last, List.head?_cons, Option.mem_some_iff]
      rintro _ rfl _ ⟨⟩
      exact differs
  · rename_i noPair
    apply appended
    rintro ⟨input, _, output⟩ member previous rfl
    obtain ⟨rest, last⟩ := List.head?_eq_some_iff.mp member
    exact (noPair input previous output rest last).elim

/-! ## Any operation -/

/-- The ways in which an operation is added, where it does not matter what was compared: it takes the
last step away, it is added as a linear operation, or it becomes the last step. -/
inductive Added (p : Pipeline α) (operation : Operation α) : Pipeline α → Prop
  | cancelled {last : Step α} {rest : List (Step α)} (ends : p.latestFirst = last :: rest) :
      Added p operation { p with latestFirst := rest }
  | linear (linear : LinearOperation α) (output : ValueRange α) :
      Added p operation (p.addLinear (ω := ω) linear output)
  | pushed (nonlinear : operation.linear? = none) (output : ValueRange α) :
      Added p operation (p.push operation output)

theorem added (p : Pipeline α) (operation : Operation α) (output : ValueRange α) :
    Added (ω := ω) p operation (p.add (ω := ω) operation output) := by
  cases operation with
  | matrix m => exact .linear (.matrix m) output
  | multiplier gains => exact .linear (.multiplier gains) output
  | decode f =>
    have decoded := decodeAdded (ω := ω) p f
    simp only [add]
    generalize p.addDecode (ω := ω) f = result at decoded ⊢
    cases decoded with
    | cancelled last _ => exact .cancelled last
    | linear _ _ => exact .linear _ _
    | pushed _ _ => exact .pushed rfl _
  | encode f =>
    have encoded := encodeAdded (ω := ω) p f
    simp only [add]
    generalize p.addEncode (ω := ω) f = result at encoded ⊢
    cases encoded with
    | cancelled last _ => exact .cancelled last
    | linear _ _ => exact .linear _ _
    | pushed _ _ => exact .pushed rfl _
  | toneMap _ | curves _ | cube _ => exact .pushed rfl output

end Pipeline

end DisplayColor

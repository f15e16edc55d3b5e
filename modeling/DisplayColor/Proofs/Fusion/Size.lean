import DisplayColor.Proofs.Fusion.Build
import DisplayColor.Proofs.Fusion.Rules
import DisplayColor.Proofs.Shader.Packing

/-! # How many steps fusion leaves

The shader has few slots, so it matters how many operations of each kind a pipeline can come to.  An
addition leaves at most one operation more of its own kind, and of the other kinds none more.

For linear operations this says too little, because they fuse with each other.  What decides their
number is how many of them stand before the last step, where no later addition fuses with them as
long as that step stays.  A linear addition never raises this number, whatever it is fused with, and
any other addition raises it by one at most.  No comparison has to be looked at for this, so it also
holds where fusion sees undefined values. -/

namespace DisplayColor

variable {α ω : Type}

namespace Operation

theorem linear?_eq_none_iff {operation : Operation α} :
    operation.linear? = none ↔ operation.slotKind ≠ .matrix := by
  cases operation <;> simp [linear?, slotKind, opcode, Opcode.slotKind]

theorem slotKind_of_linear? {operation : Operation α} {linear : LinearOperation α}
    (found : operation.linear? = some linear) : operation.slotKind = .matrix := by
  cases operation <;> cases found <;> rfl

end Operation

theorem LinearOperation.slotKind_toOperation (operation : LinearOperation α) :
    operation.toOperation.slotKind = .matrix := by
  cases operation <;> rfl

namespace Pipeline

/-! ## Counting slots -/

/-- How many of the steps take a slot of a kind. -/
def slotCount (kind : SlotKind) (steps : List (Step α)) : Nat :=
  steps.countP fun step => step.operation.slotKind = kind

theorem slotCount_cons (kind : SlotKind) (step : Step α) (rest : List (Step α)) :
    slotCount kind (step :: rest) =
      slotCount kind rest + if step.operation.slotKind = kind then 1 else 0 := by
  simp [slotCount, List.countP_cons]

theorem slotCount_cons_of_ne {kind : SlotKind} {step : Step α}
    (other : step.operation.slotKind ≠ kind) (rest : List (Step α)) :
    slotCount kind (step :: rest) = slotCount kind rest := by
  rw [slotCount_cons, if_neg other, Nat.add_zero]

theorem slotCount_tail_le (kind : SlotKind) (steps : List (Step α)) :
    slotCount kind steps.tail ≤ slotCount kind steps := by
  cases steps with
  | nil => exact Nat.le_refl _
  | cons step rest =>
    rw [slotCount_cons, List.tail_cons]
    exact Nat.le_add_right _ _

theorem slotCount_le_tail (kind : SlotKind) (steps : List (Step α)) :
    slotCount kind steps ≤ slotCount kind steps.tail + 1 := by
  cases steps with
  | nil => exact Nat.zero_le _
  | cons step rest =>
    rw [slotCount_cons, List.tail_cons]
    split <;> omega

/-- Every step takes a slot of one kind. -/
theorem length_eq_slotCounts (steps : List (Step α)) :
    steps.length = slotCount .matrix steps + slotCount .transfer steps
      + slotCount .toneCurve steps + slotCount .curves steps + slotCount .cube steps := by
  induction steps with
  | nil => rfl
  | cons step rest inductionHypothesis =>
    obtain ⟨_, operation, _⟩ := step
    simp only [slotCount_cons, List.length_cons, inductionHypothesis]
    cases operation <;> simp [Operation.slotKind, Operation.opcode, Opcode.slotKind] <;> omega

theorem length_ofKind_operations (kind : SlotKind) (p : Pipeline α) :
    (Operation.ofKind kind p.operations).length = slotCount kind p.latestFirst := by
  simp only [Operation.ofKind, operations, steps, slotCount, ← List.countP_eq_length_filter,
    List.countP_map, List.countP_reverse]
  rfl

variable [Scalar α] [Scalar ω] [Precision α ω]

/-! ## Operations that are not linear -/

section Other

variable {kind : SlotKind} {input output : ValueRange α} {steps result : List (Step α)}
  {operation : LinearOperation α}

theorem Settled.slotCount_eq (settled : Settled input output steps operation result)
    (other : SlotKind.matrix ≠ kind) : slotCount kind result = slotCount kind steps := by
  cases settled with
  | dropped _ => rfl
  | folded _ _ => exact (slotCount_cons ..).trans (slotCount_cons ..).symm
  | appended _ _ =>
    refine slotCount_cons_of_ne ?_ steps
    rwa [operation.slotKind_toOperation]

theorem Absorbed.slotCount_eq (absorbed : Absorbed (ω := ω) input output steps operation result)
    (other : SlotKind.matrix ≠ kind) : slotCount kind result = slotCount kind steps := by
  induction absorbed with
  | dropped _ => rfl
  | combined _ linear _ inductionHypothesis =>
    rw [inductionHypothesis, slotCount_cons_of_ne]
    rwa [Operation.slotKind_of_linear? linear]
  | settled _ _ settled => exact settled.slotCount_eq other

theorem Added.slotCount_le {p result : Pipeline α} {operation : Operation α}
    (added : Added (ω := ω) p operation result) (other : SlotKind.matrix ≠ kind) :
    slotCount kind result.latestFirst ≤
      slotCount kind p.latestFirst + if operation.slotKind = kind then 1 else 0 := by
  cases added with
  | cancelled ends =>
    rw [ends]
    exact Nat.le_add_right_of_le (Pipeline.slotCount_tail_le kind (_ :: _))
  | linear linear output =>
    have same := (absorbed (ω := ω) p.input output p.latestFirst linear).slotCount_eq other
    exact Nat.le_add_right_of_le (Nat.le_of_eq same)
  | pushed _ _ => exact Nat.le_of_eq (slotCount_cons ..)

theorem slotCount_addAll_le (other : SlotKind.matrix ≠ kind) (p : Pipeline α)
    (additions : List (Addition α)) :
    slotCount kind (p.addAll (ω := ω) additions).latestFirst ≤ slotCount kind p.latestFirst
      + additions.countP fun addition => addition.operation.slotKind = kind := by
  induction additions generalizing p with
  | nil => exact Nat.le_refl _
  | cons addition additions inductionHypothesis =>
    have first :=
      (added (ω := ω) p addition.operation addition.output).slotCount_le other
    have later := inductionHypothesis (p.add (ω := ω) addition.operation addition.output)
    simp only [addAll_cons, List.countP_cons, decide_eq_true_eq]
    omega

end Other

/-! ## Linear operations -/

section Linear

variable {input output : ValueRange α} {steps result : List (Step α)}
  {operation : LinearOperation α}

theorem Settled.slotCount_tail_le (settled : Settled input output steps operation result)
    (nonlinear : EndsNonlinear steps) :
    slotCount .matrix result.tail ≤ slotCount .matrix steps.tail := by
  cases settled with
  | dropped _ => exact Nat.le_refl _
  | folded _ _ => exact Nat.le_refl _
  | appended _ _ =>
    -- The step that the operation follows is now before the last one, and it is not linear.
    cases steps with
    | nil => exact Nat.le_refl _
    | cons last rest =>
      have other := Operation.linear?_eq_none_iff.mp (nonlinear last rfl)
      exact Nat.le_of_eq (slotCount_cons_of_ne other rest)

theorem Absorbed.slotCount_tail_le
    (absorbed : Absorbed (ω := ω) input output steps operation result) :
    slotCount .matrix result.tail ≤ slotCount .matrix steps.tail := by
  induction absorbed with
  | dropped _ => exact Nat.le_refl _
  | combined _ _ _ inductionHypothesis =>
    exact Nat.le_trans inductionHypothesis (Pipeline.slotCount_tail_le ..)
  | settled _ nonlinear settled => exact settled.slotCount_tail_le nonlinear

variable {p q : Pipeline α} {requested : Operation α}

theorem Added.slotCount_tail_le (added : Added (ω := ω) p requested q) :
    slotCount .matrix q.latestFirst.tail ≤
      slotCount .matrix p.latestFirst.tail
        + if requested.slotKind ≠ .matrix then 1 else 0 := by
  cases added with
  | cancelled ends =>
    rw [ends]
    exact Nat.le_add_right_of_le (Pipeline.slotCount_tail_le ..)
  | linear linear output =>
    have behind := (absorbed (ω := ω) p.input output p.latestFirst linear).slotCount_tail_le
    exact Nat.le_add_right_of_le behind
  | pushed nonlinear _ =>
    rw [if_pos (Operation.linear?_eq_none_iff.mp nonlinear)]
    exact slotCount_le_tail ..

/-- Whatever is added, there is at most one linear operation more than stood before the last
step. -/
theorem Added.slotCount_le_tail (added : Added (ω := ω) p requested q) :
    slotCount .matrix q.latestFirst ≤ slotCount .matrix p.latestFirst.tail + 1 := by
  cases added with
  | cancelled ends =>
    rw [ends]
    exact Nat.le_succ _
  | linear linear output =>
    have behind := (absorbed (ω := ω) p.input output p.latestFirst linear).slotCount_tail_le
    exact Nat.le_trans (Pipeline.slotCount_le_tail ..) (Nat.succ_le_succ behind)
  | pushed nonlinear output =>
    have other := Operation.linear?_eq_none_iff.mp nonlinear
    refine Nat.le_trans (Nat.le_of_eq ?_) (Pipeline.slotCount_le_tail ..)
    exact slotCount_cons_of_ne other p.latestFirst

theorem Added.slotCount_tail_of_nil (added : Added (ω := ω) p requested q)
    (nothing : p.latestFirst = []) : slotCount .matrix q.latestFirst.tail = 0 := by
  cases added with
  | cancelled ends =>
    rw [nothing] at ends
    cases ends
  | linear linear output =>
    have behind := (absorbed (ω := ω) p.input output p.latestFirst linear).slotCount_tail_le
    refine Nat.le_zero.mp (Nat.le_trans behind (Nat.le_of_eq ?_))
    rw [nothing]
    rfl
  | pushed _ _ =>
    rw [push, nothing]
    rfl

theorem slotCount_tail_addAll_le (p : Pipeline α) (additions : List (Addition α)) :
    slotCount .matrix (p.addAll (ω := ω) additions).latestFirst.tail ≤
      slotCount .matrix p.latestFirst.tail
        + additions.countP fun addition => addition.operation.slotKind ≠ .matrix := by
  induction additions generalizing p with
  | nil => exact Nat.le_refl _
  | cons addition additions inductionHypothesis =>
    have first := (added (ω := ω) p addition.operation addition.output).slotCount_tail_le
    have later := inductionHypothesis (p.add (ω := ω) addition.operation addition.output)
    simp only [addAll_cons, List.countP_cons, decide_eq_true_eq]
    omega

/-- Between the first and the last addition, only what is not linear makes room for a linear
operation; all that is linear in between fuses into what the room holds. -/
theorem slotCount_matrix_addAll_empty_le (input : ValueRange α) (first last : Addition α)
    (middle : List (Addition α)) :
    slotCount .matrix ((empty input).addAll (ω := ω) (first :: middle ++ [last])).latestFirst ≤
      (middle.countP fun addition => addition.operation.slotKind ≠ .matrix) + 1 := by
  have begun := (added (ω := ω) (empty input) first.operation first.output).slotCount_tail_of_nil rfl
  have continued := slotCount_tail_addAll_le (ω := ω)
    ((empty input).add (ω := ω) first.operation first.output) middle
  rw [begun, Nat.zero_add] at continued
  rw [addAll_append, addAll_cons]
  exact Nat.le_trans (added (ω := ω) _ last.operation last.output).slotCount_le_tail
    (Nat.succ_le_succ continued)

end Linear

/-! ## Conversions -/

section Conversion

variable (source target : Description α ω) (intent : Intent) (settings : Settings α)

theorem slotCount_matrix_conversion_le :
    slotCount .matrix (conversion source target intent settings).latestFirst ≤ 4 := by
  rw [conversion_eq, conversionAdditions]
  refine Nat.le_trans (slotCount_matrix_addAll_empty_le ..) ?_
  -- Between decoding and encoding, only tone mapping has operations that are not linear.
  split
  · exact Nat.le_refl _
  · exact Nat.le_add_left ..

/-- There are no more operations of another kind than tone mapping and the two ends ask for. -/
theorem slotCount_conversion_le {kind : SlotKind} (other : SlotKind.matrix ≠ kind) :
    slotCount kind (conversion source target intent settings).latestFirst ≤
      (if SlotKind.transfer = kind then 4 else 0) + if SlotKind.toneCurve = kind then 1 else 0 := by
  rw [conversion_eq]
  refine Nat.le_trans (slotCount_addAll_le other _ _) ?_
  rw [conversionAdditions]
  split
  · cases kind with
    | matrix => exact absurd rfl other
    | transfer | toneCurve | curves | cube => exact Nat.le_refl _
  · cases kind with
    | matrix => exact absurd rfl other
    | transfer | toneCurve | curves | cube => exact Nat.le_add_left ..

theorem slotCounts_conversion :
    slotCount .matrix (conversion source target intent settings).latestFirst ≤ 4 ∧
      slotCount .transfer (conversion source target intent settings).latestFirst ≤ 4 ∧
      slotCount .toneCurve (conversion source target intent settings).latestFirst ≤ 1 ∧
      slotCount .curves (conversion source target intent settings).latestFirst = 0 ∧
      slotCount .cube (conversion source target intent settings).latestFirst = 0 :=
  ⟨slotCount_matrix_conversion_le .., slotCount_conversion_le _ _ _ _ (by decide),
    slotCount_conversion_le _ _ _ _ (by decide),
    Nat.le_zero.mp (slotCount_conversion_le _ _ _ _ (by decide)),
    Nat.le_zero.mp (slotCount_conversion_le _ _ _ _ (by decide))⟩

end Conversion

end Pipeline

end DisplayColor

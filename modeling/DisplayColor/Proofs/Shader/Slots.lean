import DisplayColor.Proofs.Shader.Fit

/-! # The slots of a pipeline

Packing a pipeline has three outcomes.  There are more operations than the shader carries out; or
the slots of some kind run out, and then the operation that is reported is the first one that finds
none left, whatever comes after it and however many other kinds overflow later; or there is a block.

In a block no slot is left out and none is used twice: the number of an operation among those of its
kind is the number of its slot.  Nothing else is written. -/

namespace DisplayColor

variable {α : Type}

/-- A fold that can fail fails at one element, and everything before it was passed. -/
theorem foldlM_eq_error {β γ ε : Type} {f : β → γ → Except ε β} {start : β} {list : List γ}
    {failure : ε} :
    list.foldlM f start = .error failure ↔
      ∃ before element after reached, list = before ++ element :: after ∧
        before.foldlM f start = .ok reached ∧ f reached element = .error failure := by
  refine ⟨?_, ?_⟩
  · intro fails
    induction list generalizing start with
    | nil => cases fails
    | cons first rest inductionHypothesis =>
      rw [List.foldlM_cons] at fails
      cases passed : f start first with
      | error early =>
        rw [passed] at fails
        cases fails
        exact ⟨[], first, rest, start, rfl, rfl, passed⟩
      | ok next =>
        rw [passed] at fails
        obtain ⟨before, element, after, reached, rfl, passes, stops⟩ := inductionHypothesis fails
        refine ⟨first :: before, element, after, reached, rfl, ?_, stops⟩
        rw [List.foldlM_cons, passed]
        exact passes
  · rintro ⟨before, element, after, reached, rfl, passes, stops⟩
    rw [List.foldlM_append, passes]
    show List.foldlM f reached (element :: after) = _
    rw [List.foldlM_cons, stops]
    rfl

theorem SlotKind.forall_iff (property : SlotKind → Prop) :
    (∀ kind, property kind) ↔ property .matrix ∧ property .transfer ∧ property .toneCurve ∧
      property .curves ∧ property .cube := by
  refine ⟨fun all => ⟨all _, all _, all _, all _, all _⟩, ?_⟩
  rintro ⟨matrix, transfer, toneCurve, curves, cube⟩ kind
  cases kind <;> assumption

/-! ## Counting instructions -/

namespace SlotUsage

/-- Counts one instruction. -/
def count (usage : SlotUsage) (instruction : Instruction) : SlotUsage :=
  match Opcode.ofCode? instruction.kind with
  | some opcode => usage.take opcode.slotKind
  | .none => usage.skip

theorem count_instruction (usage : SlotUsage) (before : List (Operation α))
    (operation : Operation α) :
    usage.count (Operation.instruction before operation) = usage.take operation.slotKind := by
  simp only [count, Operation.instruction, Opcode.ofCode?_code]
  rfl

theorem operations_countAll (usage : SlotUsage) (before operations : List (Operation α)) :
    ((Operation.instructionsAfter before operations).foldl count usage).operations =
      usage.operations + operations.length := by
  induction operations generalizing usage before with
  | nil => rfl
  | cons operation rest inductionHypothesis =>
    rw [Operation.instructionsAfter, List.foldl_cons, inductionHypothesis, count_instruction,
      operations_take, List.length_cons]
    omega

theorem taken_countAll (usage : SlotUsage) (before operations : List (Operation α))
    (kind : SlotKind) :
    ((Operation.instructionsAfter before operations).foldl count usage).taken kind =
      usage.taken kind + (Operation.ofKind kind operations).length := by
  induction operations generalizing usage before with
  | nil => rfl
  | cons operation rest inductionHypothesis =>
    rw [Operation.instructionsAfter, List.foldl_cons, inductionHypothesis, count_instruction,
      taken_take]
    by_cases same : operation.slotKind = kind
    · simp only [same, Operation.ofKind, List.filter_cons, decide_true, if_true, List.length_cons]
      omega
    · simp [same, Operation.ofKind]

end SlotUsage

/-! ## Where packing stops -/

variable [Scalar α]

namespace Packing

theorem place_eq_error {packing : Packing α} {operation : Operation α} {failure : FitError} :
    packing.place operation = .error failure ↔
      operation.slotKind.limit ≤ packing.usage.taken operation.slotKind ∧
        failure = .tooMany operation.slotKind := by
  simp only [place, Operation.slotKind]
  split
  · rename_i full
    simp only [Except.error.injEq, full, true_and]
    exact eq_comm
  · rename_i room
    simp [room]

/-- Packing stops at the first operation for which the earlier ones have left no slot. -/
theorem placeAll_eq_error {operations : List (Operation α)} {failure : FitError}
    (short : operations.length ≤ operationLimit) :
    operations.foldlM Packing.place .start = .error failure ↔
      ∃ before operation after, operations = before ++ operation :: after ∧
        (∀ kind, (Operation.ofKind kind before).length ≤ kind.limit) ∧
        operation.slotKind.limit <
          (Operation.ofKind operation.slotKind (before ++ [operation])).length ∧
        failure = .tooMany operation.slotKind := by
  rw [foldlM_eq_error]
  have shortBefore {before after : List (Operation α)} {operation : Operation α}
      (split : operations = before ++ operation :: after) :
      ([] ++ before).length ≤ operationLimit := by
    rw [split, List.length_append] at short
    exact Nat.le_trans (Nat.le_add_right _ _) short
  -- The slots taken by the operations before are as many as these are.
  have full {packing : Packing α} {before : List (Operation α)} {operation : Operation α}
      (holds : packing.Holds before) :
      operation.slotKind.limit ≤ packing.usage.taken operation.slotKind ↔
        operation.slotKind.limit <
          (Operation.ofKind operation.slotKind (before ++ [operation])).length := by
    rw [holds.taken, Operation.ofKind_snoc, if_pos rfl, List.length_append, List.length_singleton]
    exact Nat.lt_succ_iff.symm
  refine ⟨?_, ?_⟩
  · rintro ⟨before, operation, after, reached, split, passes, stops⟩
    have holds : reached.Holds before := holds_start.placeAll (shortBefore split) passes
    obtain ⟨noRoom, rfl⟩ := place_eq_error.mp stops
    exact ⟨before, operation, after, split, holds.fits, (full holds).mp noRoom, rfl⟩
  · rintro ⟨before, operation, after, split, fits, noRoom, rfl⟩
    obtain ⟨reached, passes⟩ := holds_start.exists_placeAll (shortBefore split) fits
    have holds : reached.Holds before := holds_start.placeAll (shortBefore split) passes
    exact ⟨before, operation, after, reached, split, passes,
      place_eq_error.mpr ⟨(full holds).mpr noRoom, rfl⟩⟩

end Packing

/-! ## What a block holds -/

namespace UniformBlock

/-- The block of a list of operations: each has the slot whose number is that of the operations of
its kind before it, every slot and instruction beyond them is zero, and the slots in use are as many
as the operations. -/
structure IsDense (block : UniformBlock α) (operations : List (Operation α)) : Prop where
  count : block.count.toNat = operations.length
  instruction : ∀ before operation after, operations = before ++ operation :: after →
    block.instructions[before.length]? = some ⟨operation.opcode.code,
      UInt32.ofNat (Operation.ofKind operation.slotKind before).length⟩
  slot : ∀ before operation after, operations = before ++ operation :: after →
    block.contents operation.slotKind (Operation.ofKind operation.slotKind before).length =
      some operation.slotContents
  noInstruction : ∀ position, operations.length ≤ position → position < operationLimit →
    block.instructions[position]? = some ⟨0, 0⟩
  freeSlot : ∀ kind slot, (Operation.ofKind kind operations).length ≤ slot → slot < kind.limit →
    block.contents kind slot = some (.zero kind)
  usedOperations : block.usage.operations = operations.length
  usedSlots : ∀ kind, block.usage.taken kind = (Operation.ofKind kind operations).length

end UniformBlock

theorem Packing.Holds.isDense {packing : Packing α} {operations : List (Operation α)}
    (holds : packing.Holds operations) (short : operations.length ≤ operationLimit) :
    packing.block.IsDense operations := by
  have active := holds.active short
  have usage : packing.block.usage =
      (Operation.instructionsAfter [] operations).foldl SlotUsage.count .none := by
    rw [← active]
    rfl
  refine ⟨?_, ?_, ?_, ?_, ?_, ?_, ?_⟩
  · rw [holds.count, UInt32.toNat_ofNat_of_lt']
    exact Nat.lt_of_le_of_lt short (by decide)
  · rintro before operation after rfl
    have inside : before.length < operationLimit := by
      rw [List.length_append, List.length_cons] at short
      omega
    rw [holds.instructions _ inside, Operation.instructionsAfter_append]
    simp [Operation.instructionsAfter, Operation.instruction]
  · rintro before operation after rfl
    have room := holds.fits operation.slotKind
    rw [Operation.ofKind_append] at room
    simp only [Operation.ofKind, List.filter_cons, decide_true, if_true, List.length_append,
      List.length_cons] at room
    rw [holds.contents _ _ (by simp only [Operation.ofKind]; omega), Operation.ofKind_append]
    simp [Operation.ofKind]
  · intro position beyond inside
    rw [holds.instructions position inside, List.getD_eq_getElem?_getD,
      List.getElem?_eq_none (by simpa using beyond), Option.getD_none]
  · intro kind slot beyond inside
    rw [holds.contents kind slot inside, List.getD_eq_getElem?_getD,
      List.getElem?_eq_none (by simpa using beyond), Option.getD_none]
  · rw [usage, SlotUsage.operations_countAll]
    exact Nat.zero_add _
  · intro kind
    rw [usage, SlotUsage.taken_countAll]
    cases kind <;> exact Nat.zero_add _

/-! ## Any pipeline -/

namespace UniformBlock

theorem ofPipeline_eq_error {p : Pipeline α} (short : p.length ≤ operationLimit)
    {failure : FitError} :
    ofPipeline p = .error failure ↔
      p.operations.foldlM Packing.place .start = .error failure := by
  rw [ofPipeline, if_neg (Nat.not_lt.mpr short), Pipeline.operations, List.foldlM_map]
  cases p.steps.foldlM (fun (packing : Packing α) step => packing.place step.operation) .start with
  | error early => simp [Except.map]
  | ok final => simp [Except.map]

/-- A pipeline is packed exactly when it has no more operations than the shader carries out and none
of its kinds has more than there are slots.  Otherwise the number of operations is reported if it is
too large, and else the kind of the first operation for which no slot is left.  The block that a
pipeline is packed into is dense. -/
theorem ofPipeline_outcomes (p : Pipeline α) :
    ((∃ block, ofPipeline p = .ok block) ↔
      p.length ≤ 16 ∧ (Operation.ofKind .matrix p.operations).length ≤ 8 ∧
        (Operation.ofKind .transfer p.operations).length ≤ 8 ∧
        (Operation.ofKind .toneCurve p.operations).length ≤ 1 ∧
        (Operation.ofKind .curves p.operations).length ≤ 2 ∧
        (Operation.ofKind .cube p.operations).length ≤ 1) ∧
    (∀ failure, ofPipeline p = .error failure ↔
      (16 < p.length ∧ failure = .tooManyOperations p.length) ∨
      (p.length ≤ 16 ∧ ∃ before operation after,
        p.operations = before ++ operation :: after ∧
        (∀ kind, (Operation.ofKind kind before).length ≤ kind.limit) ∧
        operation.slotKind.limit <
          (Operation.ofKind operation.slotKind (before ++ [operation])).length ∧
        failure = .tooMany operation.slotKind)) ∧
    ∀ block, ofPipeline p = .ok block → block.IsDense p.operations := by
  have limits := SlotKind.forall_iff
    fun kind => (Operation.ofKind kind p.operations).length ≤ kind.limit
  refine ⟨?_, ?_, ?_⟩
  · refine ⟨?_, fun fits => exists_ofPipeline fits.1 (limits.mpr fits.2)⟩
    rintro ⟨block, packed⟩
    obtain ⟨short, _, holds⟩ := holds_of_ofPipeline packed
    rw [Pipeline.length_operations] at short
    exact ⟨short, limits.mp holds.fits⟩
  · intro failure
    rcases Nat.lt_or_ge operationLimit p.length with long | short
    · have reported : ofPipeline p = .error (.tooManyOperations p.length) := if_pos long
      have notShort : ¬ p.length ≤ 16 := Nat.not_le.mpr long
      simp only [reported, Except.error.injEq, notShort, false_and, or_false]
      exact eq_comm.trans (and_iff_right long).symm
    · have notLong : ¬ 16 < p.length := Nat.not_lt.mpr short
      simp only [ofPipeline_eq_error short, notLong, false_and, false_or]
      exact (Packing.placeAll_eq_error (by simpa using short)).trans (and_iff_right short).symm
  · intro block packed
    obtain ⟨short, _, holds⟩ := holds_of_ofPipeline packed
    exact holds.isDense short

end UniformBlock

end DisplayColor

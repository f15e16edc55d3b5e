import DisplayColor.Proofs.Fusion.Build
import DisplayColor.Shader.Packing

/-! # What a packed block holds

While a pipeline is packed, the block always holds exactly the operations that are done: in each
kind of slot the data of the operations of that kind, in their order and without gaps, and in the
list of instructions one for each operation.  Everything else is still zero.

A write to one kind of slot must not be seen in another, and each kind has its own representation.
`UniformBlock.contents` looks at all of them alike, so that storing is one equation. -/

namespace DisplayColor

/-- What one slot holds. -/
inductive SlotContents (α : Type)
  | matrix (slot : MatrixSlot α)
  | transfer (slot : TransferSlot α)
  | toneCurve (slot : ToneSlot α)
  | curves (parameters : Vec4 α)
  | cube (parameters : Vec4 α)

variable {α : Type} [Scalar α]

/-- What a slot of a kind holds before anything is stored. -/
def SlotContents.zero : SlotKind → SlotContents α
  | .matrix => .matrix ⟨.replicate _ 0⟩
  | .transfer => .transfer ⟨0, 0, 0⟩
  | .toneCurve => .toneCurve ⟨0, 0, 0, 0, 0⟩
  | .curves => .curves ⟨0, 0, 0, 0⟩
  | .cube => .cube ⟨0, 0, 0, 0⟩

namespace Operation

def slotKind {α : Type} (operation : Operation α) : SlotKind := operation.opcode.slotKind

/-- What the slot of an operation holds. -/
def slotContents : Operation α → SlotContents α
  | matrix m => .matrix (.ofMatrix m)
  | multiplier gains => .matrix (.ofMatrix (Mat4.scaling gains))
  | decode f => .transfer (.ofTransfer f)
  | encode f => .transfer (.ofTransfer f)
  | toneMap curve => .toneCurve (.ofCurve curve)
  | curves lut => .curves ⟨lut.table.domainMin, lut.table.domainMax, Scalar.ofNat lut.table.size, 0⟩
  | cube lut => .cube ⟨Scalar.ofNat lut.table.size, 0, 0, 0⟩

def ofKind {α : Type} (kind : SlotKind) (operations : List (Operation α)) : List (Operation α) :=
  operations.filter fun operation => operation.slotKind = kind

def instruction {α : Type} (before : List (Operation α)) (operation : Operation α) : Instruction :=
  ⟨operation.opcode.code, UInt32.ofNat (ofKind operation.slotKind before).length⟩

/-- The instructions for operations that come after others. -/
def instructionsAfter {α : Type} (before : List (Operation α)) :
    List (Operation α) → List Instruction
  | [] => []
  | operation :: rest =>
    instruction before operation :: instructionsAfter (before ++ [operation]) rest

theorem instructionsAfter_append {α : Type} (before first second : List (Operation α)) :
    instructionsAfter before (first ++ second) =
      instructionsAfter before first ++ instructionsAfter (before ++ first) second := by
  induction first generalizing before with
  | nil => simp [instructionsAfter]
  | cons operation rest inductionHypothesis =>
    simp [instructionsAfter, inductionHypothesis]

@[simp] theorem length_instructionsAfter {α : Type} (before operations : List (Operation α)) :
    (instructionsAfter before operations).length = operations.length := by
  induction operations generalizing before with
  | nil => rfl
  | cons operation rest inductionHypothesis => simp [instructionsAfter, inductionHypothesis]

theorem ofKind_append {α : Type} (kind : SlotKind) (first second : List (Operation α)) :
    ofKind kind (first ++ second) = ofKind kind first ++ ofKind kind second :=
  List.filter_append ..

theorem ofKind_snoc {α : Type} (kind : SlotKind) (operations : List (Operation α))
    (last : Operation α) :
    ofKind kind (operations ++ [last]) =
      if kind = last.slotKind then ofKind kind operations ++ [last]
      else ofKind kind operations := by
  rw [ofKind_append]
  by_cases same : kind = last.slotKind
  · simp [ofKind, same]
  · simp [ofKind, same, Ne.symm same]

theorem instructionsAfter_snoc {α : Type} (operations : List (Operation α)) (last : Operation α) :
    instructionsAfter [] (operations ++ [last]) =
      instructionsAfter [] operations ++ [instruction operations last] :=
  instructionsAfter_append [] operations [last]

end Operation

theorem Opcode.ofCode?_code (opcode : Opcode) : ofCode? opcode.code = some opcode := by
  cases opcode <;> rfl

theorem SlotUsage.taken_take (usage : SlotUsage) (kind other : SlotKind) :
    (usage.take kind).taken other = usage.taken other + if kind = other then 1 else 0 := by
  cases kind <;> cases other <;> rfl

@[simp] theorem SlotUsage.operations_take (usage : SlotUsage) (kind : SlotKind) :
    (usage.take kind).operations = usage.operations + 1 := by
  cases kind <;> rfl

namespace UniformBlock

/-- What a slot holds, if it exists. -/
def contents {α : Type} (block : UniformBlock α) : SlotKind → Nat → Option (SlotContents α)
  | .matrix, slot => block.matrices[slot]?.map .matrix
  | .transfer, slot => block.transfers[slot]?.map .transfer
  | .toneCurve, slot => if slot = 0 then some (.toneCurve block.toneCurve) else none
  | .curves, slot => block.curves[slot]?.map .curves
  | .cube, slot => if slot = 0 then some (.cube block.cube) else none

/-- Storing an operation writes one slot and no other. -/
theorem contents_store (block : UniformBlock α) (operation : Operation α) {slot : Nat}
    (room : slot < operation.slotKind.limit) (kind : SlotKind) (other : Nat) :
    (Packing.store block slot operation).contents kind other =
      if kind = operation.slotKind ∧ other = slot then some operation.slotContents
      else block.contents kind other := by
  have write {β : Type} {n : Nat} (slots : Vector β n) (value : β) (wrap : β → SlotContents α)
      (room : slot < n) :
      (slots.setIfInBounds slot value)[other]?.map wrap =
        if other = slot then some (wrap value) else slots[other]?.map wrap := by
    rw [Vector.getElem?_setIfInBounds]
    by_cases same : other = slot
    · simp [same, room]
    · simp [same, Ne.symm same]
  -- The two kinds with one slot are fields of their own, and their slot can only be the first.
  have single (one : slot < 1) (value old : SlotContents α) :
      (if other = 0 then some value else none) =
        if other = slot then some value else if other = 0 then some old else none := by
    obtain rfl : slot = 0 := by omega
    split <;> rfl
  by_cases own : kind = operation.slotKind
  · subst own
    simp only [true_and]
    cases operation with
    | matrix m | multiplier gains | decode f | encode f | curves lut => exact write _ _ _ room
    | toneMap curve | cube lut => exact single room _ _
  · simp only [own, false_and, if_false]
    cases operation <;> cases kind <;> first | rfl | exact absurd rfl own

theorem contents_schedule {α : Type} (block : UniformBlock α) (position : Nat)
    (instruction : Instruction) (kind : SlotKind) (slot : Nat) :
    (Packing.schedule block position instruction).contents kind slot =
      block.contents kind slot := by
  cases kind <;> rfl

theorem contents_zero (kind : SlotKind) {slot : Nat} (room : slot < kind.limit) :
    (zero : UniformBlock α).contents kind slot = some (.zero kind) := by
  cases kind with
  | matrix | transfer | curves => simp [contents, zero, room, SlotContents.zero]
  | toneCurve | cube =>
    obtain rfl : slot = 0 := by simpa [SlotKind.limit] using room
    rfl

end UniformBlock

/-! ## The invariant -/

/-- A partly filled block holds the operations that are done, and nothing else. -/
structure Packing.Holds (packing : Packing α) (done : List (Operation α)) : Prop where
  operations : packing.usage.operations = done.length
  taken : ∀ kind, packing.usage.taken kind = (Operation.ofKind kind done).length
  fits : ∀ kind, (Operation.ofKind kind done).length ≤ kind.limit
  count : packing.block.count = UInt32.ofNat done.length
  contents : ∀ kind slot, slot < kind.limit → packing.block.contents kind slot =
    some (((Operation.ofKind kind done).map Operation.slotContents).getD slot (.zero kind))
  instructions : ∀ position, position < operationLimit →
    packing.block.instructions[position]? =
      some ((Operation.instructionsAfter [] done).getD position ⟨0, 0⟩)

namespace Packing

theorem place_eq_ok {packing next : Packing α} {operation : Operation α} :
    packing.place operation = .ok next ↔
      packing.usage.taken operation.slotKind < operation.slotKind.limit ∧
        next =
          ⟨schedule (store packing.block (packing.usage.taken operation.slotKind) operation)
              packing.usage.operations
              ⟨operation.opcode.code, UInt32.ofNat (packing.usage.taken operation.slotKind)⟩,
            packing.usage.take operation.slotKind⟩ := by
  simp only [place, Operation.slotKind]
  split
  · rename_i full
    simp [Nat.not_lt.mpr full]
  · rename_i room
    simp only [Except.ok.injEq, Nat.not_le.mp room, true_and]
    exact eq_comm

theorem instructions_store (block : UniformBlock α) (slot : Nat) (operation : Operation α) :
    (store block slot operation).instructions = block.instructions := by
  cases operation <;> rfl

theorem holds_start : (start : Packing α).Holds [] where
  operations := rfl
  taken kind := by cases kind <;> rfl
  fits kind := Nat.zero_le _
  count := rfl
  contents kind slot room := UniformBlock.contents_zero kind room
  instructions position room := by
    simp [start, UniformBlock.zero, Operation.instructionsAfter, room]

theorem getD_snoc {β : Type} (list : List β) (last default : β) (position : Nat) :
    (list ++ [last]).getD position default =
      if position = list.length then last else list.getD position default := by
  by_cases same : position = list.length
  · simp [same]
  · by_cases inside : position < list.length
    · simp [same, List.getD_eq_getElem?_getD, List.getElem?_append_left inside]
    · have beyond : (list ++ [last]).length ≤ position := by simp; omega
      have beyondList : list.length ≤ position := by omega
      simp only [same, if_false, List.getD_eq_getElem?_getD, List.getElem?_eq_none beyond,
        List.getElem?_eq_none beyondList]

theorem Holds.place {packing next : Packing α} {done : List (Operation α)}
    {operation : Operation α} (holds : packing.Holds done) (short : done.length < operationLimit)
    (placed : packing.place operation = .ok next) : next.Holds (done ++ [operation]) := by
  obtain ⟨room, rfl⟩ := place_eq_ok.mp placed
  refine ⟨?_, ?_, ?_, ?_, ?_, ?_⟩
  · simp [holds.operations]
  · intro kind
    rw [SlotUsage.taken_take, holds.taken, Operation.ofKind_snoc]
    by_cases same : kind = operation.slotKind
    · simp [same]
    · simp [same, Ne.symm same]
  · intro kind
    rw [Operation.ofKind_snoc]
    split
    · rename_i same
      subst same
      rw [List.length_append, ← holds.taken]
      exact room
    · exact holds.fits kind
  · simp [schedule, holds.operations]
  · intro kind slot inside
    -- The slot that is written is the number of operations of its kind, which is where the list of
    -- them grows.
    rw [UniformBlock.contents_schedule, UniformBlock.contents_store _ _ room,
      holds.contents kind slot inside, holds.taken, Operation.ofKind_snoc]
    by_cases same : kind = operation.slotKind
    · subst same
      simp only [if_true, true_and, List.map_append, List.map_cons, List.map_nil, getD_snoc,
        List.length_map]
      split <;> rfl
    · simp [same]
  · intro position inside
    rw [Operation.instructionsAfter_snoc, getD_snoc, Operation.length_instructionsAfter,
      Operation.instruction]
    simp only [schedule, instructions_store, Vector.getElem?_setIfInBounds, holds.operations,
      holds.taken]
    by_cases last : position = done.length
    · simp [last, short]
    · simp [last, Ne.symm last, holds.instructions position inside]

theorem Holds.placeAll {operations : List (Operation α)} {packing final : Packing α}
    {done : List (Operation α)} (holds : packing.Holds done)
    (short : (done ++ operations).length ≤ operationLimit)
    (placed : operations.foldlM Packing.place packing = .ok final) :
    final.Holds (done ++ operations) := by
  induction operations generalizing packing done with
  | nil =>
    cases placed
    rwa [List.append_nil]
  | cons operation rest inductionHypothesis =>
    rw [List.append_cons] at short ⊢
    rw [List.foldlM_cons] at placed
    cases first : packing.place operation with
    | error failure =>
      rw [first] at placed
      cases placed
    | ok next =>
      rw [first] at placed
      have room : done.length < operationLimit := by
        simp only [List.length_append, List.length_singleton] at short
        omega
      exact inductionHypothesis (holds.place room first) short placed

end Packing

/-- The shader carries out one instruction for each operation that is done. -/
theorem Packing.Holds.active {packing : Packing α} {done : List (Operation α)}
    (holds : packing.Holds done) (short : done.length ≤ operationLimit) :
    packing.block.active = Operation.instructionsAfter [] done := by
  have count : packing.block.count.toNat = done.length := by
    rw [holds.count, UInt32.toNat_ofNat_of_lt']
    exact Nat.lt_of_le_of_lt short (by decide)
  refine List.ext_getElem? ?_
  intro position
  rw [UniformBlock.active, count, List.getElem?_take]
  split
  · rename_i inside
    -- Of the instructions only those below the count are carried out, and each of them is known.
    have known := holds.instructions position (Nat.lt_of_lt_of_le inside short)
    have listed : position < (Operation.instructionsAfter [] done).length := by simpa using inside
    rw [Vector.getElem?_toList, known, List.getD_eq_getElem?_getD,
      List.getElem?_eq_getElem listed, Option.getD_some]
  · rename_i beyond
    rw [List.getElem?_eq_none]
    simpa using beyond

theorem UniformBlock.holds_of_ofPipeline {p : Pipeline α} {block : UniformBlock α}
    (packed : ofPipeline p = .ok block) :
    p.operations.length ≤ operationLimit ∧
      ∃ usage, Packing.Holds ⟨block, usage⟩ p.operations := by
  unfold ofPipeline at packed
  split at packed
  · cases packed
  · rename_i fits
    have short : p.operations.length ≤ operationLimit := by simpa using fits
    refine ⟨short, ?_⟩
    rw [← List.foldlM_map (f := Step.operation)] at packed
    cases placed : p.operations.foldlM Packing.place .start with
    | error failure =>
      rw [Pipeline.operations] at placed
      rw [placed] at packed
      cases packed
    | ok final =>
      have holds := Packing.holds_start.placeAll short placed
      rw [Pipeline.operations] at placed
      rw [placed] at packed
      cases packed
      exact ⟨final.usage, holds⟩

end DisplayColor

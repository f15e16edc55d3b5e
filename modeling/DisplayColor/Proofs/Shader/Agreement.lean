import DisplayColor.Proofs.Matrices
import DisplayColor.Proofs.Shader.Packing

/-! # The shader agrees with the pipeline

In exact arithmetic the uniform block of a pipeline, carried out with the tables of this pipeline,
does to every colour what the pipeline does.

The two hold a matrix in different orders, by rows and by columns, and each is carried out in its
own order.  That they agree is a fact about the order alone, so it holds for all scalars and for
every sixteen numbers, and the matrix can be read back from them.

An instruction only names a slot.  It finds the data of its own operation there because the slot is
the number of operations of the same kind that come before, both among the slots of the block and
among the tables, which are collected apart from it. -/

namespace DisplayColor

theorem SlotKind.limit_le_size (kind : SlotKind) : kind.limit ≤ UInt32.size := by
  cases kind <;> decide

theorem Curve.ofCode?_code (curve : Curve) : ofCode? curve.code = some curve := by
  cases curve <;> rfl

namespace MatrixSlot

variable {α : Type}

/-- The matrix with the columns that a slot holds. -/
def toMatrix (slot : MatrixSlot α) : Mat4 α :=
  let m := slot.entries.get
  ⟨⟨m 0, m 4, m 8, m 12⟩, ⟨m 1, m 5, m 9, m 13⟩, ⟨m 2, m 6, m 10, m 14⟩, ⟨m 3, m 7, m 11, m 15⟩⟩

theorem toMatrix_ofMatrix (m : Mat4 α) : (ofMatrix m).toMatrix = m := rfl

theorem apply_eq_applyDirect [Scalar α] (slot : MatrixSlot α) (v : Vec3 α) :
    slot.apply v = slot.toMatrix.applyDirect v := rfl

theorem apply_ofMatrix [Scalar α] (m : Mat4 α) (v : Vec3 α) :
    (ofMatrix m).apply v = m.applyDirect v := by
  rw [apply_eq_applyDirect, toMatrix_ofMatrix]

end MatrixSlot

namespace TransferSlot

theorem decode_ofTransfer (f : TransferFunction ℝ) : (ofTransfer f).decode = f.decode := by
  funext signal
  simp only [decode, ofTransfer, Curve.ofCode?_code, TransferFunction.decode]

theorem encode_ofTransfer (f : TransferFunction ℝ) : (ofTransfer f).encode = f.encode := by
  funext nits
  simp only [encode, ofTransfer, Curve.ofCode?_code, TransferFunction.encode]

end TransferSlot

namespace Operation

/-- The slot of an operation is the number of operations of its kind before it. -/
theorem getElem?_ofKind {α : Type} (before after : List (Operation α)) (operation : Operation α) :
    (ofKind operation.slotKind (before ++ operation :: after))[
      (ofKind operation.slotKind before).length]? = some operation := by
  rw [ofKind_append, List.getElem?_append_right (Nat.le_refl _), Nat.sub_self]
  simp [ofKind]

end Operation

namespace BoundTables

variable {α : Type}

/-- Tables that are picked from the steps one by one are those of the operations of one kind. -/
theorem map_filterMap {β : Type} {kind : SlotKind} {pick : Step α → Option β}
    {wrap : β → Operation α}
    (picked : ∀ step, (pick step).map wrap =
      if step.operation.slotKind = kind then some step.operation else Option.none)
    (steps : List (Step α)) :
    (steps.filterMap pick).map wrap = Operation.ofKind kind (steps.map Step.operation) := by
  induction steps with
  | nil => rfl
  | cons step rest inductionHypothesis =>
    have first := picked step
    simp only [Operation.ofKind] at inductionHypothesis ⊢
    cases found : pick step with
    | none =>
      rw [found, Option.map_none] at first
      split at first
      · cases first
      · rename_i other
        simp [found, other, inductionHypothesis]
    | some table =>
      rw [found, Option.map_some] at first
      split at first
      · rename_i same
        simp [found, same, inductionHypothesis, Option.some.inj first]
      · cases first

theorem map_curves_ofPipeline (p : Pipeline α) :
    (ofPipeline p).curves.map Operation.curves = Operation.ofKind .curves p.operations := by
  refine map_filterMap ?_ p.steps
  rintro ⟨_, operation, _⟩
  cases operation <;> rfl

theorem map_cubes_ofPipeline (p : Pipeline α) :
    (ofPipeline p).cubes.map Operation.cube = Operation.ofKind .cube p.operations := by
  refine map_filterMap ?_ p.steps
  rintro ⟨_, operation, _⟩
  cases operation <;> rfl

end BoundTables

structure Operation.IsFoundIn {α : Type} [Scalar α] (operation : Operation α)
    (block : UniformBlock α) (tables : BoundTables α) (slot : ℕ) : Prop where
  contents : block.contents operation.slotKind slot = some operation.slotContents
  curves : ∀ lut, operation = .curves lut → tables.curves[slot]? = some lut
  cube : ∀ lut, operation = .cube lut → tables.cubes[slot]? = some lut

namespace UniformBlock

theorem execute_eq_apply {block : UniformBlock ℝ} {tables : BoundTables ℝ} {slot : ℕ}
    {operation : Operation ℝ} (found : operation.IsFoundIn block tables slot)
    (small : slot < UInt32.size) (v : Vec3 ℝ) :
    block.execute tables v ⟨operation.opcode.code, UInt32.ofNat slot⟩ = operation.apply v := by
  have index : (UInt32.ofNat slot).toNat = slot := UInt32.toNat_ofNat_of_lt' small
  have stored := found.contents
  simp only [execute, Opcode.ofCode?_code, index]
  cases operation with
  | matrix m =>
    obtain ⟨_, held, ⟨⟩⟩ := Option.map_eq_some_iff.mp stored
    simp only [Operation.opcode, held, Option.map_some, MatrixSlot.apply_ofMatrix,
      ← Mat4.apply_eq]
    rfl
  | multiplier gains =>
    obtain ⟨_, held, ⟨⟩⟩ := Option.map_eq_some_iff.mp stored
    simp only [Operation.opcode, held, Option.map_some, MatrixSlot.apply_ofMatrix,
      ← Mat4.apply_eq, Mat4.scaling_apply]
    rfl
  | decode f =>
    obtain ⟨_, held, ⟨⟩⟩ := Option.map_eq_some_iff.mp stored
    simp only [Operation.opcode, held, Option.map_some, TransferSlot.decode_ofTransfer]
    rfl
  | encode f =>
    obtain ⟨_, held, ⟨⟩⟩ := Option.map_eq_some_iff.mp stored
    simp only [Operation.opcode, held, Option.map_some, TransferSlot.encode_ofTransfer]
    rfl
  | toneMap curve =>
    have held : block.toneCurve = .ofCurve curve := by
      simp only [contents, Operation.slotKind, Operation.opcode, Opcode.slotKind,
        Operation.slotContents] at stored
      split at stored
      · exact SlotContents.toneCurve.inj (Option.some.inj stored)
      · cases stored
    simp only [Operation.opcode, held]
    rfl
  | curves lut =>
    simp only [Operation.opcode, found.curves lut rfl]
    rfl
  | cube lut =>
    simp only [Operation.opcode, found.cube lut rfl]
    rfl

theorem isFoundIn_ofPipeline {p : Pipeline ℝ} {block : UniformBlock ℝ} {usage : SlotUsage}
    (holds : Packing.Holds ⟨block, usage⟩ p.operations) {before after : List (Operation ℝ)}
    {operation : Operation ℝ} (split : p.operations = before ++ operation :: after) :
    (Operation.ofKind operation.slotKind before).length < operation.slotKind.limit ∧
      operation.IsFoundIn block (BoundTables.ofPipeline p)
        (Operation.ofKind operation.slotKind before).length := by
  have found := Operation.getElem?_ofKind before after operation
  rw [← split] at found
  have inside : (Operation.ofKind operation.slotKind before).length < operation.slotKind.limit :=
    Nat.lt_of_lt_of_le (List.getElem?_eq_some_iff.mp found).1 (holds.fits operation.slotKind)
  refine ⟨inside, ?_, ?_, ?_⟩
  · rw [holds.contents _ _ inside, List.getD_eq_getElem?_getD, List.getElem?_map, found]
    rfl
  -- The tables are in the order of the operations of their kind, so the same number finds them.
  · rintro lut rfl
    rw [show (Operation.curves lut).slotKind = .curves from rfl,
      ← BoundTables.map_curves_ofPipeline, List.getElem?_map] at found
    obtain ⟨_, bound, ⟨⟩⟩ := Option.map_eq_some_iff.mp found
    exact bound
  · rintro lut rfl
    rw [show (Operation.cube lut).slotKind = .cube from rfl,
      ← BoundTables.map_cubes_ofPipeline, List.getElem?_map] at found
    obtain ⟨_, bound, ⟨⟩⟩ := Option.map_eq_some_iff.mp found
    exact bound

/-- The uniform block of a pipeline and the pipeline itself do the same to every colour. -/
theorem evaluate_ofPipeline {p : Pipeline ℝ} {block : UniformBlock ℝ}
    (packed : ofPipeline p = .ok block) (v : Vec3 ℝ) :
    block.evaluate (BoundTables.ofPipeline p) v = p.evaluate v := by
  obtain ⟨short, usage, holds⟩ := holds_of_ofPipeline packed
  -- The operations that are already carried out decide which slots the others refer to.
  have simulated (rest before : List (Operation ℝ)) (split : p.operations = before ++ rest)
      (w : Vec3 ℝ) :
      (Operation.instructionsAfter before rest).foldlM
        (block.execute (BoundTables.ofPipeline p)) w = Operation.applyAll rest w := by
    induction rest generalizing before w with
    | nil => rfl
    | cons operation rest inductionHypothesis =>
      obtain ⟨inside, found⟩ := isFoundIn_ofPipeline holds split
      have small := Nat.lt_of_lt_of_le inside operation.slotKind.limit_le_size
      rw [Operation.instructionsAfter, List.foldlM_cons, Operation.instruction,
        execute_eq_apply found small, Operation.applyAll, List.foldlM_cons]
      refine bind_congr ?_
      intro next
      exact inductionHypothesis (before ++ [operation]) (by rw [split, List.append_cons]) next
  rw [evaluate, holds.active short, Pipeline.evaluate_eq_applyAll]
  exact simulated p.operations [] rfl v

/-- Operations of every kind, with two that share the slots for matrices and two that share those
for transfer functions.  The matrix is not the same by rows and by columns. -/
noncomputable def mixedPipeline : Pipeline ℝ :=
  let mixing : Mat4 ℝ := ⟨⟨1, 2, 0, 5⟩, ⟨0, 1, 3, 0⟩, ⟨4, 0, 1, 0⟩, ⟨0, 0, 0, 1⟩⟩
  let operations : List (Operation ℝ) :=
    [.decode (.ofCurve .srgb), .multiplier ⟨2, 1, 1⟩, .curves ⟨0, 0, .identity 2⟩,
      .toneMap (.ofLuminances 203 1000 203 1), .matrix mixing, .cube ⟨1, 1, .identity 2⟩,
      .encode (.ofCurve .pq)]
  ⟨.unit, operations.reverse.map fun operation => ⟨.unit, operation, .unit⟩⟩

theorem evaluate_mixedPipeline : ∃ block, ofPipeline mixedPipeline = .ok block ∧
    block.evaluate (BoundTables.ofPipeline mixedPipeline) ⟨0, 0.5, 1⟩ =
      mixedPipeline.evaluate ⟨0, 0.5, 1⟩ :=
  ⟨_, rfl, evaluate_ofPipeline rfl _⟩

end UniformBlock

end DisplayColor

import DisplayColor.Proofs.Shader.Packing

/-! # What fits the shader

A pipeline can be packed whenever it has no more operations than the shader carries out, and of each
kind no more than there are slots.  Packing stops at nothing else. -/

namespace DisplayColor

variable {α : Type}

/-- There are no fewer operations of a kind when more operations come after. -/
theorem Operation.length_ofKind_le (kind : SlotKind) (first second : List (Operation α)) :
    (ofKind kind first).length ≤ (ofKind kind (first ++ second)).length := by
  rw [ofKind_append, List.length_append]
  exact Nat.le_add_right ..

variable [Scalar α]

namespace Packing

theorem Holds.exists_place {packing : Packing α} {done : List (Operation α)}
    {operation : Operation α} (holds : packing.Holds done)
    (fits : (Operation.ofKind operation.slotKind (done ++ [operation])).length ≤
      operation.slotKind.limit) : ∃ next, packing.place operation = .ok next := by
  rw [Operation.ofKind_snoc, if_pos rfl, List.length_append, List.length_singleton] at fits
  refine ⟨_, place_eq_ok.mpr ⟨?_, rfl⟩⟩
  rw [holds.taken]
  exact fits

theorem Holds.exists_placeAll {operations : List (Operation α)} {packing : Packing α}
    {done : List (Operation α)} (holds : packing.Holds done)
    (short : (done ++ operations).length ≤ operationLimit)
    (fits : ∀ kind, (Operation.ofKind kind (done ++ operations)).length ≤ kind.limit) :
    ∃ final, operations.foldlM Packing.place packing = .ok final := by
  induction operations generalizing packing done with
  | nil => exact ⟨packing, rfl⟩
  | cons operation rest inductionHypothesis =>
    rw [List.append_cons] at short fits
    obtain ⟨next, placed⟩ := holds.exists_place
      (Nat.le_trans (Operation.length_ofKind_le _ _ rest) (fits operation.slotKind))
    have room : done.length < operationLimit := by
      simp only [List.length_append, List.length_singleton] at short
      omega
    obtain ⟨final, later⟩ := inductionHypothesis (holds.place room placed) short fits
    refine ⟨final, ?_⟩
    rw [List.foldlM_cons, placed]
    exact later

end Packing

theorem UniformBlock.exists_ofPipeline {p : Pipeline α} (short : p.length ≤ operationLimit)
    (fits : ∀ kind, (Operation.ofKind kind p.operations).length ≤ kind.limit) :
    ∃ block, ofPipeline p = .ok block := by
  have listed : ([] ++ p.operations).length ≤ operationLimit := by simpa using short
  obtain ⟨final, placed⟩ := Packing.holds_start.exists_placeAll listed fits
  refine ⟨final.block, ?_⟩
  rw [Pipeline.operations, List.foldlM_map] at placed
  rw [ofPipeline, if_neg (Nat.not_lt.mpr short), placed]
  rfl

end DisplayColor

import DisplayColor.Device.Binder
import DisplayColor.Proofs.Fusion.Size
import DisplayColor.Proofs.Shader.Agreement
import DisplayColor.Proofs.Shader.Fit

/-! # Binding conversions

A conversion fits the shader, whatever it converts between and whatever the settings are.  It has no
tables either, so binding it comes to a single upload, and it can fail in no other way than the
upload does. -/

namespace DisplayColor

variable {α σ τ ω : Type}

theorem BoundTables.ofPipeline_eq_none {p : Pipeline α}
    (withoutCurves : Pipeline.slotCount .curves p.latestFirst = 0)
    (withoutCube : Pipeline.slotCount .cube p.latestFirst = 0) : ofPipeline p = .none := by
  have curves : (ofPipeline p).curves.length = 0 := by
    rw [← withoutCurves, ← Pipeline.length_ofKind_operations, ← map_curves_ofPipeline,
      List.length_map]
  have cubes : (ofPipeline p).cubes.length = 0 := by
    rw [← withoutCube, ← Pipeline.length_ofKind_operations, ← map_cubes_ofPipeline,
      List.length_map]
  exact congrArg₂ BoundTables.mk (List.length_eq_zero_iff.mp curves)
    (List.length_eq_zero_iff.mp cubes)

variable [Scalar α] [Scalar ω] [Precision α ω]

/-- Without tables there is nothing to bind before the block is uploaded. -/
theorem Binder.bind_eq_of_no_tables {p : Pipeline α} {block : UniformBlock α}
    (fits : UniformBlock.ofPipeline p = .ok block) (noTables : BoundTables.ofPipeline p = .none)
    (binder : Binder α σ τ) (gpu : Device α σ τ) :
    (binder.bind gpu p).1 =
      ((gpu.upload block binder.device).1.map fun _ => block).mapError .device := by
  simp only [bind, fits, noTables, bindBlock, BoundTables.none, bindCurves, bindCubes, upload]
  cases (gpu.upload block binder.device).1 with
  | error report => rfl
  | ok done => rfl

namespace Pipeline

variable {source target : Description α ω} {intent : Intent} {settings : Settings α}

theorem length_conversion_le : (conversion source target intent settings).length ≤ 9 := by
  obtain ⟨linear, transfers, toneCurves, curves, cubes⟩ :=
    slotCounts_conversion source target intent settings
  rw [length, length_eq_slotCounts]
  omega

theorem exists_block_conversion (source target : Description α ω) (intent : Intent)
    (settings : Settings α) :
    ∃ block, UniformBlock.ofPipeline (conversion source target intent settings) = .ok block := by
  obtain ⟨linear, transfers, toneCurves, curves, cubes⟩ :=
    slotCounts_conversion source target intent settings
  refine UniformBlock.exists_ofPipeline (Nat.le_trans length_conversion_le (by decide)) ?_
  intro kind
  rw [length_ofKind_operations]
  cases kind with
  | matrix => exact Nat.le_trans linear (by decide)
  | transfer => exact Nat.le_trans transfers (by decide)
  | toneCurve => exact toneCurves
  | curves => exact Nat.le_trans (Nat.le_of_eq curves) (by decide)
  | cube => exact Nat.le_trans (Nat.le_of_eq cubes) (by decide)

theorem tables_conversion :
    BoundTables.ofPipeline (conversion source target intent settings) = .none := by
  obtain ⟨_, _, _, curves, cubes⟩ := slotCounts_conversion source target intent settings
  exact BoundTables.ofPipeline_eq_none curves cubes

/-- A conversion between any two descriptions has at most nine operations, of which at most four are
linear, four are transfer functions or their inverses, and one is a tone curve.  So it fits the
shader, and binding it fails exactly when the device fails to upload its block, with the report of
the device. -/
theorem conversion_fits (source target : Description α ω) (intent : Intent)
    (settings : Settings α) :
    (conversion source target intent settings).length ≤ 9 ∧
      (Operation.ofKind .matrix (conversion source target intent settings).operations).length ≤ 4 ∧
      (Operation.ofKind .transfer
        (conversion source target intent settings).operations).length ≤ 4 ∧
      (Operation.ofKind .toneCurve
        (conversion source target intent settings).operations).length ≤ 1 ∧
      ∃ block, UniformBlock.ofPipeline (conversion source target intent settings) = .ok block ∧
        ∀ (binder : Binder α σ τ) (gpu : Device α σ τ) (failure : BindError),
          (binder.bindConversion gpu source target intent settings).1 = .error failure ↔
            ∃ report, (gpu.upload block binder.device).1 = .error report ∧
              failure = .device report := by
  simp only [length_ofKind_operations]
  obtain ⟨linear, transfers, toneCurves, _, _⟩ :=
    slotCounts_conversion source target intent settings
  obtain ⟨block, fits⟩ := exists_block_conversion source target intent settings
  refine ⟨length_conversion_le, linear, transfers, toneCurves, block, fits, ?_⟩
  intro binder gpu failure
  have uploads := binder.bind_eq_of_no_tables fits tables_conversion gpu
  rw [Binder.bindConversion, uploads]
  cases (gpu.upload block binder.device).1 with
  | error report => simp [Except.map, Except.mapError, eq_comm]
  | ok done => simp [Except.map, Except.mapError]

end Pipeline

end DisplayColor

import DisplayColor.Proofs.Fusion.Meaning
import DisplayColor.Proofs.Fusion.Build

/-! # Pipelines compose

What holds of one addition is carried here through sequences of additions and through builds.  A
build that merges two others adds the fused steps of the second to the first, so a step of the
second is seen at two times: when its own pipeline comes about, on the colours that the first one
hands over, and again when it is added. -/

namespace DisplayColor

namespace Pipeline

theorem evaluate_addAll {additions : List (Addition ℝ)} {p : Pipeline ℝ} {v : Vec3 ℝ}
    (stepsSound : AreSound p.latestFirst)
    (sound : ∀ addition ∈ additions, addition.operation.IsSound)
    (exact : AreExact (p.addAllTests additions)) (cancels : p.CancelsAllAt v additions) :
    (p.addAll additions).evaluate v =
      p.evaluate v >>= Operation.applyAll (additions.map Addition.operation) := by
  induction additions generalizing p with
  | nil => exact (bind_pure (p.evaluate v)).symm
  | cons addition additions inductionHypothesis =>
    obtain ⟨first, later⟩ := List.forall_mem_cons.mp sound
    obtain ⟨cancelsFirst, cancelsLater⟩ := cancels
    have exactFirst := exact.of_subset (List.subset_append_left ..)
    have exactLater := exact.of_subset (List.subset_append_right ..)
    rw [addAll_cons, inductionHypothesis (areSound_add addition.output stepsSound first) later
      exactLater cancelsLater, evaluate_add addition.output stepsSound exactFirst cancelsFirst,
      bind_assoc]
    rfl

theorem AreSound.toAdditions {p : Pipeline ℝ} (sound : AreSound p.latestFirst) :
    ∀ addition ∈ p.steps.map Step.toAddition, addition.operation.IsSound := by
  simp only [List.forall_mem_map, steps, List.mem_reverse]
  exact sound

theorem operations_toAdditions (p : Pipeline ℝ) :
    (p.steps.map Step.toAddition).map Addition.operation = p.operations :=
  List.map_map

end Pipeline

namespace Build

/-- Wherever curves cancel in the course of a build that is handed the colour `v`, they undo each
other on the colour that reaches the pair. -/
def CancelsAt : Build ℝ ℝ → Vec3 ℝ → Prop
  | empty _, _ => True
  | conversion source target intent settings, v =>
    (Pipeline.empty (Pipeline.conversionInput source)).CancelsAllAt v
      (Pipeline.conversionAdditions source target intent settings)
  | call before next, v =>
    before.CancelsAt v ∧
      before.pipeline.CancelsAllAt v (next.additions before.pipeline.output)
  | merged before onTop, v =>
    before.CancelsAt v ∧ (∀ w, before.pipeline.evaluate v = .ok w → onTop.CancelsAt w) ∧
      before.pipeline.CancelsAllAt v (onTop.pipeline.steps.map Step.toAddition)

theorem areSound {b : Build ℝ ℝ} (sound : ∀ operation ∈ b.requested, operation.IsSound) :
    Pipeline.AreSound b.pipeline.latestFirst :=
  b.induction_requested (fun p => Pipeline.AreSound p.latestFirst) Operation.IsSound
    Pipeline.AreSound.empty (fun _ _ output => Pipeline.areSound_add output) (fun _ => id) sound

theorem evaluate_merged_pipeline {before onTop : Build ℝ ℝ} {v : Vec3 ℝ}
    (sound : ∀ operation ∈ (merged before onTop).requested, operation.IsSound)
    (exact : AreExact (merged before onTop).tests) (cancels : (merged before onTop).CancelsAt v) :
    (merged before onTop).pipeline.evaluate v =
      before.pipeline.evaluate v >>= onTop.pipeline.evaluate := by
  obtain ⟨beforeSound, onTopSound⟩ := List.forall_mem_append.mp sound
  have exactOnTop := exact.of_subset (List.subset_append_right ..)
  obtain ⟨_, _, cancelsOnTop⟩ := cancels
  rw [pipeline, Pipeline.merged_eq, Pipeline.evaluate_addAll (areSound beforeSound)
    (areSound onTopSound).toAdditions exactOnTop cancelsOnTop, Pipeline.operations_toAdditions]
  refine bind_congr ?_
  intro w
  exact (onTop.pipeline.evaluate_eq_applyAll w).symm

theorem evaluate_pipeline_eq_applyAll {b : Build ℝ ℝ} {v : Vec3 ℝ}
    (sound : ∀ operation ∈ b.requested, operation.IsSound) (exact : AreExact b.tests)
    (cancels : b.CancelsAt v) : b.pipeline.evaluate v = Operation.applyAll b.requested v := by
  induction b generalizing v with
  | empty _ => rfl
  | conversion source target intent settings =>
    rw [pipeline, Pipeline.conversion_eq, Pipeline.evaluate_addAll (.empty _)
      (List.forall_mem_map.mp sound) exact cancels]
    rfl
  | call before next inductionHypothesis =>
    obtain ⟨beforeSound, nextSound⟩ := List.forall_mem_append.mp sound
    obtain ⟨cancelsBefore, cancelsNext⟩ := cancels
    have exactBefore := exact.of_subset (List.subset_append_left ..)
    have exactNext := exact.of_subset (List.subset_append_right ..)
    rw [pipeline, Pipeline.call_eq, Pipeline.evaluate_addAll (areSound beforeSound)
      (List.forall_mem_map.mp nextSound) exactNext cancelsNext,
      inductionHypothesis beforeSound exactBefore cancelsBefore, requested,
      Operation.applyAll_append]
  | merged before onTop beforeHypothesis onTopHypothesis =>
    rw [evaluate_merged_pipeline sound exact cancels, requested, Operation.applyAll_append]
    obtain ⟨beforeSound, onTopSound⟩ := List.forall_mem_append.mp sound
    obtain ⟨cancelsBefore, cancelsOnTop, _⟩ := cancels
    have exactBoth := exact.of_subset (List.subset_append_left ..)
    have exactBefore := exactBoth.of_subset (List.subset_append_left ..)
    have exactOnTop := exactBoth.of_subset (List.subset_append_right ..)
    rw [← beforeHypothesis beforeSound exactBefore cancelsBefore]
    -- Nothing is known of the second pipeline on a colour that the first one does not hand over.
    cases handed : before.pipeline.evaluate v with
    | error outOfBounds => rfl
    | ok w => exact onTopHypothesis onTopSound exactOnTop (cancelsOnTop w handed)

/-- Fusion preserves meaning.  A pipeline does to a colour what the operations that were asked for
do one after another, and a merged pipeline does what the two pipelines do one after the other,
provided that every comparison that succeeded was exact and that the curves that cancelled undo each
other on the colours that reach them. -/
theorem evaluate_pipeline {b : Build ℝ ℝ} {v : Vec3 ℝ}
    (sound : ∀ operation ∈ b.requested, operation.IsSound) (exact : AreExact b.tests)
    (cancels : b.CancelsAt v) :
    b.pipeline.evaluate v = b.requested.foldlM (fun w operation => operation.apply w) v ∧
      ∀ before onTop, b = merged before onTop →
        b.pipeline.evaluate v = before.pipeline.evaluate v >>= onTop.pipeline.evaluate := by
  refine ⟨evaluate_pipeline_eq_applyAll sound exact cancels, ?_⟩
  rintro before onTop rfl
  exact evaluate_merged_pipeline sound exact cancels

noncomputable def doubled : Build ℝ ℝ :=
  .call (.call (.empty .unit) (.decode (.ofCurve .srgb))) (.multiplier (.splat 2) ⟨0, 160⟩)

noncomputable def encoded : Build ℝ ℝ := .call (.empty ⟨0, 160⟩) (.encode ⟨.srgb, 0, 160⟩)

theorem kept_two : ¬ (LinearOperation.multiplier (Vec3.splat (2 : ℝ))).isNegligible := by
  refine mt of_decide_eq_true ?_
  simp only [LinearOperation.unitGainTolerance]
  show ¬ Vec3.lengthSquared ⟨2 - _, 2 - _, 2 - _⟩ < _
  simp only [Vec3.lengthSquared, Vec3.dot, Vec3.splat, Scalar.literal_one]
  norm_num

theorem isFoldable_two : (Vec3.splat (2 : ℝ)).IsFoldable := by
  refine ⟨?_, rfl, ?_⟩
  · refine (Bool.and_eq_true _ _).mpr ⟨decide_eq_true ?_, decide_eq_true ?_⟩ <;>
      simp [Vec3.splat, Scalar.tolerance] <;> norm_num
  · simp [Vec3.splat]

theorem doubled_pipeline :
    doubled.pipeline = ⟨.unit, [⟨.unit, .decode ⟨.srgb, 0, 160⟩,
      ValueRange.unit.map (TransferFunction.ofCurve (α := ℝ) .srgb).decode * (2 : ℝ)⟩]⟩ := by
  have scaled : (TransferFunction.ofCurve .srgb).scaled (Vec3.splat (2 : ℝ)).x =
      ⟨.srgb, 0, 160⟩ := by
    rw [TransferFunction.scaled_eq (TransferFunction.isIncreasing_ofCurve .srgb)
      (by simp [Vec3.splat])]
    simp only [TransferFunction.ofCurve, Curve.defaultMin, Curve.defaultMax, Vec3.splat,
      Scalar.literal_zero]
    norm_num
  have folded (input output before after : ValueRange ℝ) (f : TransferFunction ℝ) :
      Pipeline.absorb input output [⟨before, .decode f, after⟩] (.multiplier (Vec3.splat 2)) =
        [⟨before, .decode (f.scaled (Vec3.splat (2 : ℝ)).x), after * (2 : ℝ)⟩] := by
    have foldable := isFoldable_two
    simp only [Vec3.IsFoldable] at foldable
    simp only [Pipeline.absorb, kept_two, Operation.linear?, Pipeline.settle,
      LinearOperation.simplified, foldable]
    rfl
  rw [← scaled]
  exact congrArg (Pipeline.mk _) (folded ..)

theorem exact_doubled : AreExact doubled.tests := by
  have folded {input output : ValueRange ℝ} {f : TransferFunction ℝ} :
      AreExact (Pipeline.absorbTests [⟨input, .decode f, output⟩] (.multiplier (.splat 2))) := by
    simp [AreExact, Pipeline.absorbTests, Pipeline.settleTests, Pipeline.foldTests,
      Operation.linear?, LinearOperation.dropTest, LinearOperation.simplified,
      LinearOperation.simplificationTests, FuzzyTest.Succeeds, FuzzyTest.IsExact, kept_two]
    intro _
    rfl
  simp only [doubled, tests, Pipeline.addAllTests, Call.additions, List.append_nil]
  exact folded

theorem encode_decode_srgb {signal : ℝ} (toe : signal ≤ 0.04) :
    TransferFunction.encode ⟨.srgb, 0, 160⟩ (TransferFunction.decode ⟨.srgb, 0, 160⟩ signal) =
      signal := by
  have dark : signal ≤ 0.04045 := toe.trans (by norm_num)
  have straight : signal / 12.92 ≤ 0.0031308 := by
    rw [div_le_iff₀ (by norm_num)]
    exact toe.trans (by norm_num)
  have ranged : (signal / 12.92 * (160 - 0) + 0 - 0) / (160 - 0) = signal / 12.92 := by ring
  simp only [TransferFunction.encode, TransferFunction.decode, Curve.encode, Curve.decode,
    Srgb.decode, Srgb.encode, if_pos dark, ranged, if_pos straight]
  ring

/-- The two builds cancel when they are merged, and a dark colour comes out as it went in. -/
theorem evaluate_merged_doubled_encoded :
    (merged doubled encoded).pipeline.evaluate ⟨0, 0.01, 0.04⟩ =
      (merged doubled encoded).requested.foldlM (fun w operation => operation.apply w)
        ⟨0, 0.01, 0.04⟩ ∧
    (merged doubled encoded).pipeline.evaluate ⟨0, 0.01, 0.04⟩ =
      doubled.pipeline.evaluate ⟨0, 0.01, 0.04⟩ >>= encoded.pipeline.evaluate := by
  have encoded_pipeline : encoded.pipeline = ⟨⟨0, 160⟩, [⟨⟨0, 160⟩, .encode ⟨.srgb, 0, 160⟩,
    ValueRange.map (TransferFunction.encode ⟨.srgb, 0, 160⟩) ⟨0, 160⟩⟩]⟩ := rfl
  have fused := evaluate_pipeline (b := merged doubled encoded) (v := ⟨0, 0.01, 0.04⟩) ?_ ?_ ?_
  · exact ⟨fused.1, fused.2 doubled encoded rfl⟩
  · have increasing : TransferFunction.IsIncreasing ⟨.srgb, 0, 160⟩ := by
      norm_num [TransferFunction.IsIncreasing]
    simp [requested, doubled, encoded, Call.additions, Operation.IsSound,
      TransferFunction.isIncreasing_ofCurve, increasing]
  · refine List.forall_mem_append.mpr ⟨List.forall_mem_append.mpr ⟨exact_doubled, ?_⟩, ?_⟩
    · simp [encoded, tests, Pipeline.addAllTests, Call.additions, Pipeline.addTests,
        Pipeline.encodeTests, pipeline, Pipeline.empty]
    · rw [doubled_pipeline, encoded_pipeline]
      simp [Pipeline.steps, Step.toAddition, Pipeline.addAllTests, Pipeline.addTests,
        Pipeline.encodeTests, FuzzyTest.IsExact, FuzzyTest.Succeeds]
  · refine ⟨⟨⟨trivial, trivial, trivial⟩, trivial, trivial⟩,
      fun _ _ => ⟨trivial, trivial, trivial⟩, ?_⟩
    rw [doubled_pipeline, encoded_pipeline]
    refine ⟨?_, trivial⟩
    intro _ w reaches
    cases reaches
    ext <;> exact encode_decode_srgb (by norm_num)

end Build

end DisplayColor

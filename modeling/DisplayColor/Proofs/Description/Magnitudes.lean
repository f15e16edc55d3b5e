import DisplayColor.Pipeline.Conversion
import DisplayColor.Proofs.Description.Repair
import DisplayColor.Proofs.Fusion.Magnitudes
import DisplayColor.Proofs.Gamut.Magnitudes

/-! # Magnitudes of conversions

A conversion divides by spans of luminances.  Descriptions are called moderate where these are not
too small and the luminances not too large; the limits leave room for the whole range of the
quantizer. -/

namespace DisplayColor

theorem atMost_limit : AtMost 1 14 (16384 : Single) := atMost_of_isAtMost (by decide +kernel)

theorem atLeast_limit_single : AtLeast 14 (1 / 16384 : Single) := by
  have check : isAtLeast 14 (1 / 16384 : Single) := by decide +kernel
  exact atLeast_of_isAtLeast check

theorem atLeast_limit_double : AtLeast 14 (1 / 16384 : Double) := by
  have check : isAtLeast 14 (1 / 16384 : Double) := by decide +kernel
  exact atLeast_of_isAtLeast check

/-! ## Linear transfer functions -/

namespace TransferFunction

/-- Both ends are at most 16384 nits from zero and at least 1 / 16384 nits apart. -/
structure IsModerate (f : TransferFunction Single) : Prop where
  min : Scalar.abs f.min ≤ 16384
  max : Scalar.abs f.max ≤ 16384
  span : 1 / 16384 ≤ f.max - f.min

variable {f : TransferFunction Single}

theorem IsModerate.atMost_min (moderate : f.IsModerate) : AtMost 1 14 f.min :=
  AtMost.of_abs_le moderate.min atMost_limit

theorem IsModerate.atMost_span (moderate : f.IsModerate) : AtMost 2 14 (f.max - f.min) :=
  (AtMost.of_abs_le moderate.max atMost_limit).sub moderate.atMost_min (by decide) (by simp)

theorem IsModerate.atMost_decodeMatrix (moderate : f.IsModerate) :
    (Pipeline.decodeMatrix (ω := Double) f).AtMost 15 := by
  have shift := (Mat4.isShift_translation moderate.atMost_min).widen (by decide) (by decide)
  have scaling := (Mat4.isShift_uniform moderate.atMost_span.of_two).widen (by decide) (by decide)
  have product := shift.product_scaling scaling (by simp)
  exact (product.atMost (by decide) (by decide) (by decide)).narrow (by decide)

theorem IsModerate.atMost_encodeMatrix (moderate : f.IsModerate) :
    (Pipeline.encodeMatrix (ω := Double) f).AtMost 28 := by
  have span := AtLeast.of_le moderate.atMost_span moderate.span atLeast_limit_single
  have shift := (Mat4.isShift_translation moderate.atMost_min.neg).widen (by decide) (by decide)
  have scaling := (Mat4.isShift_uniform (span.atMost_inverse (by simp))).widen (by decide) (by decide)
  have product := scaling.scaling_product shift (by simp)
  exact (product.atMost (by decide) (by decide) (by decide)).narrow (by decide)

end TransferFunction

/-! ## Conversions of light -/

namespace Description

/-- White is between 1 / 16384 and 16384 nits and at least 1 / 16384 nits above black. -/
structure IsModerate (d : Description Single Double) : Prop where
  reference_le : d.reference ≤ 16384
  le_reference : 1 / 16384 ≤ (widen d.reference : Double)
  span : 1 / 16384 ≤ (widen d.reference - widen d.min : Double)
  transfer : d.transfer.curve = .linear → d.transfer.IsModerate

variable {d source target : Description Single Double}

theorem IsModerate.atMost_reference (moderate : d.IsModerate) (lit : d.IsLit) :
    AtMost 1 14 d.reference :=
  AtMost.of_le (BinaryScalar.le_of_lt lit.reference_pos) moderate.reference_le atMost_limit

theorem IsModerate.atMost_min (moderate : d.IsModerate) (lit : d.IsLit) : AtMost 1 14 d.min :=
  AtMost.of_le lit.min_nonneg (BinaryScalar.le_of_lt lit.min_lt_reference)
    (moderate.atMost_reference lit)

theorem IsModerate.atMost_span (moderate : d.IsModerate) (lit : d.IsLit) :
    AtMost 2 14 (widen d.reference - widen d.min : Double) := by
  have reference := (moderate.atMost_reference lit).widen (by decide) (by decide)
  have min := (moderate.atMost_min lit).widen (by decide) (by decide)
  exact reference.sub min (by decide) (by simp)

theorem atMost_normalization (moderate : d.IsModerate) (lit : d.IsLit) :
    ((Mat4.uniform (1 / (widen d.reference - widen d.min : Double))).product
      (Mat4.translation (Vec3.splat (-(widen d.min : Double))))).AtMost 28 := by
  have span := AtLeast.of_le (moderate.atMost_span lit) moderate.span atLeast_limit_double
  have min := (moderate.atMost_min lit).widen (by decide) (by decide)
  have scaling := Mat4.isShift_uniform (span.atMost_inverse (by simp))
  have product := scaling.scaling_product (Mat4.isShift_translation min.neg) (by simp)
  exact product.atMost (by decide) (by decide) (by decide)

theorem atMost_restoration (moderate : d.IsModerate) (lit : d.IsLit) :
    ((Mat4.translation (Vec3.splat (widen d.min : Double))).product
      (Mat4.uniform (widen d.reference - widen d.min : Double))).AtMost 15 := by
  have min := (moderate.atMost_min lit).widen (by decide) (by decide)
  have scaling := Mat4.isShift_uniform (moderate.atMost_span lit).of_two
  have product := (Mat4.isShift_translation min).product_scaling scaling (by simp)
  exact product.atMost (by decide) (by decide) (by decide)

theorem atMost_quotient (sourceModerate : source.IsModerate) (sourceLit : source.IsLit)
    (targetModerate : target.IsModerate) (targetLit : target.IsLit) :
    AtMost 1 28 (widen target.reference / widen source.reference : Double) := by
  have reference := (sourceModerate.atMost_reference sourceLit).widen (by decide) (by decide)
  have targetReference := (targetModerate.atMost_reference targetLit).widen (by decide) (by decide)
  have positive := AtLeast.of_le reference sourceModerate.le_reference atLeast_limit_double
  exact targetReference.div positive (by decide) (by simp)

theorem atMost_lightConversion (sourceModerate : source.IsModerate) (sourceLit : source.IsLit)
    (targetModerate : target.IsModerate) (targetLit : target.IsLit)
    (sourceGamut : source.colorimetry.isModerate) (targetGamut : target.colorimetry.isModerate)
    (intent : Intent) : (source.lightConversion target intent).AtMost 59 := by
  have gamut := Mat4.atMost_ofLinear
    (Colorimetry.atMost_wideConversion sourceGamut targetGamut intent)
  have wide : (source.wideConversion target intent).AtMost 59 := by
    unfold wideConversion
    dsimp only
    split
    · have restored := (atMost_restoration targetModerate targetLit).product gamut (by simp)
      exact restored.product (atMost_normalization sourceModerate sourceLit) (by simp)
    · have scaling := Mat4.isShift_uniform (atMost_quotient sourceModerate sourceLit targetModerate
        targetLit)
      have scaled := gamut.product (scaling.atMost (k := 28) (by decide) (by decide) (by decide))
        (by simp)
      exact scaled.mono (by decide)
  exact wide.narrow (by decide)

/-! ## What the operations of a conversion cost -/

theorem costs_matrix {m : Mat4 Single} {k : ℕ} (bounded : m.AtMost k) :
    (Operation.matrix m).Costs (k + 2) := by
  rintro _ ⟨⟩
  exact ⟨k, bounded, le_rfl⟩

theorem costs_ofLinear {m : Mat3 Single} {k : ℕ} (bounded : m.AtMost k) :
    (Operation.matrix (.ofLinear m)).Costs (k + 2) := costs_matrix (Mat4.atMost_ofLinear bounded)

theorem costs_transfer {operation : Operation Single} {f : TransferFunction Single}
    {m : Mat4 Single} {k : ℕ}
    (added : operation.asLinear? = if f.curve = .linear then some (.matrix m) else none)
    (bounded : f.curve = .linear → m.AtMost k) : operation.Costs (k + 2) := by
  intro linear found
  rw [added] at found
  split at found
  · rename_i curve
    obtain rfl := Option.some.inj found
    exact ⟨k, bounded curve, le_rfl⟩
  · cases found

theorem costs_decode {f : TransferFunction Single} (moderate : f.curve = .linear → f.IsModerate) :
    (Operation.decode f).Costs 17 :=
  costs_transfer rfl fun curve => (moderate curve).atMost_decodeMatrix

theorem costs_encode {f : TransferFunction Single} (moderate : f.curve = .linear → f.IsModerate) :
    (Operation.encode f).Costs 30 :=
  costs_transfer rfl fun curve => (moderate curve).atMost_encodeMatrix

theorem costs_nothing {operation : Operation Single} (nonlinear : operation.asLinear? = none) :
    operation.Costs 0 := by
  intro linear found
  simp [nonlinear] at found

theorem costs_toneMapping {colorimetry : Colorimetry Single Double}
    (moderate : colorimetry.isModerate) (range : ValueRange Single) (curve : ToneCurve Single) :
    List.Forall₂ (fun addition cost => addition.operation.Costs cost)
      (Pipeline.toneMappingAdditions range colorimetry curve) [6, 0, 5, 0, 2, 0, 8] :=
  .cons (costs_ofLinear (Colorimetry.atMost_toLms moderate)) <|
  .cons (costs_nothing rfl) <|
  .cons (costs_ofLinear Colorimetry.atMost_lmsToIctcp) <|
  .cons (costs_nothing rfl) <|
  .cons (costs_ofLinear Colorimetry.atMost_ictcpToLms) <|
  .cons (costs_nothing rfl) <|
  .cons (costs_ofLinear (Colorimetry.atMost_fromLms moderate)) .nil

theorem costs_conversion (sourceModerate : source.IsModerate) (sourceLit : source.IsLit)
    (targetModerate : target.IsModerate) (targetLit : target.IsLit)
    (sourceGamut : source.colorimetry.isModerate) (targetGamut : target.colorimetry.isModerate)
    (intent : Intent) (settings : Settings Single) :
    ∃ costs : List ℕ, costs.sum ≤ 129 ∧
      List.Forall₂ (fun addition cost => addition.operation.Costs cost)
        (Pipeline.conversionAdditions source target intent settings) costs := by
  have first := costs_decode sourceModerate.transfer
  have light := costs_matrix (atMost_lightConversion sourceModerate sourceLit targetModerate
    targetLit sourceGamut targetGamut intent)
  have last := costs_encode targetModerate.transfer
  simp only [Pipeline.conversionAdditions]
  split
  · refine ⟨17 :: 61 :: [6, 0, 5, 0, 2, 0, 8] ++ [30], by decide, List.rel_append ?_ ?_⟩
    · exact .cons first (.cons light (costs_toneMapping targetGamut _ _))
    · exact .cons last .nil
  · exact ⟨[17, 61, 30], by decide, .cons first (.cons light (.cons last .nil))⟩

end Description

end DisplayColor

import DisplayColor.Proofs.Description.ScaledSelf
import DisplayColor.Proofs.Fusion.Build
import DisplayColor.Proofs.ToneCurve

/-! # Tone mapping in conversions

Tone curves never fuse, so the curves of a pipeline are those that were added.  A conversion adds at
most one, for the reference and the peak of the target and the brightest light that reaches it, and
what is known of these decides whether the curve has the shape that it should have.

It is known that the light is brighter than the peak of the target.  It is not known that the
reference of the target is below its peak: a display may be dimmer than the white it is described
with.  As long as white can be dimmed below the peak, the curve makes brighter light brighter and
stays within the peak.  Otherwise white comes out brighter than the display can be. -/

namespace DisplayColor

variable {α ω : Type}

namespace Operation

def toneCurve? : Operation α → Option (ToneCurve α)
  | toneMap curve => some curve
  | _ => none

theorem toneCurve?_eq_some_iff {operation : Operation α} {curve : ToneCurve α} :
    operation.toneCurve? = some curve ↔ operation = toneMap curve := by
  cases operation <;> simp [toneCurve?]

theorem toneCurve?_of_linear? {operation : Operation α} {linear : LinearOperation α}
    (found : operation.linear? = some linear) : operation.toneCurve? = none := by
  cases operation <;> cases found <;> rfl

end Operation

theorem LinearOperation.toneCurve?_toOperation (operation : LinearOperation α) :
    operation.toOperation.toneCurve? = none := by
  cases operation <;> rfl

namespace Pipeline

/-! ## The tone curves of a pipeline -/

def toneCurves (steps : List (Step α)) : List (ToneCurve α) :=
  steps.filterMap fun step => step.operation.toneCurve?

theorem toneCurves_cons (step : Step α) (rest : List (Step α)) :
    toneCurves (step :: rest) = step.operation.toneCurve?.toList ++ toneCurves rest := by
  cases found : step.operation.toneCurve? <;> simp [toneCurves, found]

theorem toneCurves_cons_of_none {step : Step α} (other : step.operation.toneCurve? = none)
    (rest : List (Step α)) : toneCurves (step :: rest) = toneCurves rest :=
  List.filterMap_cons_none other

variable [Scalar α] [Scalar ω] [Precision α ω] {p q : Pipeline α} {f : TransferFunction α}

theorem Settled.toneCurves_eq {input output : ValueRange α} {steps result : List (Step α)}
    {operation : LinearOperation α} (settled : Settled input output steps operation result) :
    toneCurves result = toneCurves steps := by
  cases settled with
  | dropped _ | folded _ _ => rfl
  | appended _ _ => exact toneCurves_cons_of_none operation.toneCurve?_toOperation steps

theorem Absorbed.toneCurves_eq {input output : ValueRange α} {steps result : List (Step α)}
    {operation : LinearOperation α}
    (absorbed : Absorbed (ω := ω) input output steps operation result) :
    toneCurves result = toneCurves steps := by
  induction absorbed with
  | dropped _ => rfl
  | combined _ linear _ inductionHypothesis =>
    rw [inductionHypothesis, toneCurves_cons_of_none (Operation.toneCurve?_of_linear? linear)]
  | settled _ _ settled => exact settled.toneCurves_eq

theorem DecodeAdded.toneCurves_eq (added : DecodeAdded (ω := ω) p f q) :
    toneCurves q.latestFirst = toneCurves p.latestFirst := by
  cases added with
  | cancelled last _ =>
    rw [last]
    rfl
  | linear _ _ => exact (absorbed ..).toneCurves_eq
  | pushed _ _ => rfl

theorem EncodeAdded.toneCurves_eq (added : EncodeAdded (ω := ω) p f q) :
    toneCurves q.latestFirst = toneCurves p.latestFirst := by
  cases added with
  | cancelled last _ =>
    rw [last]
    rfl
  | linear _ _ => exact (absorbed ..).toneCurves_eq
  | pushed _ _ => rfl

theorem toneCurves_add (p : Pipeline α) (operation : Operation α) (output : ValueRange α) :
    toneCurves (p.add (ω := ω) operation output).latestFirst =
      operation.toneCurve?.toList ++ toneCurves p.latestFirst := by
  cases operation with
  | matrix _ | multiplier _ => exact (absorbed ..).toneCurves_eq
  | decode f => exact (decodeAdded p f).toneCurves_eq
  | encode f => exact (encodeAdded p f).toneCurves_eq
  | toneMap _ | curves _ | cube _ => exact toneCurves_cons ..

theorem toneCurves_addAll (p : Pipeline α) (additions : List (Addition α)) :
    toneCurves (p.addAll (ω := ω) additions).latestFirst =
      (additions.filterMap fun addition => addition.operation.toneCurve?).reverse
        ++ toneCurves p.latestFirst := by
  induction additions generalizing p with
  | nil => rfl
  | cons addition additions inductionHypothesis =>
    rw [addAll_cons, inductionHypothesis, toneCurves_add]
    cases found : addition.operation.toneCurve? <;> simp [found]

theorem toneCurves_conversion (source target : Description α ω) (intent : Intent)
    (settings : Settings α) :
    toneCurves (conversion source target intent settings).latestFirst =
      if needsToneMapping settings intent (lightConversion source target intent).output.max
          target.maxLuminance then
        [.ofLuminances target.reference (lightConversion source target intent).output.max
          target.maxLuminance settings.maxHeadroom]
      else [] := by
  rw [conversion_eq, toneCurves_addAll, conversionAdditions]
  by_cases needed : needsToneMapping settings intent
      (lightConversion source target intent).output.max target.maxLuminance
  · simp only [needed, if_true]
    rfl
  · simp only [needed]
    rfl

theorem mem_steps_conversion_toneMap_iff {source target : Description α ω} {intent : Intent}
    {settings : Settings α} {curve : ToneCurve α} :
    (∃ step ∈ (conversion source target intent settings).steps,
        step.operation = .toneMap curve) ↔
      needsToneMapping settings intent (lightConversion source target intent).output.max
          target.maxLuminance ∧
        curve = .ofLuminances target.reference (lightConversion source target intent).output.max
          target.maxLuminance settings.maxHeadroom := by
  have member : (∃ step ∈ (conversion source target intent settings).steps,
      step.operation = .toneMap curve) ↔
      curve ∈ toneCurves (conversion source target intent settings).latestFirst := by
    simp only [steps, List.mem_reverse, toneCurves, List.mem_filterMap,
      Operation.toneCurve?_eq_some_iff]
  rw [member, toneCurves_conversion]
  split <;> simp [*]

end Pipeline

/-! ## The shape of the curve -/

theorem Settings.isValid_real {settings : Settings ℝ} :
    settings.isValid ↔ 1 ≤ settings.maxHeadroom ∧ 1 ≤ settings.threshold := by
  simp [isValid, isUsable]

theorem Pipeline.needsToneMapping_real {settings : Settings ℝ} {intent : Intent}
    {peak targetPeak : ℝ} : needsToneMapping settings intent peak targetPeak ↔
      settings.toneMapping ∧ intent = .perceptual ∧ targetPeak * settings.threshold < peak := by
  simp [needsToneMapping, and_assoc]

namespace Description

variable {source target : Description ℝ ℝ} {intent : Intent} {settings : Settings ℝ}
  {step : Step ℝ} {curve : ToneCurve ℝ}

/-- The tone curve of a conversion dims white below the peak of the target exactly when the light is
as bright as white and the headroom is enough.  If it does, it is nondecreasing and stays within the
peak.  If it does not, white is brighter than the peak afterwards, and light that is brighter than
white comes out darker. -/
theorem toneMapping_fits_iff
    (isRepaired : ∃ colorimetry transfer reference min maxAverage peak,
      target = repaired colorimetry transfer reference min maxAverage peak)
    (valid : settings.isValid)
    (member : step ∈ (Pipeline.conversion source target intent settings).steps)
    (maps : step.operation = .toneMap curve) :
    let light := (Pipeline.lightConversion source target intent).output.max
    (curve.reference = target.reference ∧ curve.maxInput = light ∧
      curve.maxOutput = target.maxLuminance) ∧
    (curve.outputReference ≤ curve.maxOutput ↔
      target.reference ≤ light ∧ target.reference ≤ settings.maxHeadroom * target.maxLuminance) ∧
    (curve.outputReference ≤ curve.maxOutput →
      Monotone curve.mapNits ∧ ∀ nits, curve.mapNits nits ≤ curve.maxOutput) ∧
    (curve.maxOutput < curve.outputReference →
      curve.maxOutput < curve.mapNits target.reference ∧
        (target.reference < light → curve.mapNits light = curve.maxOutput)) := by
  intro light
  obtain ⟨needed, made⟩ := Pipeline.mem_steps_conversion_toneMap_iff.mp ⟨step, member, maps⟩
  obtain ⟨headroom, threshold⟩ := Settings.isValid_real.mp valid
  have reference : 0 < target.reference := by
    obtain ⟨_, _, _, _, _, _, rfl⟩ := isRepaired
    exact (repaired_luminances ..).1
  have peak : 0 < target.maxLuminance := by
    obtain ⟨_, _, _, _, _, _, rfl⟩ := isRepaired
    exact repaired_maxLuminance_pos ..
  have brighter : target.maxLuminance < light := by
    calc target.maxLuminance
      _ ≤ target.maxLuminance * settings.threshold := le_mul_of_one_le_right peak.le threshold
      _ < light := (Pipeline.needsToneMapping_real.mp needed).2.2
  have fits : curve.outputReference ≤ curve.maxOutput ↔ target.reference ≤ light ∧
      target.reference ≤ settings.maxHeadroom * target.maxLuminance := by
    rw [made]
    exact ToneCurve.outputReference_le_maxOutput_iff reference peak brighter headroom
  -- The luminances are positive, so the curve is made of them as they are.
  rw [ToneCurve.ofLuminances_eq reference (peak.trans brighter) peak headroom] at made
  have sameReference : curve.reference = target.reference := by rw [made]
  have sameInput : curve.maxInput = light := by rw [made]
  have sameOutput : curve.maxOutput = target.maxLuminance := by rw [made]
  have range : curve.inputRange = curve.maxInput / curve.reference := by rw [made]
  have dimmed : curve.outputReference = curve.reference / curve.addedRange := by rw [made]
  have added : 0 < curve.addedRange := by
    rw [made]
    exact lt_min (one_pos.trans_le headroom) (lt_max_of_lt_left one_pos)
  rw [← sameReference] at reference
  refine ⟨⟨sameReference, sameInput, sameOutput⟩, fits, ?_, ?_⟩
  · intro fits
    exact ⟨ToneCurve.monotone_mapNits reference added fits, ToneCurve.mapNits_le_maxOutput fits⟩
  · intro overshoots
    rw [← sameReference, ← sameInput, ToneCurve.mapNits_reference reference dimmed]
    exact ⟨overshoots, ToneCurve.mapNits_maxInput reference added dimmed range⟩

/-! ## A display that is dimmer than its white -/

noncomputable def dimDisplay (peak : ℝ) : Description ℝ ℝ :=
  repaired equalEnergyDisplay.colorimetry (.ofCurve .srgb) 80 0.2 none (some peak)

theorem maxLuminance_dimDisplay {peak : ℝ} (positive : 0 < peak) :
    (dimDisplay peak).maxLuminance = peak := by
  have luminance := isLuminance_real.mpr positive
  simp [dimDisplay, repaired, maxLuminance, Option.filter, luminance]

/-- Only the peaks differ, so light is left as it is. -/
theorem lightConversion_dimDisplay_output (peak : ℝ) :
    (Pipeline.lightConversion equalEnergyDisplay (dimDisplay peak) .perceptual).output.max =
      80 := by
  have curve : equalEnergyDisplay.transfer.curve ≠ .linear := by decide
  have light : equalEnergyDisplay.lightConversion (dimDisplay peak) .perceptual =
      Mat4.uniform 1 := by
    refine Eq.trans ?_ Mat4.uniform_one.symm
    exact wideConversion_self isRegular_equalEnergyDisplay .perceptual
  have decoded := Pipeline.latestFirst_addDecode_empty (ω := ℝ)
    (Pipeline.conversionInput equalEnergyDisplay) curve
  have added := Pipeline.latestFirst_addMatrix_uniform decoded one_pos
  simp only [sub_self, abs_zero, if_pos (show (0 : ℝ) ≤ 1e-5 by norm_num)] at added
  rw [Pipeline.lightConversion, light, Pipeline.output]
  simp only [Pipeline.conversionInput] at added decoded
  simp only [added, decoded]
  exact (congrArg _ (congrArg _ maxLuminance_equalEnergyDisplay)).trans
    decode_encode_equalEnergyDisplay

theorem exists_toneMap_dimDisplay {peak : ℝ} (positive : 0 < peak) (dim : peak * 1.01 < 80) :
    ∃ step ∈ (Pipeline.conversion equalEnergyDisplay (dimDisplay peak) .perceptual .standard).steps,
      step.operation = .toneMap (.ofLuminances 80 80 peak 1.5) := by
  have reference : (dimDisplay peak).reference = 80 := reference_repaired (by norm_num) _ _ _ _ _
  rw [Pipeline.mem_steps_conversion_toneMap_iff, lightConversion_dimDisplay_output,
    maxLuminance_dimDisplay positive, reference]
  exact ⟨Pipeline.needsToneMapping_real.mpr ⟨rfl, rfl, dim⟩, rfl⟩

theorem isValid_standard : (Settings.standard : Settings ℝ).isValid := by
  rw [Settings.isValid_real, Settings.standard]
  norm_num

theorem toneMapping_fits_dimDisplay :
    ∃ step ∈ (Pipeline.conversion equalEnergyDisplay (dimDisplay 60) .perceptual .standard).steps,
      ∃ curve, step.operation = .toneMap curve ∧ curve.outputReference ≤ curve.maxOutput ∧
        Monotone curve.mapNits := by
  have dim : (60 : ℝ) * 1.01 < 80 := by norm_num
  obtain ⟨step, member, maps⟩ := exists_toneMap_dimDisplay (by norm_num) dim
  have reference : (dimDisplay 60).reference = 80 := reference_repaired (by norm_num) _ _ _ _ _
  have isRepaired : ∃ colorimetry transfer reference min maxAverage peak,
      dimDisplay 60 = repaired colorimetry transfer reference min maxAverage peak :=
    ⟨_, _, _, _, _, _, rfl⟩
  obtain ⟨-, fits, shape, -⟩ :=
    toneMapping_fits_iff isRepaired isValid_standard member maps
  rw [lightConversion_dimDisplay_output, maxLuminance_dimDisplay (by norm_num), reference] at fits
  have enough : (80 : ℝ) ≤ Settings.standard.maxHeadroom * 60 := by norm_num [Settings.standard]
  have fits := fits.mpr ⟨le_refl 80, enough⟩
  exact ⟨step, member, _, maps, fits, (shape fits).1⟩

/-- White is dimmed by one and a half at most, which is not enough for a display that is four times
as dim. -/
theorem toneMapping_overshoots :
    (Settings.standard : Settings ℝ).isValid ∧
    ∃ step ∈ (Pipeline.conversion equalEnergyDisplay (dimDisplay 20) .perceptual .standard).steps,
      ∃ curve, step.operation = .toneMap curve ∧ ¬ curve.outputReference ≤ curve.maxOutput ∧
        ¬ ∀ nits, 0 ≤ nits → curve.mapNits nits ≤ curve.maxOutput := by
  have dim : (20 : ℝ) * 1.01 < 80 := by norm_num
  obtain ⟨step, member, maps⟩ := exists_toneMap_dimDisplay (by norm_num) dim
  have overshoots : ¬ (ToneCurve.ofLuminances (80 : ℝ) 80 20 1.5).outputReference ≤
      (ToneCurve.ofLuminances (80 : ℝ) 80 20 1.5).maxOutput := by
    intro fits
    have enough := (ToneCurve.outputReference_le_maxOutput_iff (by norm_num) (by norm_num)
      (by norm_num) (by norm_num)).mp fits
    norm_num at enough
  refine ⟨isValid_standard, step, member, _, maps, overshoots, ?_⟩
  intro within
  have white := within 80 (by norm_num)
  rw [ToneCurve.mapNits_ofLuminances_reference (by norm_num) (by norm_num) (by norm_num)
    (by norm_num)] at white
  exact overshoots white

end Description

end DisplayColor

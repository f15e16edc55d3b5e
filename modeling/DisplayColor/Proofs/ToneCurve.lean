import Mathlib
import DisplayColor.Pipeline.ToneCurve
import DisplayColor.Proofs.Fusion.Tolerance

/-! # The shape of tone curves

In exact arithmetic a tone curve is the sum of a line that ends at the output reference and of a
roll-off that fills what is left up to the brightest output.  Both grow with the luminance, so the
curve does, and it ends at the brightest output.

All of this needs something to be left: a curve that puts its reference above the brightest output
falls again on the way to it, and is too bright at the reference. -/

namespace DisplayColor.ToneCurve

/-- How far a luminance is on the way from the reference to the brightest input. -/
noncomputable def highlight (curve : ToneCurve ℝ) (nits : ℝ) : ℝ :=
  if 1 < curve.inputRange then
    Scalar.clamp ((nits / curve.reference - 1) / (curve.inputRange - 1)) 0 1
  else 0

/-- From zero at zero to one at one. -/
noncomputable def rollOff (x : ℝ) : ℝ := Real.log (x * (Real.exp 1 - 1) + 1)

variable {curve : ToneCurve ℝ}

theorem mapNits_eq (curve : ToneCurve ℝ) (nits : ℝ) : curve.mapNits nits =
    min (nits / curve.addedRange) curve.outputReference
      + rollOff (curve.highlight nits) * (curve.maxOutput - curve.outputReference) := by
  simp only [mapNits, highlight, rollOff, Scalar.min_real, Scalar.literal_zero, Scalar.literal_one]
  rfl

theorem highlight_eq_of_range (range : 1 < curve.inputRange) (nits : ℝ) : curve.highlight nits =
    min 1 (max 0 ((nits / curve.reference - 1) / (curve.inputRange - 1))) := by
  rw [highlight, if_pos range, Scalar.clamp_real]

theorem highlight_eq_zero (noRange : ¬ 1 < curve.inputRange) (nits : ℝ) :
    curve.highlight nits = 0 := if_neg noRange

theorem highlight_mem (curve : ToneCurve ℝ) (nits : ℝ) : curve.highlight nits ∈ Set.Icc 0 1 := by
  by_cases range : 1 < curve.inputRange
  · rw [highlight_eq_of_range range]
    exact ⟨le_min zero_le_one (le_max_left _ _), min_le_left _ _⟩
  · rw [highlight_eq_zero range]
    exact ⟨le_refl 0, zero_le_one⟩

theorem monotone_highlight (positive : 0 < curve.reference) : Monotone curve.highlight := by
  intro darker brighter le
  by_cases range : 1 < curve.inputRange
  · have width : 0 < curve.inputRange - 1 := sub_pos.mpr range
    rw [highlight_eq_of_range range, highlight_eq_of_range range]
    gcongr
  · rw [highlight_eq_zero range, highlight_eq_zero range]

theorem highlight_eq_zero_of_le {nits : ℝ} (positive : 0 < curve.reference)
    (dark : nits ≤ curve.reference) : curve.highlight nits = 0 := by
  by_cases range : 1 < curve.inputRange
  · have below : nits / curve.reference - 1 ≤ 0 := sub_nonpos.mpr ((div_le_one positive).mpr dark)
    have left : (nits / curve.reference - 1) / (curve.inputRange - 1) ≤ 0 :=
      div_nonpos_of_nonpos_of_nonneg below (sub_pos.mpr range).le
    rw [highlight_eq_of_range range, max_eq_left left]
    exact min_eq_right zero_le_one
  · exact highlight_eq_zero range _

theorem highlight_eq_one_of_le {nits : ℝ} (positive : 0 < curve.reference)
    (range : curve.inputRange = curve.maxInput / curve.reference)
    (brighter : curve.reference < curve.maxInput) (bright : curve.maxInput ≤ nits) :
    curve.highlight nits = 1 := by
  have ratio : 1 < curve.inputRange := by rwa [range, one_lt_div positive]
  have past : 1 ≤ (nits / curve.reference - 1) / (curve.inputRange - 1) := by
    rw [one_le_div (sub_pos.mpr ratio), range]
    gcongr
  rw [highlight_eq_of_range ratio]
  exact min_eq_left (le_max_of_le_right past)

theorem rollOff_zero : rollOff 0 = 0 := by simp [rollOff]

theorem rollOff_one : rollOff 1 = 1 := by simp [rollOff]

theorem monotoneOn_rollOff : MonotoneOn rollOff (Set.Ici 0) := by
  intro x nonneg y _ le
  have euler : 0 < Real.exp 1 - 1 := sub_pos.mpr (Real.one_lt_exp_iff.mpr one_pos)
  have argument : 0 < x * (Real.exp 1 - 1) + 1 :=
    add_pos_of_nonneg_of_pos (mul_nonneg nonneg euler.le) one_pos
  exact Real.log_le_log argument (by gcongr)

theorem rollOff_le_one {x : ℝ} (unit : x ∈ Set.Icc 0 1) : rollOff x ≤ 1 := by
  calc rollOff x
    _ ≤ rollOff 1 := monotoneOn_rollOff unit.1 (Set.mem_Ici.mpr zero_le_one) unit.2
    _ = 1 := rollOff_one

/-- A curve whose reference fits below its brightest output never makes brighter light darker. -/
theorem monotone_mapNits (reference : 0 < curve.reference) (added : 0 < curve.addedRange)
    (fits : curve.outputReference ≤ curve.maxOutput) : Monotone curve.mapNits := by
  intro darker brighter le
  have left : 0 ≤ curve.maxOutput - curve.outputReference := sub_nonneg.mpr fits
  have rolledOff : rollOff (curve.highlight darker) ≤ rollOff (curve.highlight brighter) :=
    monotoneOn_rollOff (curve.highlight_mem darker).1 (curve.highlight_mem brighter).1
      (monotone_highlight reference le)
  rw [mapNits_eq, mapNits_eq]
  gcongr

theorem mapNits_le_maxOutput (fits : curve.outputReference ≤ curve.maxOutput) (nits : ℝ) :
    curve.mapNits nits ≤ curve.maxOutput := by
  have left : 0 ≤ curve.maxOutput - curve.outputReference := sub_nonneg.mpr fits
  calc curve.mapNits nits
    _ = min (nits / curve.addedRange) curve.outputReference
        + rollOff (curve.highlight nits) * (curve.maxOutput - curve.outputReference) :=
      mapNits_eq curve nits
    _ ≤ curve.outputReference + 1 * (curve.maxOutput - curve.outputReference) := by
      gcongr
      · exact min_le_right _ _
      · exact rollOff_le_one (curve.highlight_mem nits)
    _ = curve.maxOutput := by ring

theorem mapNits_reference (reference : 0 < curve.reference)
    (dimmed : curve.outputReference = curve.reference / curve.addedRange) :
    curve.mapNits curve.reference = curve.outputReference := by
  rw [mapNits_eq, highlight_eq_zero_of_le reference (le_refl _), rollOff_zero, zero_mul, add_zero,
    dimmed, min_self]

/-- Nothing rolls off up to the reference. -/
theorem mapNits_of_le_reference {nits : ℝ} (reference : 0 < curve.reference)
    (added : 0 < curve.addedRange)
    (dimmed : curve.outputReference = curve.reference / curve.addedRange)
    (dark : nits ≤ curve.reference) : curve.mapNits nits = nits / curve.addedRange := by
  have low : nits / curve.addedRange ≤ curve.outputReference := by
    rw [dimmed]
    gcongr
  rw [mapNits_eq, highlight_eq_zero_of_le reference dark, rollOff_zero, zero_mul, add_zero,
    min_eq_left low]

/-- Whatever is brighter than the reference rolls off into what is left, all of it for the brightest
input and beyond. -/
theorem mapNits_of_maxInput_le {nits : ℝ} (reference : 0 < curve.reference)
    (added : 0 < curve.addedRange)
    (dimmed : curve.outputReference = curve.reference / curve.addedRange)
    (range : curve.inputRange = curve.maxInput / curve.reference)
    (brighter : curve.reference < curve.maxInput) (bright : curve.maxInput ≤ nits) :
    curve.mapNits nits = curve.maxOutput := by
  have low : curve.outputReference ≤ nits / curve.addedRange := by
    have above : curve.reference ≤ nits := brighter.le.trans bright
    rw [dimmed]
    gcongr
  rw [mapNits_eq, highlight_eq_one_of_le reference range brighter bright, rollOff_one, one_mul,
    min_eq_right low, add_sub_cancel]

theorem mapNits_maxInput (reference : 0 < curve.reference) (added : 0 < curve.addedRange)
    (dimmed : curve.outputReference = curve.reference / curve.addedRange)
    (range : curve.inputRange = curve.maxInput / curve.reference)
    (brighter : curve.reference < curve.maxInput) :
    curve.mapNits curve.maxInput = curve.maxOutput :=
  mapNits_of_maxInput_le reference added dimmed range brighter (le_refl _)

/-- A curve whose reference does not fit below its brightest output makes some light darker than
dimmer light. -/
theorem monotone_mapNits_iff (reference : 0 < curve.reference) (added : 0 < curve.addedRange)
    (dimmed : curve.outputReference = curve.reference / curve.addedRange)
    (range : curve.inputRange = curve.maxInput / curve.reference)
    (brighter : curve.reference < curve.maxInput) :
    Monotone curve.mapNits ↔ curve.outputReference ≤ curve.maxOutput := by
  constructor
  · intro monotone
    calc curve.outputReference
      _ = curve.mapNits curve.reference := (mapNits_reference reference dimmed).symm
      _ ≤ curve.mapNits curve.maxInput := monotone brighter.le
      _ = curve.maxOutput := mapNits_maxInput reference added dimmed range brighter
  · exact monotone_mapNits reference added

/-! ## Curves for given luminances -/

section OfLuminances

variable {reference maxInput maxOutput maxHeadroom : ℝ}

theorem positiveOr_real {value : ℝ} (positive : 0 < value) (fallback : ℝ) :
    positiveOr value fallback = value := by
  simp [positiveOr, positive]

/-- Luminances that are positive are taken as they are, and a headroom that is positive is taken as
one at least. -/
theorem ofLuminances_eq_of_pos (positive : 0 < reference) (input : 0 < maxInput)
    (output : 0 < maxOutput) (headroom : 0 < maxHeadroom) :
    ofLuminances reference maxInput maxOutput maxHeadroom =
      let addedRange := min (max maxHeadroom 1) (max 1 (maxInput / maxOutput))
      { reference, maxInput, maxOutput, addedRange
        maxHeadroom := max maxHeadroom 1
        inputRange := maxInput / reference
        outputRange := maxOutput / reference
        outputReference := reference / addedRange } := by
  simp only [ofLuminances, positiveOr_real positive, positiveOr_real input, positiveOr_real output,
    positiveOr_real headroom, Scalar.max_real, Scalar.literal_one, Scalar.clamp_real,
    div_div_div_cancel_right₀ positive.ne']

theorem ofLuminances_eq (positive : 0 < reference) (input : 0 < maxInput) (output : 0 < maxOutput)
    (headroom : 1 ≤ maxHeadroom) :
    ofLuminances reference maxInput maxOutput maxHeadroom =
      let addedRange := min maxHeadroom (max 1 (maxInput / maxOutput))
      { reference, maxInput, maxOutput, maxHeadroom, addedRange
        inputRange := maxInput / reference
        outputRange := maxOutput / reference
        outputReference := reference / addedRange } := by
  rw [ofLuminances_eq_of_pos positive input output (one_pos.trans_le headroom),
    max_eq_left headroom]

theorem mapNits_ofLuminances_reference (positive : 0 < reference) (input : 0 < maxInput)
    (output : 0 < maxOutput) (headroom : 1 ≤ maxHeadroom) :
    (ofLuminances reference maxInput maxOutput maxHeadroom).mapNits reference =
      (ofLuminances reference maxInput maxOutput maxHeadroom).outputReference := by
  rw [ofLuminances_eq positive input output headroom]
  exact mapNits_reference positive rfl

/-- The reference fits below the brightest output exactly when it is not above the brightest input
and can be dimmed far enough. -/
theorem outputReference_le_maxOutput_iff (positive : 0 < reference) (output : 0 < maxOutput)
    (brighter : maxOutput < maxInput) (headroom : 1 ≤ maxHeadroom) :
    let curve := ofLuminances reference maxInput maxOutput maxHeadroom
    curve.outputReference ≤ curve.maxOutput ↔
      reference ≤ maxInput ∧ reference ≤ maxHeadroom * maxOutput := by
  have ratio : 1 < maxInput / maxOutput := (one_lt_div output).mpr brighter
  have added : 0 < min maxHeadroom (maxInput / maxOutput) :=
    lt_min (one_pos.trans_le headroom) (one_pos.trans ratio)
  rw [ofLuminances_eq positive (output.trans brighter) output headroom, max_eq_right ratio.le]
  calc reference / min maxHeadroom (maxInput / maxOutput) ≤ maxOutput
    _ ↔ reference ≤ maxOutput * min maxHeadroom (maxInput / maxOutput) := div_le_iff₀ added
    _ ↔ reference ≤ min (maxHeadroom * maxOutput) maxInput := by
      rw [mul_min_of_nonneg _ _ output.le, mul_div_cancel₀ _ output.ne', mul_comm maxOutput]
    _ ↔ reference ≤ maxInput ∧ reference ≤ maxHeadroom * maxOutput := le_min_iff.trans and_comm

/-- The reference is dimmed by the headroom at most, and never made brighter. -/
theorem div_mem_Icc_of_headroom (positive : 0 < reference) (headroom ratio : ℝ) :
    reference / min (max headroom 1) (max 1 ratio) ∈
      Set.Icc (reference / max 1 headroom) reference := by
  have kept : 1 ≤ min (max headroom 1) (max 1 ratio) :=
    le_min (le_max_right _ _) (le_max_left _ _)
  have limited : min (max headroom 1) (max 1 ratio) ≤ max 1 headroom := by
    rw [max_comm 1 headroom]
    exact min_le_left _ _
  exact ⟨by gcongr, div_le_self positive.le kept⟩

/-- The shape of a curve with highlights that fits: it grows from zero, passes through the dimmed
reference and stays at the brightest output from the brightest input on. -/
theorem mapNits_shape {curve : ToneCurve ℝ}
    (made : curve = ofLuminances reference maxInput maxOutput maxHeadroom)
    (positive : 0 < reference) (input : 0 < maxInput) (output : 0 < maxOutput)
    (headroom : 0 < maxHeadroom) (range : 1 < curve.inputRange)
    (fits : curve.outputReference ≤ curve.maxOutput) :
    (curve.reference = reference ∧ curve.maxInput = maxInput ∧ curve.maxOutput = maxOutput) ∧
    Monotone curve.mapNits ∧
    curve.mapNits 0 = 0 ∧
    curve.mapNits curve.reference = curve.outputReference ∧
    (∀ nits, curve.maxInput ≤ nits → curve.mapNits nits = curve.maxOutput) ∧
    curve.outputReference ∈ Set.Icc (curve.reference / max 1 maxHeadroom) curve.reference := by
  rw [ofLuminances_eq_of_pos positive input output headroom] at made
  have reference_pos : 0 < curve.reference := by rwa [made]
  have inputRange_eq : curve.inputRange = curve.maxInput / curve.reference := by rw [made]
  have dimmed : curve.outputReference = curve.reference / curve.addedRange := by rw [made]
  have added : 0 < curve.addedRange := by
    rw [made]
    exact lt_min (lt_max_of_lt_left headroom) (lt_max_of_lt_left one_pos)
  have brighter : curve.reference < curve.maxInput := by
    rwa [inputRange_eq, one_lt_div reference_pos] at range
  refine ⟨⟨by rw [made], by rw [made], by rw [made]⟩, monotone_mapNits reference_pos added fits,
    ?_, mapNits_reference reference_pos dimmed, ?_, ?_⟩
  · rw [mapNits_of_le_reference reference_pos added dimmed reference_pos.le, zero_div]
  · intro nits bright
    exact mapNits_of_maxInput_le reference_pos added dimmed inputRange_eq brighter bright
  · rw [made]
    exact div_mem_Icc_of_headroom positive maxHeadroom (maxInput / maxOutput)

theorem mapNits_shape_thousandNits :
    let curve := ofLuminances (203 : ℝ) 1000 400 1.5
    (1 < curve.inputRange ∧ curve.outputReference ≤ curve.maxOutput) ∧
      Monotone curve.mapNits ∧ curve.mapNits 0 = 0 ∧ curve.mapNits 203 = 203 / 1.5 ∧
        ∀ nits, 1000 ≤ nits → curve.mapNits nits = 400 := by
  intro curve
  have made : curve = _ := ofLuminances_eq (by norm_num : (0 : ℝ) < 203)
    (by norm_num : (0 : ℝ) < 1000) (by norm_num : (0 : ℝ) < 400) (by norm_num : (1 : ℝ) ≤ 1.5)
  have range : 1 < curve.inputRange := by rw [made]; norm_num
  have dimmed : curve.outputReference = 203 / 1.5 := by rw [made]; norm_num
  have fits : curve.outputReference ≤ curve.maxOutput := by rw [dimmed, made]; norm_num
  obtain ⟨⟨reference, input, output⟩, monotone, zero, white, bright, -⟩ :=
    mapNits_shape (rfl : curve = ofLuminances 203 1000 400 1.5) (by norm_num) (by norm_num)
      (by norm_num) (by norm_num) range fits
  rw [reference, dimmed] at white
  rw [input, output] at bright
  exact ⟨⟨range, fits⟩, monotone, zero, white, bright⟩

end OfLuminances

end DisplayColor.ToneCurve

import DisplayColor.Pipeline.Notation
import DisplayColor.Scalar.Binary

/-! # Metadata is always usable

The ways to make a transfer function or a description each repair what they are given, or take over
what was repaired before, and some of them compute in single precision, where a product can overflow
or be undefined.  Whatever the arguments and however the ways are combined: the range of a transfer
function is finite and increasing, and a description has a positive reference, a black level below
it, and peaks that are positive if they are known.

What replaces an argument that is refused has to pass the same checks.  This is the part that
depends on the numbers; everything else is the checks themselves. -/

namespace DisplayColor

namespace TransferFunction

/-- The transfer functions that can be made in single precision. -/
inductive IsMade : TransferFunction Single → Prop
  | ofCurve (curve : Curve) : IsMade (.ofCurve curve)
  | withRange (curve : Curve) (min max : Single) : IsMade (.withRange curve min max)
  | scaled {f : TransferFunction Single} (made : IsMade f) (factor : Single) :
      IsMade (f.scaled factor)
  | ofName {name : String} {f : TransferFunction Single} (accepted : ofName? name = .ok f) :
      IsMade f

/-- The range is finite and increasing, so that encoding can divide by its span. -/
structure IsRanged (f : TransferFunction Single) : Prop where
  finiteMin : Scalar.isFinite f.min
  finiteMax : Scalar.isFinite f.max
  increasing : f.min < f.max

/-- The default ranges would be accepted if they were chosen. -/
theorem isRanged_ofCurve (curve : Curve) : (ofCurve curve : TransferFunction Single).IsRanged := by
  cases curve <;> exact ⟨by decide, by decide, by decide⟩

theorem isRanged_withRange (curve : Curve) (min max : Single) :
    (withRange curve min max).IsRanged := by
  unfold withRange
  split
  · rename_i useful
    exact ⟨useful.1, useful.2.1, useful.2.2⟩
  · exact isRanged_ofCurve curve

theorem IsRanged.scaled {f : TransferFunction Single} (ranged : f.IsRanged) (factor : Single) :
    (f.scaled factor).IsRanged := by
  unfold TransferFunction.scaled
  split
  · exact ranged
  · exact isRanged_withRange _ _ _

theorem eq_ofCurve_of_ofName? {name : String} {f : TransferFunction Single}
    (accepted : ofName? name = .ok f) : ∃ curve, f = ofCurve curve := by
  unfold ofName? at accepted
  cases read : Curve.ofName? name with
  | error unknown =>
    rw [read] at accepted
    cases accepted
  | ok curve =>
    rw [read] at accepted
    cases accepted
    exact ⟨curve, rfl⟩

theorem IsMade.isRanged {f : TransferFunction Single} (made : f.IsMade) : f.IsRanged := by
  induction made with
  | ofCurve curve => exact isRanged_ofCurve curve
  | withRange curve min max => exact isRanged_withRange curve min max
  | scaled _ factor inductionHypothesis => exact inductionHypothesis.scaled factor
  | ofName accepted =>
    obtain ⟨curve, rfl⟩ := eq_ofCurve_of_ofName? accepted
    exact isRanged_ofCurve curve

end TransferFunction

namespace Description

/-- The descriptions that can be made in single precision. -/
inductive IsMade : Description Single Double → Prop
  | repaired (colorimetry : Colorimetry Single Double) {f : TransferFunction Single}
      (transfer : f.IsMade) (reference min : Single) (maxAverage peak : Option Single) :
      IsMade (.repaired colorimetry f reference min maxAverage peak)
  | ofTransfer (colorimetry : Colorimetry Single Double) {f : TransferFunction Single}
      (transfer : f.IsMade) : IsMade (.ofTransfer colorimetry f)
  | srgb : IsMade .srgb
  | bt2100Pq : IsMade .bt2100Pq
  | withTransfer {d : Description Single Double} (made : IsMade d) {f : TransferFunction Single}
      (transfer : f.IsMade) : IsMade (d.withTransfer f)
  | withReference {d : Description Single Double} (made : IsMade d) (reference : Single) :
      IsMade (d.withReference reference)
  | dimmed {d : Description Single Double} (made : IsMade d) (factor : Single) :
      IsMade (d.dimmed factor)
  | read {text : String} {overrides : LuminanceOverrides Single} {d : Description Single Double}
      (accepted : Description.read text overrides = .ok d) : IsMade d

/-- White is positive with black below it, and so are the peaks that are known. -/
structure IsLit (d : Description Single Double) : Prop where
  finiteReference : Scalar.isFinite d.reference
  reference_pos : 0 < d.reference
  min_nonneg : 0 ≤ d.min
  min_lt_reference : d.min < d.reference
  maxAverage : ∀ x ∈ d.maxAverage, Scalar.isFinite x ∧ 0 < x
  peak : ∀ x ∈ d.peak, Scalar.isFinite x ∧ 0 < x

theorem isLuminance_iff {x : Single} : isLuminance x ↔ Scalar.isFinite x ∧ 0 < x := by
  simp [isLuminance]

/-- The default references would be accepted if they were chosen. -/
theorem isLuminance_defaultReference (curve : Curve) :
    isLuminance (curve.defaultReference : Single) := by
  cases curve <;> decide

theorem isLuminance_of_mem_filter {bound : Option Single} {x : Single}
    (kept : x ∈ bound.filter isLuminance) : Scalar.isFinite x ∧ 0 < x :=
  isLuminance_iff.mp (Option.mem_filter_iff.mp kept).2

theorem isLit_repaired (colorimetry : Colorimetry Single Double) (f : TransferFunction Single)
    (reference min : Single) (maxAverage peak : Option Single) :
    (repaired colorimetry f reference min maxAverage peak).IsLit := by
  have white : isLuminance (if isLuminance reference then reference else f.defaultReference) := by
    split
    · assumption
    · exact isLuminance_defaultReference f.curve
  simp only [repaired]
  -- What the reference is repaired to does not matter any more, only that it is a luminance.
  generalize (if isLuminance reference then reference else f.defaultReference) = kept at white ⊢
  obtain ⟨finite, positive⟩ := isLuminance_iff.mp white
  refine ⟨finite, positive, ?_, ?_, fun _ => isLuminance_of_mem_filter,
    fun _ => isLuminance_of_mem_filter⟩
  · dsimp only
    split
    · rename_i black
      exact black.2.1
    · decide
  · dsimp only
    split
    · rename_i black
      exact black.2.2
    · exact positive

/-- A description that is read is repaired last, whatever takes the place of its luminances. -/
theorem exists_repaired_of_read {text : String} {overrides : LuminanceOverrides Single}
    {d : Description Single Double} (accepted : Description.read text overrides = .ok d) :
    ∃ colorimetry f reference min maxAverage peak, f.IsMade ∧
      d = repaired colorimetry f reference min maxAverage peak := by
  unfold Description.read at accepted
  cases names : readNames text with
  | error unreadable =>
    rw [names] at accepted
    cases accepted
  | ok names' =>
    rw [names] at accepted
    cases accepted
    exact ⟨_, _, _, _, _, _, (TransferFunction.IsMade.ofCurve names'.curve).scaled _, rfl⟩

theorem IsMade.transfer {d : Description Single Double} (made : d.IsMade) : d.transfer.IsMade := by
  induction made with
  | repaired _ transfer _ _ _ _ => exact transfer
  | ofTransfer _ transfer => exact transfer
  | srgb => exact .ofCurve .gamma22
  | bt2100Pq => exact .ofCurve .pq
  | withTransfer _ transfer _ => exact transfer
  | withReference _ _ inductionHypothesis => exact inductionHypothesis
  | dimmed _ _ inductionHypothesis => exact inductionHypothesis
  | read accepted =>
    obtain ⟨_, _, _, _, _, _, transfer, rfl⟩ := exists_repaired_of_read accepted
    exact transfer

theorem IsMade.isLit {d : Description Single Double} (made : d.IsMade) : d.IsLit := by
  induction made with
  | repaired _ _ _ _ _ _ => exact isLit_repaired ..
  | ofTransfer _ _ | srgb | bt2100Pq => exact isLit_repaired ..
  | withTransfer _ _ lit =>
    -- Only the transfer function is replaced, and the default reference is not asked for again.
    exact ⟨lit.1, lit.2, lit.3, lit.4, lit.5, lit.6⟩
  | withReference _ _ _ | dimmed _ _ _ => exact isLit_repaired ..
  | read accepted =>
    obtain ⟨_, _, _, _, _, _, _, rfl⟩ := exists_repaired_of_read accepted
    exact isLit_repaired ..

/-- However they are made, and whatever numbers they are given, transfer functions have a finite
increasing range, and descriptions have a positive reference, a black level below it and positive
peaks. -/
theorem made_metadata_usable :
    (∀ f : TransferFunction Single, f.IsMade →
      Scalar.isFinite f.min ∧ Scalar.isFinite f.max ∧ f.min < f.max) ∧
    ∀ d : Description Single Double, d.IsMade →
      (Scalar.isFinite d.reference ∧ 0 < d.reference) ∧ (0 ≤ d.min ∧ d.min < d.reference) ∧
      (∀ x ∈ d.maxAverage, Scalar.isFinite x ∧ 0 < x) ∧
      ∀ x ∈ d.peak, Scalar.isFinite x ∧ 0 < x := by
  refine ⟨?_, ?_⟩
  · intro f made
    obtain ⟨finiteMin, finiteMax, increasing⟩ := made.isRanged
    exact ⟨finiteMin, finiteMax, increasing⟩
  · intro d made
    obtain ⟨finite, positive, nonneg, below, average, peak⟩ := made.isLit
    exact ⟨⟨finite, positive⟩, ⟨nonneg, below⟩, average, peak⟩

/-- A range that overflows when it is scaled, and a reference that overflows when it is dimmed by
an infinite factor. -/
theorem made_metadata_usable_overflowing :
    let f : TransferFunction Single := (TransferFunction.withRange .gamma22 1 1e30).scaled 1e30
    let d : Description Single Double := (Description.bt2100Pq.withTransfer f).dimmed (1 / 0)
    (Scalar.isFinite f.min ∧ Scalar.isFinite f.max ∧ f.min < f.max) ∧
      Scalar.isFinite d.reference ∧ 0 < d.reference := by
  intro f d
  have transfer : f.IsMade := .scaled (.withRange .gamma22 1 1e30) 1e30
  have made : d.IsMade := .dimmed (.withTransfer .bt2100Pq transfer) (1 / 0)
  exact ⟨made_metadata_usable.1 f transfer, (made_metadata_usable.2 d made).1⟩

end Description

end DisplayColor

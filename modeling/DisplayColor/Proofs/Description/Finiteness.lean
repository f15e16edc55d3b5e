import DisplayColor.Proofs.Description.Magnitudes

/-! # Where conversions are finite

The transfer functions in a conversion always have a finite increasing range, whatever was folded
into them, because a range that is not is refused when it is made.  Matrices and gains have no such
guard: the reciprocal of a span that is finite and positive can be infinite.  Between moderate
descriptions they are finite all the same. -/

namespace DisplayColor

namespace Operation

/-- No number of a matrix, gain or transfer function is infinite or undefined. -/
def IsFinite {α : Type} [Scalar α] : Operation α → Prop
  | matrix m => m.isFinite
  | multiplier gains => gains.isFinite
  | decode f => Scalar.isFinite f.min ∧ Scalar.isFinite f.max
  | encode f => Scalar.isFinite f.min ∧ Scalar.isFinite f.max
  | _ => True

instance {α : Type} [Scalar α] (operation : Operation α) : Decidable operation.IsFinite :=
  match operation with
  | matrix m => inferInstanceAs (Decidable (m.isFinite = true))
  | multiplier gains => inferInstanceAs (Decidable (gains.isFinite = true))
  | decode f | encode f =>
    inferInstanceAs (Decidable (Scalar.isFinite f.min = true ∧ Scalar.isFinite f.max = true))
  | toneMap _ | curves _ | cube _ => inferInstanceAs (Decidable True)

def transfer? {α : Type} : Operation α → Option (TransferFunction α)
  | decode f => some f
  | encode f => some f
  | _ => none

end Operation

namespace Pipeline

/-! ## Transfer functions are only ever scaled -/

/-- All transfer functions among the steps have the property. -/
def AllTransfers {α : Type} (property : TransferFunction α → Prop) (steps : List (Step α)) : Prop :=
  ∀ step ∈ steps, ∀ f ∈ step.operation.transfer?, property f

section AllTransfers

variable {α ω : Type} {property : TransferFunction α → Prop} {input output : ValueRange α}
  {steps result : List (Step α)} {operation : LinearOperation α} {p q : Pipeline α}

theorem AllTransfers.tail {last : Step α} (all : AllTransfers property (last :: steps)) :
    AllTransfers property steps := (List.forall_mem_cons.mp all).2

theorem AllTransfers.cons {last : Step α} (all : AllTransfers property steps)
    (first : ∀ f ∈ last.operation.transfer?, property f) : AllTransfers property (last :: steps) :=
  List.forall_mem_cons.mpr ⟨first, all⟩

theorem transfer?_toOperation (operation : LinearOperation α) :
    operation.toOperation.transfer? = none := by
  cases operation <;> rfl

variable [Scalar α] [Scalar ω] [Precision α ω]

theorem Settled.allTransfers (scaled : ∀ f factor, property f → property (f.scaled factor))
    (settled : Settled input output steps operation result) (all : AllTransfers property steps) :
    AllTransfers property result := by
  cases settled with
  | dropped _ => exact all
  | @folded _ _ f _ gains _ _ =>
    have first : property f := (List.forall_mem_cons.mp all).1 f rfl
    refine all.tail.cons ?_
    rintro _ ⟨⟩
    exact scaled f gains.x first
  | appended _ _ => exact all.cons (by simp [transfer?_toOperation])

theorem Absorbed.allTransfers (scaled : ∀ f factor, property f → property (f.scaled factor))
    (absorbed : Absorbed (ω := ω) input output steps operation result)
    (all : AllTransfers property steps) : AllTransfers property result := by
  induction absorbed with
  | dropped _ => exact all
  | combined _ _ _ inductionHypothesis => exact inductionHypothesis all.tail
  | settled _ _ settled => exact settled.allTransfers scaled all

theorem Added.allTransfers {operation : Operation α}
    (scaled : ∀ f factor, property f → property (f.scaled factor))
    (added : Added (ω := ω) p operation q) (all : AllTransfers property p.latestFirst)
    (holds : ∀ f ∈ operation.transfer?, property f) : AllTransfers property q.latestFirst := by
  cases added with
  | cancelled ends =>
    rw [ends] at all
    exact all.tail
  | linear _ _ => exact (absorbed ..).allTransfers scaled all
  | pushed _ _ => exact all.cons holds

end AllTransfers

end Pipeline

theorem Build.allTransfers {α ω : Type} [Scalar α] [Scalar ω] [Precision α ω]
    {property : TransferFunction α → Prop}
    (scaled : ∀ f factor, property f → property (f.scaled factor)) {b : Build α ω}
    (requested : ∀ operation ∈ b.requested, ∀ f ∈ operation.transfer?, property f) :
    Pipeline.AllTransfers property b.pipeline.latestFirst := by
  refine b.induction_requested (fun p => Pipeline.AllTransfers property p.latestFirst)
    (fun operation => ∀ f ∈ operation.transfer?, property f) ?_ ?_ ?_ requested
  · intro input
    exact List.forall_mem_nil _
  · intro p operation output all holds
    exact (Pipeline.added p operation output).allTransfers scaled all holds
  · intro p all
    exact all

namespace Description

variable {source target : Description Single Double}

theorem allTransfers_conversion (sourceRanged : source.transfer.IsRanged)
    (targetRanged : target.transfer.IsRanged) (intent : Intent) (settings : Settings Single) :
    Pipeline.AllTransfers TransferFunction.IsRanged
      (Pipeline.conversion source target intent settings).latestFirst := by
  refine Build.allTransfers (b := .conversion source target intent settings)
    (fun f factor ranged => ranged.scaled factor) ?_
  have quantizer := TransferFunction.isRanged_ofCurve .pq
  simp only [Build.requested, Pipeline.conversionAdditions]
  split <;> simp [Pipeline.toneMappingAdditions, Operation.transfer?, *]

/-- The descriptions that are made from a named colorimetry and a chosen range, with any numbers for
the luminances. -/
inductive IsNamed : Description Single Double → Prop
  | repaired (named : NamedColorimetry) (curve : Curve) (low high reference min : Single)
      (maxAverage peak : Option Single) :
      IsNamed (.repaired (.ofNamed named) (.withRange curve low high) reference min maxAverage peak)
  | ofTransfer (named : NamedColorimetry) (curve : Curve) (low high : Single) :
      IsNamed (.ofTransfer (.ofNamed named) (.withRange curve low high))

theorem IsNamed.isMade {d : Description Single Double} (named : d.IsNamed) : d.IsMade := by
  cases named with
  | repaired _ curve low high reference min maxAverage peak =>
    exact .repaired _ (.withRange curve low high) reference min maxAverage peak
  | ofTransfer _ curve low high => exact .ofTransfer _ (.withRange curve low high)

theorem IsNamed.isModerate_colorimetry {d : Description Single Double} (named : d.IsNamed) :
    d.colorimetry.isModerate := by
  cases named with
  | repaired named _ _ _ _ _ _ _ => exact Colorimetry.isModerate_ofNamed named
  | ofTransfer named _ _ _ => exact Colorimetry.isModerate_ofNamed named

theorem spends_conversion (sourceNamed : source.IsNamed) (targetNamed : target.IsNamed)
    (sourceModerate : source.IsModerate) (targetModerate : target.IsModerate) (intent : Intent)
    (settings : Settings Single) :
    ∃ budget, Pipeline.Spends budget
      (Pipeline.conversion source target intent settings).latestFirst := by
  obtain ⟨costs, affordable, each⟩ := costs_conversion sourceModerate sourceNamed.isMade.isLit
    targetModerate targetNamed.isMade.isLit sourceNamed.isModerate_colorimetry
    targetNamed.isModerate_colorimetry intent settings
  rw [Pipeline.conversion_eq]
  exact ⟨_, Pipeline.spends_addAll each (.nil 0) (by omega)⟩

theorem isFinite_of_atMost {operation : Operation Single}
    (linear : ∀ linear, operation.linear? = some linear → ∃ k, linear.AtMost k)
    (transfer : ∀ f ∈ operation.transfer?, f.IsRanged) : operation.IsFinite := by
  cases operation with
  | matrix m =>
    obtain ⟨k, bounded⟩ := linear (.matrix m) rfl
    exact Mat4.AtMost.isFinite bounded
  | multiplier gains =>
    obtain ⟨k, bounded⟩ := linear (.multiplier gains) rfl
    exact Vec3.IsBounded.isFinite bounded
  | decode f | encode f =>
    have ranged := transfer f rfl
    exact ⟨ranged.finiteMin, ranged.finiteMax⟩
  | toneMap _ | curves _ | cube _ => trivial

/-- Whatever numbers two descriptions of named colorimetries are given, the transfer functions in a
conversion between them have finite increasing ranges; if the descriptions are moderate, the
matrices and gains are finite as well. -/
theorem conversion_finite (sourceNamed : source.IsNamed) (targetNamed : target.IsNamed)
    (intent : Intent) (settings : Settings Single) :
    (∀ step ∈ (Pipeline.conversion source target intent settings).steps,
      ∀ f ∈ step.operation.transfer?,
        Scalar.isFinite f.min ∧ Scalar.isFinite f.max ∧ f.min < f.max) ∧
    (source.IsModerate → target.IsModerate →
      ∀ step ∈ (Pipeline.conversion source target intent settings).steps,
        step.operation.IsFinite) := by
  have transfers := allTransfers_conversion sourceNamed.isMade.transfer.isRanged
    targetNamed.isMade.transfer.isRanged intent settings
  simp only [Pipeline.steps, List.mem_reverse]
  refine ⟨?_, ?_⟩
  · intro step member f found
    have ranged := transfers step member f found
    exact ⟨ranged.finiteMin, ranged.finiteMax, ranged.increasing⟩
  · intro sourceModerate targetModerate step member
    obtain ⟨budget, spends⟩ := spends_conversion sourceNamed targetNamed sourceModerate
      targetModerate intent settings
    exact isFinite_of_atMost (spends.exists_atMost step member) (transfers step member)

def linearDisplay : Description Single Double :=
  ofTransfer (.ofNamed .bt709) (.withRange .linear 0.5 80)

def brightDisplay : Description Single Double :=
  repaired (.ofNamed .bt2020) (.withRange .pq 0 10000) 203 0.005 none (some 1000)

theorem isModerate_linearDisplay : linearDisplay.IsModerate where
  reference_le := by decide +kernel
  le_reference := by decide +kernel
  span := by decide +kernel
  transfer _ := ⟨by decide +kernel, by decide +kernel, by decide +kernel⟩

theorem isModerate_brightDisplay : brightDisplay.IsModerate where
  reference_le := by decide +kernel
  le_reference := by decide +kernel
  span := by decide +kernel
  transfer linear := by cases linear

theorem conversion_finite_brightDisplay :
    (brightDisplay.IsNamed ∧ linearDisplay.IsNamed) ∧
      (brightDisplay.IsModerate ∧ linearDisplay.IsModerate) ∧
      ∀ step ∈ (Pipeline.conversion brightDisplay linearDisplay .perceptual .standard).steps,
        step.operation.IsFinite := by
  have bright : brightDisplay.IsNamed := .repaired ..
  have linear : linearDisplay.IsNamed := .ofTransfer ..
  have finite := (conversion_finite bright linear .perceptual .standard).2
    isModerate_brightDisplay isModerate_linearDisplay
  exact ⟨⟨bright, linear⟩, ⟨isModerate_brightDisplay, isModerate_linearDisplay⟩, finite⟩

/-- A range whose span has no finite reciprocal, though both of its ends are finite. -/
def faintDisplay : Description Single Double :=
  ofTransfer (.ofNamed .bt709) (.withRange .linear 0 1e-39)

theorem conversion_not_finite :
    ¬ ∀ step ∈ (Pipeline.conversion faintDisplay faintDisplay .perceptual .standard).steps,
      step.operation.IsFinite := by
  decide +kernel

end Description

end DisplayColor

import DisplayColor.Proofs.Matrices
import DisplayColor.Proofs.Fusion.Comparisons

/-! # Fusion preserves meaning

In exact arithmetic a pipeline does to a colour what the operations it was asked for do one after
another, as long as each comparison that succeeded on the way compared things that are the same, and
the curves that cancelled undo each other on the colours that reach them.

Each rule of fusion is an equation between the operations before and after it.  The equations for
matrices need bottom rows of `0 0 0 1`, the one for gains that go into a transfer function needs its
range to be increasing, and a rule can only be applied again if what it leaves behind has both
properties.  This is the invariant `AreSound`. -/

namespace DisplayColor

/-! ## The invariant -/

/-- Signal `1` is brighter than signal `0`. -/
def TransferFunction.IsIncreasing (f : TransferFunction ℝ) : Prop := f.min < f.max

namespace Operation

/-- The bottom row of a matrix is `0 0 0 1` and the range of a transfer function is increasing. -/
def IsSound : Operation ℝ → Prop
  | matrix m => m.IsAffine
  | decode f => f.IsIncreasing
  | encode f => f.IsIncreasing
  | _ => True

end Operation

namespace TransferFunction

/-- Every range that a transfer function can be made with is increasing. -/
theorem isIncreasing_ofCurve (curve : Curve) :
    (ofCurve curve : TransferFunction ℝ).IsIncreasing := by
  cases curve <;> simp only [IsIncreasing, ofCurve, Curve.defaultMin, Curve.defaultMax, Pq.peak,
    Scalar.literal_zero, Scalar.literal_one] <;> norm_num

theorem isIncreasing_withRange (curve : Curve) (min max : ℝ) :
    (withRange curve min max).IsIncreasing := by
  unfold withRange
  split
  · rename_i useful
    exact useful.2.2
  · exact isIncreasing_ofCurve curve

theorem IsIncreasing.scaled {f : TransferFunction ℝ} (increasing : f.IsIncreasing) (factor : ℝ) :
    (f.scaled factor).IsIncreasing := by
  unfold TransferFunction.scaled
  split
  · exact increasing
  · exact isIncreasing_withRange _ _ _

theorem scaled_eq {f : TransferFunction ℝ} (increasing : f.IsIncreasing) {factor : ℝ}
    (positive : 0 < factor) : f.scaled factor = ⟨f.curve, f.min * factor, f.max * factor⟩ := by
  have grows : f.min * factor < f.max * factor := mul_lt_mul_of_pos_right increasing positive
  have useful : ¬ factor ≤ 0 := not_le.mpr positive
  simp [TransferFunction.scaled, withRange, useful, grows]

theorem decode_scaled {f : TransferFunction ℝ} (increasing : f.IsIncreasing) {factor : ℝ}
    (positive : 0 < factor) (signal : ℝ) :
    (f.scaled factor).decode signal = f.decode signal * factor := by
  rw [scaled_eq increasing positive]
  simp only [decode]
  ring

end TransferFunction

/-! ## Linear operations -/

namespace LinearOperation

noncomputable def apply : LinearOperation ℝ → Vec3 ℝ → Vec3 ℝ
  | matrix m, v => m.apply v
  | multiplier gains, v => v * gains

theorem apply_toOperation (operation : LinearOperation ℝ) (v : Vec3 ℝ) :
    operation.toOperation.apply v = .ok (operation.apply v) := by
  cases operation <;> rfl

theorem apply_of_linear? {operation : Operation ℝ} {linear : LinearOperation ℝ}
    (found : operation.linear? = some linear) (v : Vec3 ℝ) :
    operation.apply v = .ok (linear.apply v) := by
  cases operation <;> cases found <;> rfl

theorem isSound_of_linear? {operation : Operation ℝ} {linear : LinearOperation ℝ}
    (found : operation.linear? = some linear) (sound : operation.IsSound) :
    linear.toOperation.IsSound := by
  cases operation <;> cases found <;> exact sound

theorem apply_negligible {operation : LinearOperation ℝ} (negligible : operation.isNegligible)
    (exact : operation.dropTest.Succeeds → operation.dropTest.IsExact) (v : Vec3 ℝ) :
    operation.apply v = v := by
  cases operation with
  | matrix m =>
    have identity : m = Mat4.identity := exact negligible
    rw [identity]
    exact Mat4.one_apply v
  | multiplier gains =>
    rw [show gains = Vec3.splat _ from exact negligible]
    ext <;> simp [apply, Vec3.mul_eq, Vec3.splat]

theorem apply_simplified {operation : LinearOperation ℝ}
    (exact : AreExact operation.simplificationTests) (v : Vec3 ℝ) :
    operation.simplified.apply v = operation.apply v := by
  cases operation with
  | multiplier gains => rfl
  | matrix m =>
    simp only [simplified]
    split
    · rename_i scaling
      have diagonal : m = Mat4.scaling m.gains := exact _ (List.mem_singleton_self _) scaling
      calc v * m.gains
        _ = (Mat4.scaling m.gains).apply v := (Mat4.scaling_apply m.gains v).symm
        _ = m.apply v := by rw [← diagonal]
    · rfl

theorem isSound_simplified {operation : LinearOperation ℝ} (sound : operation.toOperation.IsSound) :
    operation.simplified.toOperation.IsSound := by
  cases operation with
  | multiplier gains => trivial
  | matrix m =>
    simp only [simplified]
    split
    · trivial
    · exact sound

theorem apply_after (next : LinearOperation ℝ) {before : LinearOperation ℝ}
    (sound : before.toOperation.IsSound) (v : Vec3 ℝ) :
    (next.after before).apply v = next.apply (before.apply v) := by
  cases before with
  | matrix previous =>
    cases next with
    | matrix m => exact Mat4.apply_mul sound v
    | multiplier gains => exact (Mat4.apply_mul sound v).trans (Mat4.scaling_apply gains _)
  | multiplier previous =>
    cases next with
    | matrix m =>
      -- The bottom row of a scaling is that of an affine matrix, whatever the one of `m` is.
      calc (m * Mat4.scaling previous).apply v
        _ = m.apply ((Mat4.scaling previous).apply v) :=
          Mat4.apply_mul (Mat4.isAffine_scaling previous) v
        _ = m.apply (v * previous) := by rw [Mat4.scaling_apply]
    | multiplier gains => ext <;> simp only [after, apply, Vec3.mul_eq] <;> ring

theorem isSound_after {next before : LinearOperation ℝ} (nextSound : next.toOperation.IsSound)
    (beforeSound : before.toOperation.IsSound) : (next.after before).toOperation.IsSound := by
  cases next with
  | matrix m =>
    cases before with
    | matrix previous => exact Mat4.IsAffine.mul nextSound beforeSound
    | multiplier previous => exact Mat4.IsAffine.mul nextSound (Mat4.isAffine_scaling previous)
  | multiplier gains =>
    cases before with
    | matrix previous => exact Mat4.IsAffine.mul (Mat4.isAffine_scaling gains) beforeSound
    | multiplier previous => trivial

end LinearOperation

namespace TransferFunction

/-! ## Linear transfer functions -/

theorem isAffine_decodeMatrix (f : TransferFunction ℝ) : (Pipeline.decodeMatrix f).IsAffine :=
  (Mat4.isAffine_translation _).mul (Mat4.isAffine_uniform _)

theorem isAffine_encodeMatrix (f : TransferFunction ℝ) : (Pipeline.encodeMatrix f).IsAffine :=
  (Mat4.isAffine_uniform _).mul (Mat4.isAffine_translation _)

theorem decodeMatrix_apply {f : TransferFunction ℝ} (linear : f.curve = .linear) (v : Vec3 ℝ) :
    (Pipeline.decodeMatrix f).apply v = v.map f.decode := by
  rw [Pipeline.decodeMatrix, Mat4.apply_mul (Mat4.isAffine_uniform _), Mat4.uniform_apply,
    Mat4.translation_apply]
  simp [Vec3.add_eq, Vec3.scale_eq, Vec3.splat, Vec3.map, decode, linear, Curve.decode]

theorem encodeMatrix_apply {f : TransferFunction ℝ} (linear : f.curve = .linear) (v : Vec3 ℝ) :
    (Pipeline.encodeMatrix f).apply v = v.map f.encode := by
  rw [Pipeline.encodeMatrix, Mat4.apply_mul (Mat4.isAffine_translation _), Mat4.uniform_apply,
    Mat4.translation_apply]
  simp [Vec3.add_eq, Vec3.scale_eq, Vec3.splat, Vec3.map, encode, linear, Curve.encode,
    div_eq_mul_inv, sub_eq_add_neg]

end TransferFunction

namespace Pipeline

/-! ## The invariant is kept -/

def AreSound (steps : List (Step ℝ)) : Prop := ∀ step ∈ steps, step.operation.IsSound

namespace AreSound

theorem empty (input : ValueRange ℝ) : AreSound (Pipeline.empty input).latestFirst :=
  List.forall_mem_nil _

theorem tail {last : Step ℝ} {rest : List (Step ℝ)} (sound : AreSound (last :: rest)) :
    AreSound rest := fun step member => sound step (List.mem_cons_of_mem last member)

theorem cons {last : Step ℝ} {rest : List (Step ℝ)} (first : last.operation.IsSound)
    (sound : AreSound rest) : AreSound (last :: rest) := by
  intro step member
  cases member with
  | head => exact first
  | tail _ member => exact sound step member

end AreSound

theorem Settled.areSound {input output : ValueRange ℝ} {steps result : List (Step ℝ)}
    {operation : LinearOperation ℝ} (settled : Settled input output steps operation result)
    (stepsSound : AreSound steps) (sound : operation.toOperation.IsSound) : AreSound result := by
  cases settled with
  | dropped _ => exact stepsSound
  | @folded _ _ f _ gains _ _ =>
    have increasing : f.IsIncreasing := stepsSound _ (List.mem_cons_self ..)
    exact stepsSound.tail.cons (increasing.scaled gains.x)
  | appended _ _ => exact stepsSound.cons sound

theorem Absorbed.areSound {input output : ValueRange ℝ} {steps result : List (Step ℝ)}
    {operation : LinearOperation ℝ} (absorbed : Absorbed input output steps operation result)
    (stepsSound : AreSound steps) (sound : operation.toOperation.IsSound) : AreSound result := by
  induction absorbed with
  | dropped _ => exact stepsSound
  | combined _ linear _ inductionHypothesis =>
    have lastSound :=
      LinearOperation.isSound_of_linear? linear (stepsSound _ (List.mem_cons_self ..))
    exact inductionHypothesis stepsSound.tail (LinearOperation.isSound_after sound lastSound)
  | settled _ _ settled =>
    exact settled.areSound stepsSound (LinearOperation.isSound_simplified sound)

theorem areSound_addMatrix {p : Pipeline ℝ} {m : Mat4 ℝ} (output : ValueRange ℝ)
    (stepsSound : AreSound p.latestFirst) (affine : m.IsAffine) :
    AreSound (p.addMatrix m output).latestFirst :=
  (absorbed p.input output p.latestFirst (.matrix m)).areSound stepsSound affine

theorem DecodeAdded.areSound {p result : Pipeline ℝ} {f : TransferFunction ℝ}
    (added : DecodeAdded p f result) (stepsSound : AreSound p.latestFirst)
    (increasing : f.IsIncreasing) : AreSound result.latestFirst := by
  cases added with
  | cancelled last _ =>
    rw [last] at stepsSound
    exact stepsSound.tail
  | linear _ _ => exact areSound_addMatrix _ stepsSound f.isAffine_decodeMatrix
  | pushed _ _ => exact stepsSound.cons increasing

theorem EncodeAdded.areSound {p result : Pipeline ℝ} {f : TransferFunction ℝ}
    (added : EncodeAdded p f result) (stepsSound : AreSound p.latestFirst)
    (increasing : f.IsIncreasing) : AreSound result.latestFirst := by
  cases added with
  | cancelled last _ =>
    rw [last] at stepsSound
    exact stepsSound.tail
  | linear _ _ => exact areSound_addMatrix _ stepsSound f.isAffine_encodeMatrix
  | pushed _ _ => exact stepsSound.cons increasing

theorem areSound_add {p : Pipeline ℝ} {operation : Operation ℝ} (output : ValueRange ℝ)
    (stepsSound : AreSound p.latestFirst) (sound : operation.IsSound) :
    AreSound (p.add operation output).latestFirst := by
  cases operation with
  | matrix m => exact areSound_addMatrix output stepsSound sound
  | multiplier gains =>
    exact (absorbed p.input output p.latestFirst (.multiplier gains)).areSound stepsSound sound
  | decode f => exact (decodeAdded p f).areSound stepsSound sound
  | encode f => exact (encodeAdded p f).areSound stepsSound sound
  | toneMap _ | curves _ | cube _ => exact stepsSound.cons sound

/-! ## Adding linear operations -/

/-- The colour after steps that are held latest first. -/
noncomputable def carryOut : List (Step ℝ) → Vec3 ℝ → Except OutOfBounds (Vec3 ℝ)
  | [], v => .ok v
  | last :: rest, v => carryOut rest v >>= last.operation.apply

theorem evaluate_eq (p : Pipeline ℝ) (v : Vec3 ℝ) : p.evaluate v = carryOut p.latestFirst v := by
  obtain ⟨input, latestFirst⟩ := p
  induction latestFirst with
  | nil => rfl
  | cons last rest inductionHypothesis =>
    rw [carryOut, ← inductionHypothesis]
    simp [evaluate, steps]

/-- The steps after an addition do what those before it do and then the operation. -/
def Extends (steps result : List (Step ℝ)) (operation : LinearOperation ℝ) : Prop :=
  ∀ v, carryOut result v = carryOut steps v >>= fun w => .ok (operation.apply w)

theorem extends_of_neutral {operation : LinearOperation ℝ} (neutral : ∀ v, operation.apply v = v)
    (steps : List (Step ℝ)) : Extends steps steps operation := by
  intro v
  simp only [neutral]
  exact (bind_pure (carryOut steps v)).symm

theorem Settled.extends {input output : ValueRange ℝ} {steps result : List (Step ℝ)}
    {operation : LinearOperation ℝ}
    (settled : Settled input output steps operation.simplified result)
    (stepsSound : AreSound steps) (exact : AreExact (settleTests steps operation)) :
    Extends steps result operation := by
  have simplified (v : Vec3 ℝ) : operation.simplified.apply v = operation.apply v :=
    LinearOperation.apply_simplified (exact.of_subset (simplificationTests_subset _ _)) v
  generalize simplification : operation.simplified = simple at settled
  cases settled with
  | dropped negligible =>
    refine extends_of_neutral ?_ steps
    intro v
    -- The comparison was made on the simplified operation, and so is the argument.
    rw [← simplified, simplification]
    refine LinearOperation.apply_negligible negligible ?_ v
    rw [← simplification]
    exact exact _ (dropTest_mem_settleTests _ _)
  | @folded before after f rest gains kept foldable =>
    have increasing : f.IsIncreasing := stepsSound _ (List.mem_cons_self ..)
    have positive : 0 < gains.x := by simpa using foldable.2.2
    have uniform : gains = Vec3.splat gains.x :=
      exact _ (uniform_mem_settleTests simplification kept) foldable.1
    intro v
    simp only [carryOut, bind_assoc]
    refine bind_congr ?_
    intro w
    -- Only a uniform gain can go into the range, which all three channels share.
    have scaled : w.map (f.scaled gains.x).decode = w.map f.decode * gains := by
      rw [uniform]
      ext <;> exact TransferFunction.decode_scaled increasing positive _
    calc Except.ok (w.map (f.scaled gains.x).decode)
      _ = .ok ((LinearOperation.multiplier gains).apply (w.map f.decode)) := by rw [scaled]; rfl
      _ = .ok (operation.apply (w.map f.decode)) := by rw [← simplified, simplification]
  | appended _ _ =>
    intro v
    refine bind_congr ?_
    intro w
    rw [LinearOperation.apply_toOperation, ← simplification, simplified]

theorem Absorbed.extends {input output : ValueRange ℝ} {steps result : List (Step ℝ)}
    {operation : LinearOperation ℝ} (absorbed : Absorbed input output steps operation result)
    (stepsSound : AreSound steps) (exact : AreExact (absorbTests steps operation)) :
    Extends steps result operation := by
  induction absorbed with
  | dropped negligible =>
    refine extends_of_neutral ?_ _
    exact LinearOperation.apply_negligible negligible (exact _ (dropTest_mem_absorbTests _ _))
  | @combined last rest result operation before kept linear _ inductionHypothesis =>
    have lastSound : before.toOperation.IsSound :=
      LinearOperation.isSound_of_linear? linear (stepsSound _ (List.mem_cons_self ..))
    -- The last step is popped, so what comes before it is extended by both operations in one.
    have both : Extends rest result (operation.after before) :=
      inductionHypothesis stepsSound.tail (exact.of_subset (absorbTests_combined kept linear))
    intro v
    rw [both, carryOut, bind_assoc]
    refine bind_congr ?_
    intro w
    rw [LinearOperation.apply_after operation lastSound, LinearOperation.apply_of_linear? linear]
    rfl
  | settled kept nonlinear settled =>
    exact settled.extends stepsSound (exact.of_subset (absorbTests_settled kept nonlinear))

theorem evaluate_addLinear {p : Pipeline ℝ} {operation : LinearOperation ℝ}
    (output : ValueRange ℝ) (stepsSound : AreSound p.latestFirst)
    (exact : AreExact (absorbTests p.latestFirst operation)) (v : Vec3 ℝ) :
    (p.addLinear operation output).evaluate v =
      p.evaluate v >>= fun w => .ok (operation.apply w) := by
  rw [evaluate_eq, evaluate_eq]
  exact (absorbed p.input output p.latestFirst operation).extends stepsSound exact v

theorem evaluate_addMatrix {p : Pipeline ℝ} {m : Mat4 ℝ} {channel : ℝ → ℝ}
    (same : ∀ w, m.apply w = w.map channel) (output : ValueRange ℝ)
    (stepsSound : AreSound p.latestFirst) (exact : AreExact (absorbTests p.latestFirst (.matrix m)))
    (v : Vec3 ℝ) :
    (p.addMatrix m output).evaluate v = p.evaluate v >>= fun w => .ok (w.map channel) := by
  rw [addMatrix, evaluate_addLinear output stepsSound exact]
  refine bind_congr ?_
  intro w
  exact congrArg Except.ok (same w)

/-! ## Adding any operation -/

/-- Where `next` would be cancelled against the last step, the two directions of its curve undo each
other on the colour that reaches this step. -/
def CancelsAt (p : Pipeline ℝ) (next : Operation ℝ) (v : Vec3 ℝ) : Prop :=
  match p.latestFirst, next with
  | ⟨_, .encode previous, _⟩ :: rest, .decode f =>
    previous == f → ∀ w, Pipeline.evaluate ⟨p.input, rest⟩ v = .ok w →
      (w.map f.encode).map f.decode = w
  | ⟨_, .decode previous, _⟩ :: rest, .encode f =>
    previous == f → ∀ w, Pipeline.evaluate ⟨p.input, rest⟩ v = .ok w →
      (w.map f.decode).map f.encode = w
  | _, _ => True

def CancelsAllAt (p : Pipeline ℝ) (v : Vec3 ℝ) : List (Addition ℝ) → Prop
  | [] => True
  | addition :: additions =>
    p.CancelsAt addition.operation v ∧
      (p.add addition.operation addition.output).CancelsAllAt v additions

/-- Two functions that undo each other on every colour that comes out may both be left out. -/
theorem eq_bind_of_cancels {coloured : Except OutOfBounds (Vec3 ℝ)} {first second : ℝ → ℝ}
    (cancels : ∀ w, coloured = .ok w → (w.map first).map second = w) :
    coloured = (coloured >>= fun w => .ok (w.map first)) >>= fun w => .ok (w.map second) := by
  cases coloured with
  | error outOfBounds => rfl
  | ok w => exact congrArg Except.ok (cancels w rfl).symm

theorem DecodeAdded.evaluate {p result : Pipeline ℝ} {f : TransferFunction ℝ}
    (added : DecodeAdded p f result) {v : Vec3 ℝ} (stepsSound : AreSound p.latestFirst)
    (exact : AreExact (p.decodeTests f)) (cancels : p.CancelsAt (.decode f) v) :
    result.evaluate v = p.evaluate v >>= (Operation.decode f).apply := by
  cases added with
  | @cancelled _ _ previous rest last same =>
    have equal : previous = f := exact _ (sameTransfer_mem_decodeTests last) same
    simp only [CancelsAt, last] at cancels
    -- Both functions are gone, and what reaches the pair is what the rest produces.
    rw [evaluate_eq p, last, evaluate_eq]
    refine eq_bind_of_cancels ?_
    intro w reaches
    rw [equal]
    exact cancels same w (by rw [evaluate_eq, reaches])
  | linear apart curve =>
    have exactMatrix := exact.of_subset (absorbTests_subset_decodeTests curve apart)
    exact evaluate_addMatrix (TransferFunction.decodeMatrix_apply curve) _ stepsSound exactMatrix v
  | pushed _ _ => rw [evaluate_eq, evaluate_eq, push, carryOut]

theorem EncodeAdded.evaluate {p result : Pipeline ℝ} {f : TransferFunction ℝ}
    (added : EncodeAdded p f result) {v : Vec3 ℝ} (stepsSound : AreSound p.latestFirst)
    (exact : AreExact (p.encodeTests f)) (cancels : p.CancelsAt (.encode f) v) :
    result.evaluate v = p.evaluate v >>= (Operation.encode f).apply := by
  cases added with
  | @cancelled _ _ previous rest last same =>
    have equal : previous = f := exact _ (sameTransfer_mem_encodeTests last) same
    simp only [CancelsAt, last] at cancels
    rw [evaluate_eq p, last, evaluate_eq]
    refine eq_bind_of_cancels ?_
    intro w reaches
    rw [equal]
    exact cancels same w (by rw [evaluate_eq, reaches])
  | linear apart curve =>
    have exactMatrix := exact.of_subset (absorbTests_subset_encodeTests curve apart)
    exact evaluate_addMatrix (TransferFunction.encodeMatrix_apply curve) _ stepsSound exactMatrix v
  | pushed _ _ => rw [evaluate_eq, evaluate_eq, push, carryOut]

theorem evaluate_add {p : Pipeline ℝ} {operation : Operation ℝ} {v : Vec3 ℝ}
    (output : ValueRange ℝ) (stepsSound : AreSound p.latestFirst)
    (exact : AreExact (p.addTests operation)) (cancels : p.CancelsAt operation v) :
    (p.add operation output).evaluate v = p.evaluate v >>= operation.apply := by
  cases operation with
  | matrix m => exact evaluate_addLinear output stepsSound exact v
  | multiplier gains => exact evaluate_addLinear output stepsSound exact v
  | decode f => exact (decodeAdded p f).evaluate stepsSound exact cancels
  | encode f => exact (encodeAdded p f).evaluate stepsSound exact cancels
  | toneMap _ | curves _ | cube _ => rw [evaluate_eq, evaluate_eq, add, push, carryOut]

end Pipeline

end DisplayColor

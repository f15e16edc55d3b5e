import Mathlib.Analysis.SpecialFunctions.Pow.Real
import DisplayColor.Proofs.Fusion.NormalForm
import DisplayColor.Proofs.Fusion.Tolerance

/-! # Seams

A conversion decodes, mixes channels and encodes.  How much of it is left is decided at its seams:
between decoding and mixing, where a gain can go into the transfer function, and wherever a transfer
function meets an inverse.

A `Decoding` is what decoding and mixing come to.  What happens at a seam depends on operations and
not on ranges, so the lemmas of this module speak of the stack of a pipeline. -/

namespace DisplayColor

variable {α ω : Type} [Scalar α] [Scalar ω] [Precision α ω]

instance (gains : Vec3 α) : Decidable gains.IsFoldable := inferInstanceAs (Decidable (_ ∧ _ ∧ _))

/-- A transfer function and the linear operation after it, if there is one. -/
structure Decoding (α : Type) where
  transfer : TransferFunction α
  linear : Option (LinearOperation α)

namespace Decoding

/-- The operations, the last one first. -/
def stack {α : Type} : Decoding α → List (Operation α)
  | ⟨f, none⟩ => [.decode f]
  | ⟨f, some operation⟩ => [operation.toOperation, .decode f]

/-- Encoding by `f` leaves nothing. -/
def Cancels (decoding : Decoding α) (f : TransferFunction α) : Prop :=
  decoding.linear = none ∧ decoding.transfer == f

end Decoding

/-- What a gain comes to right after a transfer function. -/
def TransferFunction.withGains (f : TransferFunction α) (gains : Vec3 α) : Decoding α :=
  if (LinearOperation.multiplier gains).isNegligible then ⟨f, none⟩
  else if gains.IsFoldable then ⟨f.scaled gains.x, none⟩
  else ⟨f, some (.multiplier gains)⟩

/-- What a linear operation comes to right after a transfer function. -/
def TransferFunction.withLinear (f : TransferFunction α) : LinearOperation α → Decoding α
  | .multiplier gains => f.withGains gains
  | .matrix m =>
    if m.isNearIdentity then ⟨f, none⟩
    else if m.isNearScaling then f.withGains m.gains
    else ⟨f, some (.matrix m)⟩

namespace TransferFunction

variable {f g : TransferFunction α} {gains : Vec3 α} {operation left : LinearOperation α}

theorem withGains_of_left (added : f.withGains gains = ⟨g, some left⟩) :
    g = f ∧ ¬ left.isNegligible ∧ ∀ h : TransferFunction α, h.withLinear left = ⟨h, some left⟩ := by
  unfold withGains at added
  split at added
  · cases added
  · rename_i kept
    split at added
    · cases added
    · rename_i notFoldable
      cases added
      exact ⟨rfl, kept, fun h => by simp [withLinear, withGains, kept, notFoldable]⟩

/-- An operation that is left after one transfer function is left after every other, too. -/
theorem withLinear_of_left (added : f.withLinear operation = ⟨g, some left⟩) :
    g = f ∧ ¬ left.isNegligible ∧ ∀ h : TransferFunction α, h.withLinear left = ⟨h, some left⟩ := by
  cases operation with
  | multiplier gains => exact withGains_of_left added
  | matrix m =>
    simp only [withLinear] at added
    split at added
    · cases added
    · rename_i kept
      split at added
      · exact withGains_of_left added
      · rename_i mixes
        cases added
        exact ⟨rfl, kept, fun h => by simp [withLinear, kept, mixes]⟩

theorem curve_withGains (f : TransferFunction α) (gains : Vec3 α) :
    (f.withGains gains).transfer.curve = f.curve := by
  unfold withGains
  split
  · rfl
  · split
    · exact curve_scaled f gains.x
    · rfl

theorem curve_withLinear (f : TransferFunction α) (operation : LinearOperation α) :
    (f.withLinear operation).transfer.curve = f.curve := by
  cases operation with
  | multiplier gains => exact curve_withGains f gains
  | matrix m =>
    simp only [withLinear]
    split
    · rfl
    · split
      · exact curve_withGains f m.gains
      · rfl

end TransferFunction

namespace Pipeline

/-- The operations of a pipeline, the last one first. -/
def stack {α : Type} (p : Pipeline α) : List (Operation α) := p.latestFirst.map Step.operation

theorem isIdentity_iff {α : Type} {p : Pipeline α} : p.isIdentity ↔ p.stack = [] := by
  simp [isIdentity, stack]

/-! ## Linear operations -/

section Linear

variable {input output : ValueRange α} {steps result : List (Step α)} {f : TransferFunction α}
  {rest : List (Operation α)} {operation : LinearOperation α}

theorem Settled.operations_of_gains {gains : Vec3 α}
    (settled : Settled input output steps (.multiplier gains) result)
    (ends : steps.map Step.operation = .decode f :: rest) :
    result.map Step.operation = (f.withGains gains).stack ++ rest := by
  cases settled with
  | dropped negligible => simp [TransferFunction.withGains, negligible, Decoding.stack, ends]
  | folded kept foldable =>
    injection ends with same others
    cases same
    simp [TransferFunction.withGains, kept, foldable, Decoding.stack, others]
  | appended kept apart =>
    obtain ⟨last, earlier, rfl, decodes, _⟩ := List.map_eq_cons_iff.mp ends
    have notFoldable := apart gains f rfl ⟨last, rfl, decodes⟩
    simp [TransferFunction.withGains, kept, notFoldable, Decoding.stack, ends]

theorem Settled.operations_of_matrix {m : Mat4 α} (kept : ¬ m.isNearIdentity)
    (settled : Settled input output steps (.matrix m) result) :
    result.map Step.operation = .matrix m :: steps.map Step.operation := by
  cases settled with
  | dropped negligible => exact absurd negligible kept
  | appended _ _ => rfl

theorem Absorbed.operations_of_decode
    (absorbed : Absorbed (ω := ω) input output steps operation result)
    (ends : steps.map Step.operation = .decode f :: rest) :
    result.map Step.operation = (f.withLinear operation).stack ++ rest := by
  cases absorbed with
  | dropped negligible =>
    cases operation with
    | multiplier gains =>
      simp [TransferFunction.withLinear, TransferFunction.withGains, negligible, Decoding.stack,
        ends]
    | matrix m =>
      have identity : m.isNearIdentity := negligible
      simp [TransferFunction.withLinear, identity, Decoding.stack, ends]
  | combined _ linear _ =>
    -- The last operation decodes, so there is nothing to combine with.
    injection ends with decodes _
    rw [decodes] at linear
    cases linear
  | settled kept _ settled =>
    cases operation with
    | multiplier gains => exact settled.operations_of_gains ends
    | matrix m =>
      have notIdentity : ¬ m.isNearIdentity := kept
      simp only [LinearOperation.simplified] at settled
      split at settled
      · rename_i scales
        rw [settled.operations_of_gains ends]
        simp [TransferFunction.withLinear, notIdentity, scales]
      · rename_i mixes
        rw [settled.operations_of_matrix notIdentity, ends]
        simp [TransferFunction.withLinear, notIdentity, mixes, Decoding.stack,
          LinearOperation.toOperation]

/-- A linear operation and the one before it become one, unless there is nothing to add. -/
theorem Absorbed.operations_of_linear {before : LinearOperation α}
    (absorbed : Absorbed (ω := ω) input output steps operation result)
    (kept : ¬ operation.isNegligible)
    (ends : steps.map Step.operation = before.toOperation :: .decode f :: rest) :
    result.map Step.operation =
      (f.withLinear (operation.after (ω := ω) before)).stack ++ rest := by
  cases absorbed with
  | dropped negligible => exact absurd negligible kept
  | @combined last _ _ _ popped _ linear added =>
    injection ends with isBefore others
    obtain rfl : before = popped := by
      rw [isBefore] at linear
      cases before <;> exact Option.some.inj linear
    exact added.operations_of_decode others
  | settled _ nonlinear _ =>
    -- Nothing settles on a linear operation.
    obtain ⟨last, earlier, rfl, isBefore, _⟩ := List.map_eq_cons_iff.mp ends
    have notLinear := nonlinear last rfl
    rw [isBefore] at notLinear
    cases before <;> cases notLinear

end Linear

variable {p : Pipeline α} {f g : TransferFunction α} {rest : List (Operation α)}

theorem stack_addLinear_of_decode (ends : p.stack = .decode f :: rest)
    (operation : LinearOperation α) (output : ValueRange α) :
    (p.addLinear (ω := ω) operation output).stack = (f.withLinear operation).stack ++ rest :=
  (absorbed (ω := ω) p.input output p.latestFirst operation).operations_of_decode ends

theorem stack_addLinear_of_linear {before operation : LinearOperation α}
    (ends : p.stack = before.toOperation :: .decode f :: rest) (kept : ¬ operation.isNegligible)
    (output : ValueRange α) :
    (p.addLinear (ω := ω) operation output).stack =
      (f.withLinear (operation.after (ω := ω) before)).stack ++ rest :=
  (absorbed (ω := ω) p.input output p.latestFirst operation).operations_of_linear kept ends

/-! ## Transfer functions -/

theorem stack_addDecode_of_nil (nothing : p.stack = []) (curve : g.curve ≠ .linear) :
    (p.addDecode (ω := ω) g).stack = [.decode g] := by
  have added := decodeAdded (ω := ω) p g
  generalize p.addDecode (ω := ω) g = result at added ⊢
  cases added with
  | cancelled last _ => simp [stack, last] at nothing
  | linear _ linear => exact absurd linear curve
  | pushed _ _ => simpa [stack, push] using nothing

theorem stack_addDecode_of_encode (ends : p.stack = .encode f :: rest) (curve : g.curve ≠ .linear) :
    (p.addDecode (ω := ω) g).stack = if f == g then rest else .decode g :: p.stack := by
  have added := decodeAdded (ω := ω) p g
  generalize p.addDecode (ω := ω) g = result at added ⊢
  cases added with
  | cancelled last same =>
    rw [stack, last] at ends
    injection ends with isEncode others
    cases isEncode
    simp [stack, same, ← others]
  | linear _ linear => exact absurd linear curve
  | pushed apart _ =>
    obtain ⟨last, earlier, split, encodes, _⟩ := List.map_eq_cons_iff.mp ends
    have differs := apart last (by simp [split]) f encodes
    simp [stack, push, differs]

theorem stack_addEncode_of_decode (ends : p.stack = .decode f :: rest) (curve : g.curve ≠ .linear) :
    (p.addEncode (ω := ω) g).stack = if f == g then rest else .encode g :: p.stack := by
  have added := encodeAdded (ω := ω) p g
  generalize p.addEncode (ω := ω) g = result at added ⊢
  cases added with
  | cancelled last same =>
    rw [stack, last] at ends
    injection ends with isDecode others
    cases isDecode
    simp [stack, same, ← others]
  | linear _ linear => exact absurd linear curve
  | pushed apart _ =>
    obtain ⟨last, earlier, split, decodes, _⟩ := List.map_eq_cons_iff.mp ends
    have differs := apart last (by simp [split]) f decodes
    simp [stack, push, differs]

theorem stack_addEncode_of_linear {before : LinearOperation α}
    (ends : p.stack = before.toOperation :: rest) (curve : g.curve ≠ .linear) :
    (p.addEncode (ω := ω) g).stack = .encode g :: p.stack := by
  have added := encodeAdded (ω := ω) p g
  generalize p.addEncode (ω := ω) g = result at added ⊢
  cases added with
  | cancelled last _ =>
    rw [stack, last] at ends
    injection ends with isDecode _
    cases before <;> cases isDecode
  | linear _ linear => exact absurd linear curve
  | pushed _ _ => rfl

/-- The pipeline amounts to decoding and mixing followed by an encoding. -/
structure Encodes (p : Pipeline α) (decoding : Decoding α) (g : TransferFunction α) : Prop where
  nothing : decoding.Cancels g → p.stack = []
  everything : ¬ decoding.Cancels g → p.stack = .encode g :: decoding.stack

theorem encodes_addEncode {decoding : Decoding α} (ends : p.stack = decoding.stack)
    (curve : g.curve ≠ .linear) : (p.addEncode (ω := ω) g).Encodes decoding g := by
  obtain ⟨f, _ | operation⟩ := decoding
  · have encoded := stack_addEncode_of_decode (ω := ω) ends curve
    rw [ends] at encoded
    exact ⟨fun cancels => encoded.trans (if_pos cancels.2),
      fun apart => encoded.trans (if_neg fun same => apart ⟨rfl, same⟩)⟩
  · have encoded := stack_addEncode_of_linear (ω := ω) ends curve
    rw [ends] at encoded
    refine ⟨?_, fun _ => encoded⟩
    rintro ⟨nothing, _⟩
    cases nothing

theorem Encodes.isIdentity_iff {decoding : Decoding α} (encodes : p.Encodes decoding g) :
    p.isIdentity ↔ decoding.Cancels g := by
  rw [Pipeline.isIdentity_iff]
  by_cases cancels : decoding.Cancels g
  · exact iff_of_true (encodes.nothing cancels) cancels
  · refine iff_of_false ?_ cancels
    rw [encodes.everything cancels]
    exact List.cons_ne_nil _ _

/-! ## Conversions -/

theorem stack_lightConversion (source target : Description α ω)
    (curve : source.transfer.curve ≠ .linear) (intent : Intent) :
    (lightConversion source target intent).stack =
      (source.transfer.withLinear (.matrix (source.lightConversion target intent))).stack := by
  have decoded := stack_addDecode_of_nil (ω := ω) (p := .empty (conversionInput source)) rfl curve
  have mixed := stack_addLinear_of_decode (ω := ω) decoded
  simp only [List.append_nil] at mixed
  exact mixed _ _

/-- A conversion without tone mapping has one seam after decoding and one before encoding. -/
theorem encodes_conversion {source target : Description α ω} {intent : Intent}
    {settings : Settings α} (sourceCurve : source.transfer.curve ≠ .linear)
    (targetCurve : target.transfer.curve ≠ .linear)
    (unmapped : ¬ needsToneMapping settings intent
      (lightConversion source target intent).output.max target.maxLuminance) :
    (conversion source target intent settings).Encodes
      (source.transfer.withLinear (.matrix (source.lightConversion target intent)))
      target.transfer := by
  simp only [conversion, if_neg unmapped]
  exact encodes_addEncode (stack_lightConversion source target sourceCurve intent) targetCurve

/-! ## Merging -/

theorem merged_of_nil {onTop : Pipeline α} (nothing : onTop.stack = []) :
    p.merged (ω := ω) onTop = p := by
  have nothing : onTop.latestFirst = [] := List.map_eq_nil_iff.mp nothing
  simp [merged, steps, nothing]

theorem merged_of_pair {onTop : Pipeline α} (pair : onTop.stack = [.encode g, .decode f]) :
    p.merged (ω := ω) onTop = (p.addDecode (ω := ω) f).addEncode (ω := ω) g := by
  obtain ⟨second, rest, split, encodes, others⟩ := List.map_eq_cons_iff.mp pair
  obtain ⟨first, rfl, decodes⟩ := List.map_eq_singleton_iff.mp others
  simp [merged, steps, split, encodes, decodes, add]

theorem merged_of_triple {onTop : Pipeline α} {operation : LinearOperation α}
    (triple : onTop.stack = [.encode g, operation.toOperation, .decode f]) : ∃ output,
      p.merged (ω := ω) onTop =
        ((p.addDecode (ω := ω) f).addLinear (ω := ω) operation output).addEncode (ω := ω) g := by
  obtain ⟨last, rest, split, encodes, others⟩ := List.map_eq_cons_iff.mp triple
  obtain ⟨middle, rest, rfl, mixes, others⟩ := List.map_eq_cons_iff.mp others
  obtain ⟨first, rfl, decodes⟩ := List.map_eq_singleton_iff.mp others
  refine ⟨middle.output, ?_⟩
  cases operation <;> simp [merged, steps, split, encodes, mixes, decodes, add, addMatrix,
    addMultiplier, LinearOperation.toOperation]

end Pipeline

/-! ## Uniform gains -/

/-- The transfer function after which a uniform gain has come: too small a gain is dropped. -/
noncomputable def TransferFunction.afterGain (f : TransferFunction ℝ) (gain : ℝ) :
    TransferFunction ℝ :=
  if |gain - 1| ≤ 1e-5 then f else f.scaled gain

theorem TransferFunction.curve_afterGain (f : TransferFunction ℝ) (gain : ℝ) :
    (f.afterGain gain).curve = f.curve := by
  unfold afterGain
  split
  · rfl
  · exact curve_scaled f gain

/-- Nothing is left of a uniform gain beside the transfer function. -/
theorem TransferFunction.withLinear_uniform {gain : ℝ} (positive : 0 < gain)
    (f : TransferFunction ℝ) :
    f.withLinear (.matrix (Mat4.uniform gain)) = ⟨f.afterGain gain, none⟩ := by
  have scales := Mat4.isNearScaling_uniform gain
  have foldable := Vec3.isFoldable_splat positive
  unfold afterGain
  split
  · rename_i close
    have identity := Mat4.isNearIdentity_uniform.mpr close
    simp [withLinear, identity]
  · rename_i far
    have notIdentity := mt Mat4.isNearIdentity_uniform.mp far
    have kept := LinearOperation.not_isNegligible_splat far
    simp [withLinear, withGains, notIdentity, scales, Mat4.gains_uniform, kept, foldable]
    rfl

/-- What goes into the transfer function goes into the range after it, too. -/
theorem Pipeline.latestFirst_addMatrix_uniform {p : Pipeline ℝ} {before after : ValueRange ℝ}
    {f : TransferFunction ℝ} {rest : List (Step ℝ)}
    (ends : p.latestFirst = ⟨before, .decode f, after⟩ :: rest) {gain : ℝ} (positive : 0 < gain)
    (output : ValueRange ℝ) :
    (p.addMatrix (ω := ℝ) (Mat4.uniform gain) output).latestFirst =
      if |gain - 1| ≤ 1e-5 then p.latestFirst
      else ⟨before, .decode (f.scaled gain), after * gain⟩ :: rest := by
  obtain ⟨input, steps⟩ := p
  obtain rfl : steps = _ := ends
  have added := absorbed (ω := ℝ) input output (⟨before, .decode f, after⟩ :: rest)
    (.matrix (Mat4.uniform gain))
  simp only [addMatrix, addLinear]
  generalize absorb (ω := ℝ) input output _ _ = result at added ⊢
  cases added with
  | dropped negligible => rw [if_pos (Mat4.isNearIdentity_uniform.mp negligible)]
  | combined _ linear _ => cases linear
  | settled kept _ settled =>
    have far := mt Mat4.isNearIdentity_uniform.mpr kept
    have simplified : (LinearOperation.matrix (Mat4.uniform gain)).simplified =
        .multiplier (Vec3.splat gain) := by
      rw [LinearOperation.simplified, if_pos (Mat4.isNearScaling_uniform gain),
        Mat4.gains_uniform]
    rw [if_neg far]
    rw [simplified] at settled
    cases settled with
    | dropped negligible => exact absurd negligible (LinearOperation.not_isNegligible_splat far)
    | folded _ _ => rfl
    | appended _ apart =>
      exact absurd (Vec3.isFoldable_splat positive) (apart _ f rfl ⟨_, rfl, rfl⟩)

/-! ## There and back -/

/-- When nothing is left of decoding by `f` and mixing, encoding by `g` and then the same the other
way round.  If something is left of one half, its encoding has to meet an equal transfer function in
the other half, and what the halves mix has to come to nothing. -/
def Decoding.Collapses (f g : TransferFunction ℝ) : Decoding ℝ → Decoding ℝ → Prop
  | ⟨there, none⟩, ⟨back, none⟩ =>
    (there == g ∧ back == f) ∨ (¬ there == g ∧ ¬ back == f ∧ g == back ∧ there == f)
  | ⟨_, some first⟩, ⟨_, some second⟩ => (f.withLinear (second.after first)).Cancels f
  | _, _ => False

namespace Pipeline

variable {p q : Pipeline ℝ} {f g : TransferFunction ℝ} {first second : LinearOperation ℝ}

/-- The way back does not mix. -/
theorem isIdentity_merged_pair {there : Decoding ℝ} {back : TransferFunction ℝ}
    (encodes : p.Encodes there g) (pair : q.stack = [.encode f, .decode back])
    (source : f.curve ≠ .linear) (target : back.curve ≠ .linear) (apart : ¬ back == f) :
    (p.merged (ω := ℝ) q).isIdentity ↔ ¬ there.Cancels g ∧ g == back ∧ there.Cancels f := by
  have notCancelled (rest : List (Operation ℝ)) (ends : (p.addDecode (ω := ℝ) back).stack =
      .decode back :: rest) : ¬ (p.merged (ω := ℝ) q).isIdentity := by
    rw [merged_of_pair pair, isIdentity_iff, stack_addEncode_of_decode ends source, if_neg apart]
    exact List.cons_ne_nil _ _
  by_cases cancels : there.Cancels g
  · -- The way there is empty, so what is left of the way back stands alone.
    refine iff_of_false ?_ (fun kept => kept.1 cancels)
    exact notCancelled [] (stack_addDecode_of_nil (encodes.nothing cancels) target)
  · have decoded := stack_addDecode_of_encode (ω := ℝ) (encodes.everything cancels) target
    by_cases same : g == back
    · rw [if_pos same] at decoded
      rw [merged_of_pair pair, (encodes_addEncode decoded source).isIdentity_iff]
      exact ⟨fun nothing => ⟨cancels, same, nothing⟩, fun kept => kept.2.2⟩
    · rw [if_neg same] at decoded
      exact iff_of_false (notCancelled _ decoded) (fun kept => same kept.2.1)

/-- The way back mixes. -/
theorem isIdentity_merged_triple {there : Decoding ℝ} {right : LinearOperation ℝ}
    (encodes : p.Encodes there g) (triple : q.stack = [.encode f, right.toOperation, .decode g])
    (source : f.curve ≠ .linear) (target : g.curve ≠ .linear) (kept : ¬ right.isNegligible)
    (stays : ∀ h : TransferFunction ℝ, h.withLinear right = ⟨h, some right⟩) :
    (p.merged (ω := ℝ) q).isIdentity ↔ ∃ h left, there = ⟨h, some left⟩ ∧
      (h.withLinear (right.after left)).Cancels f := by
  obtain ⟨output, merged⟩ := merged_of_triple (ω := ℝ) (p := p) triple
  rw [merged]
  -- After a transfer function alone, what is mixed on the way back stays.
  have notCancelled (h : TransferFunction ℝ)
      (ends : (p.addDecode (ω := ℝ) g).stack = [.decode h]) :
      ¬ (((p.addDecode (ω := ℝ) g).addLinear (ω := ℝ) right output).addEncode
        (ω := ℝ) f).isIdentity := by
    have mixed := stack_addLinear_of_decode (ω := ℝ) ends right output
    rw [stays, List.append_nil] at mixed
    rw [(encodes_addEncode mixed source).isIdentity_iff]
    rintro ⟨nothing, _⟩
    cases nothing
  by_cases cancels : there.Cancels g
  · have decoded := stack_addDecode_of_nil (ω := ℝ) (encodes.nothing cancels) target
    refine iff_of_false (notCancelled g decoded) ?_
    rintro ⟨h, left, rfl, _⟩
    cases cancels.1
  · have decoded := stack_addDecode_of_encode (ω := ℝ) (encodes.everything cancels) target
    rw [if_pos g.beq_self] at decoded
    obtain ⟨h, _ | left⟩ := there
    · refine iff_of_false (notCancelled h decoded) ?_
      rintro ⟨_, _, ⟨⟩, _⟩
    · have mixed := stack_addLinear_of_linear (ω := ℝ) decoded kept output
      rw [List.append_nil] at mixed
      rw [(encodes_addEncode mixed source).isIdentity_iff]
      exact ⟨fun nothing => ⟨h, left, rfl, nothing⟩, fun ⟨_, _, same, nothing⟩ => by
        cases same
        exact nothing⟩

/-- A pipeline followed by the one that goes the opposite way. -/
theorem isIdentity_merged_iff {there back : Decoding ℝ} (mixesThere : f.withLinear first = there)
    (mixesBack : g.withLinear second = back) (source : f.curve ≠ .linear)
    (target : g.curve ≠ .linear) (encodesThere : p.Encodes there g)
    (encodesBack : q.Encodes back f) :
    (p.merged (ω := ℝ) q).isIdentity ↔ Decoding.Collapses f g there back := by
  obtain ⟨g', _ | right⟩ := back
  · by_cases same : g' == f
    · -- The way back is empty by itself, so what is left is the way there.
      rw [merged_of_nil (encodesBack.nothing ⟨rfl, same⟩), encodesThere.isIdentity_iff]
      obtain ⟨f', _ | left⟩ := there
      · simp [Decoding.Collapses, Decoding.Cancels, same]
      · simp [Decoding.Collapses, Decoding.Cancels]
    · have pair := encodesBack.everything fun cancels => same cancels.2
      have curve : g'.curve ≠ .linear := by
        have kept := g.curve_withLinear second
        rw [mixesBack] at kept
        rwa [kept]
      rw [isIdentity_merged_pair encodesThere pair source curve same]
      obtain ⟨f', _ | left⟩ := there
      · simp [Decoding.Collapses, Decoding.Cancels, same]
      · simp [Decoding.Collapses, Decoding.Cancels]
  · -- What is left of the way back would be left after any other function, too.
    obtain ⟨rfl, kept, stays⟩ := TransferFunction.withLinear_of_left mixesBack
    have triple := encodesBack.everything (by simp [Decoding.Cancels])
    rw [isIdentity_merged_triple encodesThere triple source target kept stays]
    obtain ⟨f', _ | left⟩ := there
    · simp [Decoding.Collapses]
    · obtain ⟨rfl, _, _⟩ := TransferFunction.withLinear_of_left mixesThere
      simp [Decoding.Collapses]

end Pipeline

end DisplayColor

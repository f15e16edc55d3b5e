import DisplayColor.Proofs.Fusion.Build
import DisplayColor.Proofs.Fusion.Rules
import DisplayColor.Proofs.Magnitudes

/-! # Magnitudes of fused steps

Fusing multiplies matrices, so the numbers in a fused step can be larger than those in any operation
that was asked for.  They cannot grow without limit: where the numbers of two matrices are at most
`2 ^ j` and `2 ^ k`, those of the product are at most `2 ^ (j + k + 2)`.  If a matrix with numbers up
to `2 ^ k` is said to cost `k + 2`, a product therefore costs no more than its factors together, and
all steps of a pipeline cost no more than the operations that were asked for. -/

namespace DisplayColor

namespace LinearOperation

/-- No number of the matrix or gain is larger than `2 ^ k`. -/
def AtMost (k : ℕ) : LinearOperation Single → Prop
  | matrix m => m.AtMost k
  | multiplier gains => gains.IsBounded (Vec3.splat 1) k

variable {j k : ℕ} {operation next before : LinearOperation Single}

theorem AtMost.simplified (bounded : operation.AtMost k) : operation.simplified.AtMost k := by
  cases operation with
  | multiplier gains => exact bounded
  | matrix m =>
    unfold LinearOperation.simplified
    dsimp only
    split
    · exact Mat4.AtMost.gains bounded
    · exact bounded

theorem atMost_scaling {gains : Vec3 Single} (bounded : gains.IsBounded (Vec3.splat 1) k) :
    (Mat4.scaling gains).AtMost k :=
  (Mat4.isShift_scaling bounded).atMost le_rfl (Nat.zero_le k) (by decide)

theorem AtMost.after (nextBounded : next.AtMost j) (beforeBounded : before.AtMost k)
    (inRange : j + k + 2 ≤ 127) : (next.after (ω := Double) before).AtMost (j + k + 2) := by
  cases next with
  | matrix m =>
    cases before with
    | matrix previous => exact Mat4.AtMost.mul nextBounded beforeBounded inRange
    | multiplier gains => exact Mat4.AtMost.mul nextBounded (atMost_scaling beforeBounded) inRange
  | multiplier gains =>
    cases before with
    | matrix previous => exact Mat4.AtMost.mul (atMost_scaling nextBounded) beforeBounded inRange
    | multiplier previous =>
      have product := Vec3.IsBounded.mul beforeBounded nextBounded (by simp; omega)
      exact product.mono (by omega)

end LinearOperation

/-- What an operation is added as, if it is linear or a linear transfer function. -/
def Operation.asLinear? : Operation Single → Option (LinearOperation Single)
  | matrix m => some (.matrix m)
  | multiplier gains => some (.multiplier gains)
  | decode f =>
    if f.curve = .linear then some (.matrix (Pipeline.decodeMatrix (ω := Double) f)) else none
  | encode f =>
    if f.curve = .linear then some (.matrix (Pipeline.encodeMatrix (ω := Double) f)) else none
  | _ => none

/-- An operation that is added as a linear one with numbers up to `2 ^ k` costs at least `k + 2`. -/
def Operation.Costs (operation : Operation Single) (cost : ℕ) : Prop :=
  ∀ linear ∈ operation.asLinear?, ∃ k, linear.AtMost k ∧ k + 2 ≤ cost

namespace Pipeline

/-- The linear steps together cost no more than the budget. -/
inductive Spends : ℕ → List (Step Single) → Prop
  | nil (budget : ℕ) : Spends budget []
  | linear {budget k : ℕ} {last : Step Single} {rest : List (Step Single)}
      {operation : LinearOperation Single} (isLinear : last.operation.linear? = some operation)
      (bounded : operation.AtMost k) (others : Spends budget rest) :
      Spends (budget + (k + 2)) (last :: rest)
  | nonlinear {budget : ℕ} {last : Step Single} {rest : List (Step Single)}
      (isNonlinear : last.operation.linear? = none) (others : Spends budget rest) :
      Spends budget (last :: rest)

variable {budget more cost k : ℕ} {last : Step Single} {steps rest result : List (Step Single)}
  {operation : LinearOperation Single} {input output : ValueRange Single}

theorem Spends.mono (spent : Spends budget steps) (le : budget ≤ more) :
    Spends more steps := by
  induction spent generalizing more with
  | nil _ => exact .nil more
  | @linear budget k _ _ _ isLinear bounded _ inductionHypothesis =>
    obtain ⟨slack, rfl⟩ := Nat.exists_eq_add_of_le le
    rw [Nat.add_right_comm]
    exact .linear isLinear bounded (inductionHypothesis (Nat.le_add_right budget slack))
  | nonlinear isNonlinear _ inductionHypothesis =>
    exact .nonlinear isNonlinear (inductionHypothesis le)

theorem Spends.tail (spent : Spends budget (last :: steps)) : Spends budget steps := by
  cases spent with
  | linear _ _ others => exact others.mono (Nat.le_add_right _ _)
  | nonlinear _ others => exact others

theorem Settled.spends (settled : Settled input output steps operation result)
    (bounded : operation.AtMost k) (spent : Spends budget steps) :
    Spends (budget + (k + 2)) result := by
  cases settled with
  | dropped _ => exact spent.mono (Nat.le_add_right _ _)
  | folded _ _ => exact .nonlinear rfl (spent.tail.mono (Nat.le_add_right _ _))
  | appended _ _ => exact .linear (LinearOperation.linear?_toOperation _) bounded spent

theorem Absorbed.spends (absorbed : Absorbed (ω := Double) input output steps operation result)
    (bounded : operation.AtMost k) (spent : Spends budget steps)
    (limit : budget + (k + 2) ≤ 129) : Spends (budget + (k + 2)) result := by
  induction absorbed generalizing budget k with
  | dropped _ => exact spent.mono (Nat.le_add_right _ _)
  | combined _ linear _ inductionHypothesis =>
    -- The step that is popped gives back what it has cost, and the product costs no more than that
    -- and the operation.
    cases spent with
    | nonlinear isNonlinear _ => simp [isNonlinear] at linear
    | @linear budget j _ _ before isLinear beforeBounded others =>
      obtain rfl := Option.some.inj (isLinear.symm.trans linear)
      have product := bounded.after beforeBounded (by omega)
      exact (inductionHypothesis product others (by omega)).mono (by omega)
  | settled _ _ settled => exact settled.spends bounded.simplified spent

variable {p q : Pipeline Single} {f : TransferFunction Single}

theorem spends_addLinear (bounded : operation.AtMost k) (fits : k + 2 ≤ cost)
    (spent : Spends budget p.latestFirst) (limit : budget + cost ≤ 129)
    (output : ValueRange Single) :
    Spends (budget + cost) (p.addLinear (ω := Double) operation output).latestFirst :=
  ((absorbed ..).spends bounded spent (by omega)).mono (by omega)

theorem DecodeAdded.spends (added : DecodeAdded (ω := Double) p f q)
    (costs : (Operation.decode f).Costs cost) (spent : Spends budget p.latestFirst)
    (limit : budget + cost ≤ 129) : Spends (budget + cost) q.latestFirst := by
  cases added with
  | cancelled last _ =>
    rw [last] at spent
    exact spent.tail.mono (Nat.le_add_right _ _)
  | linear _ curve =>
    obtain ⟨k, bounded, fits⟩ := costs _ (if_pos curve)
    exact spends_addLinear bounded fits spent limit _
  | pushed _ _ => exact .nonlinear rfl (spent.mono (Nat.le_add_right _ _))

theorem EncodeAdded.spends (added : EncodeAdded (ω := Double) p f q)
    (costs : (Operation.encode f).Costs cost) (spent : Spends budget p.latestFirst)
    (limit : budget + cost ≤ 129) : Spends (budget + cost) q.latestFirst := by
  cases added with
  | cancelled last _ =>
    rw [last] at spent
    exact spent.tail.mono (Nat.le_add_right _ _)
  | linear _ curve =>
    obtain ⟨k, bounded, fits⟩ := costs _ (if_pos curve)
    exact spends_addLinear bounded fits spent limit _
  | pushed _ _ => exact .nonlinear rfl (spent.mono (Nat.le_add_right _ _))

theorem spends_add {operation : Operation Single} (costs : operation.Costs cost)
    (spent : Spends budget p.latestFirst) (limit : budget + cost ≤ 129)
    (output : ValueRange Single) :
    Spends (budget + cost) (p.add (ω := Double) operation output).latestFirst := by
  cases operation with
  | matrix _ | multiplier _ =>
    obtain ⟨k, bounded, fits⟩ := costs _ rfl
    exact spends_addLinear bounded fits spent limit output
  | decode f => exact (decodeAdded p f).spends costs spent limit
  | encode f => exact (encodeAdded p f).spends costs spent limit
  | toneMap _ | curves _ | cube _ =>
    exact .nonlinear rfl (spent.mono (Nat.le_add_right _ _))

theorem spends_addAll {additions : List (Addition Single)} {costs : List ℕ}
    (each : List.Forall₂ (fun addition cost => addition.operation.Costs cost) additions costs)
    (spent : Spends budget p.latestFirst) (limit : budget + costs.sum ≤ 129) :
    Spends (budget + costs.sum) (p.addAll (ω := Double) additions).latestFirst := by
  induction each generalizing p budget with
  | nil => simpa using spent
  | cons first _ inductionHypothesis =>
    rw [List.sum_cons, ← add_assoc] at limit ⊢
    exact inductionHypothesis (spends_add first spent (by omega) _) limit

theorem Spends.exists_atMost (spent : Spends budget steps) :
    ∀ step ∈ steps, ∀ operation, step.operation.linear? = some operation →
      ∃ k, operation.AtMost k := by
  intro step member operation found
  induction spent with
  | nil _ => cases member
  | @linear _ k _ _ _ isLinear bounded _ inductionHypothesis =>
    obtain rfl | member := List.mem_cons.mp member
    · obtain rfl := Option.some.inj (isLinear.symm.trans found)
      exact ⟨k, bounded⟩
    · exact inductionHypothesis member
  | nonlinear isNonlinear _ inductionHypothesis =>
    obtain rfl | member := List.mem_cons.mp member
    · simp [isNonlinear] at found
    · exact inductionHypothesis member

end Pipeline

end DisplayColor

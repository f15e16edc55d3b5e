import DisplayColor.Fingerprint.Reference
import DisplayColor.Lut.Cube
import Mathlib.Algebra.Group.Nat.Defs
import Mathlib.Data.Nat.Notation

/-! # Grids

The entries for a grid are appended in three loops, of which the innermost takes one step along red,
and they are read at an address that is calculated from the grid point.  The two belong together
because the number of entries that are already there is always the address of the next point: one
step raises both by one, and the end of a row or a plane has the address of the start of the next.

So a single invariant carries all three loops.  It speaks of every grid point by its address, and no
two grid points share one.  It would not survive an exchange of two axes in the loops alone, or in
the address alone, although the entries need not show one: they do not on the grey axis, nor for a
function that treats the two channels alike. -/

namespace DisplayColor

/-- A point of a grid with `n` points along each axis. -/
abbrev GridPoint (n : ℕ) : Type := Vec3 (Fin n)

namespace CubeLut

/-! ## Addresses -/

section Addresses

variable {m n q r : ℕ}

theorem mul_add_lt (quotient : q < m) (rest : r < n) : q * n + r < m * n := by
  calc q * n + r
    _ < q * n + n := Nat.add_lt_add_left rest _
    _ = (q + 1) * n := (Nat.succ_mul q n).symm
    _ ≤ m * n := Nat.mul_le_mul_right n quotient

theorem mul_add_inj {q' r' : ℕ} (rest : r < n) (rest' : r' < n)
    (same : q * n + r = q' * n + r') : q = q' ∧ r = r' := by
  have remainders : r = r' := by
    rw [← Nat.mul_add_mod_of_lt rest, same, Nat.mul_add_mod_of_lt rest']
  subst remainders
  have positive : 0 < n := Nat.zero_lt_of_lt rest
  exact ⟨Nat.eq_of_mul_eq_mul_right positive (Nat.add_right_cancel same), rfl⟩

theorem address_lt (i : GridPoint n) : address n i.x i.y i.z < n * n * n :=
  mul_add_lt (mul_add_lt i.z.isLt i.y.isLt) i.x.isLt

/-- No two grid points share an entry. -/
theorem address_injective : Function.Injective fun i : GridPoint n => address n i.x i.y i.z := by
  rintro ⟨x, y, z⟩ ⟨x', y', z'⟩ same
  obtain ⟨rows, reds⟩ := mul_add_inj x.isLt x'.isLt same
  obtain ⟨blues, greens⟩ := mul_add_inj y.isLt y'.isLt rows
  obtain rfl : x = x' := Fin.ext reds
  obtain rfl : y = y' := Fin.ext greens
  obtain rfl : z = z' := Fin.ext blues
  rfl

theorem address_origin (n : ℕ) : address n 0 0 0 = 0 := by simp [address]

/-- After the last point of a row comes the first one of the next row. -/
theorem address_endOfRow (n g b : ℕ) : address n n g b = address n 0 (g + 1) b :=
  (Nat.succ_mul (b * n + g) n).symm

theorem address_endOfPlane (n b : ℕ) : address n 0 n b = address n 0 0 (b + 1) :=
  congrArg (· * n) (Nat.succ_mul b n).symm

theorem address_endOfGrid (n : ℕ) : address n 0 0 n = n * n * n := rfl

end Addresses

/-! ## Loops -/

section Loops

variable {β : Type} {n count : ℕ} {f : ℕ → ℕ → ℕ → β} {entries : Array β}

/-- What every round of a loop carries on holds after the last round. -/
theorem fold_of_round {σ : Type} {motive : ℕ → σ → Prop} {start : σ} {round : ℕ → σ → σ}
    (first : motive 0 start)
    (carried : ∀ k < n, ∀ state, motive k state → motive (k + 1) (round k state)) :
    motive n (n.fold (fun k _ state => round k state) start) := by
  induction n with
  | zero => exact first
  | succ n inductionHypothesis =>
    rw [Nat.fold_succ]
    refine carried n n.lt_succ_self _ (inductionHypothesis fun k before => ?_)
    exact carried k (Nat.lt_succ_of_lt before)

/-- There are `count` entries, and they are those for the grid points with the first addresses. -/
structure IsWritten (n : ℕ) (f : ℕ → ℕ → ℕ → β) (count : ℕ) (entries : Array β) : Prop where
  size : entries.size = count
  entry : ∀ i : GridPoint n, address n i.x i.y i.z < count →
    entries[address n i.x i.y i.z]? = some (f i.x i.y i.z)

namespace IsWritten

theorem empty (n : ℕ) (f : ℕ → ℕ → ℕ → β) : IsWritten n f 0 #[] :=
  ⟨rfl, fun _ below => absurd below (Nat.not_lt_zero _)⟩

/-- The entry that is appended is the one for the point whose address has been reached. -/
theorem push (i : GridPoint n) (written : IsWritten n f (address n i.x i.y i.z) entries) :
    IsWritten n f (address n (i.x + 1) i.y i.z) (entries.push (f i.x i.y i.z)) where
  size := by
    rw [Array.size_push, written.size]
    rfl
  entry j below := by
    rw [Array.getElem?_push, written.size]
    split
    · -- No other point has the address that has just been filled.
      rename_i same
      rw [address_injective same]
    · rename_i other
      exact written.entry j (Nat.lt_of_le_of_ne (Nat.le_of_lt_succ below) other)

theorem addRow (g b : Fin n) (written : IsWritten n f (address n 0 g b) entries) :
    IsWritten n f (address n 0 (g + 1) b) (CubeLut.addRow n f g b entries) := by
  rw [← address_endOfRow]
  exact fold_of_round (motive := fun r => IsWritten n f (address n r g b)) written
    fun r inside _ before => before.push ⟨⟨r, inside⟩, g, b⟩

theorem addPlane (b : Fin n) (written : IsWritten n f (address n 0 0 b) entries) :
    IsWritten n f (address n 0 0 (b + 1)) (CubeLut.addPlane n f b entries) := by
  rw [← address_endOfPlane]
  exact fold_of_round (motive := fun g => IsWritten n f (address n 0 g b)) written
    fun g inside _ before => before.addRow ⟨g, inside⟩ b

end IsWritten

/-- All three loops together leave an entry for each grid point at its address. -/
theorem isWritten_onGrid (n : ℕ) (f : ℕ → ℕ → ℕ → β) : IsWritten n f (n * n * n) (onGrid n f) := by
  rw [← address_endOfGrid]
  -- A round of this loop is a whole plane, and the invariant is needed at its two ends only.
  refine fold_of_round (motive := fun b => IsWritten n f (address n 0 0 b)) ?_
    fun b inside _ before => before.addPlane ⟨b, inside⟩
  rw [address_origin]
  exact .empty n f

theorem size_onGrid (n : ℕ) (f : ℕ → ℕ → ℕ → β) : (onGrid n f).size = n * n * n :=
  (isWritten_onGrid n f).size

theorem getElem?_onGrid (f : ℕ → ℕ → ℕ → β) (i : GridPoint n) :
    (onGrid n f)[address n i.x i.y i.z]? = some (f i.x i.y i.z) :=
  (isWritten_onGrid n f).entry i (address_lt i)

theorem getElem_onGrid (f : ℕ → ℕ → ℕ → β) (i : GridPoint n)
    (inside : address n i.x i.y i.z < (onGrid n f).size) :
    (onGrid n f)[address n i.x i.y i.z] = f i.x i.y i.z :=
  Array.getElem_eq_iff.mpr (getElem?_onGrid f i)

end Loops

/-! ## Tables of functions and grids of colours -/

section Colours

variable {α : Type} [Scalar α]

theorem entry_ofFunction (size : ℕ) (f : Vec3 α → Vec3 α) (i : GridPoint (max size 2)) :
    (ofFunction size f).entry i.x i.y i.z =
      .ok (f (i.map fun k : Fin _ => Scalar.ofNat k / Scalar.ofNat (max size 2 - 1))) := by
  simp only [entry, ofFunction, getElem?_onGrid]
  rfl

/-- A table of a function has an entry for each grid point, which is read there and is what the
function gives for the colour of the point.  A grid of colours holds them in the same order, but
there each is a multiple of the step between two points, which rounded scalars tell from a
quotient. -/
theorem entries_addressed :
    (∀ (size : ℕ) (f : Vec3 α → Vec3 α),
      let s := max size 2
      let coordinate (k : Fin s) : α := Scalar.ofNat k / Scalar.ofNat (s - 1)
      (ofFunction size f).size = s ∧ (ofFunction size f).data.size = s ^ 3 ∧
        ∀ i : GridPoint s, (ofFunction size f).entry i.x i.y i.z =
          .ok (f ⟨coordinate i.x, coordinate i.y, coordinate i.z⟩)) ∧
    ∀ n : ℕ,
      let step : α := 1 / Scalar.ofNat (max n 2 - 1)
      (colorGrid n : Array (Vec3 α)).size = n ^ 3 ∧
        ∀ i : GridPoint n, (colorGrid n)[(i.z * n + i.y) * n + i.x]? =
          some (⟨Scalar.ofNat i.x * step, Scalar.ofNat i.y * step, Scalar.ofNat i.z * step⟩ :
            Vec3 α) := by
  constructor
  · intro size f s coordinate
    refine ⟨rfl, ?_, entry_ofFunction size f⟩
    rw [pow_three']
    exact size_onGrid s _
  · intro n step
    refine ⟨?_, getElem?_onGrid _⟩
    rw [pow_three']
    exact size_onGrid n _

/-- The sixth of twenty-seven colours: red is at its end, green half way, blue at its start. -/
example : (colorGrid 3)[5]? = some (⟨1, 0.5, 0⟩ : Vec3 Single) := rfl

end Colours

end CubeLut

end DisplayColor

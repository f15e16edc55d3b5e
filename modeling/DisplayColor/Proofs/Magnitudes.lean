import DisplayColor.Mat4
import DisplayColor.Proofs.Scalar.Magnitude

/-! # Magnitudes of vectors and matrices

Entry by entry, numbers are bounded as in `DisplayColor.AtMost`.  A dense product of matrices sums up
to four terms, which costs two powers of two; where entries are known to be zero, a product costs
nothing.  The second is what scaling and shifting by luminances consists of. -/

namespace DisplayColor

section Products

variable {α : Type} [Scalar α] [BinaryScalar α] {c d j k l : ℕ}

/-- A product counts for nothing if one factor is zero, and else must have the common power of
two. -/
theorem AtMost.term {x y : α} (left : AtMost c j x) (right : AtMost d k y)
    (fits : c * d = 0 ∨ j + k ≤ l) (few : c * d ≤ 4) (inRange : j + k ≤ BinaryScalar.room α) :
    AtMost (c * d) l (x * y) := by
  have product := left.mul right few inRange
  obtain zero | le := fits
  · rw [zero] at product ⊢
    exact product.of_zero l
  · exact product.mono (le_refl _) le

/-! ## Three channels -/

namespace Vec3

/-- Channel by channel at most `c * 2 ^ k`. -/
structure IsBounded (v : Vec3 α) (c : Vec3 ℕ) (k : ℕ) : Prop where
  x : AtMost c.x k v.x
  y : AtMost c.y k v.y
  z : AtMost c.z k v.z

/-- No channel is smaller than `2 ^ -k`. -/
structure AtLeast (k : ℕ) (v : Vec3 α) : Prop where
  x : DisplayColor.AtLeast k v.x
  y : DisplayColor.AtLeast k v.y
  z : DisplayColor.AtLeast k v.z

theorem IsBounded.mul {v w : Vec3 α} (left : v.IsBounded (splat 1) j)
    (right : w.IsBounded (splat 1) k) (inRange : j + k ≤ BinaryScalar.room α) :
    (v * w).IsBounded (splat 1) (j + k) := by
  have channel {x y : α} (left : AtMost 1 j x) (right : AtMost 1 k y) :
      AtMost 1 (j + k) (x * y) := by
    have product := left.mul right (by decide) inRange
    rwa [one_mul] at product
  exact ⟨channel left.x right.x, channel left.y right.y, channel left.z right.z⟩

theorem IsBounded.div {v w : Vec3 α} (left : v.IsBounded (splat 1) j) (right : w.AtLeast k)
    (inRange : j + k ≤ BinaryScalar.room α) : (v / w).IsBounded (splat 1) (j + k) :=
  ⟨left.x.div right.x (by decide) inRange, left.y.div right.y (by decide) inRange,
    left.z.div right.z (by decide) inRange⟩

theorem IsBounded.mono {c : Vec3 ℕ} {v : Vec3 α} (bounded : v.IsBounded c j) (le : j ≤ k) :
    v.IsBounded c k :=
  ⟨bounded.x.mono le_rfl le, bounded.y.mono le_rfl le, bounded.z.mono le_rfl le⟩

theorem IsBounded.isFinite {c : Vec3 ℕ} {v : Vec3 α} (bounded : v.IsBounded c k) : v.isFinite := by
  simp only [Vec3.isFinite, bounded.x.isFinite, bounded.y.isFinite, bounded.z.isFinite, Bool.and_self]

theorem IsBounded.dot {c d : Vec3 ℕ} {v w : Vec3 α} (left : v.IsBounded c j)
    (right : w.IsBounded d k) (few : c.x * d.x + c.y * d.y + c.z * d.z ≤ 4)
    (inRange : j + k ≤ BinaryScalar.room α) :
    AtMost (c.x * d.x + c.y * d.y + c.z * d.z) (j + k) (v.dot w) := by
  have x := left.x.mul right.x (by omega) inRange
  have y := left.y.mul right.y (by omega) inRange
  have z := left.z.mul right.z (by omega) inRange
  exact (x.add y (by omega) inRange).add z few inRange

end Vec3

namespace Mat3

/-- No entry is larger than `2 ^ k`. -/
structure AtMost (k : ℕ) (m : Mat3 α) : Prop where
  r0 : m.r0.IsBounded (Vec3.splat 1) k
  r1 : m.r1.IsBounded (Vec3.splat 1) k
  r2 : m.r2.IsBounded (Vec3.splat 1) k

variable {a b m : Mat3 α} {v : Vec3 α}

theorem AtMost.apply_bounded {c : Vec3 ℕ} (matrix : m.AtMost j) (vector : v.IsBounded c k)
    (few : c.x + c.y + c.z ≤ 4) (inRange : j + k ≤ BinaryScalar.room α) :
    (m.apply v).IsBounded (Vec3.splat (c.x + c.y + c.z)) (j + k) := by
  have row {r : Vec3 α} (row : r.IsBounded (Vec3.splat 1) j) :
      DisplayColor.AtMost (c.x + c.y + c.z) (j + k) (r.dot v) := by
    have dot := row.dot vector (by simpa [Vec3.splat] using few) inRange
    simpa [Vec3.splat] using dot
  exact ⟨row matrix.r0, row matrix.r1, row matrix.r2⟩

theorem AtMost.apply (matrix : m.AtMost j) (vector : v.IsBounded (Vec3.splat 1) k)
    (inRange : j + k ≤ BinaryScalar.room α) :
    (m.apply v).IsBounded (Vec3.splat 1) (j + k + 2) := by
  obtain ⟨x, y, z⟩ := matrix.apply_bounded vector (by decide) inRange
  exact ⟨(x.mono (by decide) le_rfl).of_four, (y.mono (by decide) le_rfl).of_four,
    (z.mono (by decide) le_rfl).of_four⟩

theorem AtMost.columns (matrix : m.AtMost k) :
    m.column0.IsBounded (Vec3.splat 1) k ∧ m.column1.IsBounded (Vec3.splat 1) k ∧
      m.column2.IsBounded (Vec3.splat 1) k :=
  ⟨⟨matrix.r0.x, matrix.r1.x, matrix.r2.x⟩, ⟨matrix.r0.y, matrix.r1.y, matrix.r2.y⟩,
    ⟨matrix.r0.z, matrix.r1.z, matrix.r2.z⟩⟩

theorem atMost_ofColumns {c0 c1 c2 : Vec3 α} (first : c0.IsBounded (Vec3.splat 1) k)
    (second : c1.IsBounded (Vec3.splat 1) k) (third : c2.IsBounded (Vec3.splat 1) k) :
    (ofColumns c0 c1 c2).AtMost k :=
  ⟨⟨first.x, second.x, third.x⟩, ⟨first.y, second.y, third.y⟩, ⟨first.z, second.z, third.z⟩⟩

theorem AtMost.mul (left : a.AtMost j) (right : b.AtMost k)
    (inRange : j + k ≤ BinaryScalar.room α) : (a * b).AtMost (j + k + 2) := by
  obtain ⟨first, second, third⟩ := right.columns
  exact atMost_ofColumns (left.apply first inRange) (left.apply second inRange)
    (left.apply third inRange)

/-- The zeros off the diagonal add nothing to the products. -/
theorem AtMost.mul_diagonal (left : a.AtMost j) (gains : v.IsBounded (Vec3.splat 1) k)
    (inRange : j + k ≤ BinaryScalar.room α) : (a * diagonal v).AtMost (j + k) :=
  atMost_ofColumns
    (left.apply_bounded (c := ⟨1, 0, 0⟩) ⟨gains.x, atMost_zero k, atMost_zero k⟩ (by decide) inRange)
    (left.apply_bounded (c := ⟨0, 1, 0⟩) ⟨atMost_zero k, gains.y, atMost_zero k⟩ (by decide) inRange)
    (left.apply_bounded (c := ⟨0, 0, 1⟩) ⟨atMost_zero k, atMost_zero k, gains.z⟩ (by decide) inRange)

theorem AtMost.mono (bounded : m.AtMost j) (le : j ≤ k) : m.AtMost k :=
  ⟨bounded.r0.mono le, bounded.r1.mono le, bounded.r2.mono le⟩

theorem atMost_identity : (identity : Mat3 α).AtMost 0 := by
  have zero : DisplayColor.AtMost 1 0 (0 : α) := (atMost_zero 0).mono (by decide) le_rfl
  exact ⟨⟨atMost_one, zero, zero⟩, ⟨zero, atMost_one, zero⟩, ⟨zero, zero, atMost_one⟩⟩

end Mat3

/-! ## Affine matrices -/

namespace Vec4

/-- Component by component at most `c * 2 ^ k`. -/
structure IsBounded (v : Vec4 α) (c k : Vec4 ℕ) : Prop where
  x : AtMost c.x k.x v.x
  y : AtMost c.y k.y v.y
  z : AtMost c.z k.z v.z
  w : AtMost c.w k.w v.w

/-- The products, each with its power of two, add up to `total` with the common power `l`, without
leaving the range. -/
structure Fits (c j d k : Vec4 ℕ) (total l range : ℕ) : Prop where
  sum : c.x * d.x + c.y * d.y + c.z * d.z + c.w * d.w = total
  few : total ≤ 4
  x : c.x * d.x = 0 ∨ j.x + k.x ≤ l
  y : c.y * d.y = 0 ∨ j.y + k.y ≤ l
  z : c.z * d.z = 0 ∨ j.z + k.z ≤ l
  w : c.w * d.w = 0 ∨ j.w + k.w ≤ l
  inRange : l ≤ range ∧ j.x + k.x ≤ range ∧ j.y + k.y ≤ range ∧ j.z + k.z ≤ range ∧
    j.w + k.w ≤ range

theorem IsBounded.dot {c j d k : Vec4 ℕ} {v w : Vec4 α} {total : ℕ} (left : v.IsBounded c j)
    (right : w.IsBounded d k) (fits : Fits c j d k total l (BinaryScalar.room α)) :
    AtMost total l (v.dot w) := by
  obtain ⟨rfl, few, fitsX, fitsY, fitsZ, fitsW, room, roomX, roomY, roomZ, roomW⟩ := fits
  have x := left.x.term right.x fitsX (by omega) roomX
  have y := left.y.term right.y fitsY (by omega) roomY
  have z := left.z.term right.z fitsZ (by omega) roomZ
  have w := left.w.term right.w fitsW (by omega) roomW
  exact ((x.add y (by omega) room).add z (by omega) room).add w few room

end Vec4

namespace Mat4

structure IsBounded (m : Mat4 α) (c k : Mat4 ℕ) : Prop where
  r0 : m.r0.IsBounded c.r0 k.r0
  r1 : m.r1.IsBounded c.r1 k.r1
  r2 : m.r2.IsBounded c.r2 k.r2
  r3 : m.r3.IsBounded c.r3 k.r3

theorem IsBounded.transpose {m : Mat4 α} {c k : Mat4 ℕ} (bounded : m.IsBounded c k) :
    m.transpose.IsBounded c.transpose k.transpose :=
  ⟨⟨bounded.r0.x, bounded.r1.x, bounded.r2.x, bounded.r3.x⟩,
    ⟨bounded.r0.y, bounded.r1.y, bounded.r2.y, bounded.r3.y⟩,
    ⟨bounded.r0.z, bounded.r1.z, bounded.r2.z, bounded.r3.z⟩,
    ⟨bounded.r0.w, bounded.r1.w, bounded.r2.w, bounded.r3.w⟩⟩

/-- What the product of matrices with the bounds `c`, `j` and `d`, `k` has for a row. -/
structure RowFits (c j : Vec4 ℕ) (d k : Mat4 ℕ) (e l : Vec4 ℕ) (range : ℕ) : Prop where
  x : Vec4.Fits c j d.transpose.r0 k.transpose.r0 e.x l.x range
  y : Vec4.Fits c j d.transpose.r1 k.transpose.r1 e.y l.y range
  z : Vec4.Fits c j d.transpose.r2 k.transpose.r2 e.z l.z range
  w : Vec4.Fits c j d.transpose.r3 k.transpose.r3 e.w l.w range

structure Fits (c j d k e l : Mat4 ℕ) (range : ℕ) : Prop where
  r0 : RowFits c.r0 j.r0 d k e.r0 l.r0 range
  r1 : RowFits c.r1 j.r1 d k e.r1 l.r1 range
  r2 : RowFits c.r2 j.r2 d k e.r2 l.r2 range
  r3 : RowFits c.r3 j.r3 d k e.r3 l.r3 range

theorem IsBounded.product {a b : Mat4 α} {c j d k e l : Mat4 ℕ} (left : a.IsBounded c j)
    (right : b.IsBounded d k) (fits : Fits c j d k e l (BinaryScalar.room α)) :
    (a.product b).IsBounded e l := by
  have columns := right.transpose
  have row {r : Vec4 α} {c j e l : Vec4 ℕ} (left : r.IsBounded c j)
      (fits : RowFits c j d k e l (BinaryScalar.room α)) :
      Vec4.IsBounded ⟨r.dot b.transpose.r0, r.dot b.transpose.r1, r.dot b.transpose.r2,
        r.dot b.transpose.r3⟩ e l :=
    ⟨left.dot columns.r0 fits.x, left.dot columns.r1 fits.y, left.dot columns.r2 fits.z,
      left.dot columns.r3 fits.w⟩
  exact ⟨row left.r0 fits.r0, row left.r1 fits.r1, row left.r2 fits.r2, row left.r3 fits.r3⟩

/-- The same number in all entries. -/
def filled (n : ℕ) : Mat4 ℕ := ⟨⟨n, n, n, n⟩, ⟨n, n, n, n⟩, ⟨n, n, n, n⟩, ⟨n, n, n, n⟩⟩

/-- No entry is larger than `2 ^ k`. -/
def AtMost (k : ℕ) (m : Mat4 α) : Prop := m.IsBounded (filled 1) (filled k)

theorem AtMost.product {a b : Mat4 α} (left : a.AtMost j) (right : b.AtMost k)
    (inRange : j + k ≤ BinaryScalar.room α) : (a.product b).AtMost (j + k + 2) := by
  have row : RowFits ⟨1, 1, 1, 1⟩ ⟨j, j, j, j⟩ (filled 1) (filled k) ⟨4, 4, 4, 4⟩
      ⟨j + k, j + k, j + k, j + k⟩ (BinaryScalar.room α) := by
    refine ⟨?_, ?_, ?_, ?_⟩ <;> refine ⟨rfl, ?_, ?_, ?_, ?_, ?_, ?_⟩ <;>
      simp [filled, Mat4.transpose] <;> omega
  have product : (a.product b).IsBounded (filled 4) (filled (j + k)) :=
    IsBounded.product left right ⟨row, row, row, row⟩
  obtain ⟨⟨_, _, _, _⟩, ⟨_, _, _, _⟩, ⟨_, _, _, _⟩, ⟨_, _, _, _⟩⟩ := product
  refine ⟨⟨?_, ?_, ?_, ?_⟩, ⟨?_, ?_, ?_, ?_⟩, ⟨?_, ?_, ?_, ?_⟩, ⟨?_, ?_, ?_, ?_⟩⟩ <;>
    exact AtMost.of_four ‹_›

/-- Scales channels by at most `2 ^ l` and then shifts them by at most `c * 2 ^ o`; there is
nothing else in the matrix. -/
def IsShift (l c o : ℕ) (m : Mat4 α) : Prop :=
  m.IsBounded ⟨⟨1, 0, 0, c⟩, ⟨0, 1, 0, c⟩, ⟨0, 0, 1, c⟩, ⟨0, 0, 0, 1⟩⟩
    ⟨⟨l, 0, 0, o⟩, ⟨0, l, 0, o⟩, ⟨0, 0, l, o⟩, ⟨0, 0, 0, 0⟩⟩

variable {a b : Mat4 α} {n o : ℕ}

theorem IsShift.atMost {c : ℕ} (shift : a.IsShift l c o) (le : l ≤ k) (offsetLe : o ≤ k)
    (few : c ≤ 1) : a.AtMost k := by
  obtain ⟨⟨_, _, _, _⟩, ⟨_, _, _, _⟩, ⟨_, _, _, _⟩, ⟨_, _, _, _⟩⟩ := shift
  refine ⟨⟨?_, ?_, ?_, ?_⟩, ⟨?_, ?_, ?_, ?_⟩, ⟨?_, ?_, ?_, ?_⟩, ⟨?_, ?_, ?_, ?_⟩⟩ <;>
    refine DisplayColor.AtMost.mono ‹_› ?_ ?_ <;> simp [filled] <;> omega

theorem IsShift.product_scaling (shift : a.IsShift l 1 o) (scaling : b.IsShift n 0 0)
    (inRange : l + n + o ≤ BinaryScalar.room α) : (a.product b).IsShift (l + n) 1 o := by
  refine IsBounded.product shift scaling ?_
  refine ⟨?_, ?_, ?_, ?_⟩ <;> refine ⟨?_, ?_, ?_, ?_⟩ <;> refine ⟨rfl, ?_, ?_, ?_, ?_, ?_, ?_⟩ <;>
    simp [Mat4.transpose] <;> omega

theorem IsShift.scaling_product (scaling : a.IsShift l 0 0) (shift : b.IsShift n 1 o)
    (inRange : l + n + o ≤ BinaryScalar.room α) : (a.product b).IsShift (l + n) 1 (l + o) := by
  refine IsBounded.product scaling shift ?_
  refine ⟨?_, ?_, ?_, ?_⟩ <;> refine ⟨?_, ?_, ?_, ?_⟩ <;> refine ⟨rfl, ?_, ?_, ?_, ?_, ?_, ?_⟩ <;>
    simp [Mat4.transpose] <;> omega

theorem isShift_affine {gains offset : Vec3 α} {c : ℕ} (scales : gains.IsBounded (Vec3.splat 1) l)
    (shifts : offset.IsBounded (Vec3.splat c) o) :
    (affine (Mat3.diagonal gains) offset).IsShift l c o := by
  have zero : DisplayColor.AtMost 0 0 (0 : α) := atMost_zero 0
  exact ⟨⟨scales.x, zero, zero, shifts.x⟩, ⟨zero, scales.y, zero, shifts.y⟩,
    ⟨zero, zero, scales.z, shifts.z⟩, ⟨zero, zero, zero, atMost_one⟩⟩

theorem isShift_scaling {gains : Vec3 α} (scales : gains.IsBounded (Vec3.splat 1) l) :
    (scaling gains).IsShift l 0 0 :=
  isShift_affine scales ⟨atMost_zero 0, atMost_zero 0, atMost_zero 0⟩

theorem isShift_uniform {gain : α} (scales : DisplayColor.AtMost 1 l gain) :
    (uniform gain).IsShift l 0 0 := isShift_scaling ⟨scales, scales, scales⟩

theorem isShift_translation {offset : α} (shifts : DisplayColor.AtMost 1 o offset) :
    (translation (Vec3.splat offset)).IsShift 0 1 o :=
  isShift_affine ⟨atMost_one, atMost_one, atMost_one⟩ ⟨shifts, shifts, shifts⟩

theorem atMost_ofLinear {m : Mat3 α} (bounded : m.AtMost k) : (ofLinear m).AtMost k := by
  have zero : DisplayColor.AtMost 1 k (0 : α) := (atMost_zero k).mono (by decide) le_rfl
  have one : DisplayColor.AtMost 1 k (1 : α) := atMost_one.mono le_rfl (Nat.zero_le k)
  exact ⟨⟨bounded.r0.x, bounded.r0.y, bounded.r0.z, zero⟩,
    ⟨bounded.r1.x, bounded.r1.y, bounded.r1.z, zero⟩,
    ⟨bounded.r2.x, bounded.r2.y, bounded.r2.z, zero⟩, ⟨zero, zero, zero, one⟩⟩

theorem AtMost.map {β : Type} [Scalar β] [BinaryScalar β] {f : α → β} {m : Mat4 α}
    (bounded : m.AtMost j)
    (entry : ∀ x, DisplayColor.AtMost 1 j x → DisplayColor.AtMost 1 k (f x)) :
    (m.map f).AtMost k := by
  have row {r : Vec4 α} (bounded : r.IsBounded ⟨1, 1, 1, 1⟩ ⟨j, j, j, j⟩) :
      (r.map f).IsBounded ⟨1, 1, 1, 1⟩ ⟨k, k, k, k⟩ :=
    ⟨entry _ bounded.x, entry _ bounded.y, entry _ bounded.z, entry _ bounded.w⟩
  exact ⟨row bounded.r0, row bounded.r1, row bounded.r2, row bounded.r3⟩

theorem AtMost.mono {m : Mat4 α} (bounded : m.AtMost j) (le : j ≤ k) : m.AtMost k := by
  have same := bounded.map (f := id) fun _ entry => entry.mono le_rfl le
  exact same

theorem AtMost.isFinite {m : Mat4 α} (bounded : m.AtMost k) : m.isFinite := by
  have row {r : Vec4 α} {c k : Vec4 ℕ} (bounded : r.IsBounded c k) : r.isFinite := by
    simp only [Vec4.isFinite, bounded.x.isFinite, bounded.y.isFinite, bounded.z.isFinite,
      bounded.w.isFinite, Bool.and_self]
  simp only [Mat4.isFinite, row bounded.r0, row bounded.r1, row bounded.r2, row bounded.r3,
    Bool.and_self]

theorem AtMost.gains {m : Mat4 α} (bounded : m.AtMost k) : m.gains.IsBounded (Vec3.splat 1) k :=
  ⟨bounded.r0.x, bounded.r1.y, bounded.r2.z⟩

end Mat4

end Products

/-! ## Conversions between the precisions -/

section Conversions

variable {k l c o : ℕ}

theorem Vec3.IsBounded.narrow {v : Vec3 Double} (bounded : v.IsBounded (Vec3.splat 1) k)
    (inRange : k ≤ 127) : (v.narrow : Vec3 Single).IsBounded (Vec3.splat 1) k :=
  ⟨bounded.x.narrow inRange, bounded.y.narrow inRange, bounded.z.narrow inRange⟩

theorem Mat3.AtMost.narrow {m : Mat3 Double} (bounded : m.AtMost k) (inRange : k ≤ 127) :
    (m.narrow : Mat3 Single).AtMost k :=
  ⟨bounded.r0.narrow inRange, bounded.r1.narrow inRange, bounded.r2.narrow inRange⟩

namespace Mat4

theorem AtMost.widen {m : Mat4 Single} (bounded : m.AtMost k) (inRange : k ≤ 1021) :
    (m.widen : Mat4 Double).AtMost k :=
  bounded.map fun _ entry => entry.widen (by decide) inRange

theorem AtMost.narrow {m : Mat4 Double} (bounded : m.AtMost k) (inRange : k ≤ 127) :
    (m.narrow : Mat4 Single).AtMost k :=
  bounded.map fun _ entry => entry.narrow inRange

theorem IsShift.widen {m : Mat4 Single} (shift : m.IsShift l c o) (few : c ≤ 4)
    (inRange : l ≤ 1021 ∧ o ≤ 1021) : (m.widen : Mat4 Double).IsShift l c o := by
  obtain ⟨⟨_, _, _, _⟩, ⟨_, _, _, _⟩, ⟨_, _, _, _⟩, ⟨_, _, _, _⟩⟩ := shift
  refine ⟨⟨?_, ?_, ?_, ?_⟩, ⟨?_, ?_, ?_, ?_⟩, ⟨?_, ?_, ?_, ?_⟩, ⟨?_, ?_, ?_, ?_⟩⟩ <;>
    refine DisplayColor.AtMost.widen ‹_› ?_ ?_ <;> simp <;> omega

/-- The product of two matrices, summed in the wide type. -/
theorem AtMost.mul {a b : Mat4 Single} {j : ℕ} (left : a.AtMost j) (right : b.AtMost k)
    (inRange : j + k + 2 ≤ 127) : (a * b).AtMost (j + k + 2) := by
  have product := (left.widen (by omega)).product (right.widen (by omega)) (by simp; omega)
  exact product.narrow inRange

end Mat4

end Conversions

/-! ## Bounds that can be computed -/

section Computed

variable {α : Type} [Scalar α] [BinaryScalar α] {k : ℕ}

def Vec3.isAtMost (k : ℕ) (v : Vec3 α) : Bool :=
  DisplayColor.isAtMost k v.x && DisplayColor.isAtMost k v.y && DisplayColor.isAtMost k v.z

def Vec3.isAtLeast (k : ℕ) (v : Vec3 α) : Bool :=
  DisplayColor.isAtLeast k v.x && DisplayColor.isAtLeast k v.y && DisplayColor.isAtLeast k v.z

def Mat3.isAtMost (k : ℕ) (m : Mat3 α) : Bool :=
  m.r0.isAtMost k && m.r1.isAtMost k && m.r2.isAtMost k

theorem Vec3.isBounded_of_isAtMost {v : Vec3 α} (check : v.isAtMost k) :
    v.IsBounded (Vec3.splat 1) k := by
  simp only [Vec3.isAtMost, Bool.and_eq_true] at check
  exact ⟨atMost_of_isAtMost check.1.1, atMost_of_isAtMost check.1.2, atMost_of_isAtMost check.2⟩

theorem Vec3.atLeast_of_isAtLeast {v : Vec3 α} (check : v.isAtLeast k) : v.AtLeast k := by
  simp only [Vec3.isAtLeast, Bool.and_eq_true] at check
  exact ⟨DisplayColor.atLeast_of_isAtLeast check.1.1, DisplayColor.atLeast_of_isAtLeast check.1.2,
    DisplayColor.atLeast_of_isAtLeast check.2⟩

theorem Mat3.atMost_of_isAtMost {m : Mat3 α} (check : m.isAtMost k) : m.AtMost k := by
  simp only [Mat3.isAtMost, Bool.and_eq_true] at check
  exact ⟨Vec3.isBounded_of_isAtMost check.1.1, Vec3.isBounded_of_isAtMost check.1.2,
    Vec3.isBounded_of_isAtMost check.2⟩

end Computed

end DisplayColor

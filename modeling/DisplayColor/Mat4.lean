import DisplayColor.Mat3

/-! # Affine colour transforms

A colour is carried as `(r, g, b, 1)`, so one matrix can mix channels and add an offset.  Offsets
come from black point compensation and from linear transfer functions whose darkest level is not
zero.

Over a narrow type, products and images are summed in the wide companion and rounded once, so that
large terms of opposite sign cancel without losing the small remainder. -/

namespace DisplayColor

structure Vec4 (α : Type) where
  x : α
  y : α
  z : α
  w : α
deriving BEq, Repr, Inhabited

namespace Vec4

def map {α β : Type} (f : α → β) (v : Vec4 α) : Vec4 β := ⟨f v.x, f v.y, f v.z, f v.w⟩

def toList {α : Type} (v : Vec4 α) : List α := [v.x, v.y, v.z, v.w]

def zipWith {α β γ : Type} (f : α → β → γ) (v : Vec4 α) (w : Vec4 β) : Vec4 γ :=
  ⟨f v.x w.x, f v.y w.y, f v.z w.z, f v.w w.w⟩

variable {α : Type} [Scalar α]

instance : Add (Vec4 α) := ⟨zipWith (· + ·)⟩
instance : Sub (Vec4 α) := ⟨zipWith (· - ·)⟩
instance : Mul (Vec4 α) := ⟨zipWith (· * ·)⟩

/-- The sum of the products of matching components, added from the first to the last. -/
def dot (v w : Vec4 α) : α := v.x * w.x + v.y * w.y + v.z * w.z + v.w * w.w

/-- No component is infinite or undefined. -/
def isFinite (v : Vec4 α) : Bool :=
  Scalar.isFinite v.x && Scalar.isFinite v.y && Scalar.isFinite v.z && Scalar.isFinite v.w

/-- Component by component at most the tolerance apart. -/
def near (v w : Vec4 α) : Bool :=
  Scalar.near v.x w.x && Scalar.near v.y w.y && Scalar.near v.z w.z && Scalar.near v.w w.w

end Vec4

structure Mat4 (α : Type) where
  r0 : Vec4 α
  r1 : Vec4 α
  r2 : Vec4 α
  r3 : Vec4 α
deriving BEq, Repr, Inhabited

namespace Mat4

def map {α β : Type} (f : α → β) (m : Mat4 α) : Mat4 β :=
  ⟨m.r0.map f, m.r1.map f, m.r2.map f, m.r3.map f⟩

def rows {α : Type} (m : Mat4 α) : List (Vec4 α) := [m.r0, m.r1, m.r2, m.r3]

def transpose {α : Type} (m : Mat4 α) : Mat4 α :=
  ⟨⟨m.r0.x, m.r1.x, m.r2.x, m.r3.x⟩, ⟨m.r0.y, m.r1.y, m.r2.y, m.r3.y⟩,
    ⟨m.r0.z, m.r1.z, m.r2.z, m.r3.z⟩, ⟨m.r0.w, m.r1.w, m.r2.w, m.r3.w⟩⟩

/-- The sixteen entries column by column, the order in which a shader stores a matrix. -/
def columnMajor {α : Type} (m : Mat4 α) : Vector α 16 :=
  #v[m.r0.x, m.r1.x, m.r2.x, m.r3.x, m.r0.y, m.r1.y, m.r2.y, m.r3.y,
    m.r0.z, m.r1.z, m.r2.z, m.r3.z, m.r0.w, m.r1.w, m.r2.w, m.r3.w]

/-- The upper left block, which mixes the channels. -/
def linear {α : Type} (m : Mat4 α) : Mat3 α :=
  ⟨⟨m.r0.x, m.r0.y, m.r0.z⟩, ⟨m.r1.x, m.r1.y, m.r1.z⟩, ⟨m.r2.x, m.r2.y, m.r2.z⟩⟩

def offset {α : Type} (m : Mat4 α) : Vec3 α := ⟨m.r0.w, m.r1.w, m.r2.w⟩

def gains {α : Type} (m : Mat4 α) : Vec3 α := ⟨m.r0.x, m.r1.y, m.r2.z⟩

section Arithmetic

variable {α : Type} [Scalar α]

/-- Mixes by `linear`, then adds `offset`. -/
def affine (linear : Mat3 α) (offset : Vec3 α) : Mat4 α :=
  ⟨⟨linear.r0.x, linear.r0.y, linear.r0.z, offset.x⟩,
    ⟨linear.r1.x, linear.r1.y, linear.r1.z, offset.y⟩,
    ⟨linear.r2.x, linear.r2.y, linear.r2.z, offset.z⟩, ⟨0, 0, 0, 1⟩⟩

def ofLinear (linear : Mat3 α) : Mat4 α := affine linear (Vec3.splat 0)

def identity : Mat4 α := affine Mat3.identity (Vec3.splat 0)

def translation (offset : Vec3 α) : Mat4 α := affine Mat3.identity offset

def scaling (gains : Vec3 α) : Mat4 α := ofLinear (Mat3.diagonal gains)

def uniform (gain : α) : Mat4 α := scaling (Vec3.splat gain)

/-- The product, each entry summed from the first term to the last. -/
def product (a b : Mat4 α) : Mat4 α :=
  let columns := b.transpose
  let row (r : Vec4 α) : Vec4 α :=
    ⟨r.dot columns.r0, r.dot columns.r1, r.dot columns.r2, r.dot columns.r3⟩
  ⟨row a.r0, row a.r1, row a.r2, row a.r3⟩

/-- No entry is infinite or undefined. -/
def isFinite (m : Mat4 α) : Bool :=
  m.r0.isFinite && m.r1.isFinite && m.r2.isFinite && m.r3.isFinite

/-- Entry by entry at most the tolerance apart. -/
def near (a b : Mat4 α) : Bool :=
  a.r0.near b.r0 && a.r1.near b.r1 && a.r2.near b.r2 && a.r3.near b.r3

/-- The identity up to the tolerance, offset included. -/
def isNearIdentity (m : Mat4 α) : Bool := m.near identity

/-- Up to the tolerance there is nothing off the diagonal and the last row is `0 0 0 1`, so the
matrix only scales each channel; the gains may have any size. -/
def isNearScaling (m : Mat4 α) : Bool :=
  Scalar.nearZero m.r0.y && Scalar.nearZero m.r0.z && Scalar.nearZero m.r0.w
    && Scalar.nearZero m.r1.x && Scalar.nearZero m.r1.z && Scalar.nearZero m.r1.w
    && Scalar.nearZero m.r2.x && Scalar.nearZero m.r2.y && Scalar.nearZero m.r2.w
    && Scalar.nearZero m.r3.x && Scalar.nearZero m.r3.y && Scalar.nearZero m.r3.z
    && Scalar.near m.r3.w 1

/-- The image of a colour, computed without widening and with the bottom row left out. -/
def applyDirect (m : Mat4 α) (v : Vec3 α) : Vec3 α :=
  let row (r : Vec4 α) : α := r.x * v.x + r.y * v.y + r.z * v.z + r.w
  ⟨row m.r0, row m.r1, row m.r2⟩

/-- The minors of three rows without one of their columns, in the order of the columns left out,
before signs are given to them. -/
def minors (p q r : Vec4 α) : Vec4 α :=
  let lead (k : Vec4 α) : Vec4 α := ⟨k.y, k.x, k.x, k.x⟩
  let pair (i j : Vec4 α) : Vec4 α :=
    let last := i.z * j.w - i.w * j.z
    ⟨last, last, i.y * j.w - i.w * j.y, i.y * j.z - i.z * j.y⟩
  lead p * pair q r - lead q * pair p r + lead r * pair p q

def adjugate (m : Mat4 α) : Mat4 α :=
  let even (v : Vec4 α) : Vec4 α := ⟨v.x, -v.y, v.z, -v.w⟩
  let odd (v : Vec4 α) : Vec4 α := ⟨-v.x, v.y, -v.z, v.w⟩
  transpose ⟨even (minors m.r1 m.r2 m.r3), odd (minors m.r0 m.r2 m.r3),
    even (minors m.r0 m.r1 m.r3), odd (minors m.r0 m.r1 m.r2)⟩

/-- The determinant, expanded along the first column; the four terms are added crosswise. -/
def determinant (m : Mat4 α) : α :=
  let signed := m.adjugate.r0
  (m.r0.x * signed.x + m.r2.x * signed.z) + (m.r1.x * signed.y + m.r3.x * signed.w)

/-- The inverse, unless the determinant is not a number or too close to zero, or the inverse has an
infinite entry. -/
def inverse? (m : Mat4 α) : Option (Mat4 α) :=
  let determinant := m.determinant
  if !Scalar.isFinite determinant || Scalar.abs determinant < (Mat3.smallestDeterminant : α) then
    none
  else
    let scale := 1 / determinant
    let inverse := m.adjugate.map (· * scale)
    if inverse.isFinite then some inverse else none

end Arithmetic

section Precision

variable {α ω : Type} [Scalar α] [Scalar ω] [Precision α ω]

def widen (m : Mat4 α) : Mat4 ω := m.map Precision.widen

/-- The nearest matrix in the narrower type. -/
def narrow (m : Mat4 ω) : Mat4 α := m.map Precision.narrow

/-- The product, summed in the wide type and rounded once. -/
instance : Mul (Mat4 α) where
  mul a b := (product a.widen b.widen).narrow

/-- The image of a colour, summed in the wide type and rounded once.  The bottom row is taken to be
`0 0 0 1` and not read. -/
def apply (m : Mat4 α) (v : Vec3 α) : Vec3 α := (m.widen.applyDirect v.widen).narrow

end Precision

end Mat4

end DisplayColor

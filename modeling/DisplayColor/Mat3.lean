import DisplayColor.Vec3

/-! # Linear colour transforms

A `Mat3` is held by rows and acts on columns, so `b * a` applies `a` first.

There are two ways to take a determinant, and two inverses that differ only in the one they test:
`inverse?` expands along the first row, `wideInverse?` takes the triple product of the columns.
Both refuse a matrix whose determinant is closer to zero than `smallestDeterminant`, or not a
number, and an inverse with an infinite entry. -/

namespace DisplayColor

structure Mat3 (α : Type) where
  r0 : Vec3 α
  r1 : Vec3 α
  r2 : Vec3 α
deriving BEq, Repr, Inhabited

namespace Mat3

def ofColumns {α : Type} (c0 c1 c2 : Vec3 α) : Mat3 α :=
  ⟨⟨c0.x, c1.x, c2.x⟩, ⟨c0.y, c1.y, c2.y⟩, ⟨c0.z, c1.z, c2.z⟩⟩

def column0 {α : Type} (m : Mat3 α) : Vec3 α := ⟨m.r0.x, m.r1.x, m.r2.x⟩

def column1 {α : Type} (m : Mat3 α) : Vec3 α := ⟨m.r0.y, m.r1.y, m.r2.y⟩

def column2 {α : Type} (m : Mat3 α) : Vec3 α := ⟨m.r0.z, m.r1.z, m.r2.z⟩

def transpose {α : Type} (m : Mat3 α) : Mat3 α := ofColumns m.r0 m.r1 m.r2

def map {α β : Type} (f : α → β) (m : Mat3 α) : Mat3 β := ⟨m.r0.map f, m.r1.map f, m.r2.map f⟩

def rows {α : Type} (m : Mat3 α) : List (Vec3 α) := [m.r0, m.r1, m.r2]

def row? {α : Type} (m : Mat3 α) (i : Nat) : Option (Vec3 α) := m.rows[i]?

section Arithmetic

variable {α : Type} [Scalar α]

/-- The matrix with `d` on its diagonal and zeros elsewhere. -/
def diagonal (d : Vec3 α) : Mat3 α := ⟨⟨d.x, 0, 0⟩, ⟨0, d.y, 0⟩, ⟨0, 0, d.z⟩⟩

def identity : Mat3 α := diagonal (Vec3.splat 1)

def uniform (s : α) : Mat3 α := diagonal (Vec3.splat s)

def apply (m : Mat3 α) (v : Vec3 α) : Vec3 α := ⟨m.r0.dot v, m.r1.dot v, m.r2.dot v⟩

instance : Mul (Mat3 α) where
  mul a b := ofColumns (a.apply b.column0) (a.apply b.column1) (a.apply b.column2)

/-- The determinant, expanded along the first row. -/
def determinant (m : Mat3 α) : α :=
  m.r0.x * (m.r1.y * m.r2.z - m.r1.z * m.r2.y)
    - m.r0.y * (m.r1.x * m.r2.z - m.r1.z * m.r2.x)
    + m.r0.z * (m.r1.x * m.r2.y - m.r1.y * m.r2.x)

/-- The determinant, as the triple product of the columns. -/
def tripleProduct (m : Mat3 α) : α := m.column2.dot (m.column0.cross m.column1)

/-- Determinants closer to zero than this count as zero. -/
def smallestDeterminant : α := 1e-10

/-- No entry is infinite or undefined. -/
def isFinite (m : Mat3 α) : Bool := m.r0.isFinite && m.r1.isFinite && m.r2.isFinite

/-- The vector products of the columns, divided by their triple product, as rows. -/
def quotientInverse (m : Mat3 α) : Mat3 α :=
  let t0 := m.column1.cross m.column2
  let t1 := m.column2.cross m.column0
  let t2 := m.column0.cross m.column1
  let scale := 1 / m.column2.dot t2
  ⟨t0 * scale, t1 * scale, t2 * scale⟩

/-- The inverse, unless `determinant`, one of the determinants of `m`, is not a number or too close
to zero, or the inverse has an infinite entry. -/
def inverseGiven? (determinant : α) (m : Mat3 α) : Option (Mat3 α) :=
  if !Scalar.isFinite determinant || Scalar.abs determinant < smallestDeterminant then none
  else
    let inverse := m.quotientInverse
    if inverse.isFinite then some inverse else none

def inverse? (m : Mat3 α) : Option (Mat3 α) := inverseGiven? m.determinant m

/-- The inverse, tested by the triple product; derived matrices are inverted in the wide type this
way and rounded once. -/
def wideInverse? (m : Mat3 α) : Option (Mat3 α) := inverseGiven? m.tripleProduct m

/-- Entry by entry at most the tolerance apart. -/
def near (a b : Mat3 α) : Bool := a.r0.near b.r0 && a.r1.near b.r1 && a.r2.near b.r2

end Arithmetic

section Precision

variable {α ω : Type} [Precision α ω]

def widen (m : Mat3 α) : Mat3 ω := m.map Precision.widen

/-- The nearest matrix in the narrower type. -/
def narrow (m : Mat3 ω) : Mat3 α := m.map Precision.narrow

end Precision

end Mat3

end DisplayColor

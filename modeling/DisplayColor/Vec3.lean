import DisplayColor.Scalar

/-! # Colour triples

A `Vec3` carries the three components of a colour: red, green and blue, the tristimulus values
X, Y and Z, cone responses, or an intensity with two chroma components. -/

namespace DisplayColor

structure Vec3 (α : Type) where
  x : α
  y : α
  z : α
deriving BEq, Repr, Inhabited

namespace Vec3

def splat {α : Type} (v : α) : Vec3 α := ⟨v, v, v⟩

def map {α β : Type} (f : α → β) (v : Vec3 α) : Vec3 β := ⟨f v.x, f v.y, f v.z⟩

def zipWith {α β γ : Type} (f : α → β → γ) (v : Vec3 α) (w : Vec3 β) : Vec3 γ :=
  ⟨f v.x w.x, f v.y w.y, f v.z w.z⟩

def toList {α : Type} (v : Vec3 α) : List α := [v.x, v.y, v.z]

def get? {α : Type} (v : Vec3 α) : Nat → Option α
  | 0 => some v.x
  | 1 => some v.y
  | 2 => some v.z
  | _ => none

def set? {α : Type} (v : Vec3 α) (i : Nat) (c : α) : Option (Vec3 α) :=
  match i with
  | 0 => some { v with x := c }
  | 1 => some { v with y := c }
  | 2 => some { v with z := c }
  | _ => none

section Arithmetic

variable {α : Type} [Scalar α]

instance : Add (Vec3 α) := ⟨zipWith (· + ·)⟩
instance : Sub (Vec3 α) := ⟨zipWith (· - ·)⟩
instance : Mul (Vec3 α) := ⟨zipWith (· * ·)⟩
instance : Div (Vec3 α) := ⟨zipWith (· / ·)⟩
instance : HMul (Vec3 α) α (Vec3 α) := ⟨fun v s => v.map (· * s)⟩
instance : HDiv (Vec3 α) α (Vec3 α) := ⟨fun v s => v.map (· / s)⟩

/-- The sum of the products of matching components, added from the first to the last. -/
def dot (v w : Vec3 α) : α := v.x * w.x + v.y * w.y + v.z * w.z

def cross (v w : Vec3 α) : Vec3 α :=
  ⟨v.y * w.z - w.y * v.z, v.z * w.x - w.z * v.x, v.x * w.y - w.x * v.y⟩

def lengthSquared (v : Vec3 α) : α := v.dot v

def min (v w : Vec3 α) : Vec3 α := zipWith Scalar.min v w

def max (v w : Vec3 α) : Vec3 α := zipWith Scalar.max v w

def clamp (v lo hi : Vec3 α) : Vec3 α := (v.min hi).max lo

def abs (v : Vec3 α) : Vec3 α := v.map Scalar.abs

def pow (v : Vec3 α) (exponent : α) : Vec3 α := v.map (Scalar.pow · exponent)

def minComponent (v : Vec3 α) : α := Scalar.min (Scalar.min v.x v.y) v.z

def maxComponent (v : Vec3 α) : α := Scalar.max (Scalar.max v.x v.y) v.z

def sum (v : Vec3 α) : α := v.x + v.y + v.z

/-- No component is infinite or undefined. -/
def isFinite (v : Vec3 α) : Bool :=
  Scalar.isFinite v.x && Scalar.isFinite v.y && Scalar.isFinite v.z

/-- Some component is undefined. -/
def isNaN (v : Vec3 α) : Bool :=
  Scalar.isNaN v.x || Scalar.isNaN v.y || Scalar.isNaN v.z

/-- Component by component at most the tolerance apart. -/
def near (v w : Vec3 α) : Bool :=
  Scalar.near v.x w.x && Scalar.near v.y w.y && Scalar.near v.z w.z

/-- Neighbouring components are at most the tolerance apart. -/
def isUniform (v : Vec3 α) : Bool :=
  Scalar.near v.x v.y && Scalar.near v.y v.z

end Arithmetic

section Precision

variable {α ω : Type} [Precision α ω]

def widen (v : Vec3 α) : Vec3 ω := v.map Precision.widen

/-- The nearest triple in the narrower type. -/
def narrow (v : Vec3 ω) : Vec3 α := v.map Precision.narrow

end Precision

end Vec3

end DisplayColor

/-! # Scalars

Everything in this library that computes is written over a type of numbers `α` with the operations
of `Scalar`, and where a sum is carried in higher precision, over a companion type `ω` that
`Precision` ties to it.

Two readings matter.  Over `Single`, with `Double` as its companion, the definitions run: every
operation rounds once, so the order in which a formula is written is part of its meaning and is
never changed here.  Over the real numbers, where widening and narrowing do nothing, the same
definitions say what the rounded results approximate.

Comparisons are `LT` and `LE` with decision procedures, so that a branch reads as a proposition;
`==` is the comparison of values, which for floating-point numbers is not reflexive. -/

namespace DisplayColor

/-- The operations that a type of numbers needs to carry a colour computation. -/
class Scalar (α : Type) extends Add α, Sub α, Mul α, Div α, Neg α, LT α, LE α, BEq α,
    OfScientific α where
  ofNat : Nat → α
  decidableLT : DecidableLT α
  decidableLE : DecidableLE α
  /-- Neither infinite nor undefined. -/
  isFinite : α → Bool
  /-- Undefined: the result of an operation without a value. -/
  isNaN : α → Bool
  /-- Carries a minus sign; a negative zero does. -/
  isMinus : α → Bool
  abs : α → α
  sqrt : α → α
  exp : α → α
  log : α → α
  pow : α → α → α
  /-- The whole part, with everything below zero and the undefined value sent to `0`, and at most
  `2 ^ 64 - 1`. -/
  wholePart : α → Nat
  euler : α

attribute [reducible, instance] Scalar.decidableLT Scalar.decidableLE

instance (priority := low) {α : Type} [Scalar α] (n : Nat) : OfNat α n := ⟨Scalar.ofNat n⟩

/-- A narrow number type with a wider companion in which long sums are carried. -/
class Precision (α : Type) (ω : outParam Type) where
  widen : α → ω
  /-- The nearest value in the narrower type. -/
  narrow : ω → α

export Precision (widen narrow)

namespace Scalar

variable {α : Type} [Scalar α]

/-- The smaller of two numbers; an undefined one gives way to the other, and of two equal ones the
first is taken. -/
def min (a b : α) : α :=
  if isNaN a then b else if b < a then b else a

/-- The larger of two numbers; an undefined one gives way to the other, and of two equal ones the
first is taken. -/
def max (a b : α) : α :=
  if isNaN a then b else if a < b then b else a

/-- Moves `x` into `[lo, hi]`; an undefined `x` stays undefined. -/
def clamp (x lo hi : α) : α :=
  let raised := if x < lo then lo else x
  if hi < raised then hi else raised

def signum (x : α) : α :=
  if isNaN x then x else if isMinus x then -1 else 1

/-- Moves `x` into `[0, 1]`; the undefined value becomes `0`. -/
def saturate (x : α) : α :=
  if isNaN x then 0 else clamp x 0 1

/-- The point at parameter `t` on the line that is `a` at `0` and `b` at `1`. -/
def lerp (a b t : α) : α :=
  a + (b - a) * t

/-- The nearest natural number, with halves rounded up; everything below zero and the undefined
value give `0`. -/
def nearestNat (x : α) : Nat :=
  let whole := wholePart x
  if (0.5 : α) ≤ x - ofNat whole then whole + 1 else whole

/-! ## Comparison up to a tolerance

Fusing a pipeline multiplies many matrices, and the products carry rounding noise that must still be
recognised as an identity, a diagonal or another value.  Every such test of the library uses the one
tolerance below.  A comparison with the undefined value always fails. -/

/-- How far two numbers may differ and still count as the same. -/
def tolerance : α := 1e-5

/-- At most the tolerance apart. -/
def near (a b : α) : Bool :=
  abs (a - b) ≤ (tolerance : α)

/-- At most the tolerance away from zero. -/
def nearZero (x : α) : Bool :=
  abs x ≤ (tolerance : α)

/-- At most `relative` times the larger magnitude apart, or within the absolute tolerance, which
keeps numbers close to zero comparable. -/
def nearRelative (a b relative : α) : Bool :=
  let gap := abs (a - b)
  gap ≤ (tolerance : α) || gap ≤ relative * max (abs a) (abs b)

end Scalar

end DisplayColor

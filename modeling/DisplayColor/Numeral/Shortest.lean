/-! # Shortest decimals

Of all decimals that read back as a given binary floating-point number, the one with the fewest
digits is written, and of several the nearest.  The search is carried out in exact whole-number
arithmetic on the number's mantissa and exponent: the decimals with a given last place form a grid,
and the grids are tried from coarse to fine.  A grid has a point that reads back exactly when one of
the value's two neighbours on it does. -/

namespace DisplayColor.Numeral

open Float.Model (Format UnpackedFloat)

/-- The number `digits * 10 ^ exponent`. -/
structure Decimal where
  digits : Nat
  exponent : Int
deriving BEq, Repr

/-- What is done with a value halfway between two decimals of the same length. -/
inductive Halfway
  | up
  | even
deriving BEq, Repr

/-- A positive number `value * unit`, with the bounds of the interval of numbers that read back as
it, all in units of `2 ^ exponent`.  The bounds themselves belong to the interval when `closed`. -/
structure Interval where
  low : Nat
  value : Nat
  high : Nat
  exponent : Int
  closed : Bool

/-- The numbers that round to `mantissa * 2 ^ exponent`.  The gap below a power of two is half as
wide as the one above it, unless the number is among the smallest of the format. -/
def interval (format : Format) (mantissa : Nat) (exponent : Int) : Interval where
  -- Everything is in quarters of the last place, so that the bounds are whole numbers.
  low :=
    if mantissa = Nat.pow 2 format.mantissaBitsWithoutImplicit ∧ format.minExponent < exponent
    then 4 * mantissa - 1
    else 4 * mantissa - 2
  value := 4 * mantissa
  high := 4 * mantissa + 2
  exponent := exponent - 2
  closed := mantissa % 2 = 0

/-- The nearer of the value's neighbours on the grid of multiples of `10 ^ place`, among those that
lie in the interval. -/
def Interval.onGrid? (range : Interval) (halfway : Halfway) (place : Int) : Option Decimal :=
  -- Both sides of a comparison are multiplied by the powers that the other one is divided by.
  let unit := Nat.pow 2 range.exponent.toNat * Nat.pow 10 (-place).toNat
  let step := Nat.pow 2 (-range.exponent).toNat * Nat.pow 10 place.toNat
  let below := range.value * unit / step
  let above := below + 1
  let fitsBelow :=
    if range.closed then range.low * unit ≤ below * step else range.low * unit < below * step
  let fitsAbove :=
    if range.closed then above * step ≤ range.high * unit else above * step < range.high * unit
  let gapBelow := range.value * unit - below * step
  let gapAbove := above * step - range.value * unit
  let takeAbove : Bool :=
    fitsAbove && (!fitsBelow || gapAbove < gapBelow
      || gapAbove = gapBelow && (halfway == .up || below % 2 = 1))
  if takeAbove then some ⟨above, place⟩
  else if fitsBelow then some ⟨below, place⟩
  else none

/-- An upper bound for the decimal exponent of `mantissa * 2 ^ exponent`: three tenths of its binary
exponent, rounded up. -/
def decimalMagnitude (mantissa : Nat) (exponent : Int) : Int :=
  ((mantissa.log2 : Int) + 1 + exponent) * 30103 / 100000 + 1

/-- The number of grids that are tried.  From the bound on the magnitude down to a step no longer
than the gap below a power of two there are at most 19 in double precision and 10 in single
precision. -/
def gridCount : Nat := 19

def exactDecimal (mantissa : Nat) (exponent : Int) : Decimal where
  digits := mantissa * Nat.pow 2 exponent.toNat * Nat.pow 5 (-exponent).toNat
  exponent := min exponent 0

/-- The shortest decimal that reads back as `mantissa * 2 ^ exponent` in the format: the first one
on the grids from coarse to fine.  A number that all grids miss, of which the two formats have none,
is written out in full. -/
def shortest (format : Format) (halfway : Halfway) (mantissa : Nat) (exponent : Int) : Decimal :=
  let range := interval format mantissa exponent
  let top := decimalMagnitude mantissa exponent
  let hit := (List.range gridCount).findSome? fun n : Nat => range.onGrid? halfway (top - n)
  hit.getD (exactDecimal mantissa exponent)

end DisplayColor.Numeral

import DisplayColor.Scalar.Binary

/-! # Fixed places

A number written with a fixed count of decimals is its exact binary value, rounded to that many
places; a value halfway between two of them goes to the even one.  A minus sign is kept even when
all digits are zero. -/

namespace DisplayColor.Numeral

open Float.Model (UnpackedFloat)

/-- The whole number nearest to `numerator / denominator`, with halves to the even one. -/
def divideToEven (numerator denominator : Nat) : Nat :=
  let quotient := numerator / denominator
  let twice := 2 * (numerator % denominator)
  if twice < denominator ∨ twice = denominator ∧ quotient % 2 = 0 then quotient else quotient + 1

/-- The digits of `units * 10 ^ -places` with the point in place. -/
def placed (places units : Nat) : String :=
  let unit := Nat.pow 10 places
  let fraction := toString (units % unit)
  toString (units / unit) ++ "." ++ "".pushn '0' (places - fraction.length) ++ fraction

def fixedPlaces (places : Nat) : UnpackedFloat → String
  | .notANumber => "NaN"
  | .infinity .negative => "-inf"
  | .infinity .positive => "inf"
  | .zero sign => signed sign 0
  | .finite sign mantissa exponent _ =>
    -- One of the two powers of two is always one.
    signed sign (divideToEven (mantissa * Nat.pow 2 exponent.toNat * Nat.pow 10 places)
      (Nat.pow 2 (-exponent).toNat))
where
  signed (sign : UnpackedFloat.Sign) (units : Nat) : String :=
    (match sign with | .negative => "-" | .positive => "") ++ placed places units

end DisplayColor.Numeral

namespace DisplayColor

def writeFixed (places : Nat) (x : Single) : String :=
  Numeral.fixedPlaces places x.value.toModel.unpack

end DisplayColor

import DisplayColor.Numeral.Shortest
import DisplayColor.Scalar.Binary

/-! # Written numbers

How a floating-point number is written, once its shortest digits are known: where the point goes,
when an exponent is used instead, and what stands for the values that have no digits. -/

namespace DisplayColor

open Float.Model (Format UnpackedFloat)

/-- The decisions of one way of writing numbers. -/
structure Numeral.Layout where
  /-- Whether a number whose digits start `p` places before the point is written with a point rather
  than an exponent. -/
  positional : Int → Bool
  whole : String
  /-- What stands for the undefined value. -/
  undefined : String
  infinity : String
  /-- How a value halfway between two shortest decimals is rounded. -/
  halfway : Numeral.Halfway

namespace Numeral

/-- Numbers in text and answers: always with the point in place, and no fraction when whole. -/
def Layout.plain : Layout where
  positional _ := true
  whole := ""
  undefined := "NaN"
  infinity := "inf"
  halfway := .up

/-- Numbers in structural listings: at least one decimal, and an exponent below `10 ^ -4` and from
`10 ^ 16` on. -/
def Layout.structural : Layout where
  positional p := -3 ≤ p ∧ p ≤ 16
  whole := ".0"
  undefined := "NaN"
  infinity := "inf"
  halfway := .up

def Layout.document : Layout where
  positional p := -5 ≤ p ∧ p ≤ 13
  whole := ".0"
  undefined := ".nan"
  infinity := ".inf"
  halfway := .even

def Decimal.withPoint (d : Decimal) (whole : String) : String :=
  let digits := toString d.digits
  let point := (digits.length : Int) + d.exponent
  let zeros (n : Int) : String := "".pushn '0' n.toNat
  if 0 ≤ d.exponent then digits ++ zeros d.exponent ++ whole
  else if 0 < point then
    String.ofList (digits.toList.take point.toNat) ++ "."
      ++ String.ofList (digits.toList.drop point.toNat)
  else "0." ++ zeros (-point) ++ digits

/-- The digits of `d` with the point after the first and an exponent. -/
def Decimal.withExponent (d : Decimal) : String :=
  let digits := (toString d.digits).toList
  let exponent := (digits.length : Int) + d.exponent - 1
  let fraction := digits.drop 1
  String.ofList (digits.take 1)
    ++ (if fraction.isEmpty then "" else "." ++ String.ofList fraction)
    ++ "e" ++ toString exponent

def Layout.write (layout : Layout) (format : Format) : UnpackedFloat → String
  | .notANumber => layout.undefined
  | .infinity sign => signed sign layout.infinity
  | .zero sign => signed sign ("0" ++ layout.whole)
  | .finite sign mantissa exponent _ =>
    let d := shortest format layout.halfway mantissa exponent
    let point := ((toString d.digits).length : Int) + d.exponent
    signed sign (if layout.positional point then d.withPoint layout.whole else d.withExponent)
where
  signed : UnpackedFloat.Sign → String → String
    | .negative, text => "-" ++ text
    | .positive, text => text

end Numeral

def writeSingle (layout : Numeral.Layout) (x : Single) : String :=
  layout.write .binary32 x.value.toModel.unpack

def writeDouble (layout : Numeral.Layout) (x : Double) : String :=
  layout.write .binary64 x.value.toModel.unpack

def plainText (x : Single) : String := writeSingle .plain x

end DisplayColor

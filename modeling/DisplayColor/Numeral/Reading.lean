import DisplayColor.Scalar.Binary

/-! # Reading numbers

Decimal numbers as they are typed: an optional sign, digits with an optional point and at least one
digit in all, and an optional exponent; or the words for infinity and the undefined value, in any
case of letters.  A decimal is rounded once, to the nearest number of the format. -/

namespace DisplayColor.Numeral

/-- A number taken from text, before it is rounded to a format. -/
inductive Token
  /-- `digits * 10 ^ exponent`. -/
  | decimal (minus : Bool) (digits : Nat) (exponent : Int)
  | infinity (minus : Bool)
  | undefined
deriving BEq, Repr

/-- The number that a run of decimal digits stands for, leading digits first. -/
def digitsValue (digits : List Char) : Nat :=
  digits.foldl (fun value c => 10 * value + (c.toNat - '0'.toNat)) 0

def splitSign : List Char → Bool × List Char
  | '-' :: rest => (true, rest)
  | '+' :: rest => (false, rest)
  | rest => (false, rest)

/-- The value of an exponent part: nothing, or the letter `e`, an optional sign and at least one
digit. -/
def exponentPart? : List Char → Option Int
  | [] => some 0
  | mark :: rest =>
    let (minus, digits) := splitSign rest
    if (mark = 'e' ∨ mark = 'E') ∧ ¬ digits.isEmpty ∧ digits.all Char.isDigit then
      some (if minus then -(digitsValue digits : Int) else digitsValue digits)
    else none

def decimal? (minus : Bool) (text : List Char) : Option Token :=
  let whole := text.takeWhile Char.isDigit
  let afterWhole := text.dropWhile Char.isDigit
  let (fraction, rest) :=
    match afterWhole with
    | '.' :: tail => (tail.takeWhile Char.isDigit, tail.dropWhile Char.isDigit)
    | _ => ([], afterWhole)
  if whole.isEmpty ∧ fraction.isEmpty then none
  else
    -- Digits after the point are digits like all others, each one place lower.
    (exponentPart? rest).map fun exponent =>
      .decimal minus (digitsValue (whole ++ fraction)) (exponent - fraction.length)

def token? (text : String) : Option Token :=
  let (minus, unsigned) := splitSign text.toList
  let word := unsigned.map Char.toLower
  if word = "inf".toList ∨ word = "infinity".toList then some (.infinity minus)
  else if word = "nan".toList then some .undefined
  else decimal? minus unsigned

/-- Beyond this decimal magnitude every number is infinite in both formats, and below its negative
every number is zero. -/
def extremeMagnitude : Int := 400

/-- Whether a decimal is certainly zero or infinite, decided on its magnitude alone, so that a large
exponent is never multiplied out. -/
def extreme? (digits : Nat) (exponent : Int) : Option Bool :=
  let magnitude := ((toString digits).length : Int) + exponent
  if digits = 0 ∨ magnitude < -extremeMagnitude then some false
  else if extremeMagnitude < magnitude then some true
  else none

def Token.toSingle : Token → Single
  | .undefined => .undefined
  | .infinity minus => if minus then -(1 / 0) else 1 / 0
  | .decimal minus digits exponent =>
    let magnitude : Single :=
      match extreme? digits exponent with
      | some infinite => if infinite then 1 / 0 else 0
      | none => OfScientific.ofScientific digits (exponent < 0) exponent.natAbs
    if minus then -magnitude else magnitude

def Token.toDouble : Token → Double
  | .undefined => .undefined
  | .infinity minus => if minus then -(1 / 0) else 1 / 0
  | .decimal minus digits exponent =>
    let magnitude : Double :=
      match extreme? digits exponent with
      | some infinite => if infinite then 1 / 0 else 0
      | none => OfScientific.ofScientific digits (exponent < 0) exponent.natAbs
    if minus then -magnitude else magnitude

def readSingle? (text : String) : Option Single := (token? text).map Token.toSingle

def readDouble? (text : String) : Option Double := (token? text).map Token.toDouble

end DisplayColor.Numeral

import DisplayColor.Scalar

/-! # Binary floating point

The numbers of single and of double precision, kept as their bits, and double precision as the wide
companion of single precision.  A number is computed with through the `Float32` or `Float` that has
its bits, so every operation rounds once.

Only the undefined numbers need their bits.  There are many of them, no comparison or listing tells
them apart, and yet an upload carries each one as it was given.  An operation without a value gives
the first of its operands that is undefined, made quiet, and `invalid` when all of them have a
value.  A change of sign touches nothing but the sign.

The conversions are stated on the logical model of the two formats, so that, like the four
operations, they can be evaluated inside a proof: a value is unpacked, rounded to the other format
and packed again.  Widening is exact, because every number of the narrow format is one of the wide
format, and an undefined number keeps its sign and the leading bits of its fraction both ways. -/

namespace DisplayColor

open Float.Model (Format UnpackedFloat)

structure Single where
  bits : UInt32
deriving Repr, Inhabited

namespace Single

/-- The value, which all undefined numbers share. -/
def value (x : Single) : Float32 := .ofBits x.bits

/-- The undefined number that text stands for. -/
def undefined : Single := ⟨0x7fc00000⟩

/-- The undefined number that operands with a value give. -/
def invalid : Single := ⟨0xffc00000⟩

/-- An undefined number with the bit set that lets it pass through operations. -/
def quiet (x : Single) : Single := ⟨x.bits ||| 0x00400000⟩

@[inline] def computed (operands : List Single) (value : Float32) : Single :=
  if value.isNaN then ((operands.find? (·.value.isNaN)).map quiet).getD invalid
  else ⟨value.toBits⟩

end Single

instance : Scalar Single where
  add a b := .computed [a, b] (a.value + b.value)
  sub a b := .computed [a, b] (a.value - b.value)
  mul a b := .computed [a, b] (a.value * b.value)
  div a b := .computed [a, b] (a.value / b.value)
  neg x := ⟨x.bits ^^^ 0x80000000⟩
  lt a b := a.value < b.value
  le a b := a.value ≤ b.value
  beq a b := a.value == b.value
  ofScientific digits negative exponent := .computed [] (.ofScientific digits negative exponent)
  ofNat n := .computed [] (.ofNat n)
  decidableLT a b := inferInstanceAs (Decidable (a.value < b.value))
  decidableLE a b := inferInstanceAs (Decidable (a.value ≤ b.value))
  isFinite x := x.value.isFinite
  isNaN x := x.value.isNaN
  isMinus x := x.bits >>> 31 != 0
  abs x := ⟨x.bits &&& 0x7fffffff⟩
  sqrt x := .computed [x] x.value.sqrt
  exp x := .computed [x] x.value.exp
  log x := .computed [x] x.value.log
  pow a b := .computed [a, b] (a.value.pow b.value)
  wholePart x := x.value.toUInt64.toNat
  euler := .computed [] 2.71828182845904523536

structure Double where
  bits : UInt64
deriving Repr, Inhabited

namespace Double

/-- The value, which all undefined numbers share. -/
def value (x : Double) : Float := .ofBits x.bits

/-- The undefined number that text stands for. -/
def undefined : Double := ⟨0x7ff8000000000000⟩

/-- The undefined number that operands with a value give. -/
def invalid : Double := ⟨0xfff8000000000000⟩

/-- An undefined number with the bit set that lets it pass through operations. -/
def quiet (x : Double) : Double := ⟨x.bits ||| 0x0008000000000000⟩

@[inline] def computed (operands : List Double) (value : Float) : Double :=
  if value.isNaN then ((operands.find? (·.value.isNaN)).map quiet).getD invalid
  else ⟨value.toBits⟩

end Double

instance : Scalar Double where
  add a b := .computed [a, b] (a.value + b.value)
  sub a b := .computed [a, b] (a.value - b.value)
  mul a b := .computed [a, b] (a.value * b.value)
  div a b := .computed [a, b] (a.value / b.value)
  neg x := ⟨x.bits ^^^ 0x8000000000000000⟩
  lt a b := a.value < b.value
  le a b := a.value ≤ b.value
  beq a b := a.value == b.value
  ofScientific digits negative exponent := .computed [] (.ofScientific digits negative exponent)
  ofNat n := .computed [] (.ofNat n)
  decidableLT a b := inferInstanceAs (Decidable (a.value < b.value))
  decidableLE a b := inferInstanceAs (Decidable (a.value ≤ b.value))
  isFinite x := x.value.isFinite
  isNaN x := x.value.isNaN
  isMinus x := x.bits >>> 63 != 0
  abs x := ⟨x.bits &&& 0x7fffffffffffffff⟩
  sqrt x := .computed [x] x.value.sqrt
  exp x := .computed [x] x.value.exp
  log x := .computed [x] x.value.log
  pow a b := .computed [a, b] (a.value.pow b.value)
  wholePart x := x.value.toUInt64.toNat
  euler := .computed [] 2.71828182845904523536

/-- Rounds an unpacked number to a format; the special values have no digits to round. -/
def roundTo (format : Format) : UnpackedFloat → UnpackedFloat
  | .finite sign mantissa exponent _ => UnpackedFloat.round format sign mantissa exponent
  | special => special

/-- The double precision number with the value of one of single precision. -/
def Single.widen (x : Single) : Double :=
  let sign : UInt64 := (x.bits >>> 31).toUInt64 <<< 63
  let fraction : UInt64 := (x.bits &&& 0x007fffff).toUInt64 <<< 29
  if x.value.isNaN then ⟨sign ||| fraction ||| Double.undefined.bits⟩
  else ⟨(Float.ofModel (.pack (roundTo .binary64 x.value.toModel.unpack))).toBits⟩

/-- The single precision number nearest to one of double precision. -/
def Double.narrow (x : Double) : Single :=
  let sign : UInt32 := (x.bits >>> 63).toUInt32 <<< 31
  let fraction : UInt32 := (x.bits >>> 29).toUInt32 &&& 0x007fffff
  if x.value.isNaN then ⟨sign ||| fraction ||| Single.undefined.bits⟩
  else ⟨(Float32.ofModel (.pack (roundTo .binary32 x.value.toModel.unpack))).toBits⟩

instance : Precision Single Double := ⟨Single.widen, Double.narrow⟩

end DisplayColor

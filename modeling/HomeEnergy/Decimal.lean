import HomeEnergy.Scalar.Double

/-!
# Decimal texts of floating-point numbers

A finite double is an exact fraction (`FloatValue.ofDouble`). Its text with a fixed number of places is that
fraction rounded to the nearest multiple of the last place, a half to the even neighbour
(`fixedPlaces`); its scientific digits are the leading digits of the fraction, rounded in the same way
(`scientificDigits`).
-/

namespace HomeEnergy

inductive FloatValue where
  | undefined
  | infinite (negative : Bool)
  -- the sign is there for zero, too
  | finite (negative : Bool) (numerator denominator : Nat)
deriving DecidableEq, Repr

/-- The value of the bits of a double: a sign, eleven bits of exponent and 52 bits of fraction. -/
def FloatValue.ofBits (bits : UInt64) : FloatValue :=
  let negative := bits >>> 63 != 0
  let exponent := ((bits >>> 52) &&& 0x7ff).toNat
  let fraction := (bits &&& 0xfffffffffffff).toNat
  if exponent = 0x7ff then
    if fraction = 0 then .infinite negative else .undefined
  else
    let mantissa := if exponent = 0 then fraction else 4503599627370496 + fraction
    let scale := Nat.max exponent 1
    if 1075 ≤ scale then .finite negative (mantissa <<< (scale - 1075)) 1
    else .finite negative mantissa (1 <<< (1075 - scale))

def FloatValue.ofDouble (x : Double) : FloatValue :=
  ofBits x.bits

/-- The whole number nearest to a fraction, of two equally near ones the even one. -/
def roundHalfEven (numerator denominator : Nat) : Nat :=
  let q := numerator / denominator
  let r := numerator % denominator
  if 2 * r < denominator then q
  else if denominator < 2 * r then q + 1
  else if q % 2 = 0 then q else q + 1

namespace Decimal

def tenPow (n : Nat) : Nat := Nat.pow 10 n

def paddedDigits (length n : Nat) : List Char :=
  let digits := Nat.toDigits 10 n
  List.replicate (length - digits.length) '0' ++ digits

/-- The text of `units` times the last of `places` decimal places. -/
def pointText (places units : Nat) : List Char :=
  let whole := Nat.toDigits 10 (units / tenPow places)
  if places = 0 then whole else whole ++ '.' :: paddedDigits places (units % tenPow places)

/-- The text of a double with a fixed number of places. A negative number keeps its sign when it
rounds to zero. -/
def fixedPlaces (places : Nat) (x : Double) : String :=
  match FloatValue.ofDouble x with
  | .undefined => "NaN"
  | .infinite negative => if negative then "-inf" else "inf"
  | .finite negative numerator denominator =>
    let units := roundHalfEven (numerator * tenPow places) denominator
    let text := String.ofList (pointText places units)
    if negative then "-" ++ text else text

/-- The least number of steps from `i` on after which a positive fraction below one, shifted that many
places to the left, is at least one. A double needs less than 400 places. -/
def leadingPlace (numerator denominator : Nat) : Nat → Nat → Nat
  | 0, i => i
  | fuel + 1, i =>
    if denominator ≤ numerator * tenPow i then i
    else leadingPlace numerator denominator fuel (i + 1)

/-- The first `count` significant digits of a positive fraction as a number, and the power of ten of
the first one. -/
def scientificDigits (count numerator denominator : Nat) : Nat × Int :=
  let exponent : Int :=
    if denominator ≤ numerator then
      ((Nat.toDigits 10 (numerator / denominator)).length : Int) - 1
    else -(leadingPlace numerator denominator 400 1 : Int)
  let shift := (count : Int) - 1 - exponent
  let digits :=
    if 0 ≤ shift then roundHalfEven (numerator * tenPow shift.toNat) denominator
    else roundHalfEven numerator (denominator * tenPow (-shift).toNat)
  if digits = tenPow count then (tenPow (count - 1), exponent + 1) else (digits, exponent)

/-- The double nearest to `mantissa * 10 ^ exponent`. A number with so many digits before the point that
no double reaches it is infinite, and one that starts that far behind the point is zero. -/
def nearest (mantissa : Nat) (exponent : Int) : Double :=
  if mantissa = 0 then 0
  else
    let magnitude : Int := exponent + (Nat.toDigits 10 mantissa).length
    if 400 < magnitude then Scalar.infinity
    else if magnitude < -400 then 0
    else if 0 ≤ exponent then .number (Float.ofScientific mantissa false exponent.toNat)
    else .number (Float.ofScientific mantissa true (-exponent).toNat)

end Decimal

end HomeEnergy

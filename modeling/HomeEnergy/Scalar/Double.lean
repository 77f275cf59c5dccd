import HomeEnergy.Scalar

/-!
# Double-precision numbers

The numbers that the program computes with. Defined numbers follow the arithmetic of `Float`. An undefined
number has a sign, which nothing but the total order shows:

* an operation on defined numbers without a result gives the negative undefined number;
* an operation with an undefined operand gives that operand, of two such operands the first;
* negation changes the sign.

In the total order the negative undefined number comes first and the positive one last.
-/

namespace HomeEnergy

/-- A double-precision number, or an undefined one with its sign. -/
inductive Double where
  -- finite, a zero with its sign, or infinite
  | number (x : Float)
  | undefined (negative : Bool)
deriving Repr

namespace Double

@[inline] def ofFloat (x : Float) : Double :=
  if x.isNaN then undefined true else number x

@[inline] def lift (f : Float → Float) : Double → Double
  | number x => ofFloat (f x)
  | undefined negative => undefined negative

@[inline] def lift₂ (f : Float → Float → Float) : Double → Double → Double
  | undefined negative, _ => undefined negative
  | number _, undefined negative => undefined negative
  | number x, number y => ofFloat (f x y)

@[inline] def neg : Double → Double
  | number x => number (-x)
  | undefined negative => undefined (!negative)

/-- A test of two numbers, false of an undefined one. -/
@[inline] def test (p : Float → Float → Bool) : Double → Double → Bool
  | number x, number y => p x y
  | _, _ => false

def bits : Double → UInt64
  | number x => x.toBits
  | undefined negative => if negative then 0xfff8000000000000 else 0x7ff8000000000000

/-- The place in the total order: negative undefined, negative, zeros by sign, positive, positive
undefined. The bits below the sign grow with the magnitude, so that flipping them for negative numbers makes
the order of signed words the order of values. -/
def rank (x : Double) : Int64 :=
  if x.bits >>> 63 = 0 then x.bits.toInt64 else (x.bits ^^^ 0x7fffffffffffffff).toInt64

instance : Transcendental Double where
  add := lift₂ (· + ·)
  sub := lift₂ (· - ·)
  mul := lift₂ (· * ·)
  div := lift₂ (· / ·)
  neg := neg
  ofScientific mantissa negative exponent := number (OfScientific.ofScientific mantissa negative exponent)
  lt x y := test (fun a b => decide (a < b)) x y = true
  le x y := test (fun a b => decide (a ≤ b)) x y = true
  beq := test (· == ·)
  ofNat n := number (Float.ofNat n)
  toNat
    | number x => x.toUInt64.toNat
    | undefined _ => 0
  floor := lift Float.floor
  isNaN
    | number _ => false
    | undefined _ => true
  isFinite
    | number x => x.isFinite
    | undefined _ => false
  totalOrder x y := compare x.rank y.rank
  infinity := number (1.0 / 0.0)
  decLt _ _ := inferInstanceAs (Decidable (_ = true))
  decLe _ _ := inferInstanceAs (Decidable (_ = true))
  pi := number 3.141592653589793
  sqrt := lift Float.sqrt
  ln := lift Float.log
  sin := lift Float.sin
  cos := lift Float.cos
  tan := lift Float.tan
  acos := lift Float.acos

end Double

end HomeEnergy

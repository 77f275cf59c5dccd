/-!
# Numbers the simulation computes with

Every device, grid and cost rule is written once, over any type with the operations of `Scalar`.
The program runs on double-precision numbers (`Scalar.Double`); the same definitions over the rationals
(`Scalar.Rational`) are the exact arithmetic that conservation and bound statements speak about.

* `Scalar` holds the four operations, literals, the order tests and the conversions to whole numbers.
* `Transcendental` adds the functions that daily profiles and normal noise need.
* `Scalar.max`, `Scalar.min`, `Scalar.clamp` and `Scalar.positivePart` say once how an undefined
  number (a NaN) and equal operands are treated.
-/

namespace HomeEnergy

/-- A number type: arithmetic, literals, decidable order tests and conversions to whole numbers.
No law is assumed, so a statement over every `Scalar` holds for rounded arithmetic as well. -/
class Scalar (α : Type) extends Add α, Sub α, Mul α, Div α, Neg α, OfScientific α, LT α, LE α,
    BEq α where
  ofNat : Nat → α
  -- the whole part; zero for a negative or undefined number
  toNat : α → Nat
  floor : α → α
  isNaN : α → Bool
  isFinite : α → Bool
  -- a linear order of all values, undefined numbers and both zeros included
  totalOrder : α → α → Ordering
  -- the cost of something that is missing: not below any other cost
  infinity : α
  decLt : DecidableLT α
  decLe : DecidableLE α

/-- A number type with the functions that periodic profiles and normal noise are made of. -/
class Transcendental (α : Type) extends Scalar α where
  pi : α
  sqrt : α → α
  ln : α → α
  sin : α → α
  cos : α → α
  tan : α → α
  acos : α → α

namespace Scalar

variable {α : Type} [Scalar α]

instance : DecidableLT α := Scalar.decLt

instance : DecidableLE α := Scalar.decLe

instance (priority := low) (n : Nat) : OfNat α n := ⟨Scalar.ofNat n⟩

instance (priority := low) : Inhabited α := ⟨0⟩

/-- The larger operand. An undefined operand gives way to the other one, and of two equal operands,
such as the two zeros, the second stays. -/
@[inline] def max (a b : α) : α :=
  if isNaN b then a else if b < a then a else b

/-- The smaller operand. An undefined operand gives way to the other one, and of two equal operands,
such as the two zeros, the second stays. -/
@[inline] def min (a b : α) : α :=
  if isNaN b then a else if a < b then a else b

/-- The argument if it is above zero, else zero. An undefined number counts as zero. -/
@[inline] def positivePart (x : α) : α :=
  if 0 < x then x else 0

/-- The argument moved into `[lo, hi]`; an undefined number stays undefined. -/
@[inline] def clamp (lo hi x : α) : α :=
  let y := if x < lo then lo else x
  if hi < y then hi else y

/-- The nearest whole number, halves upwards. -/
@[inline] def roundHalfUp (x : α) : α :=
  floor (x + 0.5)

/-- The sum of a series in its order. The empty sum is the zero that is neutral for every addend,
the negative one. -/
@[inline] def sum (xs : List α) : α :=
  xs.foldl (fun acc x => acc + x) (-(0 : α))

@[inline] def product (xs : List α) : α :=
  xs.foldl (fun acc x => acc * x) 1

@[inline] def ofWord (n : UInt64) : α :=
  ofNat n.toNat

end Scalar

end HomeEnergy

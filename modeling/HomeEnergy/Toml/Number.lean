import HomeEnergy.Decimal
import HomeEnergy.DeviceId
import HomeEnergy.Toml.Value
import HomeEnergy.Toml.Reader

/-!
# Numbers of scenario files

Whole numbers are decimal with an optional sign and no leading zeros, or hexadecimal, octal or binary without
a sign. Single underscores may stand between digits. A whole number has to fit 64 bits with a sign.

A fraction, an exponent or both make a decimal number a floating-point one, which becomes the nearest
double. One that is too large for a double is refused; a negative one becomes negative infinity.
-/

namespace HomeEnergy.Toml.Number

open Reader

/-- Digits of a class, with single underscores between them. -/
def digits (p : Char → Bool) : Reader (List Char) := do
  let first ← satisfy p
  let rest ← many (satisfy p <|> do char '_'; satisfy p)
  return first :: rest

/-- The digits of a decimal number without leading zeros. -/
def wholeDigits : Reader (List Char) := do
  if (← peek) = some '0' then
    char '0'
    return ['0']
  else digits Char.isDigit

def sign : Reader Bool :=
  (do char '-'; return true) <|> (do char '+'; return false) <|> return false

def ofDigits (base : Nat) (cs : List Char) : Nat :=
  cs.foldl (fun n c => base * n + (DeviceId.hexValue? c).getD 0) 0

/-- A number as a value, if it fits 64 bits with a sign. -/
def fitting (n : Int) : Reader Value :=
  if -9223372036854775808 ≤ n ∧ n ≤ 9223372036854775807 then return .integer n else failure

def decimal : Reader Value := do
  let negative ← sign
  let n := ofDigits 10 (← wholeDigits)
  fitting (if negative then -(n : Int) else n)

def isDigitBelow (base : Nat) (c : Char) : Bool :=
  match DeviceId.hexValue? c with
  | some d => decide (d < base)
  | none => false

/-- A whole number behind the mark of its base. -/
def based (mark : Char) (base : Nat) : Reader Value := do
  chars ['0', mark]
  fitting (ofDigits base (← digits (isDigitBelow base)))

def exponent : Reader Int := do
  char 'e' <|> char 'E'
  let negative ← sign
  let n := ofDigits 10 (← digits Char.isDigit)
  return if negative then -(n : Int) else n

/-- A decimal number with a fraction, an exponent or both. -/
def pointed : Reader Value := do
  let negative ← sign
  let whole ← wholeDigits
  let (fraction, power) ←
    (do return ([], ← exponent)) <|>
      (do
        char '.'
        let fraction ← digits Char.isDigit
        return (fraction, (← optional exponent).getD 0))
  let x := Decimal.nearest (ofDigits 10 (whole ++ fraction)) (power - fraction.length)
  if negative then return .float (-x)
  else if !Scalar.isFinite x then failure
  else return .float x

/-- An infinite or undefined number; either is positive without a sign. -/
def special : Reader Value := do
  let negative ← sign
  let x : Double ←
    (do chars ['i', 'n', 'f']; return Scalar.infinity) <|>
      (do chars ['n', 'a', 'n']; return .undefined false)
  return .float (if negative then -x else x)

def value : Reader Value :=
  pointed <|> special <|> based 'x' 16 <|> based 'o' 8 <|> based 'b' 2 <|> decimal

end HomeEnergy.Toml.Number

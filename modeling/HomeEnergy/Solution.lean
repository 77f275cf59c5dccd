import HomeEnergy.Scalar
import HomeEnergy.Failure

/-!
# Encoded solutions

A search proposes a solution as a flat series of variables, either bits or numbers in `[0, 1]`. Parts
read their share of it as switches: a set bit, or a number of at least one half.
-/

namespace HomeEnergy

inductive Encoding where
  | binary
  | real
deriving DecidableEq, Repr, Inhabited

def Encoding.name : Encoding → String
  | binary => "binary"
  | real => "real"

def Encoding.ofName? (s : String) : Option Encoding :=
  [binary, real].find? fun e => e.name == s

/-- A series of variables of one encoding. -/
inductive Solution (α : Type) where
  | binary (bits : Array Bool)
  | real (values : Array α)
deriving DecidableEq

namespace Solution

variable {α : Type} [Scalar α]

instance : Inhabited (Solution α) := ⟨binary #[]⟩

omit [Scalar α] in
def encoding : Solution α → Encoding
  | binary _ => .binary
  | real _ => .real

omit [Scalar α] in
def size : Solution α → Nat
  | binary bits => bits.size
  | real values => values.size

/-- The variables with index in `[start, stop)`. The range has to lie within the solution. -/
def slice (s : Solution α) (start stop : Nat) : Except Defect (Solution α) :=
  if start ≤ stop ∧ stop ≤ s.size then
    match s with
    | binary bits => .ok (binary (bits.extract start stop))
    | real values => .ok (real (values.extract start stop))
  else .error .indexOutOfRange

/-- A variable read as a switch. There is no switch beyond the end. -/
def flag (s : Solution α) (i : Nat) : Bool :=
  match s with
  | binary bits => bits[i]?.getD false
  | real values =>
    match values[i]? with
    | some x => decide (0.5 ≤ x)
    | none => false

/-- All variables read as switches. -/
def flags (s : Solution α) : Array Bool :=
  match s with
  | binary bits => bits
  | real values => values.map fun x => decide (0.5 ≤ x)

/-- Equality of solutions, variable by variable. An undefined number equals nothing. -/
def same : Solution α → Solution α → Bool
  | binary a, binary b => a == b
  | real a, real b => a == b
  | _, _ => false

end Solution

end HomeEnergy

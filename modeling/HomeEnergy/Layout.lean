import HomeEnergy.Part

/-!
# How a solution is shared among parts

The parts own consecutive ranges of the solution in list order, one layout per encoding. A part that is
left out of runs owns nothing. Together the ranges cover the solution without gaps.

Distributing a solution of another width is refused and changes no part.
-/

namespace HomeEnergy

/-- The variables `[start, stop)` of a solution. -/
structure Share where
  start : UInt64
  stop : UInt64
deriving DecidableEq, Repr, Inhabited

def Share.isEmpty (r : Share) : Bool :=
  !decide (r.start < r.stop)

/-- The consecutive ranges of the given lengths from a start on, and the end of the last one. -/
def tile (start : UInt64) : List UInt64 → List Share × UInt64
  | [] => ([], start)
  | n :: rest =>
    let (shares, stop) := tile (start + n) rest
    ({ start, stop := start + n } :: shares, stop)

/-- The ranges of all parts in both encodings. -/
structure Layout where
  binary : Array Share
  real : Array Share
  binaryWidth : UInt64
  realWidth : UInt64
deriving DecidableEq, Repr, Inhabited

namespace Layout

variable {P α : Type} [Part P α]

def ownedCount (e : Encoding) (p : P) : UInt64 :=
  if Part.isStatic p then 0 else Part.variableCount p e

def ofParts (parts : List P) : Layout :=
  let (binary, binaryWidth) := tile 0 (parts.map (ownedCount .binary))
  let (real, realWidth) := tile 0 (parts.map (ownedCount .real))
  { binary := binary.toArray, real := real.toArray, binaryWidth, realWidth }

def width (l : Layout) : Encoding → UInt64
  | .binary => l.binaryWidth
  | .real => l.realWidth

def shares (l : Layout) : Encoding → Array Share
  | .binary => l.binary
  | .real => l.real

def share? (l : Layout) (i : Nat) (e : Encoding) : Option Share :=
  (l.shares e)[i]?

/-- Hands a part its range of a solution. A part with an empty range keeps what it has. -/
def give [Scalar α] (s : Solution α) (p : P) (r : Share) : Except Failure P :=
  if r.isEmpty then .ok p
  else
    match s.slice r.start.toNat r.stop.toNat with
    | .ok mine => .ok (Part.withSolution p mine)
    | .error e => .error (.defect e)

/-- Hands each part its range; parts beyond the last range keep what they have. -/
def giveAll [Scalar α] (s : Solution α) : List P → List Share → Except Failure (List P)
  | p :: parts, r :: shares => do
    let p ← give s p r
    return p :: (← giveAll s parts shares)
  | parts, _ => .ok parts

/-- Distributes a solution of the right width. -/
def distribute [Scalar α] (l : Layout) (s : Solution α) (parts : Array P) :
    Except Failure (Array P) :=
  let expected := l.width s.encoding
  if s.size = expected.toNat then do
    return (← giveAll s parts.toList (l.shares s.encoding).toList).toArray
  else .error (.widthMismatch expected.toNat s.size)

end Layout

end HomeEnergy

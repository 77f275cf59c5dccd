import HomeEnergy.Random.Draw
import HomeEnergy.Search.Candidate

/-!
# Random search

The baseline of the searches: solutions are drawn uniformly and the front of them is kept.
-/

namespace HomeEnergy

namespace Solution

variable {G α : Type} [WordSource G] [Scalar α]

@[specialize] def drawMany {β : Type} (draw : StateM G β) : Nat → StateM G (List β)
  | 0 => return []
  | n + 1 => do
    let x ← draw
    return x :: (← drawMany draw n)

@[specialize] def drawUniform (e : Encoding) (width : Nat) : StateM G (Solution α) := do
  match e with
  | .binary => return .binary (← drawMany (Draw.chance (0.5 : α)) width).toArray
  | .real => return .real (← drawMany Draw.unit width).toArray

def variableBytes : Encoding → Nat
  | .binary => 1
  | .real => 8

/-- True if a table can hold the variables of a solution, and one of candidates can hold `count`
candidates of 56 bytes. -/
def fits (e : Encoding) (width count : Nat) : Bool :=
  width * variableBytes e ≤ maxTableBytes && 56 * count ≤ maxTableBytes

end Solution

structure RandomSearch where
  encoding : Encoding
  samples : UInt64
  seed : UInt64
deriving DecidableEq, Repr, Inhabited

namespace RandomSearch

def default : RandomSearch := { encoding := .binary, samples := 100, seed := 7 }

/-- The number of solutions that are drawn. There is only one solution without variables. -/
def sampleCount (r : RandomSearch) (width : Nat) : Nat :=
  if width = 0 then 1 else r.samples.toNat

variable {G S α : Type} [WordSource G] [Scalar α]

@[specialize] def drawSamples (r : RandomSearch) (width : Nat) : StateM G (List (Solution α)) :=
  Solution.drawMany (Solution.drawUniform r.encoding width) (r.sampleCount width)

@[specialize] def runFrom (r : RandomSearch) (source : G) (p : SearchProblem S α) (s : S) :
    Except Failure (List (Candidate α)) × S :=
  if r.samples = 0 then
    (.error (.search (.invalidParameter "samples" "must be > 0")), s)
  else
    let width := p.width r.encoding
    if !Solution.fits r.encoding width (r.sampleCount width) then
      (.error (.defect .capacityExceeded), s)
    else
      let solutions := ((r.drawSamples width).run source).1
      let (result, s) := p.evaluateAll solutions s
      (result.map Candidate.front, s)

@[specialize] def run (r : RandomSearch) (p : SearchProblem S α) (s : S) :
    Except Failure (List (Candidate α)) × S :=
  r.runFrom (Keystream.ofSeed r.seed) p s

end RandomSearch

end HomeEnergy

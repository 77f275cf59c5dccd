import HomeEnergy.Search.Sampling

/-!
# Genetic search

A population of solutions is improved over generations. The best ones are kept unchanged; parents of the
others are chosen by tournaments, crossed and mutated. Bits are crossed at one point and flipped;
numbers are blended and disturbed by normal noise, and stay in `[0, 1]`.

The search stops after its generations, or when its budget of evaluations is used up. Solutions beyond
the budget are dropped.
-/

namespace HomeEnergy

structure GeneticParams (α : Type) where
  encoding : Encoding
  populationSize : UInt64
  generations : UInt64
  maxEvaluations : Option UInt64
  crossoverRate : α
  -- one in the number of variables if missing
  mutationRate : Option α
  mutationSigma : α
  tournamentSize : UInt64
  elitism : UInt64
  seed : UInt64
  -- has no influence on the result
  threads : UInt64

namespace GeneticParams

variable {α : Type} [Scalar α]

def default : GeneticParams α :=
  { encoding := .binary
    populationSize := 40
    generations := 30
    maxEvaluations := none
    crossoverRate := 0.9
    mutationRate := none
    mutationSigma := 0.1
    tournamentSize := 2
    elitism := 2
    seed := 42
    threads := 0 }

def isRate (x : α) : Bool :=
  decide (0 ≤ x) && decide (x ≤ 1)

/-- The first parameter that is outside its range, if there is one. -/
def validate (p : GeneticParams α) : Except SearchFailure Unit :=
  if p.populationSize < 2 then
    .error (.invalidParameter "population_size" "must be at least 2")
  else if p.tournamentSize = 0 then
    .error (.invalidParameter "tournament_size" "must be > 0")
  else if p.populationSize ≤ p.elitism then
    .error (.invalidParameter "elitism" "must be below population_size")
  else if !isRate p.crossoverRate then
    .error (.invalidParameter "crossover_rate" "must be within [0, 1]")
  else if p.mutationRate.any fun r => !isRate r then
    .error (.invalidParameter "mutation_rate" "must be within [0, 1]")
  else if p.mutationSigma < 0 then
    .error (.invalidParameter "mutation_sigma" "must be >= 0")
  else .ok ()

def rate (p : GeneticParams α) (width : Nat) : α :=
  p.mutationRate.getD (1 / Scalar.ofNat (Nat.max width 1))

def budget (p : GeneticParams α) : Nat :=
  match p.maxEvaluations with
  | some n => n.toNat
  | none => UInt64.size - 1

end GeneticParams

namespace Genetic

variable {G S α : Type} [WordSource G] [Transcendental α]

/-- The start of one list and the rest of another, cut at a drawn point inside both. -/
@[specialize] def crossAtPoint {β : Type} (a b : Array β) : StateM G (Array β) := do
  let size := Nat.min a.size b.size
  if size < 2 then return a
  else
    let cut ← Draw.index 1 (size - 1)
    return a.extract 0 cut ++ b.extract cut size

@[specialize] def blend : List α → List α → StateM G (List α)
  | x :: xs, y :: ys => do
    let t ← Draw.unit
    return (x + t * (y - x)) :: (← blend xs ys)
  | _, _ => return []

/-- Bits, each flipped with a probability. -/
@[specialize] def flipBits (rate : α) : List Bool → StateM G (List Bool)
  | [] => return []
  | b :: bs => do
    let flip ← Draw.chance rate
    return (if flip then !b else b) :: (← flipBits rate bs)

/-- Numbers, each disturbed with a probability and moved back into `[0, 1]`. -/
@[specialize] def disturb (rate sigma : α) : List α → StateM G (List α)
  | [] => return []
  | x :: xs => do
    if ← Draw.chance rate then
      let noise ← Draw.normalNoise sigma
      return Scalar.clamp 0 1 (x + noise) :: (← disturb rate sigma xs)
    else
      return x :: (← disturb rate sigma xs)

@[specialize] def offspring (p : GeneticParams α) (width : Nat) (a b : Solution α) :
    StateM G (Solution α) := do
  let cross ← Draw.chance p.crossoverRate
  match a, b with
  | .binary x, .binary y => do
    let child ← if cross then crossAtPoint x y else pure x
    return .binary (← flipBits (p.rate width) child.toList).toArray
  | .real x, .real y => do
    let child ← if cross then blend x.toList y.toList else pure x.toList
    return .real (← disturb (p.rate width) p.mutationSigma child).toArray
  | a, _ => return a

/-- The better of a candidate and drawn challengers. -/
@[specialize] def challenge (parents : Array (Candidate α)) :
    Nat → Candidate α → StateM G (Candidate α)
  | 0, best => return best
  | n + 1, best => do
    let challenger := parents.getD (← Draw.index 0 (parents.size - 1)) best
    challenge parents n (if challenger.score < best.score then challenger else best)

@[specialize] def tournament (p : GeneticParams α) (parents : Array (Candidate α)) :
    StateM G (Candidate α) := do
  let first := parents.getD (← Draw.index 0 (parents.size - 1)) default
  challenge parents (p.tournamentSize.toNat - 1) first

@[specialize] def breed (p : GeneticParams α) (width : Nat) (parents : Array (Candidate α)) :
    StateM G (Solution α) := do
  let a ← tournament p parents
  let b ← tournament p parents
  offspring p width a.solution b.solution

/-- The candidates ordered by score, equal scores in list order. -/
def sorted (cs : List (Candidate α)) : List (Candidate α) :=
  cs.mergeSort fun a b => (Scalar.totalOrder a.score b.score).isLE

/-- A population between generations: its candidates, what is left of the budget, and the sources of
draws and evaluations. -/
structure Stage (G S α : Type) where
  population : List (Candidate α)
  budget : Nat
  source : G
  state : S

/-- Evaluates as many solutions as the budget allows and joins them to the kept candidates. -/
@[specialize] def takeIn (problem : SearchProblem S α) (kept : List (Candidate α))
    (solutions : List (Solution α)) (budget : Nat) (source : G) (state : S) :
    Except Failure (Stage G S α) × S :=
  let pending := solutions.take budget
  match problem.evaluateAll pending state with
  | (.error e, state) => (.error e, state)
  | (.ok cs, state) =>
    (.ok { population := kept ++ cs, budget := budget - pending.length, source, state }, state)

/-- One generation: the elite stays, and children of the others fill the population up. Where everybody
belongs to the elite, the elite breeds. -/
@[specialize] def generation (p : GeneticParams α) (width : Nat) (problem : SearchProblem S α)
    (g : Stage G S α) : Except Failure (Stage G S α) × S :=
  let ranked := sorted g.population
  let elite := ranked.take p.elitism.toNat
  let others := ranked.drop p.elitism.toNat
  let parents := if others.isEmpty then elite else others
  let missing := p.populationSize.toNat - elite.length
  let (children, source) :=
    (Solution.drawMany (breed p width parents.toArray) missing).run g.source
  takeIn problem elite children g.budget source g.state

/-- Up to `n` generations. Without a budget or a population there are no more. -/
@[specialize] def evolve (p : GeneticParams α) (width : Nat) (problem : SearchProblem S α) :
    Nat → Stage G S α → Except Failure (Stage G S α) × S
  | 0, g => (.ok g, g.state)
  | n + 1, g =>
    if g.budget = 0 ∨ g.population.isEmpty then (.ok g, g.state)
    else
      match generation p width problem g with
      | (.error e, s) => (.error e, s)
      | (.ok g, _) => evolve p width problem n g

@[specialize] def runFrom (p : GeneticParams α) (source : G) (problem : SearchProblem S α)
    (s : S) : Except Failure (List (Candidate α)) × S :=
  let width := problem.width p.encoding
  if width = 0 then
    let (only, _) := (Solution.drawUniform p.encoding 0 : StateM G (Solution α)).run source
    problem.evaluateAll [only] s
  else if !Solution.fits p.encoding width p.populationSize.toNat then
    (.error (.defect .capacityExceeded), s)
  else
    let (solutions, source) :=
      (Solution.drawMany (Solution.drawUniform p.encoding width) p.populationSize.toNat).run source
    match takeIn problem [] solutions p.budget source s with
    | (.error e, s) => (.error e, s)
    | (.ok g, _) =>
      let (result, s) := evolve p width problem p.generations.toNat g
      (result.map fun g => Candidate.front g.population, s)

@[specialize] def run (p : GeneticParams α) (problem : SearchProblem S α) (s : S) :
    Except Failure (List (Candidate α)) × S :=
  runFrom p (Keystream.ofSeed p.seed) problem s

end Genetic

end HomeEnergy

import HomeEnergy.Evaluation
import HomeEnergy.Ranking
import HomeEnergy.Search

/-!
# The optimizer

Sets a problem up, searches for good solutions, ranks what the searches found and evaluates the best one in
detail.

When the searches fail there is no result, and that is not a failure: the caller keeps the schedule it
has.
-/

namespace HomeEnergy

/-- Everything that one optimization needs. -/
structure Plan (P α : Type) where
  parts : List P
  grids : List (Grid α)
  signals : Signals α
  penaltyPerKwh : α
  searches : List (Search α)
  ranking : Ranking α
  step : UInt64
  multithreaded : Bool
  -- the first billed tick
  start : UInt64

def defaultStep : UInt64 := 900

def defaultMultithreaded : Bool := true

structure Optimum (α : Type) where
  solution : Solution α
  fitness : α
  profile : LoadProfile α
  recording : Recording α

/-- A problem as searches see it: fitness is the only objective. -/
@[specialize] def Evaluator.searchProblem {P α : Type} [Scalar α] [Part P α] (layout : Layout) :
    SearchProblem (Evaluator P α) α :=
  { width := fun e => (layout.width e).toNat
    evaluate := fun s e =>
      let (result, e) := e.evaluate s
      (result.map fun fitness => [fitness], e) }

namespace Plan

section Setup

variable {P α : Type} [Scalar α] [Part P α]

/-- The evaluator of a plan, and the problem it starts from. -/
def evaluator (plan : Plan P α) : Except Failure (Problem P α × Evaluator P α) := do
  let problem ← Problem.new plan.parts plan.grids
  let window := Window.new problem.referenceTime problem.horizon plan.step plan.start
  return (problem,
    { pool := .new problem plan.multithreaded
      layout := .ofParts plan.parts
      penaltyPerKwh := plan.penaltyPerKwh
      signals := plan.signals
      window })

end Setup

variable {P α : Type} [Transcendental α] [Part P α]

def winner? (ranking : Ranking α) (front : List (Candidate α)) : Option (Candidate α) :=
  match ranking.rank (Ranking.normalize (front.map fun c => c.objectives)) with
  | i :: _ => front[i]?
  | [] => none

/-- Searches for the best solution. -/
@[specialize] def solve (plan : Plan P α) : Except Failure (Option (Optimum α)) := do
  let (_, evaluator) ← plan.evaluator
  let searched := Evaluator.searchProblem evaluator.layout
  match Search.best plan.searches searched evaluator with
  | (.error (.defect d), _) => .error (.defect d)
  | (.error _, _) => return none
  | (.ok front, evaluator) =>
    match winner? plan.ranking front with
    | none => return none
    | some c =>
      let (result, recording, _) :=
        evaluator.evaluateDetailed c.solution { log := true, keepPrediction := true } .empty
      let outcome ← result
      return some
        { solution := c.solution, fitness := outcome.fitness, profile := outcome.profile,
          recording }

end Plan

end HomeEnergy

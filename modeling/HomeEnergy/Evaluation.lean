import HomeEnergy.Billing
import HomeEnergy.Layout
import HomeEnergy.Pool
import HomeEnergy.Schedule
import HomeEnergy.Simulation

/-!
# Evaluation of solutions

The fitness of a solution is the cost of the load profile that its simulation produces, plus the terminal
costs of the parts. Smaller is better.

An evaluator owns a pool of problems. Each evaluation takes a problem out of the pool, empties its maps,
starts its parts anew and puts it back, also after a failure. What the problem went through before is not
visible in the result.

A detailed evaluation records what it sees in a recording of the caller, whatever that holds.
-/

namespace HomeEnergy

/-- What the fitness of a problem is computed with. -/
structure Evaluator (P α : Type) where
  pool : Pool (Problem P α)
  layout : Layout
  penaltyPerKwh : α
  signals : Signals α
  window : Window

/-- What a detailed evaluation is asked for besides the fitness. -/
structure EvaluationFlags where
  log : Bool
  keepPrediction : Bool
deriving DecidableEq, Repr, Inhabited

def EvaluationFlags.none : EvaluationFlags := { log := false, keepPrediction := false }

structure Outcome (α : Type) where
  fitness : α
  profile : LoadProfile α

namespace Problem

variable {P α : Type} [Part P α]

/-- The problem with its parts at the start of a run. -/
def startParts (problem : Problem P α) (settings : RunSettings) : Problem P α :=
  { problem with
    parts := problem.taking.foldl (fun parts i => parts.modify i fun p => Part.start p settings)
      problem.parts }

end Problem

namespace Run

variable {P α : Type} [Scalar α] [Part P α]

/-- Settles the terminal cost of a part, records it and adds it to a running total. -/
def settle (state : Run P α × α) (i : Nat) : Run P α × α :=
  let (run, total) := state
  match run.problem.parts[i]? with
  | none => state
  | some p =>
    let p := Part.settle p
    let cost : α := Part.terminalCost p
    ({ run with
        problem := { run.problem with parts := run.problem.parts.setIfInBounds i p }
        recording? := run.recording?.map fun r => r.setTerminalCost i cost },
      total + cost)

end Run

namespace Evaluator

variable {P α : Type} [Scalar α] [Part P α]

def settings (e : Evaluator P α) (flags : EvaluationFlags) : RunSettings :=
  { referenceTime := e.window.referenceTime, step := e.window.step, log := flags.log,
    keepPrediction := flags.keepPrediction }

def bill (e : Evaluator P α) (profile : LoadProfile α) : α :=
  fitness e.penaltyPerKwh e.window.billFrom e.window.billUntil profile e.signals

structure Answer (P α : Type) where
  result : Except Failure (Outcome α)
  problem : Problem P α
  recording? : Option (Recording α)

/-- Evaluates a solution on a problem. -/
@[specialize] def runOn (e : Evaluator P α) (problem : Problem P α) (s : Solution α)
    (flags : EvaluationFlags) (recording? : Option (Recording α)) : Answer P α :=
  let problem := problem.clearExchange
  match e.layout.distribute s problem.parts with
  | .error failure => { result := .error failure, problem, recording? }
  | .ok parts =>
    let problem := { problem with parts }.startParts (e.settings flags)
    let recording? := recording?.map fun r => r.begin problem.parts.toList
    match simulate e.window problem recording? with
    | .error i =>
      { result := .error i.failure, problem := i.state.1, recording? := i.state.2 }
    | .ok run =>
      let (run, total) := problem.taking.foldl Run.settle (run, e.bill run.profile)
      { result := .ok { fitness := total, profile := run.profile }, problem := run.problem,
        recording? := run.recording? }

@[specialize] def run (e : Evaluator P α) (s : Solution α) (flags : EvaluationFlags)
    (recording? : Option (Recording α)) :
    Except Failure (Outcome α) × Option (Recording α) × Evaluator P α :=
  let (loan, pool) := e.pool.acquire
  let answer := e.runOn loan.container s flags recording?
  (answer.result, answer.recording?,
    { e with pool := pool.release { loan with container := answer.problem } })

/-- The fitness of a solution. -/
@[specialize] def evaluate (e : Evaluator P α) (s : Solution α) :
    Except Failure α × Evaluator P α :=
  let (result, _, e) := e.run s .none none
  (result.map fun outcome => outcome.fitness, e)

@[specialize] def evaluateDetailed (e : Evaluator P α) (s : Solution α)
    (flags : EvaluationFlags) (recording : Recording α) :
    Except Failure (Outcome α) × Recording α × Evaluator P α :=
  let (result, recording?, e) := e.run s flags (some recording)
  (result, recording?.getD recording, e)

end Evaluator

end HomeEnergy

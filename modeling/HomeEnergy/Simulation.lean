import HomeEnergy.LoadProfile
import HomeEnergy.Problem
import HomeEnergy.Schedule
import HomeEnergy.Window

/-!
# Simulation of a problem

A run steps the parts of a problem tick by tick. In every tick the active parts go first. They see the
meter state of the previous tick, and those that react to input see what the passive parts published
then. The grids deliver what they publish to the passive parts and work out the meter state; the passive
parts follow in the same tick.

Before the first tick the meter state is zero, and the passive parts publish once from empty inputs.

The maps of the problem are written in place. A part's output is emptied right before the part is
stepped, the inputs of the passive parts before the forward exchange and those of the parts that react to
input before the exchange back.

* `Problem.tick` is one tick of a problem.
* `Run` is a problem with what is written down about its ticks; `Run.tick` is one tick of a run.
* `simulate` is a whole run.
-/

namespace HomeEnergy

/-- Why a run stopped early, and the state it stopped in. A stage that fails leaves the state that it
found. -/
structure Interruption (σ : Type) where
  failure : Failure
  state : σ

/-- The result of a stage that may fail, as a stage of a larger state. -/
def Interruption.lift {σ τ : Type} (put : σ → τ) :
    Except (Interruption σ) σ → Except (Interruption τ) τ
  | .ok s => .ok (put s)
  | .error i => .error { failure := i.failure, state := put i.state }

/-- Steps the parts with the given indices, in their order. Each part finds its output empty. -/
@[specialize] def stepParts {P α : Type} [Scalar α] [Part P α] (indices : List Nat)
    (tick : UInt64) (meter : MeterState α) (inputs : Array (FlowMap α))
    (state : Array P × Array (FlowMap α)) : Array P × Array (FlowMap α) :=
  indices.foldl (fun (parts, outputs) i =>
    match parts[i]? with
    | none => (parts, outputs)
    | some p =>
      let (out, p) := Part.step p { tick, flows := inputs.getD i .unrestricted, meter }
        (outputs.getD i .unrestricted).clear
      (parts.setIfInBounds i p, outputs.setIfInBounds i out)) state

def clearAt {α : Type} [Scalar α] (indices : List Nat) (maps : Array (FlowMap α)) :
    Array (FlowMap α) :=
  indices.foldl (fun maps i => maps.modify i FlowMap.clear) maps

namespace Problem

variable {P α : Type} [Scalar α]

/-- The problem with every map and the meter state emptied. -/
def clearExchange (problem : Problem P α) : Problem P α :=
  { problem with
    activeOutputs := problem.activeOutputs.map FlowMap.clear
    passiveOutputs := problem.passiveOutputs.map FlowMap.clear
    inputs := problem.inputs.map FlowMap.clear
    meter := .zero }

/-- Empties the meter state and the inputs of the passive parts, and delivers what the active parts
publish. -/
@[specialize] def deliverForward (problem : Problem P α) :
    Except (Interruption (Problem P α)) (Problem P α) :=
  let problem :=
    { problem with meter := .zero, inputs := clearAt problem.passive problem.inputs }
  match Grid.deliverForward problem.activeOutputs problem.grids problem.inputs problem.meter with
  | .ok (grids, inputs, meter) => .ok { problem with grids, inputs, meter }
  | .error failure => .error { failure, state := problem }

@[specialize] def deliverBack (problem : Problem P α) :
    Except (Interruption (Problem P α)) (Problem P α) :=
  match Grid.deliverBack problem.passiveOutputs problem.grids problem.inputs with
  | .ok inputs => .ok { problem with inputs }
  | .error failure => .error { failure, state := problem }

variable [Part P α]

@[specialize] def stepActive (problem : Problem P α) (tick : UInt64) : Problem P α :=
  let (parts, activeOutputs) := stepParts problem.active tick problem.meter problem.inputs
    (problem.parts, problem.activeOutputs)
  { problem with parts, activeOutputs }

@[specialize] def stepPassive (problem : Problem P α) (tick : UInt64) (meter : MeterState α) :
    Problem P α :=
  let (parts, passiveOutputs) := stepParts problem.passive tick meter problem.inputs
    (problem.parts, problem.passiveOutputs)
  { problem with parts, passiveOutputs }

/-- What happens before the first tick: the passive parts publish once. -/
@[specialize] def publishFirst (problem : Problem P α) (referenceTime : UInt64) :
    Except (Interruption (Problem P α)) (Problem P α) :=
  (problem.stepPassive referenceTime .zero).deliverBack

@[specialize] def tick (problem : Problem P α) (tick : UInt64) :
    Except (Interruption (Problem P α)) (Problem P α) := do
  let problem ← (problem.stepActive tick).deliverForward
  let problem := problem.stepPassive tick problem.meter
  let problem := { problem with inputs := clearAt problem.needsInput problem.inputs }
  problem.deliverBack

end Problem

/-- A problem in the middle of a run, and what is written down about the ticks so far. -/
structure Run (P α : Type) where
  problem : Problem P α
  profile : LoadProfile α
  recording? : Option (Recording α)

namespace Run

variable {P α : Type} [Scalar α]

/-- Writes a tick of the problem down: its meter state, and the outputs of its parts, the active ones
first. -/
def note (run : Run P α) (tick : UInt64) : Run P α :=
  let problem := run.problem
  { run with
    profile := run.profile.push problem.meter
    recording? := run.recording?.map fun r =>
      ((r.pushMeter tick problem.meter).pushOutputs tick problem.activeOutputs
        problem.active).pushOutputs tick problem.passiveOutputs problem.passive }

variable [Part P α]

@[specialize] def tick (run : Run P α) (tick : UInt64) :
    Except (Interruption (Run P α)) (Run P α) := do
  let run ← Interruption.lift (fun problem => { run with problem }) (run.problem.tick tick)
  return run.note tick

/-- The ticks of a run, up to the first failure. -/
@[specialize] def ticks (run : Run P α) :
    List UInt64 → Except (Interruption (Run P α)) (Run P α)
  | [] => .ok run
  | t :: rest => do
    let run ← run.tick t
    run.ticks rest

end Run

/-- Simulates the ticks of a window on a problem whose parts are at their start. A window with more ticks than a table
can hold is refused, and so is one whose clock never stops. -/
@[specialize] def simulate {P α : Type} [Scalar α] [Part P α] (w : Window)
    (problem : Problem P α) (recording? : Option (Recording α)) :
    Except (Interruption (Problem P α × Option (Recording α))) (Run P α) :=
  match problem.publishFirst w.referenceTime with
  | .error i => .error { failure := i.failure, state := (i.state, recording?) }
  | .ok problem =>
    match LoadProfile.new w.referenceTime w.step with
    | .error e => .error { failure := .defect e, state := (problem, recording?) }
    | .ok profile =>
      if w.overflows then
        .error { failure := .defect .capacityExceeded, state := (problem, recording?) }
      else
        match Run.ticks { problem, profile, recording? } w.clock.ticks with
        | .error i =>
          .error { failure := i.failure, state := (i.state.problem, i.state.recording?) }
        | .ok run => .ok { run with profile := run.profile.close w.stop }

end HomeEnergy

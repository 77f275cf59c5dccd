import HomeEnergy.FlowMap
import HomeEnergy.MeterState
import HomeEnergy.Solution
import HomeEnergy.Device.Timing

/-!
# Parts of a problem

A part is a device as the optimization sees it: it reads its share of a solution, is stepped tick by
tick, publishes flows and ends with a terminal cost. The simulation is written over every type with
the operations of `Part`; `Device` collects the models of this library.

Powers are counted at the meter: consumption is positive and generation negative.
-/

namespace HomeEnergy

structure StepInput (α : Type) where
  tick : UInt64
  flows : FlowMap α
  meter : MeterState α

class Part (P : Type) (α : outParam Type) where
  device : P → DeviceId
  kind : P → String
  -- never influences the cost and can be left out of a run
  isStatic : P → Bool
  -- has to see the flows of passive parts before it can compute a tick
  reactsToInput : P → Bool
  outputs : P → List Commodity
  inputs : P → List Commodity
  referenceTime : P → UInt64
  -- the last tick at which the schedule can change
  horizon : P → UInt64
  variableCount : P → Encoding → UInt64
  withSolution : P → Solution α → P
  start : P → RunSettings → P
  -- the published flows are written into the given map
  step : P → StepInput α → FlowMap α → FlowMap α × P
  settle : P → P
  terminalCost : P → α

end HomeEnergy

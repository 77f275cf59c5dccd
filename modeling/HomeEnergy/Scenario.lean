import HomeEnergy.Config.Check
import HomeEnergy.Device
import HomeEnergy.Export
import HomeEnergy.Optimizer

/-!
# Scenarios ready to run

A checked configuration becomes a plan: devices with identities and seeds of their own, grids in which names
are resolved to identities, signals and searches.

A device without a configured identity is numbered by its position, from one on. Meters are numbered through
all grids above every such device.
-/

namespace HomeEnergy

structure Scenario (α : Type) where
  plan : Plan (Device α) α
  names : DeviceNames

namespace Scenario

def positionId (i : Nat) : DeviceId := .ofNat (i + 1)

/-- The identity of a meter by its number among the meters of all grids. -/
def meterId (i : Nat) : DeviceId := .ofNat (UInt64.size + i)

def deviceSeed (seed : UInt64) (i : Nat) : UInt64 :=
  seed + 57 * UInt64.ofNat (i + 1)

section Devices

variable {α : Type}

def identity (i : Nat) (d : DeviceConfig α) : DeviceId :=
  d.id?.getD (positionId i)

def identities (devices : List (DeviceConfig α)) : List (String × DeviceId) :=
  devices.zipIdx.map fun (d, i) => (d.name, identity i d)

variable [Transcendental α]

def device (o : OptimizationConfig) (id : DeviceId) (seed : UInt64) :
    DeviceModel α → Except Defect (Device α)
  | .baseLoad c => do
    let d := (BaseLoad.new id o.referenceTime o.horizon c.baseW seed).withProfile c.ampW c.phaseRad
      c.noiseStdW
    return .baseLoad ((← d.withPowerFactor c.powerFactor).withStatic c.completelyStatic)
  | .pvSystem c => do
    let d ← (PvSystem.new id o.referenceTime o.horizon c.peakW).withDaylight c.sunriseS c.sunsetS
    return .pvSystem (d.withNoise c.noiseStd seed)
  | .battery c => do
    let d ← Battery.new id o.referenceTime o.horizon o.stepSize c.capacityWh c.initialSoc
      c.maxChargeW c.maxDischargeW
    let d ← d.withEfficiency c.etaCharge c.etaDischarge
    return .battery ((d.withMode c.mode).withPenalty c.penaltyPerKwh)
  | .evCharger c => do
    let ranges : EvRanges α :=
      { demandWhMin := c.demandWhMin, demandWhMax := c.demandWhMax,
        dwellStepsMin := c.dwellStepsMin, dwellStepsMax := c.dwellStepsMax }
    let d ← EvCharger.new id o.referenceTime o.horizon o.stepSize c.maxChargeW ranges seed
    return .evCharger (d.withPenalty c.penaltyPerKwh)
  | .chp c => do
    let d := (Chp.new id o.referenceTime o.horizon o.stepSize).withRating c.electricalW c.thermalW
      c.gasW
    let d ← d.withHysteresis c.onBelowC c.offAboveC c.maxTempC
    return .chp (d.withStartCost c.startCost)
  | .hotWaterTank c => do
    let d ← HotWaterTank.new id o.referenceTime o.horizon c.volumeL c.initialTempC
    return .hotWaterTank ((d.withLosses c.ambientTempC c.lossWPerK).withComfort c.minTempC
      c.penaltyPerKelvinHour)
  | .hotWaterDemand c =>
    return .hotWaterDemand (.new id o.referenceTime o.horizon c.dailyEnergyWh)

def devices (c : Config α) : Except Defect (List (Device α)) :=
  c.devices.zipIdx.mapM fun (d, i) =>
    device c.optimization (identity i d) (deviceSeed c.optimization.seed i) d.model

end Devices

/-- The identity of a name: that of the device, or else of the last meter of that name. -/
def resolve (devices meters : List (String × DeviceId)) (name : String) : DeviceId :=
  match (devices.find? fun e => e.1 == name) with
  | some e => e.2
  | none =>
    match meters.reverse.find? fun e => e.1 == name with
    | some e => e.2
    | none => .nil

/-- The topology of a grid whose first meter has the given number. -/
def topology (devices : List (String × DeviceId)) (firstMeter : Nat) (g : GridConfig) : Topology :=
  let meters := g.meters.zipIdx.map fun (m, i) => (m.name, meterId (firstMeter + i))
  let id := resolve devices meters
  { meters := g.meters.map fun m => id m.name
    relations := g.relations.map fun r =>
      { active := id r.active
        passive := id r.passive
        forward := r.commodity
        back := r.back?.getD r.commodity }
    meterDevices := g.meters.map fun m =>
      { meter := id m.name, pv := m.pv.map id, chp := m.chp.map id, battery := m.battery.map id } }

/-- The grids of a scenario: the electrical one first. -/
def grids (α : Type) (devices : List (String × DeviceId)) (g : GridsConfig) :
    Except Failure (List (Grid α)) := do
  let electrical ←
    match g.electrical with
    | none => pure []
    | some e => do
      let grid ← ElectricalGrid.new (topology devices 0 e)
      pure [Grid.electrical (grid.withFastPath e.fastPath)]
  let thermal ←
    match g.thermal with
    | none => pure []
    | some t => do
      let firstMeter := (g.electrical.map fun e => e.meters.length).getD 0
      pure [Grid.thermal (← ThermalGrid.new (topology devices firstMeter t))]
  return electrical ++ thermal

variable {α : Type}

/-- The prices and limits of a scenario; a later entry for a quantity replaces an earlier one. -/
def signals (c : Config α) : Signals α :=
  { prices := .ofList (c.prices.map fun p => (p.quantity, p.signal))
    limits := .ofList (c.limits.map fun l => (l.quantity, l.signal)) }

variable [Transcendental α]

/-- The scenario of a configuration that breaks no constraint. -/
def ofConfig (c : Config α) : Except Failure (Scenario α) := do
  let issues := c.issues
  if !issues.isEmpty then .error (.invalidScenario issues)
  else
    let parts ← (devices c).mapError .defect
    let ids := identities c.devices
    let grids ← grids α ids c.grid
    let searches ← c.algorithms.mapM Search.checked
    return {
      plan := {
        parts
        grids
        signals := signals c
        penaltyPerKwh := c.fitness.limitPenaltyPerKwh
        searches
        ranking := c.ranking
        step := c.optimization.stepSize
        multithreaded := c.optimization.multithreaded
        start := c.optimization.optimizationStart }
      names := .ofList (ids.map fun e => (e.2, e.1)) }

end Scenario

end HomeEnergy

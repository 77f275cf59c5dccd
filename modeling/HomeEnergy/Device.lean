import HomeEnergy.Device.BaseLoad
import HomeEnergy.Device.Battery
import HomeEnergy.Device.Chp
import HomeEnergy.Device.EvCharger
import HomeEnergy.Device.HotWaterDemand
import HomeEnergy.Device.HotWaterTank
import HomeEnergy.Device.PvSystem

/-!
# The device models

The seven models as one type, so that a household is a list of devices.
-/

namespace HomeEnergy

/-- A device of one of the models. -/
inductive Device (α : Type) where
  | baseLoad (d : BaseLoad α)
  | pvSystem (d : PvSystem α)
  | battery (d : Battery α)
  | evCharger (d : EvCharger α)
  | chp (d : Chp α)
  | hotWaterTank (d : HotWaterTank α)
  | hotWaterDemand (d : HotWaterDemand α)

namespace Device

variable {α : Type} [Transcendental α]

@[specialize] def step (d : Device α) (i : StepInput α) (out : FlowMap α) : FlowMap α × Device α :=
  match d with
  | baseLoad d => let (out, d) := BaseLoad.step d i out; (out, baseLoad d)
  | pvSystem d => let (out, d) := PvSystem.step d i out; (out, pvSystem d)
  | battery d => let (out, d) := Battery.step d i out; (out, battery d)
  | evCharger d => let (out, d) := EvCharger.step d i out; (out, evCharger d)
  | chp d => let (out, d) := Chp.step d i out; (out, chp d)
  | hotWaterTank d => let (out, d) := HotWaterTank.step d i out; (out, hotWaterTank d)
  | hotWaterDemand d => let (out, d) := HotWaterDemand.step d i out; (out, hotWaterDemand d)

def withSolution (d : Device α) (s : Solution α) : Device α :=
  match d with
  | battery d => battery (d.withSolution s)
  | evCharger d => evCharger (d.withSolution s)
  | chp d => chp (d.withSolution s)
  | other => other

def start (d : Device α) (s : RunSettings) : Device α :=
  match d with
  | baseLoad d => baseLoad (d.start s)
  | pvSystem d => pvSystem (d.start s)
  | battery d => battery (d.start s)
  | evCharger d => evCharger (d.start s)
  | chp d => chp (d.start s)
  | hotWaterTank d => hotWaterTank (d.start s)
  | hotWaterDemand d => hotWaterDemand (d.start s)

def settle (d : Device α) : Device α :=
  match d with
  | battery d => battery d.settle
  | evCharger d => evCharger d.settle
  | chp d => chp d.settle
  | hotWaterTank d => hotWaterTank d.settle
  | other => other

def terminalCost (d : Device α) : α :=
  match d with
  | battery d => d.terminalCost
  | evCharger d => d.terminalCost
  | chp d => d.terminalCost
  | hotWaterTank d => d.terminalCost
  | _ => 0

omit [Transcendental α] in
def timing : Device α → Timing
  | baseLoad d => d.timing
  | pvSystem d => d.timing
  | battery d => d.timing
  | evCharger d => d.timing
  | chp d => d.timing
  | hotWaterTank d => d.timing
  | hotWaterDemand d => d.timing

omit [Transcendental α] in
def kind : Device α → String
  | baseLoad _ => "BaseLoad"
  | pvSystem _ => "PvSystem"
  | battery _ => "Battery"
  | evCharger _ => "EvCharger"
  | chp _ => "Chp"
  | hotWaterTank _ => "HotWaterTank"
  | hotWaterDemand _ => "HotWaterDemand"

omit [Transcendental α] in
def isStatic : Device α → Bool
  | baseLoad d => d.isStatic
  | _ => false

omit [Transcendental α] in
def reactsToInput : Device α → Bool
  | chp _ => true
  | _ => false

omit [Transcendental α] in
def outputs : Device α → List Commodity
  | baseLoad _ => BaseLoad.outputs
  | pvSystem _ => PvSystem.outputs
  | battery _ => Battery.outputs
  | evCharger _ => EvCharger.outputs
  | chp _ => Chp.outputs
  | hotWaterTank _ => HotWaterTank.outputs
  | hotWaterDemand _ => HotWaterDemand.outputs

omit [Transcendental α] in
def inputs : Device α → List Commodity
  | chp _ => Chp.inputs
  | hotWaterTank _ => HotWaterTank.inputs
  | _ => []

omit [Transcendental α] in
def variableCount (d : Device α) (e : Encoding) : UInt64 :=
  match d with
  | battery d => d.variableCount e
  | evCharger d => d.session.dwellSteps
  | chp d => d.timing.steps
  | _ => 0

instance : Part (Device α) α where
  device d := d.timing.device
  kind := kind
  isStatic := isStatic
  reactsToInput := reactsToInput
  outputs := outputs
  inputs := inputs
  referenceTime d := d.timing.referenceTime
  horizon d := d.timing.horizon
  variableCount := variableCount
  withSolution := withSolution
  start := start
  step := step
  settle := settle
  terminalCost := terminalCost

end Device

end HomeEnergy

import HomeEnergy.Part

/-!
# Combined heat and power unit

The unit heats a hot water tank. It follows a hysteresis on the tank temperature that the thermal grid
delivers: on below one temperature, off above another. The solution can force it on for single steps
as long as the tank is below a greatest temperature. Without a temperature the unit keeps its state.

While it runs it publishes its rated powers, generation as negative and gas as positive; otherwise
zeros. Every start costs.
-/

namespace HomeEnergy

/-- A combined heat and power unit. -/
structure Chp (α : Type) where
  timing : Timing
  electricalW : α
  thermalW : α
  gasW : α
  onBelowC : α
  offAboveC : α
  -- from this tank temperature on the unit does not run, forced or not
  maxTempC : α
  startCost : α
  forced : Array Bool
  hysteresisOn : Bool
  running : Bool
  starts : Nat
  terminalCost : α

namespace Chp

variable {α : Type} [Scalar α]

/-- A unit of 1 kW electrical, 2.5 kW thermal and 4 kW gas power with a hysteresis from 55 to 70 °C. -/
def new (device : DeviceId) (referenceTime horizon step : UInt64) : Chp α :=
  { timing := (Timing.new device referenceTime horizon).withStep step
    electricalW := 1000
    thermalW := 2500
    gasW := 4000
    onBelowC := 55
    offAboveC := 70
    maxTempC := 80
    startCost := 0
    forced := #[]
    hysteresisOn := false
    running := false
    starts := 0
    terminalCost := 0 }

def withRating (d : Chp α) (electricalW thermalW gasW : α) : Chp α :=
  { d with electricalW := Scalar.positivePart electricalW, thermalW := Scalar.positivePart thermalW,
           gasW := Scalar.positivePart gasW }

def withHysteresis (d : Chp α) (onBelowC offAboveC maxTempC : α) : Except Defect (Chp α) :=
  if onBelowC < offAboveC ∧ offAboveC ≤ maxTempC then
    .ok { d with onBelowC, offAboveC, maxTempC }
  else .error .parameterOutOfRange

def withStartCost (d : Chp α) (startCost : α) : Chp α :=
  { d with startCost := Scalar.positivePart startCost }

def withSolution (d : Chp α) (s : Solution α) : Chp α :=
  { d with forced := s.flags }

def hysteresisAfter (d : Chp α) (tankC : α) : Bool :=
  if tankC < d.onBelowC then true
  else if d.offAboveC < tankC then false
  else d.hysteresisOn

def isForced (d : Chp α) (step? : Option Nat) : Bool :=
  match step? with
  | some step => d.forced[step]?.getD false
  | none => false

/-- Decides whether the unit runs at a step, given the tank temperature if there is one: the decision,
and the state of the hysteresis after it. -/
def decide (d : Chp α) (step? : Option Nat) (tankC? : Option α) : Bool × Bool :=
  match tankC? with
  | none => (d.running, d.hysteresisOn)
  | some tankC =>
    let hysteresis := d.hysteresisAfter tankC
    ((hysteresis || d.isForced step?) && Decidable.decide (tankC < d.maxTempC), hysteresis)

def outputs : List Commodity := [.activePower, .heatingHotWater, .naturalGas]

def inputs : List Commodity := [.heatingHotWater]

def start (d : Chp α) (s : RunSettings) : Chp α :=
  { d with timing := d.timing.restart s, hysteresisOn := false, running := false, starts := 0,
           terminalCost := 0 }

def step (d : Chp α) (i : StepInput α) (out : FlowMap α) : FlowMap α × Chp α :=
  let (on, hysteresisOn) :=
    d.decide (d.timing.stepIndex? i.tick) (i.flows.temperature? .heatingHotWater)
  let starts := if on && !d.running then d.starts + 1 else d.starts
  let published :=
    if on then
      ((out.setPower .activePower (-d.electricalW)).setPower .heatingHotWater
        (-d.thermalW)).setPower .naturalGas d.gasW
    else
      ((out.setPower .activePower 0).setPower .heatingHotWater 0).setPower .naturalGas 0
  (published,
    { d with hysteresisOn, running := on, starts, timing := d.timing.advance i.tick })

def settle (d : Chp α) : Chp α :=
  { d with terminalCost := Scalar.ofNat d.starts * d.startCost }

end Chp

end HomeEnergy

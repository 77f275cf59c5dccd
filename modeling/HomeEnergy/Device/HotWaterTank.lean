import HomeEnergy.Part

/-!
# Hot water tank

A tank of one water temperature. It takes up the heat supplied on the heating circuit, gives off the
domestic draw and loses heat to its surroundings, and publishes its temperature. Time below a comfort
temperature costs.

The first step of a run only publishes the initial temperature, so that other devices see the tank
before the first tick.
-/

namespace HomeEnergy

structure HotWaterTank (α : Type) where
  timing : Timing
  volumeL : α
  initialTempC : α
  ambientTempC : α
  lossWPerK : α
  minTempC : α
  penaltyPerKelvinHour : α
  tempC : α
  -- until the initial temperature is published
  initialPending : Bool
  deficitKelvinHours : α
  trace : Array α
  terminalCost : α

namespace HotWaterTank

variable {α : Type} [Scalar α]

/-- A tank at 20 °C surroundings with a loss of 2 W per kelvin and a comfort temperature of 45 °C. The
volume has to be positive. -/
def new (device : DeviceId) (referenceTime horizon : UInt64) (volumeL initialTempC : α) :
    Except Defect (HotWaterTank α) :=
  if 0 < volumeL then
    .ok
      { timing := .new device referenceTime horizon
        volumeL
        initialTempC
        ambientTempC := 20
        lossWPerK := 2
        minTempC := 45
        penaltyPerKelvinHour := 0
        tempC := initialTempC
        initialPending := true
        deficitKelvinHours := 0
        trace := #[]
        terminalCost := 0 }
  else .error .parameterOutOfRange

def withLosses (d : HotWaterTank α) (ambientTempC lossWPerK : α) : HotWaterTank α :=
  { d with ambientTempC, lossWPerK := Scalar.positivePart lossWPerK }

def withComfort (d : HotWaterTank α) (minTempC penaltyPerKelvinHour : α) : HotWaterTank α :=
  { d with minTempC, penaltyPerKelvinHour := Scalar.positivePart penaltyPerKelvinHour }

def waterHeatCapacity : α := 4186

/-- The tank after one step of supply, draw and losses. -/
def integrate (d : HotWaterTank α) (suppliedW drawnW : α) : HotWaterTank α :=
  let lossesW := d.lossWPerK * (d.tempC - d.ambientTempC)
  let netW := suppliedW - drawnW - lossesW
  let joules := netW * Scalar.ofWord d.timing.step
  let tempC := d.tempC + joules / (d.volumeL * waterHeatCapacity)
  let deficit :=
    if tempC < d.minTempC then
      d.deficitKelvinHours + (d.minTempC - tempC) * d.timing.stepHours
    else d.deficitKelvinHours
  { d with tempC, deficitKelvinHours := deficit }

def outputs : List Commodity := [.heatingHotWater]

def inputs : List Commodity := [.heatingHotWater, .domesticHotWater]

def start (d : HotWaterTank α) (s : RunSettings) : HotWaterTank α :=
  { d with timing := d.timing.restart s, tempC := d.initialTempC, initialPending := true,
           deficitKelvinHours := 0, trace := #[], terminalCost := 0 }

/-- The tank after a tick, which is the initial one if the initial temperature is not published
yet. -/
def after (d : HotWaterTank α) (i : StepInput α) : HotWaterTank α :=
  if d.initialPending then { d with initialPending := false }
  else
    let d := d.integrate (-(i.flows.power .heatingHotWater)) (i.flows.power .domesticHotWater)
    let trace := if d.timing.keepPrediction then d.trace.push d.tempC else d.trace
    { d with trace, timing := d.timing.advance i.tick }

def step (d : HotWaterTank α) (i : StepInput α) (out : FlowMap α) : FlowMap α × HotWaterTank α :=
  let d := d.after i
  (out.setTemperature .heatingHotWater d.tempC, d)

def settle (d : HotWaterTank α) : HotWaterTank α :=
  { d with terminalCost := d.deficitKelvinHours * d.penaltyPerKelvinHour }

end HotWaterTank

end HomeEnergy

import HomeEnergy.Part

/-!
# Battery

A store of electrical energy with limits on power and charge and with losses in both directions. It
follows a schedule from the solution, or offsets the power of the rest of the house at the previous
tick.

Charging is published as a positive power and discharging as a negative one. A schedule has two bits
per step (`01` charges at the greatest power, `10` discharges at the greatest power, anything else
idles) or one number per step, where zero is the greatest discharge, one the greatest charge and one
half idle.
-/

namespace HomeEnergy

inductive BatteryMode where
  | scheduled
  | selfConsumption
deriving DecidableEq, Repr, Inhabited

def BatteryMode.name : BatteryMode → String
  | scheduled => "scheduled"
  | selfConsumption => "self_consumption"

def BatteryMode.ofName? (s : String) : Option BatteryMode :=
  [scheduled, selfConsumption].find? fun m => m.name == s

structure Battery (α : Type) where
  timing : Timing
  capacityWh : α
  initialSoc : α
  soc : α
  maxChargeW : α
  maxDischargeW : α
  chargeEfficiency : α
  dischargeEfficiency : α
  penaltyPerKwh : α
  mode : BatteryMode
  -- in W, one per step
  setpoints : Array α
  lastPowerW : α
  socTrace : Array α
  terminalCost : α

namespace Battery

variable {α : Type} [Scalar α]

/-- A scheduled battery without losses. The capacity has to be positive, the state of charge has to
lie in `[0, 1]` and the power limits must not be negative. -/
def new (device : DeviceId) (referenceTime horizon step : UInt64)
    (capacityWh soc maxChargeW maxDischargeW : α) : Except Defect (Battery α) :=
  if 0 < capacityWh ∧ (0 ≤ soc ∧ soc ≤ 1) ∧ 0 ≤ maxChargeW ∧ 0 ≤ maxDischargeW then
    .ok
      { timing := (Timing.new device referenceTime horizon).withStep step
        capacityWh
        initialSoc := soc
        soc
        maxChargeW
        maxDischargeW
        chargeEfficiency := 1
        dischargeEfficiency := 1
        penaltyPerKwh := 0
        mode := .scheduled
        setpoints := #[]
        lastPowerW := 0
        socTrace := #[]
        terminalCost := 0 }
  else .error .parameterOutOfRange

def withEfficiency (d : Battery α) (charge discharge : α) : Except Defect (Battery α) :=
  if (0 < charge ∧ charge ≤ 1) ∧ 0 < discharge ∧ discharge ≤ 1 then
    .ok { d with chargeEfficiency := charge, dischargeEfficiency := discharge }
  else .error .parameterOutOfRange

def withMode (d : Battery α) (mode : BatteryMode) : Battery α :=
  { d with mode }

def withPenalty (d : Battery α) (penaltyPerKwh : α) : Battery α :=
  { d with penaltyPerKwh := Scalar.positivePart penaltyPerKwh }

def limitedPower (d : Battery α) (setpointW : α) : α :=
  if 0 ≤ setpointW then Scalar.min setpointW d.maxChargeW
  else Scalar.max setpointW (-d.maxDischargeW)

/-- Follows a setpoint for one step, first within the power limits and then within the limits of
charge: the actual power, and the battery after the step. -/
def applySetpoint (d : Battery α) (setpointW : α) : α × Battery α :=
  let hours : α := d.timing.stepHours
  let command := d.limitedPower setpointW
  if 0 < command then
    let freeWh := (1 - d.soc) * d.capacityWh / d.chargeEfficiency
    let actual := Scalar.min command (Scalar.positivePart (freeWh / hours))
    let soc := d.soc + actual * hours * d.chargeEfficiency / d.capacityWh
    (actual, { d with soc := Scalar.clamp 0 1 soc })
  else if command < 0 then
    let storedWh := d.soc * d.capacityWh * d.dischargeEfficiency
    let actual := Scalar.min (-command) (Scalar.positivePart (storedWh / hours))
    let soc := d.soc - actual * hours / (d.capacityWh * d.dischargeEfficiency)
    (-actual, { d with soc := Scalar.clamp 0 1 soc })
  else (0, d)

/-- The setpoint of a tick. Outside its schedule the battery idles. -/
def setpointAt (d : Battery α) (i : StepInput α) : α :=
  match d.mode with
  | .scheduled =>
    match d.timing.stepIndex? i.tick with
    | some k => d.setpoints[k]?.getD 0
    | none => 0
  | .selfConsumption => -(i.meter.power .activeExternal - d.lastPowerW)

def bitsSetpoint (d : Battery α) : Bool → Bool → α
  | false, true => d.maxChargeW
  | true, false => -d.maxDischargeW
  | _, _ => 0

/-- The setpoints of a series of bits, two per step; a single bit at the end idles. -/
def bitSetpoints (d : Battery α) : List Bool → List α
  | a :: b :: rest => d.bitsSetpoint a b :: bitSetpoints d rest
  | [_] => [0]
  | [] => []

def realSetpoint (d : Battery α) (x : α) : α :=
  let signed := 2 * Scalar.clamp 0 1 x - 1
  if 0 ≤ signed then signed * d.maxChargeW else signed * d.maxDischargeW

def withSolution (d : Battery α) : Solution α → Battery α
  | .binary bits => { d with setpoints := (d.bitSetpoints bits.toList).toArray }
  | .real values => { d with setpoints := values.map d.realSetpoint }

def outputs : List Commodity := [.activePower]

def variableCount (d : Battery α) : Encoding → UInt64
  | .binary => if d.mode = .scheduled then 2 * d.timing.steps else 0
  | .real => if d.mode = .scheduled then d.timing.steps else 0

/-- The battery at the start of a run, with its schedule kept. -/
def start (d : Battery α) (s : RunSettings) : Battery α :=
  { d with timing := d.timing.restart s, soc := d.initialSoc, lastPowerW := 0, socTrace := #[],
           terminalCost := 0 }

def step (d : Battery α) (i : StepInput α) (out : FlowMap α) : FlowMap α × Battery α :=
  let (power, d) := d.applySetpoint (d.setpointAt i)
  let trace := if d.timing.keepPrediction then d.socTrace.push d.soc else d.socTrace
  (out.setPower .activePower power,
    { d with lastPowerW := power, socTrace := trace, timing := d.timing.advance i.tick })

/-- Charges the terminal cost for energy below the initial state of charge. -/
def settle (d : Battery α) : Battery α :=
  let missingKwh := Scalar.positivePart (d.initialSoc - d.soc) * d.capacityWh / 1000
  { d with terminalCost := missingKwh * d.penaltyPerKwh }

end Battery

end HomeEnergy

import HomeEnergy.Part
import HomeEnergy.Random.Draw

/-!
# Charger of an electric vehicle

The vehicle is connected for one session: it arrives at a step, leaves at a deadline and needs an amount
of energy. The session is drawn from a seed or given. The solution has one switch per step of the
session; a step whose switch is on charges at the greatest power until the need is met. Energy that is
missing at the end costs a penalty.
-/

namespace HomeEnergy

/-- One connection of the vehicle, in steps from the reference time. -/
structure EvSession (α : Type) where
  arrivalStep : UInt64
  -- the first step at which the vehicle is gone
  deadlineStep : UInt64
  energyWh : α

def EvSession.dwellSteps {α : Type} (s : EvSession α) : UInt64 :=
  s.deadlineStep - s.arrivalStep

/-- The ranges that a session is drawn from. -/
structure EvRanges (α : Type) where
  demandWhMin : α
  demandWhMax : α
  dwellStepsMin : UInt64
  dwellStepsMax : UInt64

def EvRanges.default {α : Type} [Scalar α] : EvRanges α :=
  { demandWhMin := 5000, demandWhMax := 15000, dwellStepsMin := 8, dwellStepsMax := 40 }

structure EvCharger (α : Type) where
  timing : Timing
  maxChargeW : α
  penaltyPerKwh : α
  session : EvSession α
  -- one switch per step of the session
  enabled : Array Bool
  remainingWh : α
  terminalCost : α

namespace EvCharger

variable {α : Type} [Scalar α]

@[inline] def lesser (a b : UInt64) : UInt64 :=
  if b < a then b else a

def deliverableWh (timing : Timing) (maxChargeW : α) (dwell : UInt64) : α :=
  maxChargeW * timing.stepHours * Scalar.ofWord dwell

/-- Draws the length of the session, its arrival and the energy need, in this order. The length fits
the horizon and the need what can be delivered. -/
def drawSession (timing : Timing) (maxChargeW : α) (ranges : EvRanges α) :
    StateM Keystream (Except Defect (EvSession α)) := do
  let steps := timing.steps
  if steps = 0 then
    return .ok { arrivalStep := 0, deadlineStep := 0, energyWh := 0 }
  let dwellMax := lesser ranges.dwellStepsMax steps
  let dwellMin := lesser ranges.dwellStepsMin dwellMax
  match ← Draw.indexBetween dwellMin.toNat dwellMax.toNat with
  | .error e => return .error e
  | .ok dwell =>
    match ← Draw.indexBetween 0 (steps.toNat - dwell) with
    | .error e => return .error e
    | .ok arrival =>
      match ← Draw.between ranges.demandWhMin ranges.demandWhMax with
      | .error e => return .error e
      | .ok demand =>
        let dwell := UInt64.ofNat dwell
        let arrival := UInt64.ofNat arrival
        let deliverable := deliverableWh timing maxChargeW dwell
        return .ok
          { arrivalStep := arrival
            deadlineStep := arrival + dwell
            energyWh := Scalar.positivePart (Scalar.min demand deliverable) }

/-- A charger with a session drawn from a seed. The power has to be positive, the ranges have to be in
order, the energy need must not be negative and a session has at least one step. -/
def new (device : DeviceId) (referenceTime horizon step : UInt64) (maxChargeW : α)
    (ranges : EvRanges α) (seed : UInt64) : Except Defect (EvCharger α) :=
  if 0 < maxChargeW ∧ 0 ≤ ranges.demandWhMin ∧ ranges.demandWhMin ≤ ranges.demandWhMax ∧
      0 < ranges.dwellStepsMin ∧ ranges.dwellStepsMin ≤ ranges.dwellStepsMax then do
    let timing := (Timing.new device referenceTime horizon).withStep step
    let session ← ((drawSession timing maxChargeW ranges).run (.ofSeed seed)).1
    return { timing, maxChargeW, penaltyPerKwh := 0, session, enabled := #[],
             remainingWh := session.energyWh, terminalCost := 0 }
  else .error .parameterOutOfRange

/-- Replaces the session. Arrival and deadline are moved into the horizon and the energy need to what
can be delivered between them. -/
def withSession (d : EvCharger α) (arrivalStep dwellSteps : UInt64) (energyWh : α) :
    Except Defect (EvCharger α) :=
  let steps := d.timing.steps
  let arrivalStep := lesser arrivalStep steps
  let deadlineStep := lesser (arrivalStep + dwellSteps) steps
  let deliverable := deliverableWh d.timing d.maxChargeW (deadlineStep - arrivalStep)
  if 0 ≤ deliverable then
    let session := { arrivalStep, deadlineStep, energyWh := Scalar.clamp 0 deliverable energyWh }
    .ok { d with session, remainingWh := session.energyWh }
  else .error .parameterOutOfRange

def withPenalty (d : EvCharger α) (penaltyPerKwh : α) : EvCharger α :=
  { d with penaltyPerKwh := Scalar.positivePart penaltyPerKwh }

def withSolution (d : EvCharger α) (s : Solution α) : EvCharger α :=
  { d with enabled := s.flags }

def isOn (d : EvCharger α) (step : Nat) : Bool :=
  d.session.arrivalStep.toNat ≤ step && step < d.session.deadlineStep.toNat &&
    d.enabled[step - d.session.arrivalStep.toNat]?.getD false

def outputs : List Commodity := [.activePower]

def start (d : EvCharger α) (s : RunSettings) : EvCharger α :=
  { d with timing := d.timing.restart s, remainingWh := d.session.energyWh, terminalCost := 0 }

/-- Charges for one step if a step number is given and switched on: the power, and the charger after
the step. -/
def charge (d : EvCharger α) (step? : Option Nat) : α × EvCharger α :=
  match step? with
  | none => (0, d)
  | some step =>
    if d.isOn step ∧ 0 < d.remainingWh then
      let hours : α := d.timing.stepHours
      let power := Scalar.min d.maxChargeW (d.remainingWh / hours)
      (power, { d with remainingWh := Scalar.positivePart (d.remainingWh - power * hours) })
    else (0, d)

def step (d : EvCharger α) (i : StepInput α) (out : FlowMap α) : FlowMap α × EvCharger α :=
  let (power, d) := d.charge (d.timing.stepIndex? i.tick)
  (out.setPower .activePower power, { d with timing := d.timing.advance i.tick })

def settle (d : EvCharger α) : EvCharger α :=
  { d with terminalCost := d.remainingWh / 1000 * d.penaltyPerKwh }

end EvCharger

end HomeEnergy

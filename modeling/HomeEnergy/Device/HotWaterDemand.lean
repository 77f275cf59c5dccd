import HomeEnergy.Part

/-!
# Domestic hot water demand

A draw of hot water that follows the hours of the day, with peaks in the morning and in the evening. The
energy of a day is spread over its hours by fixed shares.
-/

namespace HomeEnergy

structure HotWaterDemand (α : Type) where
  timing : Timing
  dailyEnergyWh : α

namespace HotWaterDemand

variable {α : Type} [Scalar α]

def new (device : DeviceId) (referenceTime horizon : UInt64) (dailyEnergyWh : α) :
    HotWaterDemand α :=
  { timing := .new device referenceTime horizon
    dailyEnergyWh := Scalar.positivePart dailyEnergyWh }

/-- The relative use of hot water per hour of the day. -/
def hourlyShare : List α :=
  [0.2, 0.1, 0.1, 0.1, 0.2, 0.6, 1.8, 2.4, 1.6, 0.8, 0.6, 0.6,
    0.8, 0.6, 0.5, 0.5, 0.6, 0.9, 1.4, 1.8, 1.6, 1.2, 0.8, 0.4]

def hourOf (α : Type) [Scalar α] (tick : UInt64) : Nat :=
  Nat.min (Scalar.toNat ((dayFraction tick : α) * 24)) 23

/-- The draw at a tick in W: the share of the hour in the daily energy, delivered over one hour. -/
def drawW (d : HotWaterDemand α) (tick : UInt64) : α :=
  let shares : List α := hourlyShare
  d.dailyEnergyWh * shares.getD (hourOf α tick) 0 / Scalar.sum shares

def outputs : List Commodity := [.domesticHotWater]

def start (d : HotWaterDemand α) (s : RunSettings) : HotWaterDemand α :=
  { d with timing := d.timing.restart s }

def step (d : HotWaterDemand α) (i : StepInput α) (out : FlowMap α) :
    FlowMap α × HotWaterDemand α :=
  (out.setPower .domesticHotWater (d.drawW i.tick),
    { d with timing := d.timing.advance i.tick })

end HotWaterDemand

end HomeEnergy

import HomeEnergy.Part
import HomeEnergy.Random.Draw

/-!
# Base load

A household load that cannot be controlled: a sine wave over the day around a base line, with normal
noise, and the reactive power that its power factor implies. The noise starts from the seed in every
run, so that every run sees the same load.
-/

namespace HomeEnergy

/-- A load that follows a daily pattern. -/
structure BaseLoad (α : Type) where
  timing : Timing
  baseW : α
  ampW : α
  -- at zero the load rises through the base line at midnight
  phaseRad : α
  noiseStdW : α
  powerFactor : α
  isStatic : Bool
  seed : UInt64
  noise : Keystream

namespace BaseLoad

variable {α : Type} [Transcendental α]

/-- A flat load without noise. A negative base line counts as zero. -/
def new (device : DeviceId) (referenceTime horizon : UInt64) (baseW : α) (seed : UInt64) :
    BaseLoad α :=
  { timing := .new device referenceTime horizon
    baseW := Scalar.positivePart baseW
    ampW := 0
    phaseRad := 0
    noiseStdW := 0
    powerFactor := 1
    isStatic := false
    seed
    noise := .ofSeed seed }

def withProfile (d : BaseLoad α) (ampW phaseRad noiseStdW : α) : BaseLoad α :=
  { d with ampW, phaseRad, noiseStdW := Scalar.positivePart noiseStdW }

def withPowerFactor (d : BaseLoad α) (powerFactor : α) : Except Defect (BaseLoad α) :=
  if 0 < powerFactor ∧ powerFactor ≤ 1 then .ok { d with powerFactor }
  else .error .parameterOutOfRange

def withStatic (d : BaseLoad α) (isStatic : Bool) : BaseLoad α :=
  { d with isStatic }

/-- The active power at a tick in W, never negative, and the load with its noise source advanced. -/
def demandW (d : BaseLoad α) (tick : UInt64) : α × BaseLoad α :=
  let angle := 2 * Transcendental.pi * dayFraction tick + d.phaseRad
  let (noise, source) := (Draw.normalNoise d.noiseStdW).run d.noise
  (Scalar.positivePart (d.baseW + d.ampW * Transcendental.sin angle + noise),
    { d with noise := source })

def outputs : List Commodity := [.activePower, .reactivePower]

def start (d : BaseLoad α) (s : RunSettings) : BaseLoad α :=
  { d with timing := d.timing.restart s, noise := .ofSeed d.seed }

def step (d : BaseLoad α) (i : StepInput α) (out : FlowMap α) : FlowMap α × BaseLoad α :=
  let (active, d) := d.demandW i.tick
  let reactive := active * Transcendental.tan (Transcendental.acos d.powerFactor)
  ((out.setPower .activePower active).setPower .reactivePower reactive,
    { d with timing := d.timing.advance i.tick })

end BaseLoad

end HomeEnergy

import HomeEnergy.Part
import HomeEnergy.Random.Draw

/-!
# Photovoltaic system

Generation follows a half cosine between sunrise and sunset, scaled by the peak power and disturbed by
multiplicative noise. Generation is published as a negative power.
-/

namespace HomeEnergy

/-- The part of the peak generation at a tick: zero outside `[sunrise, sunset)`, one half way between
them. Sunrise and sunset are seconds of the day. -/
def daylightFraction {α : Type} [Transcendental α] (tick sunrise sunset : UInt64) : α :=
  let second := tick % 86400
  if second < sunrise ∨ sunset ≤ second then 0
  else
    let x : α := Scalar.ofWord (second - sunrise) / Scalar.ofWord (sunset - sunrise)
    Scalar.positivePart (Transcendental.cos (Transcendental.pi * (x - 0.5)))

structure PvSystem (α : Type) where
  timing : Timing
  peakW : α
  sunriseS : UInt64
  sunsetS : UInt64
  noiseStd : α
  seed : UInt64
  noise : Keystream

namespace PvSystem

variable {α : Type} [Transcendental α]

/-- A system with daylight from six to eighteen hours and without noise. A negative peak counts as
zero. -/
def new (device : DeviceId) (referenceTime horizon : UInt64) (peakW : α) : PvSystem α :=
  { timing := .new device referenceTime horizon
    peakW := Scalar.positivePart peakW
    sunriseS := 21600
    sunsetS := 64800
    noiseStd := 0
    seed := 0
    noise := .ofSeed 0 }

def withDaylight (d : PvSystem α) (sunriseS sunsetS : UInt64) : Except Defect (PvSystem α) :=
  if sunriseS < sunsetS ∧ sunsetS ≤ 86400 then .ok { d with sunriseS, sunsetS }
  else .error .parameterOutOfRange

def withNoise (d : PvSystem α) (noiseStd : α) (seed : UInt64) : PvSystem α :=
  { d with noiseStd := Scalar.positivePart noiseStd, seed, noise := .ofSeed seed }

/-- The power at a tick in W, never positive, and the system with its noise source advanced. Nothing
is drawn in the dark. -/
def generationW (d : PvSystem α) (tick : UInt64) : α × PvSystem α :=
  let fraction : α := daylightFraction tick d.sunriseS d.sunsetS
  if fraction ≤ 0 then (0, d)
  else
    let (noise, source) := (Draw.normalNoise d.noiseStd).run d.noise
    (-(Scalar.positivePart (d.peakW * fraction * (1 + noise))), { d with noise := source })

def outputs : List Commodity := [.activePower]

def start (d : PvSystem α) (s : RunSettings) : PvSystem α :=
  { d with timing := d.timing.restart s, noise := .ofSeed d.seed }

def step (d : PvSystem α) (i : StepInput α) (out : FlowMap α) : FlowMap α × PvSystem α :=
  let (power, d) := d.generationW i.tick
  (out.setPower .activePower power, { d with timing := d.timing.advance i.tick })

end PvSystem

end HomeEnergy

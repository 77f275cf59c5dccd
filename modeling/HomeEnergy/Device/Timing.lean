import HomeEnergy.Scalar
import HomeEnergy.DeviceId

/-!
# Identity and timing of a device

What every device model carries: its identity, the ticks it is optimized over, the length of a step and
the settings of the current run. The step is never zero.
-/

namespace HomeEnergy

/-- The settings of one run that every part is initialized with. -/
structure RunSettings where
  referenceTime : UInt64
  step : UInt64
  log : Bool
  keepPrediction : Bool
deriving DecidableEq, Repr, Inhabited

structure Timing where
  device : DeviceId
  referenceTime : UInt64
  horizon : UInt64
  nextTick : UInt64
  step : UInt64
  log : Bool
  keepPrediction : Bool
deriving DecidableEq, Repr, Inhabited

namespace Timing

/-- A device optimized over `[referenceTime, horizon]`, with a step of one tick. -/
def new (device : DeviceId) (referenceTime horizon : UInt64) : Timing :=
  { device, referenceTime, horizon, nextTick := referenceTime, step := 1, log := false,
    keepPrediction := false }

/-- The step in ticks that a requested step stands for: a step of zero is taken as one tick. -/
@[inline] def atLeastOne (step : UInt64) : UInt64 :=
  if step = 0 then 1 else step

theorem atLeastOne_ne_zero (step : UInt64) : atLeastOne step ≠ 0 := by
  unfold atLeastOne
  split
  · decide
  · assumption

def withStep (t : Timing) (step : UInt64) : Timing :=
  { t with step := atLeastOne step }

/-- Resets the timing for a new run. The ticks of the optimization stay. -/
def restart (t : Timing) (s : RunSettings) : Timing :=
  { t with nextTick := s.referenceTime, step := atLeastOne s.step, log := s.log,
           keepPrediction := s.keepPrediction }

def advance (t : Timing) (tick : UInt64) : Timing :=
  { t with nextTick := tick + t.step }

/-- The number of steps from the reference time to the horizon, both included. -/
def stepsInHorizon (t : Timing) (step : UInt64) : UInt64 :=
  if t.horizon < t.referenceTime then 0
  else (t.horizon - t.referenceTime) / atLeastOne step + 1

def steps (t : Timing) : UInt64 :=
  t.stepsInHorizon t.step

/-- The number of the step that a tick belongs to; there is none before the reference time. -/
def stepIndex? (t : Timing) (tick : UInt64) : Option Nat :=
  if t.referenceTime ≤ tick then some ((tick - t.referenceTime) / t.step).toNat else none

@[inline] def stepHours {α : Type} [Scalar α] (t : Timing) : α :=
  Scalar.ofWord t.step / 3600

end Timing

/-- The place of a tick within its day, from zero up to but not including one. -/
@[inline] def dayFraction {α : Type} [Scalar α] (tick : UInt64) : α :=
  Scalar.ofWord (tick % 86400) / 86400

end HomeEnergy

import HomeEnergy.Clock
import HomeEnergy.Device.Timing

/-!
# The simulated window

A run simulates the ticks from a reference time to a horizon, the horizon included, and bills those
from an optimization start on.
-/

namespace HomeEnergy

/-- The ticks of a run and the ticks that are billed. -/
structure Window where
  referenceTime : UInt64
  -- the last tick at which a schedule can change
  horizon : UInt64
  step : UInt64
  billFrom : UInt64
  billUntil : UInt64
deriving DecidableEq, Repr, Inhabited

namespace Window

/-- The window from a reference time to a horizon, billed from a start tick to its end. A step of zero
is taken as one tick. -/
def new (referenceTime horizon step start : UInt64) : Window :=
  let step := Timing.atLeastOne step
  { referenceTime, horizon, step, billFrom := start, billUntil := horizon + step }

def stop (w : Window) : UInt64 :=
  w.horizon + w.step

def clock (w : Window) : Clock :=
  { current := w.referenceTime, stop := w.stop, step := w.step }

/-- The number of simulated ticks. -/
def tickCount (w : Window) : Nat :=
  w.clock.remaining

/-- Whether a table has too little room for the meter states of the window, 80 bytes for each tick. Room is made for
the ticks that are left, and it does not last where the clock wraps round and hands out more of them, or never
stops. -/
def overflows (w : Window) : Bool :=
  maxTableBytes < 80 * w.tickCount || maxTableBytes < 80 * w.clock.ticks.length

end Window

end HomeEnergy

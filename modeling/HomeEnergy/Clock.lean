import HomeEnergy.Failure

/-!
# The simulation clock

A clock hands out the ticks of a half-open range, one step apart. Ticks are 64-bit words and a step
wraps round at the top of the range, so a step that jumps over the end can come back below it.

* `Clock.next?` is one move of the clock.
* `Clock.ticks` lists the ticks that are handed out until the clock stands at its end.
* `Clock.remaining` is the number of ticks left, computed by a division.
-/

namespace HomeEnergy

/-- A clock over `[current, stop)`. -/
structure Clock where
  current : UInt64
  stop : UInt64
  step : UInt64
deriving DecidableEq, Repr, Inhabited

namespace Clock

def new (start stop step : UInt64) : Except Defect Clock :=
  if step = 0 then .error .zeroStep else .ok { current := start, stop, step }

def remaining (c : Clock) : Nat :=
  if c.stop ≤ c.current then 0
  else ((c.stop - c.current).toNat + c.step.toNat - 1) / c.step.toNat

/-- Hands out the current tick and advances, unless the clock stands at its end. -/
def next? (c : Clock) : Option (UInt64 × Clock) :=
  if c.current < c.stop then some (c.current, { c with current := c.current + c.step }) else none

/-- The clock after `fuel` moves, or after fewer if it reaches its end, and the ticks handed out. -/
def run : Nat → Clock → List UInt64 × Clock
  | 0, c => ([], c)
  | fuel + 1, c =>
    match c.next? with
    | none => ([], c)
    | some (t, c') =>
      let (ts, last) := run fuel c'
      (t :: ts, last)

/-- A clock that has not stopped after this many moves has handed out every tick that it can reach, and never stops. -/
def maxMoves : Nat := UInt64.size

/-- All ticks that a clock hands out, and the first `maxMoves` of them if it never stops. -/
def ticks (c : Clock) : List UInt64 :=
  (run maxMoves c).1

/-- Hands out ticks up to and including the first one that a test rejects; the rejected tick, if
any, is the last component. -/
def runUntil (reject : UInt64 → Bool) : Nat → Clock → List UInt64 × Clock × Option UInt64
  | 0, c => ([], c, none)
  | fuel + 1, c =>
    match c.next? with
    | none => ([], c, none)
    | some (t, c') =>
      if reject t then ([t], c', some t)
      else
        let (ts, last, rejected) := runUntil reject fuel c'
        (t :: ts, last, rejected)

end Clock

end HomeEnergy

import HomeEnergy.MeterState
import HomeEnergy.Failure

/-!
# Load profiles

The record of the meter over a run: one meter state per simulated tick, at equal distances from a
start tick. A profile is open while entries are appended and closed at an end tick afterwards; a
closed profile takes no more entries.

As a function of time (`LoadProfile.power`) a profile keeps the value of an entry until the next one
and is zero outside its entries.
-/

namespace HomeEnergy

/-- Meter states at equal distances. -/
structure LoadProfile (α : Type) where
  start : UInt64
  step : UInt64
  entries : Array (MeterState α)
  stop? : Option UInt64

namespace LoadProfile

variable {α : Type} [Scalar α]

def new (start step : UInt64) : Except Defect (LoadProfile α) :=
  if step = 0 then .error .zeroStep
  else .ok { start, step, entries := #[], stop? := none }

def isClosed (p : LoadProfile α) : Bool :=
  p.stop?.isSome

/-- The profile with one more entry, unless it is closed. -/
def push (p : LoadProfile α) (s : MeterState α) : LoadProfile α :=
  if p.isClosed then p else { p with entries := p.entries.push s }

def close (p : LoadProfile α) (stop : UInt64) : LoadProfile α :=
  { p with stop? := some stop }

def size (p : LoadProfile α) : Nat :=
  p.entries.size

def tickAt (p : LoadProfile α) (i : Nat) : UInt64 :=
  p.start + UInt64.ofNat i * p.step

def ticks (p : LoadProfile α) : List UInt64 :=
  (List.range p.size).map p.tickAt

/-- The value of a quantity in the entry with an index, zero if there is no such entry. -/
def powerAtIndex (p : LoadProfile α) (q : MeterQuantity) (i : Nat) : α :=
  match p.entries[i]? with
  | some s => s.power q
  | none => 0

/-- The value of a quantity at a tick: that of the latest entry not after the tick, zero before the
first entry and one step or more after the last one. -/
def power (p : LoadProfile α) (q : MeterQuantity) (tick : UInt64) : α :=
  if tick < p.start then 0
  else p.powerAtIndex q ((tick - p.start) / p.step).toNat

def series (p : LoadProfile α) (q : MeterQuantity) : List α :=
  p.entries.toList.map fun s => s.power q

def samples (p : LoadProfile α) : List (UInt64 × MeterState α) :=
  (List.range p.size).map fun i => (p.tickAt i, (p.entries[i]?).getD .zero)

end LoadProfile

end HomeEnergy

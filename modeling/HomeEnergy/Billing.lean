import HomeEnergy.LoadProfile
import HomeEnergy.Tariff

/-!
# The cost of a load profile

Every priced quantity costs its price times its energy. Quantities exchanged with the public supply are
billed on import only; the others are billed with their sign, so that a priced feed-in, which is
negative, is earned back. Energy outside a power limit costs a penalty.

`energyCost` is what one entry costs and `fitness` adds up the entries of a window.
-/

namespace HomeEnergy

variable {α : Type} [Scalar α]

/-- Kilowatt hours per watt over a step, with ticks in seconds. -/
def kwhPerWatt (step : UInt64) : α :=
  Scalar.ofWord step / 3600000

/-- The part of a power that is billed: imports for a quantity exchanged with the public supply, all
of it otherwise. -/
def billedPower (q : MeterQuantity) (power : α) : α :=
  if q.isExternal then Scalar.positivePart power else power

def addEnergyCost (prices : List (MeterQuantity × PriceSignal α)) (kwh : α) (tick : UInt64)
    (power : MeterQuantity → α) (total : α) : α :=
  prices.foldl (fun acc e => acc + e.2.priceAt tick * billedPower e.1 (power e.1) * kwh) total

def addViolation (limits : List (MeterQuantity × LimitSignal α)) (kwh : α) (tick : UInt64)
    (power : MeterQuantity → α) (total : α) : α :=
  limits.foldl (fun acc e => acc + e.2.violationAt tick (power e.1) * kwh) total

/-- The cost of the entries in the ticks `[from, until)`: energy cost plus penalty. -/
@[specialize] def fitness (penaltyPerKwh : α) (start stop : UInt64) (profile : LoadProfile α)
    (signals : Signals α) : α :=
  let kwh : α := kwhPerWatt profile.step
  let prices := signals.prices.toList
  let limits := signals.limits.toList
  let (cost, penalty) := (List.range profile.size).foldl (fun (cost, penalty) i =>
    let tick := profile.tickAt i
    if inWindow start stop tick then
      let power := fun q => profile.powerAtIndex q i
      (addEnergyCost prices kwh tick power cost, addViolation limits kwh tick power penalty)
    else (cost, penalty)) (0, 0)
  cost + penalty * penaltyPerKwh

def defaultPenalty : α := 1

end HomeEnergy

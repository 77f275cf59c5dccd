import HomeEnergy.FlowMap
import HomeEnergy.MeterState
import HomeEnergy.Part

/-!
# Schedules and recordings

A schedule is what one device did over a run: one power and, where reported, one temperature per
recorded tick for each of its commodities. A recording collects the meter state of each tick and the
schedules of all parts that take part.
-/

namespace HomeEnergy

structure Series (α : Type) where
  commodity : Commodity
  powers : Array α
  temperatures : Array (Option α)

/-- What one device did. -/
structure Schedule (α : Type) where
  device : DeviceId
  kind : String
  ticks : Array UInt64
  series : List (Series α)
  terminalCost : α

namespace Schedule

variable {α : Type} [Scalar α]

def new (device : DeviceId) (kind : String) (commodities : List Commodity) : Schedule α :=
  { device
    kind
    ticks := #[]
    series := commodities.map fun c => { commodity := c, powers := #[], temperatures := #[] }
    terminalCost := 0 }

def push (s : Schedule α) (tick : UInt64) (out : FlowMap α) : Schedule α :=
  { s with
    ticks := s.ticks.push tick
    series := s.series.map fun r =>
      { r with
        powers := r.powers.push (out.power r.commodity)
        temperatures := r.temperatures.push (out.temperature? r.commodity) } }

def powers? (s : Schedule α) (c : Commodity) : Option (Array α) :=
  (s.series.find? fun r => r.commodity == c).map fun r => r.powers

/-- The energy of a commodity in kWh, with ticks in seconds. -/
def energyKwh (s : Schedule α) (c : Commodity) (step : UInt64) : α :=
  match s.powers? c with
  | some powers => Scalar.sum powers.toList * Scalar.ofWord step / 3600000
  | none => 0

def size (s : Schedule α) : Nat :=
  s.ticks.size

end Schedule

/-- What is recorded during a run. -/
structure Recording (α : Type) where
  samples : Array (UInt64 × MeterState α)
  -- by part index, none for a part that is left out
  schedules : Array (Option (Schedule α))

namespace Recording

variable {P α : Type} [Scalar α]

def empty : Recording α := { samples := #[], schedules := #[] }

/-- The recording at the start of a run: earlier records are dropped, and there is one schedule without
ticks per part that takes part. -/
def begin [Part P α] (r : Recording α) (parts : List P) : Recording α :=
  { r with
    samples := #[]
    schedules := (parts.map fun p =>
      if Part.isStatic p then none
      else some (Schedule.new (Part.device p) (Part.kind p) (Part.outputs p))).toArray }

def pushMeter (r : Recording α) (tick : UInt64) (state : MeterState α) : Recording α :=
  { r with samples := r.samples.push (tick, state) }

/-- Records the output of a part at a tick; nothing if there is no schedule for the part. -/
def pushOutput (r : Recording α) (index : Nat) (tick : UInt64) (out : FlowMap α) : Recording α :=
  { r with schedules := r.schedules.modify index fun s? => s?.map fun s => s.push tick out }

def pushOutputs (r : Recording α) (tick : UInt64) (outputs : Array (FlowMap α))
    (indices : List Nat) : Recording α :=
  indices.foldl (fun r i =>
    match outputs[i]? with
    | some out => r.pushOutput i tick out
    | none => r) r

def setTerminalCost (r : Recording α) (index : Nat) (cost : α) : Recording α :=
  { r with schedules := r.schedules.modify index fun s? =>
      s?.map fun s => { s with terminalCost := cost } }

def finished (r : Recording α) : List (Schedule α) :=
  r.schedules.toList.filterMap id

end Recording

end HomeEnergy

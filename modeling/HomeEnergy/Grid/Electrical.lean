import HomeEnergy.Grid.Relations
import HomeEnergy.MeterState

/-!
# Electrical grid

Besides delivering power, a forward exchange splits the net active power at every meter.

* A meter that imports consumes all generation behind it on site. A charging battery counts as battery
  consumption, a discharging one as battery auto-consumption.
* A meter that exports attributes the export to its generating sources in proportion to their power. The
  share of a source is rounded to whole watts, halves upwards, and the rest of its power is consumed on
  site, so that both together are the power of the source.

With a single meter and at most one source of each type the sources are looked up instead of summed.
-/

namespace HomeEnergy

/-- The parts behind a meter that take part in a run, by index. -/
structure MeterSources where
  pv : List Nat
  chp : List Nat
  battery : List Nat
deriving DecidableEq, Repr, Inhabited

def MeterSources.atMostOneEach (m : MeterSources) : Bool :=
  m.pv.length ≤ 1 && m.chp.length ≤ 1 && m.battery.length ≤ 1

section Split

variable {α : Type} [Scalar α]

/-- Adds the feed-in and the auto-consumption of one source at an exporting meter. -/
def addExportShare (net generation : α) (source? : Option α) (feedIn auto : MeterQuantity)
    (state : MeterState α) : MeterState α :=
  match source? with
  | none => state
  | some power =>
    let exported :=
      if generation < 0 then Scalar.roundHalfUp (power / generation * net) else 0
    (state.add feedIn exported).add auto (power - exported)

def addSome (q : MeterQuantity) (x? : Option α) (state : MeterState α) : MeterState α :=
  match x? with
  | some x => state.add q x
  | none => state

/-- Adds the contribution of one meter: the flows that reached it, split by the powers of the sources
behind it. A source that is not there is `none`. -/
@[specialize] def splitMeter (reached : FlowMap α) (pv chp battery : Option α)
    (state : MeterState α) : MeterState α :=
  let net := reached.power .activePower
  let state :=
    if reached.containsPower .reactivePower then
      state.add .reactiveExternal (reached.power .reactivePower)
    else state
  let state := state.add .activeExternal net
  let state := addSome .batteryConsumption (battery.filter fun b => decide (0 < b)) state
  let discharge := battery.filter fun b => decide (b ≤ 0)
  if 0 ≤ net then
    addSome .batteryAutoConsumption discharge
      (addSome .chpAutoConsumption chp (addSome .pvAutoConsumption pv state))
  else
    let generation := pv.getD 0 + chp.getD 0 + discharge.getD 0
    addExportShare net generation discharge .batteryFeedIn .batteryAutoConsumption
      (addExportShare net generation chp .chpFeedIn .chpAutoConsumption
        (addExportShare net generation pv .pvFeedIn .pvAutoConsumption state))

def publishedPower (outputs : Array (FlowMap α)) (i : Nat) : Except Defect α :=
  match outputs[i]? with
  | some out => .ok (out.power .activePower)
  | none => .error .indexOutOfRange

def firstPower (outputs : Array (FlowMap α)) : List Nat → Except Defect (Option α)
  | [] => .ok none
  | i :: _ => (publishedPower outputs i).map some

def totalPower (outputs : Array (FlowMap α)) : List Nat → Except Defect (Option α)
  | [] => .ok none
  | sources =>
    (sources.foldlM (fun acc i => (publishedPower outputs i).map fun x => acc + x) 0).map some

def addMeter (sourcePower : List Nat → Except Defect (Option α)) (sources : MeterSources)
    (reached : FlowMap α) (state : MeterState α) : Except Defect (MeterState α) := do
  let pv ← sourcePower sources.pv
  let chp ← sourcePower sources.chp
  let battery ← sourcePower sources.battery
  return splitMeter reached pv chp battery state

end Split

structure ElectricalRun (α : Type) where
  relations : ReducedRelations
  meters : List MeterSources
  accumulators : Array (FlowMap α)
  -- sources are looked up instead of summed
  singleMeter : Bool

structure ElectricalGrid (α : Type) where
  topology : Topology
  fastPath : Bool
  run? : Option (ElectricalRun α)

namespace ElectricalRun

variable {α : Type} [Scalar α]

@[specialize] def addMeters (run : ElectricalRun α) (outputs accumulators : Array (FlowMap α))
    (state : MeterState α) : Except Defect (MeterState α) :=
  let sourcePower := if run.singleMeter then firstPower outputs else totalPower outputs
  (run.meters.zip accumulators.toList).foldlM
    (fun state m => addMeter sourcePower m.1 m.2 state) state

/-- One forward exchange, which empties the accumulators first: the run with its accumulators filled,
the inputs of the parts and the meter state. -/
@[specialize] def exchange (run : ElectricalRun α) (outputs inputs : Array (FlowMap α))
    (state : MeterState α) :
    Except Defect (ElectricalRun α × Array (FlowMap α) × MeterState α) := do
  let box ← run.relations.exchangeForward false outputs
    { inputs, meters := run.accumulators.map FlowMap.clear }
  let state ← run.addMeters outputs box.meters state
  return ({ run with accumulators := box.meters }, box.inputs, state)

end ElectricalRun

namespace ElectricalGrid

variable {α : Type}

def new (t : Topology) : Except Failure (ElectricalGrid α) := do
  t.validate
  return { topology := t, fastPath := true, run? := none }

def withFastPath (g : ElectricalGrid α) (enabled : Bool) : ElectricalGrid α :=
  { g with fastPath := enabled }

def sourcesOf (t : Topology) (ps : Participants) (meter : DeviceId) : MeterSources :=
  let attached := t.meterDevices.filter fun m => m.meter == meter
  let resolve (ids : List DeviceId) : List Nat := ids.filterMap ps.activeIndex?
  { pv := attached.flatMap fun m => resolve m.pv
    chp := attached.flatMap fun m => resolve m.chp
    battery := attached.flatMap fun m => resolve m.battery }

/-- True if looking sources up is the same as summing them. -/
def looksUp (enabled : Bool) (meters : List MeterSources) : Bool :=
  match meters with
  | [m] => enabled && m.atMostOneEach
  | _ => false

/-- The grid prepared for the participants of a run, with one empty accumulator per meter. -/
def prepare [Scalar α] (g : ElectricalGrid α) (ps : Participants) : ElectricalGrid α :=
  let meters := g.topology.meters.map (sourcesOf g.topology ps)
  { g with
    run? := some
      { relations := .build g.topology ps
        meters
        accumulators := Array.replicate meters.length .unrestricted
        singleMeter := looksUp g.fastPath meters } }

/-- True if the current run looks sources up. -/
def usesFastPath (g : ElectricalGrid α) : Bool :=
  match g.run? with
  | some run => run.singleMeter
  | none => false

end ElectricalGrid

end HomeEnergy

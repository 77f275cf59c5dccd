import HomeEnergy.Grid.Electrical

/-!
# Grids

An electrical grid, or a thermal grid with a single meter that counts natural gas. Power travels in both
kinds of grid; temperatures travel in a thermal grid only.

A grid is initialized with the participants of a run, and exchanges are possible until it is finalized.
During a run a grid keeps what reached its meters in accumulators, which every forward exchange empties
before it fills them. What the meters measure is added to the meter state.
-/

namespace HomeEnergy

structure ThermalRun (α : Type) where
  relations : ReducedRelations
  -- one entry, for the one meter
  accumulators : Array (FlowMap α)

structure ThermalGrid (α : Type) where
  topology : Topology
  oneMeter : topology.meters.length = 1
  run? : Option (ThermalRun α)

def ThermalGrid.new {α : Type} (t : Topology) : Except Failure (ThermalGrid α) := do
  if h : t.meters.length = 1 then
    t.validate
    return { topology := t, oneMeter := h, run? := none }
  else .error (.thermalMeterCount t.meters.length)

namespace ThermalRun

variable {α : Type} [Scalar α]

/-- Adds the gas that reached the meter, if any was drawn. -/
def addGas (reached : FlowMap α) (state : MeterState α) : MeterState α :=
  let gas := reached.power .naturalGas
  if 0 < gas then state.add .gasExternal gas else state

/-- One forward exchange, which empties the accumulator first: the run with its accumulator filled, the
inputs of the parts and the meter state. -/
@[specialize] def exchange (run : ThermalRun α) (outputs inputs : Array (FlowMap α))
    (state : MeterState α) :
    Except Defect (ThermalRun α × Array (FlowMap α) × MeterState α) := do
  let box ← run.relations.exchangeForward true outputs
    { inputs, meters := run.accumulators.map FlowMap.clear }
  return ({ run with accumulators := box.meters }, box.inputs,
    addGas (box.meters.getD 0 .unrestricted) state)

end ThermalRun

/-- A grid of either kind. -/
inductive Grid (α : Type) where
  | electrical (grid : ElectricalGrid α)
  | thermal (grid : ThermalGrid α)

namespace Grid

variable {α : Type}

def kind : Grid α → GridKind
  | electrical _ => .electrical
  | thermal _ => .thermal

def topology : Grid α → Topology
  | electrical g => g.topology
  | thermal g => g.topology

def finalize : Grid α → Grid α
  | electrical g => electrical { g with run? := none }
  | thermal g => thermal { g with run? := none }

def relations? : Grid α → Option ReducedRelations
  | electrical g => g.run?.map fun run => run.relations
  | thermal g => g.run?.map fun run => run.relations

def isInitialized (g : Grid α) : Bool :=
  g.relations?.isSome

variable [Scalar α]

def prepare (g : Grid α) (ps : Participants) : Grid α :=
  match g with
  | electrical g => electrical (g.prepare ps)
  | thermal g =>
    thermal { g with
      run? := some
        { relations := .build g.topology ps
          accumulators := #[FlowMap.unrestricted] } }

/-- Delivers what the active parts publish: the grid after the exchange, the inputs of the parts and
the meter state. -/
@[specialize] def exchangeForward (g : Grid α) (outputs inputs : Array (FlowMap α))
    (state : MeterState α) : Except Failure (Grid α × Array (FlowMap α) × MeterState α) :=
  match g with
  | electrical g =>
    match g.run? with
    | none => .error (.gridNotInitialized .electrical)
    | some run =>
      match run.exchange outputs inputs state with
      | .error e => .error (.defect e)
      | .ok (run, inputs, state) => .ok (electrical { g with run? := some run }, inputs, state)
  | thermal g =>
    match g.run? with
    | none => .error (.gridNotInitialized .thermal)
    | some run =>
      match run.exchange outputs inputs state with
      | .error e => .error (.defect e)
      | .ok (run, inputs, state) => .ok (thermal { g with run? := some run }, inputs, state)

@[specialize] def exchangeBack (g : Grid α) (outputs inputs : Array (FlowMap α)) :
    Except Failure (Array (FlowMap α)) :=
  match g.relations? with
  | none => .error (.gridNotInitialized g.kind)
  | some relations =>
    (relations.exchangeBack (g.kind == .thermal) outputs inputs).mapError .defect

/-- Delivers what the active parts publish through every grid, into the same inputs and the same meter
state. -/
@[specialize] def deliverForward (outputs : Array (FlowMap α)) :
    List (Grid α) → Array (FlowMap α) → MeterState α →
    Except Failure (List (Grid α) × Array (FlowMap α) × MeterState α)
  | [], inputs, state => .ok ([], inputs, state)
  | g :: grids, inputs, state => do
    let (g, inputs, state) ← g.exchangeForward outputs inputs state
    let (grids, inputs, state) ← deliverForward outputs grids inputs state
    return (g :: grids, inputs, state)

@[specialize] def deliverBack (outputs : Array (FlowMap α)) (grids : List (Grid α))
    (inputs : Array (FlowMap α)) : Except Failure (Array (FlowMap α)) :=
  grids.foldlM (fun inputs g => g.exchangeBack outputs inputs) inputs

end Grid

end HomeEnergy

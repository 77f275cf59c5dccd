import HomeEnergy.FlowMap
import HomeEnergy.Grid.Topology

/-!
# Relations of a run

The relations of a topology, restricted to what the participants of a run can exchange and grouped by
the active part (`ReducedRelations.build`). Both exchanges walk this table only: forward from the active
parts to passive parts and meters, and back from the passive parts to the active ones that need input.

Several flows of one commodity into one target add up in the order of the table; of several temperatures
the last one stays.
-/

namespace HomeEnergy

inductive Target where
  | part (index : Nat)
  | meter (index : Nat)
deriving DecidableEq, Repr, Inhabited

structure FlowGroup (β : Type) where
  active : Nat
  flows : List β
deriving DecidableEq, Repr, Inhabited

/-- Groups flows by the index of the active part: ascending indices, and within a group the order of
the list. -/
def groupByActive {β : Type} (flows : List (Nat × β)) : List (FlowGroup β) :=
  let indices := ((flows.map fun f => f.1).mergeSort fun a b => decide (a ≤ b)).eraseReps
  indices.map fun i =>
    { active := i, flows := flows.filterMap fun f => if f.1 = i then some f.2 else none }

/-- The relations that the participants of a run can use. -/
structure ReducedRelations where
  forward : List (FlowGroup (Target × Commodity))
  -- into active parts, by the index of the passive part
  back : List (FlowGroup (Nat × Commodity))
deriving DecidableEq, Repr, Inhabited

namespace ReducedRelations

/-- The target of a passive end: a meter of the topology, or a passive participant. -/
def target? (t : Topology) (ps : Participants) (d : DeviceId) : Option Target :=
  match t.meters.findIdx? fun m => m == d with
  | some i => some (.meter i)
  | none => (ps.inRole? .passive d).map fun p => .part p.index

/-- The forward flow of a relation: its active end takes part and can publish the commodity, and its
passive end is a target. -/
def forwardFlow? (t : Topology) (ps : Participants) (r : Relation) :
    Option (Nat × Target × Commodity) := do
  let active ← ps.inRole? .active r.active
  if active.outputs.contains r.forward then
    let target ← target? t ps r.passive
    return (active.index, target, r.forward)
  else none

/-- The flow back along a relation: its active end needs input, and its passive end takes part and can
publish the commodity. -/
def backFlow? (ps : Participants) (r : Relation) : Option (Nat × Nat × Commodity) := do
  let active ← ps.inRole? .active r.active
  if active.needsInput then
    let passive ← ps.inRole? .passive r.passive
    if passive.outputs.contains r.back then
      return (active.index, passive.index, r.back)
    else none
  else none

/-- The relations of a topology that the participants can use. -/
def build (t : Topology) (ps : Participants) : ReducedRelations :=
  { forward := groupByActive (t.relations.filterMap (forwardFlow? t ps))
    back := groupByActive (t.relations.filterMap (backFlow? ps)) }

variable {α : Type} [Scalar α]

/-- Delivers one commodity: its power adds to the destination, and its temperature, where
temperatures travel, replaces that of the destination. -/
@[specialize] def deliver (withTemperature : Bool) (source : FlowMap α) (c : Commodity)
    (destination : FlowMap α) : FlowMap α :=
  let d := if source.containsPower c then destination.addPower c (source.power c) else destination
  if withTemperature then
    match source.temperature? c with
    | some t => d.setTemperature c t
    | none => d
  else d

/-- Applies a change to an entry of a table, which has to be there. -/
@[inline] def updateAt (table : Array (FlowMap α)) (i : Nat) (f : FlowMap α → FlowMap α) :
    Except Defect (Array (FlowMap α)) :=
  if i < table.size then .ok (table.modify i f) else .error .indexOutOfRange

/-- The inputs of the parts and the accumulators of the meters. -/
structure Inbox (α : Type) where
  inputs : Array (FlowMap α)
  meters : Array (FlowMap α)

@[specialize] def deliverTo (withTemperature : Bool) (source : FlowMap α) (box : Inbox α)
    (flow : Target × Commodity) : Except Defect (Inbox α) :=
  if source.containsCommodity flow.2 then
    match flow.1 with
    | .part i => do
      return { box with inputs := ← updateAt box.inputs i (deliver withTemperature source flow.2) }
    | .meter i => do
      return { box with meters := ← updateAt box.meters i (deliver withTemperature source flow.2) }
  else .ok box

/-- Delivers what the active parts publish. Parts that publish nothing are passed over. -/
@[specialize] def exchangeForward (r : ReducedRelations) (withTemperature : Bool)
    (outputs : Array (FlowMap α)) (box : Inbox α) : Except Defect (Inbox α) :=
  r.forward.foldlM (fun box group =>
    match outputs[group.active]? with
    | none => .error .indexOutOfRange
    | some out =>
      if out.isEmpty then .ok box
      else group.flows.foldlM (deliverTo withTemperature out) box) box

/-- Delivers what the passive parts publish to the active parts that need it. -/
@[specialize] def exchangeBack (r : ReducedRelations) (withTemperature : Bool)
    (outputs inputs : Array (FlowMap α)) : Except Defect (Array (FlowMap α)) :=
  r.back.foldlM (fun inputs group =>
    group.flows.foldlM (fun inputs flow =>
      match outputs[flow.1]? with
      | none => .error .indexOutOfRange
      | some out =>
        if out.containsCommodity flow.2 then
          updateAt inputs group.active (deliver withTemperature out flow.2)
        else .ok inputs) inputs) inputs

end ReducedRelations

end HomeEnergy

import HomeEnergy.Grid
import HomeEnergy.Part

/-!
# Problems

A problem is a list of parts and the grids between them. The grids decide the roles: a part is passive if
some grid names its device as a passive end or as a meter, and active otherwise. Parts that are left out
of runs have no role.

A device that is active in one grid and passive in the same or another one makes the problem illegal.

A problem also holds what parts exchange during a run: one map per part for what it publishes as an active
part, one for what it publishes as a passive part and one for what it receives, and the meter state. The
maps are used again in every tick and in every run; what empties them is part of the simulation.
-/

namespace HomeEnergy

/-- Parts with their roles, prepared grids, and what the parts exchange. -/
structure Problem (P α : Type) where
  parts : Array P
  grids : List (Grid α)
  -- indices of parts, ascending
  active : List Nat
  passive : List Nat
  needsInput : List Nat
  taking : List Nat
  -- by part index
  activeOutputs : Array (FlowMap α)
  passiveOutputs : Array (FlowMap α)
  inputs : Array (FlowMap α)
  meter : MeterState α

namespace Problem

section Grids

variable {α : Type}

/-- The least device that is an active end in some grid and a passive end or a meter in some grid. -/
def collision? (grids : List (Grid α)) : Option DeviceId :=
  let active := sortedIds (grids.flatMap fun g => g.topology.relations.map fun r => r.active)
  active.find? fun d => grids.any fun g => g.topology.isPassive d

/-- True if some grid makes a device passive. -/
def isPassive (grids : List (Grid α)) (d : DeviceId) : Bool :=
  grids.any fun g => g.topology.isPassive d

end Grids

variable {P α : Type} [Part P α]

def roleOf (grids : List (Grid α)) (p : P) : Role :=
  if isPassive grids (Part.device p) then .passive else .active

def participant (grids : List (Grid α)) (index : Nat) (p : P) : Participant :=
  .new (Part.device p) index (roleOf grids p) (Part.reactsToInput p) (Part.outputs p)

def indicesWhere (parts : List P) (test : P → Bool) : List Nat :=
  (List.range parts.length).filter fun i =>
    match parts[i]? with
    | some p => test p
    | none => false

def participants (grids : List (Grid α)) (parts : List P) : Participants :=
  (parts.zipIdx.filter fun e => !Part.isStatic e.1).foldl
    (fun ps e => ps.add (participant grids e.2 e.1)) .empty

/-- The problem of a list of parts and grids, with nothing exchanged yet. -/
def new [Scalar α] (parts : List P) (grids : List (Grid α)) : Except Failure (Problem P α) :=
  if parts.isEmpty then .error .emptyProblem
  else
    match collision? grids with
    | some d => .error (.activePassiveCollision d)
    | none =>
      let takes := fun p : P => !Part.isStatic p
      let ps := participants grids parts
      .ok
        { parts := parts.toArray
          grids := grids.map fun g => g.prepare ps
          active := indicesWhere parts fun p => takes p && roleOf grids p == .active
          passive := indicesWhere parts fun p => takes p && roleOf grids p == .passive
          needsInput := indicesWhere parts fun p =>
            takes p && roleOf grids p == .active && Part.reactsToInput p
          taking := indicesWhere parts takes
          activeOutputs := (parts.map fun p => FlowMap.limitedTo (Part.outputs p)).toArray
          passiveOutputs := (parts.map fun p => FlowMap.limitedTo (Part.outputs p)).toArray
          inputs := Array.replicate parts.length .unrestricted
          meter := .zero }

def takingParts (problem : Problem P α) : List P :=
  problem.taking.filterMap fun i => problem.parts[i]?

/-- The earliest reference time of the parts with a role. -/
def referenceTime (problem : Problem P α) : UInt64 :=
  match problem.takingParts.map Part.referenceTime with
  | [] => 0
  | t :: ts => ts.foldl (fun a b => if b < a then b else a) t

/-- The latest horizon of the parts with a role. -/
def horizon (problem : Problem P α) : UInt64 :=
  match problem.takingParts.map Part.horizon with
  | [] => 0
  | t :: ts => ts.foldl (fun a b => if a < b then b else a) t

def finalizeGrids (problem : Problem P α) : Problem P α :=
  { problem with grids := problem.grids.map Grid.finalize }

end Problem

end HomeEnergy

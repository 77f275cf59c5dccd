import HomeEnergy.Commodity
import HomeEnergy.Failure

/-!
# Grid topologies

A topology names the meters of a grid, the relations along which commodities flow, and the generators and
batteries behind each meter. A relation joins an active device to a passive device or a meter; one
commodity flows forward along it, from the active end, and one flows back.

In a legal topology no active end is a passive end or a meter, and devices are attached to declared meters
only (`Topology.validate`).
-/

namespace HomeEnergy

/-- A connection of an active device with a passive device or a meter. -/
structure Relation where
  active : DeviceId
  passive : DeviceId
  forward : Commodity
  back : Commodity
deriving DecidableEq, Repr, Inhabited

/-- The generators and batteries behind one meter. -/
structure MeterDevices where
  meter : DeviceId
  pv : List DeviceId
  chp : List DeviceId
  battery : List DeviceId
deriving DecidableEq, Repr, Inhabited

/-- The static description of a grid. -/
structure Topology where
  meters : List DeviceId
  relations : List Relation
  meterDevices : List MeterDevices
deriving DecidableEq, Repr, Inhabited

def sortedIds (ids : List DeviceId) : List DeviceId :=
  (ids.mergeSort fun a b => decide (a.toNat ≤ b.toNat)).eraseReps

namespace Topology

def activeIds (t : Topology) : List DeviceId :=
  sortedIds (t.relations.map fun r => r.active)

/-- The passive ends of the relations that are not meters, ascending. -/
def passiveIds (t : Topology) : List DeviceId :=
  sortedIds ((t.relations.map fun r => r.passive).filter fun d => !t.meters.contains d)

/-- True of a passive end or a meter. -/
def isPassive (t : Topology) (d : DeviceId) : Bool :=
  t.meters.contains d || t.relations.any fun r => r.passive == d

/-- The reason why a topology is not legal, if there is one: first an active end that is passive too,
then a device list of an undeclared meter. -/
def validate (t : Topology) : Except Failure Unit :=
  match t.relations.find? fun r => t.isPassive r.active with
  | some r => .error (.activePassiveCollision r.active)
  | none =>
    match t.meterDevices.find? fun m => !t.meters.contains m.meter with
    | some m => .error (.unknownDevice m.meter)
    | none => .ok ()

end Topology

/-- The role of a participating device. -/
inductive Role where
  | active
  | passive
deriving DecidableEq, Repr, Inhabited

/-- A device that takes part in a run. -/
structure Participant where
  device : DeviceId
  index : Nat
  role : Role
  needsInput : Bool
  outputs : List Commodity
deriving DecidableEq, Repr, Inhabited

/-- A participant. Only an active one can need the flows of passive parts. -/
def Participant.new (device : DeviceId) (index : Nat) (role : Role) (reactsToInput : Bool)
    (outputs : List Commodity) : Participant :=
  { device, index, role, needsInput := reactsToInput && role == .active, outputs }

structure Participants where
  entries : List Participant
deriving DecidableEq, Repr, Inhabited

namespace Participants

def empty : Participants := ⟨[]⟩

/-- Takes in a participant, in place of an earlier one of the same device. -/
def add (ps : Participants) (p : Participant) : Participants :=
  ⟨ps.entries.filter (fun q => q.device != p.device) ++ [p]⟩

def size (ps : Participants) : Nat :=
  ps.entries.length

def inRole? (ps : Participants) (role : Role) (d : DeviceId) : Option Participant :=
  (ps.entries.find? fun p => p.device == d).filter fun p => p.role == role

def activeIndex? (ps : Participants) (d : DeviceId) : Option Nat :=
  (ps.inRole? .active d).map fun p => p.index

end Participants

end HomeEnergy

import HomeEnergy.Scalar
import HomeEnergy.CommoditySet

/-!
# What a device reports or receives in one tick

A `FlowMap` holds a power and a temperature for some of the commodities it is allowed to hold. Powers
and temperatures are separate: a commodity may have one, both or none. Reading a power that is not
there gives zero, so a missing flow and a flow of nothing are the same to a reader, while
`containsPower` tells them apart.

A slot that is not present holds zero. Two maps with the same allowed commodities and the same
entries are therefore equal.
-/

namespace HomeEnergy

/-- Powers and temperatures by commodity, limited to the allowed commodities. -/
structure FlowMap (α : Type) where
  allowed : CommoditySet
  powerSet : CommoditySet
  temperatureSet : CommoditySet
  powers : Vector α 5
  temperatures : Vector α 5
deriving DecidableEq

namespace FlowMap

variable {α : Type} [Scalar α]

/-- An empty map that accepts the commodities of a set. -/
@[inline] def withAllowed (allowed : CommoditySet) : FlowMap α :=
  { allowed
    powerSet := .empty
    temperatureSet := .empty
    powers := Vector.replicate 5 0
    temperatures := Vector.replicate 5 0 }

def limitedTo (cs : List Commodity) : FlowMap α :=
  withAllowed (.ofList cs)

def unrestricted : FlowMap α :=
  withAllowed .full

instance : Inhabited (FlowMap α) := ⟨unrestricted⟩

@[inline] def allows (m : FlowMap α) (c : Commodity) : Bool :=
  m.allowed.contains c

@[inline] def containsPower (m : FlowMap α) (c : Commodity) : Bool :=
  m.powerSet.contains c

@[inline] def containsTemperature (m : FlowMap α) (c : Commodity) : Bool :=
  m.temperatureSet.contains c

@[inline] def containsCommodity (m : FlowMap α) (c : Commodity) : Bool :=
  m.containsPower c || m.containsTemperature c

/-- The power of a commodity, zero if there is none. -/
@[inline] def power (m : FlowMap α) (c : Commodity) : α :=
  if m.containsPower c then m.powers[c.index] else 0

@[inline] def temperature? (m : FlowMap α) (c : Commodity) : Option α :=
  if m.containsTemperature c then some m.temperatures[c.index] else none

/-- Stores a power over any earlier one. A commodity that is not allowed is ignored. -/
@[inline] def setPower (m : FlowMap α) (c : Commodity) (x : α) : FlowMap α :=
  if m.allows c then
    { m with powerSet := m.powerSet.insert c, powers := m.powers.set c.index x }
  else m

/-- Adds to the power that is present, or stores the first one. -/
@[inline] def addPower (m : FlowMap α) (c : Commodity) (x : α) : FlowMap α :=
  if m.containsPower c then m.setPower c (m.powers[c.index] + x) else m.setPower c x

/-- Stores a temperature over any earlier one. A commodity that is not allowed is ignored. -/
@[inline] def setTemperature (m : FlowMap α) (c : Commodity) (x : α) : FlowMap α :=
  if m.allows c then
    { m with temperatureSet := m.temperatureSet.insert c,
             temperatures := m.temperatures.set c.index x }
  else m

/-- Removes every entry and keeps the allowed commodities. -/
@[inline] def clear (m : FlowMap α) : FlowMap α :=
  withAllowed m.allowed

@[inline] def isEmpty (m : FlowMap α) : Bool :=
  m.powerSet.isEmpty && m.temperatureSet.isEmpty

def isUnrestricted (m : FlowMap α) : Bool :=
  m.allowed == .full

def powerEntries (m : FlowMap α) : List (Commodity × α) :=
  (Commodity.all.filter m.containsPower).map fun c => (c, m.powers[c.index])

def temperatureEntries (m : FlowMap α) : List (Commodity × α) :=
  (Commodity.all.filter m.containsTemperature).map fun c => (c, m.temperatures[c.index])

/-- Equality of maps, field by field. All slots are compared, those without an entry as well. An undefined
number equals nothing. -/
def same (m n : FlowMap α) : Bool :=
  m.allowed == n.allowed && m.powerSet == n.powerSet && m.temperatureSet == n.temperatureSet &&
    m.powers == n.powers && m.temperatures == n.temperatures

/-! ### What operations leave alone -/

omit [Scalar α] in
theorem setPower_of_not_allows {m : FlowMap α} {c : Commodity} (h : ¬ m.allows c = true) (x : α) :
    m.setPower c x = m :=
  if_neg h

omit [Scalar α] in
@[simp] theorem allows_setPower (m : FlowMap α) (c d : Commodity) (x : α) :
    (m.setPower c x).allows d = m.allows d := by
  unfold setPower
  split <;> rfl

@[simp] theorem clear_clear (m : FlowMap α) : m.clear.clear = m.clear := rfl

@[simp] theorem clear_setPower (m : FlowMap α) (c : Commodity) (x : α) :
    (m.setPower c x).clear = m.clear := by
  unfold setPower
  split <;> rfl

@[simp] theorem clear_setTemperature (m : FlowMap α) (c : Commodity) (x : α) :
    (m.setTemperature c x).clear = m.clear := by
  unfold setTemperature
  split <;> rfl

@[simp] theorem clear_addPower (m : FlowMap α) (c : Commodity) (x : α) :
    (m.addPower c x).clear = m.clear := by
  unfold addPower
  split <;> exact clear_setPower ..

@[simp] theorem clear_unrestricted : (unrestricted : FlowMap α).clear = unrestricted := rfl

end FlowMap

end HomeEnergy

import HomeEnergy.Scalar
import HomeEnergy.Commodity

/-!
# Prices and power limits over time

A signal is a list of windows over a default. The last listed window that contains a tick decides; a
tick that no window contains gets the default price, or no limit.

A limit is a range of powers. The amount by which a power leaves the range is its violation.
-/

namespace HomeEnergy

/-- The price of energy in the ticks `[start, stop)`. -/
structure PriceWindow (α : Type) where
  start : UInt64
  stop : UInt64
  price : α

/-- A price that is constant in each window. -/
structure PriceSignal (α : Type) where
  default : α
  -- of the windows with a tick, the last one counts
  windows : List (PriceWindow α)

/-- The allowed powers in the ticks `[start, stop)`; a missing bound allows everything on its side. -/
structure LimitWindow (α : Type) where
  start : UInt64
  stop : UInt64
  lower? : Option α
  upper? : Option α

structure LimitSignal (α : Type) where
  -- of the windows with a tick, the last one counts
  windows : List (LimitWindow α)

def inWindow (start stop tick : UInt64) : Bool :=
  start ≤ tick && tick < stop

variable {α : Type} [Scalar α]

def PriceSignal.priceAt (s : PriceSignal α) (tick : UInt64) : α :=
  match s.windows.reverse.find? (fun w => inWindow w.start w.stop tick) with
  | some w => w.price
  | none => s.default

def LimitSignal.limitsAt (s : LimitSignal α) (tick : UInt64) : Option α × Option α :=
  match s.windows.reverse.find? (fun w => inWindow w.start w.stop tick) with
  | some w => (w.lower?, w.upper?)
  | none => (none, none)

/-- The amount by which a power leaves the allowed range at a tick. -/
def LimitSignal.violationAt (s : LimitSignal α) (tick : UInt64) (power : α) : α :=
  let (lower?, upper?) := s.limitsAt tick
  let belowLower : α :=
    match lower? with
    | some lower => if power < lower then lower - power else 0
    | none => 0
  match upper? with
  | some upper => if upper < power then power - upper else belowLower
  | none => belowLower

/-- At most one entry per meter quantity, in index order. -/
structure ByQuantity (β : Type) where
  slots : Vector (Option β) 10

namespace ByQuantity

variable {β : Type}

def empty : ByQuantity β := ⟨Vector.replicate 10 none⟩

instance : Inhabited (ByQuantity β) := ⟨empty⟩

def get? (m : ByQuantity β) (q : MeterQuantity) : Option β :=
  m.slots.get q.index

/-- Stores an entry over any earlier one of the same quantity. -/
def insert (m : ByQuantity β) (q : MeterQuantity) (x : β) : ByQuantity β :=
  ⟨m.slots.set q.index.val (some x) q.index_lt⟩

/-- The entries of a list; a later entry for a quantity replaces an earlier one. -/
def ofList (xs : List (MeterQuantity × β)) : ByQuantity β :=
  xs.foldl (fun m e => m.insert e.1 e.2) empty

def toList (m : ByQuantity β) : List (MeterQuantity × β) :=
  MeterQuantity.all.filterMap fun q => (m.get? q).map fun x => (q, x)

end ByQuantity

structure Signals (α : Type) where
  prices : ByQuantity (PriceSignal α)
  limits : ByQuantity (LimitSignal α)

end HomeEnergy

/-!
# Commodities

The physical quantities that devices exchange (`Commodity`) and the quantities a meter derives from
them (`MeterQuantity`). Both sets are closed and ordered: every member has an index below the size of
its set, so that tables of five or ten entries describe a device or a meter.
-/

namespace HomeEnergy

/-- A physical quantity a device can emit or receive. -/
inductive Commodity where
  | activePower
  | reactivePower
  | heatingHotWater
  | domesticHotWater
  | naturalGas
deriving DecidableEq, Repr, Inhabited

namespace Commodity

def all : List Commodity :=
  [activePower, reactivePower, heatingHotWater, domesticHotWater, naturalGas]

def index : Commodity → Fin 5
  | activePower => 0
  | reactivePower => 1
  | heatingHotWater => 2
  | domesticHotWater => 3
  | naturalGas => 4

def name : Commodity → String
  | activePower => "ACTIVEPOWER"
  | reactivePower => "REACTIVEPOWER"
  | heatingHotWater => "HEATINGHOTWATERPOWER"
  | domesticHotWater => "DOMESTICHOTWATERPOWER"
  | naturalGas => "NATURALGASPOWER"

def ofName? (s : String) : Option Commodity :=
  all.find? (fun c => c.name == s)

theorem all_getElem_index (c : Commodity) : all[c.index.val]? = some c := by
  cases c <;> rfl

@[simp] theorem mem_all (c : Commodity) : c ∈ all := by
  cases c <;> decide

theorem index_val_ne {c d : Commodity} (h : c ≠ d) : c.index.val ≠ d.index.val := by
  cases c <;> cases d <;> first | exact absurd rfl h | decide

/-- Every index belongs to a commodity. -/
theorem exists_index_val {i : Nat} (h : i < 5) : ∃ c : Commodity, c.index.val = i := by
  match i, h with
  | 0, _ => exact ⟨activePower, rfl⟩
  | 1, _ => exact ⟨reactivePower, rfl⟩
  | 2, _ => exact ⟨heatingHotWater, rfl⟩
  | 3, _ => exact ⟨domesticHotWater, rfl⟩
  | 4, _ => exact ⟨naturalGas, rfl⟩

theorem ofName?_name (c : Commodity) : ofName? c.name = some c := by
  cases c <;> decide

end Commodity

/-- A quantity that a meter derives from the flows crossing it. -/
inductive MeterQuantity where
  -- the net exchange with the public grid, import positive
  | activeExternal
  | reactiveExternal
  | gasExternal
  | pvFeedIn
  | pvAutoConsumption
  | chpFeedIn
  | chpAutoConsumption
  | batteryFeedIn
  | batteryAutoConsumption
  | batteryConsumption
deriving DecidableEq, Repr, Inhabited

namespace MeterQuantity

def all : List MeterQuantity :=
  [activeExternal, reactiveExternal, gasExternal, pvFeedIn, pvAutoConsumption, chpFeedIn,
    chpAutoConsumption, batteryFeedIn, batteryAutoConsumption, batteryConsumption]

/-- The place of a meter quantity in `all`. -/
def index : MeterQuantity → Fin 10
  | activeExternal => 0
  | reactiveExternal => 1
  | gasExternal => 2
  | pvFeedIn => 3
  | pvAutoConsumption => 4
  | chpFeedIn => 5
  | chpAutoConsumption => 6
  | batteryFeedIn => 7
  | batteryAutoConsumption => 8
  | batteryConsumption => 9

theorem index_lt (q : MeterQuantity) : q.index.val < 10 := q.index.isLt

def name : MeterQuantity → String
  | activeExternal => "ACTIVEPOWEREXTERNAL"
  | reactiveExternal => "REACTIVEPOWEREXTERNAL"
  | gasExternal => "NATURALGASPOWEREXTERNAL"
  | pvFeedIn => "PVACTIVEPOWERFEEDIN"
  | pvAutoConsumption => "PVACTIVEPOWERAUTOCONSUMPTION"
  | chpFeedIn => "CHPACTIVEPOWERFEEDIN"
  | chpAutoConsumption => "CHPACTIVEPOWERAUTOCONSUMPTION"
  | batteryFeedIn => "BATTERYACTIVEPOWERFEEDIN"
  | batteryAutoConsumption => "BATTERYACTIVEPOWERAUTOCONSUMPTION"
  | batteryConsumption => "BATTERYACTIVEPOWERCONSUMPTION"

def ofName? (s : String) : Option MeterQuantity :=
  all.find? (fun q => q.name == s)

/-- True of the quantities exchanged with the public supply, which are billed on import only. -/
def isExternal : MeterQuantity → Bool
  | activeExternal | reactiveExternal | gasExternal => true
  | _ => false

theorem all_getElem_index (q : MeterQuantity) : all[q.index.val]? = some q := by
  cases q <;> rfl

theorem ofName?_name (q : MeterQuantity) : ofName? q.name = some q := by
  cases q <;> decide

end MeterQuantity

end HomeEnergy

import HomeEnergy.Config.Device
import HomeEnergy.Failure
import HomeEnergy.Ranking
import HomeEnergy.Search
import HomeEnergy.Tariff

/-!
# Scenario configurations

Everything that a scenario can say: the optimized time, the searches and their ranking, the devices, the
grids that join them, prices and limits. Grids refer to devices and meters by name.

Two scenarios are built in, `Config.household` and `Config.chpHousehold`.
-/

namespace HomeEnergy

/-- The optimized time and how it is simulated. -/
structure OptimizationConfig where
  referenceTime : UInt64
  horizon : UInt64
  stepSize : UInt64
  optimizationStart : UInt64
  multithreaded : Bool
  seed : UInt64
deriving DecidableEq, Repr, Inhabited

/-- The time when nothing is configured: a day in steps of a quarter of an hour. -/
def OptimizationConfig.default : OptimizationConfig :=
  { referenceTime := 0
    horizon := 85500
    stepSize := 900
    optimizationStart := 0
    multithreaded := true
    seed := 42 }

structure FitnessConfig (α : Type) where
  limitPenaltyPerKwh : α

def FitnessConfig.default {α : Type} [Scalar α] : FitnessConfig α :=
  { limitPenaltyPerKwh := 1 }

structure MeterConfig where
  name : String
  pv : List String
  chp : List String
  battery : List String
deriving DecidableEq, Repr, Inhabited

def MeterConfig.default : MeterConfig := { name := "", pv := [], chp := [], battery := [] }

structure RelationConfig where
  active : String
  passive : String
  commodity : Commodity
  back? : Option Commodity
deriving DecidableEq, Repr, Inhabited

structure GridConfig where
  meters : List MeterConfig
  relations : List RelationConfig
  fastPath : Bool
deriving DecidableEq, Repr, Inhabited

def GridConfig.default : GridConfig := { meters := [], relations := [], fastPath := true }

/-- The grids; a missing one is not built. -/
structure GridsConfig where
  electrical : Option GridConfig
  thermal : Option GridConfig
deriving DecidableEq, Repr, Inhabited

def GridsConfig.default : GridsConfig := { electrical := none, thermal := none }

structure PriceConfig (α : Type) where
  quantity : MeterQuantity
  signal : PriceSignal α

structure LimitConfig (α : Type) where
  quantity : MeterQuantity
  signal : LimitSignal α

/-- A scenario. -/
structure Config (α : Type) where
  optimization : OptimizationConfig
  ranking : Ranking α
  algorithms : List (Search α)
  fitness : FitnessConfig α
  devices : List (DeviceConfig α)
  grid : GridsConfig
  prices : List (PriceConfig α)
  limits : List (LimitConfig α)

namespace Config

def presetNames : List String := ["household", "chp_household"]

/-- The scenario with another seed for the devices and for every search. -/
def withSeed {α : Type} (c : Config α) (seed : UInt64) : Config α :=
  { c with
    optimization := { c.optimization with seed }
    algorithms := c.algorithms.map fun
      | .genetic p => .genetic { p with seed }
      | .random r => .random { r with seed } }

variable {α : Type} [Scalar α]

/-- The scenario that configures nothing. -/
def empty : Config α :=
  { optimization := .default
    ranking := .default
    algorithms := []
    fitness := .default
    devices := []
    grid := .default
    prices := []
    limits := [] }

def named (name : String) (model : DeviceModel α) : DeviceConfig α :=
  { name, id? := none, model }

def relation (active passive : String) (commodity : Commodity) : RelationConfig :=
  { active, passive, commodity, back? := none }

def flatPrice (quantity : MeterQuantity) (price : α) : PriceConfig α :=
  { quantity, signal := { default := price, windows := [] } }

/-- A base load, a photovoltaic system, a battery and a charger behind one meter, with a dearer evening and
a cheaper feed-in. -/
def household : Config α :=
  { optimization := .default
    ranking := .default
    algorithms := [.genetic .default]
    fitness := .default
    devices :=
      [named "base_load" (.baseLoad .default),
        named "pv" (.pvSystem .default),
        named "battery" (.battery .default),
        named "ev" (.evCharger .default)]
    grid :=
      { electrical := some
          { meters := [{ MeterConfig.default with
              name := "house", pv := ["pv"], battery := ["battery"] }]
            relations :=
              [relation "base_load" "house" .activePower,
                relation "base_load" "house" .reactivePower,
                relation "pv" "house" .activePower,
                relation "battery" "house" .activePower,
                relation "ev" "house" .activePower]
            fastPath := true }
        thermal := none }
    prices :=
      [{ quantity := .activeExternal
         signal :=
          { default := 0.28, windows := [{ start := 61200, stop := 75600, price := 0.42 }] } },
        flatPrice .pvFeedIn 0.08,
        flatPrice .batteryFeedIn 0.08]
    limits :=
      [{ quantity := .activeExternal
         signal :=
          { windows :=
            [{ start := 0, stop := 86400, lower? := some (-8000), upper? := some 11000 }] } }] }

/-- The household with a heat and power unit that heats a tank for a hot water demand. -/
def chpHousehold : Config α :=
  let base : Config α := household
  { base with
    devices := base.devices ++
      [named "chp" (.chp .default),
        named "tank" (.hotWaterTank .default),
        named "hot_water" (.hotWaterDemand .default)]
    grid :=
      { electrical := base.grid.electrical.map fun g =>
          { g with
            meters := g.meters.map fun m => { m with chp := m.chp ++ ["chp"] }
            relations := g.relations ++ [relation "chp" "house" .activePower] }
        thermal := some
          { meters := [{ MeterConfig.default with name := "gas" }]
            relations :=
              [relation "chp" "tank" .heatingHotWater,
                relation "hot_water" "tank" .domesticHotWater,
                relation "chp" "gas" .naturalGas]
            fastPath := false } }
    prices := base.prices ++
      [flatPrice .gasExternal 0.09, flatPrice .chpFeedIn 0.1] }

/-- The built-in scenario of a name. -/
def preset (name : String) : Except ConfigIssue (Config α) :=
  if name = "household" then .ok household
  else if name = "chp_household" then .ok chpHousehold
  else .error
    { field := "preset"
      message := "unknown preset \"" ++ name ++ "\", available: " ++
        String.intercalate ", " presetNames }

end Config

end HomeEnergy

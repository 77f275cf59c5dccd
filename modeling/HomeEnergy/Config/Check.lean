import HomeEnergy.Config

/-!
# Checking scenarios

A scenario may break constraints that its form does not rule out. `Config.issues` lists all of them in the
order of the scenario: the optimized time, the searches, the devices, the grids, prices and limits.

A constraint on a number fails for an undefined one.
-/

namespace HomeEnergy

namespace Config

def require (holds : Bool) (field message : String) : List ConfigIssue :=
  if holds then [] else [{ field, message }]

def element (list : String) (i : Nat) : String :=
  list ++ "[" ++ toString i ++ "]"

def quote (s : String) : String := "\"" ++ s ++ "\""

def windowIssues (field : String) (start stop : UInt64) : List ConfigIssue :=
  require (start < stop) field "start must be < end"

section Numbers

variable {α : Type} [Scalar α]

def isPositive (x : α) : Bool :=
  decide (0 < x) && Scalar.isFinite x

def isPositiveShare (x : α) : Bool :=
  decide (0 < x) && decide (x ≤ 1)

def isShare (x : α) : Bool :=
  decide (0 ≤ x) && decide (x ≤ 1)

/-- True of bounds in order. A missing bound is in order with every number. -/
def inOrder : Option α → Option α → Bool
  | some lower, some upper => decide (lower ≤ upper)
  | some bound, none | none, some bound => !Scalar.isNaN bound
  | none, none => true

def modelIssues (field : String → String) : DeviceModel α → List ConfigIssue
  | .baseLoad c =>
    require (isPositiveShare c.powerFactor) (field "power_factor") "must be in (0.0, 1.0]"
  | .pvSystem c =>
    require (decide (c.sunriseS < c.sunsetS) && decide (c.sunsetS ≤ 86400)) (field "sunrise_s")
      "must be < sunset_s, and sunset_s <= 86400"
  | .battery c =>
    require (isPositive c.capacityWh) (field "capacity_wh") "must be > 0" ++
    require (isShare c.initialSoc) (field "initial_soc") "must be in [0.0, 1.0]" ++
    require (decide (0 ≤ c.maxChargeW) && decide (0 ≤ c.maxDischargeW)) (field "max_charge_w")
      "power limits must be >= 0" ++
    require (isPositiveShare c.etaCharge) (field "eta_charge") "must be in (0.0, 1.0]" ++
    require (isPositiveShare c.etaDischarge) (field "eta_discharge") "must be in (0.0, 1.0]"
  | .evCharger c =>
    require (isPositive c.maxChargeW) (field "max_charge_w") "must be > 0" ++
    require (decide (0 ≤ c.demandWhMin) && decide (c.demandWhMin ≤ c.demandWhMax))
      (field "demand_wh_min") "must be >= 0 and <= demand_wh_max" ++
    require (decide (0 < c.dwellStepsMin) && decide (c.dwellStepsMin ≤ c.dwellStepsMax))
      (field "dwell_steps_min") "must be > 0 and <= dwell_steps_max"
  | .chp c =>
    require (decide (c.onBelowC < c.offAboveC) && decide (c.offAboveC ≤ c.maxTempC))
      (field "on_below_c") "must satisfy on_below_c < off_above_c <= max_temp_c"
  | .hotWaterTank c => require (isPositive c.volumeL) (field "volume_l") "must be > 0"
  | .hotWaterDemand _ => []

def deviceIssues (before : List String) (i : Nat) (d : DeviceConfig α) : List ConfigIssue :=
  let field (name : String) : String := element "devices" i ++ "." ++ name
  require (!before.contains d.name) (field "name") ("duplicate device name " ++ quote d.name) ++
    modelIssues field d.model

def priceIssues (i : Nat) (p : PriceConfig α) : List ConfigIssue :=
  let path := element "prices" i
  require (Scalar.isFinite p.signal.default) (path ++ ".default") "must be finite" ++
    p.signal.windows.zipIdx.flatMap fun (w, j) =>
      let path := element (path ++ ".windows") j
      windowIssues path w.start w.stop ++
        require (Scalar.isFinite w.price) (path ++ ".price") "must be finite"

def limitIssues (i : Nat) (l : LimitConfig α) : List ConfigIssue :=
  l.signal.windows.zipIdx.flatMap fun (w, j) =>
    let path := element (element "limits" i ++ ".windows") j
    windowIssues path w.start w.stop ++
      require (inOrder w.lower? w.upper?) path "lower must be <= upper"

end Numbers

def optimizationIssues (o : OptimizationConfig) : List ConfigIssue :=
  require (o.stepSize != 0) "optimization.step_size" "must be > 0" ++
    require (decide (o.referenceTime ≤ o.horizon)) "optimization.horizon"
      "must be >= optimization.reference_time"

def relationIssues (devices meters : List String) (path : String) (r : RelationConfig) :
    List ConfigIssue :=
  require (devices.contains r.active) (path ++ ".active") ("unknown device " ++ quote r.active) ++
    require (devices.contains r.passive || meters.contains r.passive) (path ++ ".passive")
      ("unknown device or meter " ++ quote r.passive)

def meterIssues (devices : List String) (path : String) (m : MeterConfig) : List ConfigIssue :=
  require (!devices.contains m.name) (path ++ ".name")
      ("meter " ++ quote m.name ++ " shadows a device") ++
    (m.pv ++ m.chp ++ m.battery).flatMap fun d =>
      require (devices.contains d) path ("unknown device " ++ quote d)

def gridIssues (devices : List String) (kind : GridKind) (g : GridConfig) : List ConfigIssue :=
  let path := "grid." ++ kind.name
  let meters := g.meters.map fun m => m.name
  (g.relations.zipIdx.flatMap fun (r, i) =>
    relationIssues devices meters (element (path ++ ".relations") i) r) ++
  g.meters.zipIdx.flatMap fun (m, i) => meterIssues devices (element (path ++ ".meters") i) m

variable {α : Type} [Scalar α]

/-- Every constraint that a scenario breaks. -/
def issues (c : Config α) : List ConfigIssue :=
  let names := c.devices.map fun d => d.name
  optimizationIssues c.optimization ++
  require (!c.algorithms.isEmpty) "algorithms" "at least one algorithm is required" ++
  require (!c.devices.isEmpty) "devices" "at least one device is required" ++
  (c.devices.zipIdx.flatMap fun (d, i) => deviceIssues (names.take i) i d) ++
  (c.grid.electrical.toList.flatMap (gridIssues names .electrical)) ++
  (c.grid.thermal.toList.flatMap (gridIssues names .thermal)) ++
  (c.prices.zipIdx.flatMap fun (p, i) => priceIssues i p) ++
  c.limits.zipIdx.flatMap fun (l, i) => limitIssues i l

end Config

end HomeEnergy

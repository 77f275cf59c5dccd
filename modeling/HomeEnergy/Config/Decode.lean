import HomeEnergy.Config
import HomeEnergy.Toml.Decode
import HomeEnergy.Toml.Document

/-!
# Scenario files

What the parts of a scenario look like as values of a scenario file. Most fields have defaults. A field that
a record does not have is refused everywhere but in the ranking.
-/

namespace HomeEnergy

open Toml

namespace Config

def texts? : Value → Option (List String) := Value.listOf? Value.text?

def optimization? (v : Value) : Option OptimizationConfig := do
  let es ← v.record? .plain
    ["reference_time", "horizon", "step_size", "optimization_start", "multithreaded", "seed"]
  let d := OptimizationConfig.default
  return {
    referenceTime := ← es.field "reference_time" Value.word? d.referenceTime
    horizon := ← es.field "horizon" Value.word? d.horizon
    stepSize := ← es.field "step_size" Value.word? d.stepSize
    optimizationStart := ← es.field "optimization_start" Value.word? d.optimizationStart
    multithreaded := ← es.field "multithreaded" Value.truth? d.multithreaded
    seed := ← es.field "seed" Value.word? d.seed }

/-- The fields of a ranking that has the given ones. Others are ignored in a table. -/
def rankingFields? (names : List String) : Value → Option Entries
  | .table _ es => some es
  | v => v.record? .variant names

def ranking? (v : Value) : Option (Ranking Double) := do
  let (strategy, rest) ← v.variant? "strategy"
  let weights : Option (List Double) := do
    let es ← rankingFields? ["weights"] rest
    es.required "weights" (Value.listOf? Value.float?)
  match strategy with
  | "dominance" => (rankingFields? [] rest).map fun _ => .dominance
  | "single_objective" =>
    let es ← rankingFields? ["index"] rest
    return .singleObjective (← es.field "index" Value.word? 0).toNat
  | "weighted_sum" => weights.map .weightedSum
  | "chebyshev" => weights.map .chebyshev
  | "nash_bargaining" => (rankingFields? [] rest).map fun _ => .nashBargaining
  | _ => none

def encoding? : Value → Option Encoding := Value.choice? .variant Encoding.ofName?

def genetic? (v : Value) : Option (GeneticParams Double) := do
  let es ← v.record? .variant
    ["encoding", "population_size", "generations", "max_evaluations", "crossover_rate",
      "mutation_rate", "mutation_sigma", "tournament_size", "elitism", "seed", "threads"]
  let d : GeneticParams Double := .default
  return {
    encoding := ← es.field "encoding" encoding? d.encoding
    populationSize := ← es.field "population_size" Value.word? d.populationSize
    generations := ← es.field "generations" Value.word? d.generations
    maxEvaluations := ← es.optionalField "max_evaluations" Value.word?
    crossoverRate := ← es.field "crossover_rate" Value.float? d.crossoverRate
    mutationRate := ← es.optionalField "mutation_rate" Value.float?
    mutationSigma := ← es.field "mutation_sigma" Value.float? d.mutationSigma
    tournamentSize := ← es.field "tournament_size" Value.word? d.tournamentSize
    elitism := ← es.field "elitism" Value.word? d.elitism
    seed := ← es.field "seed" Value.word? d.seed
    threads := ← es.field "threads" Value.word? d.threads }

def random? (v : Value) : Option RandomSearch := do
  let es ← v.record? .variant ["encoding", "samples", "seed"]
  let d := RandomSearch.default
  return {
    encoding := ← es.field "encoding" encoding? d.encoding
    samples := ← es.field "samples" Value.word? d.samples
    seed := ← es.field "seed" Value.word? d.seed }

def algorithm? (v : Value) : Option (Search Double) := do
  let (kind, rest) ← v.variant? "kind"
  match kind with
  | "genetic" => return .genetic (← genetic? rest)
  | "random" => return .random (← random? rest)
  | _ => none

def fitness? (v : Value) : Option (FitnessConfig Double) := do
  let es ← v.record? .plain ["limit_penalty_per_kwh"]
  let d : FitnessConfig Double := .default
  return {
    limitPenaltyPerKwh := ← es.field "limit_penalty_per_kwh" Value.float? d.limitPenaltyPerKwh }

def baseLoad? (v : Value) : Option (BaseLoadConfig Double) := do
  let es ← v.record? .variant
    ["base_w", "amp_w", "phase_rad", "noise_std_w", "power_factor", "completely_static"]
  let d : BaseLoadConfig Double := .default
  return {
    baseW := ← es.field "base_w" Value.float? d.baseW
    ampW := ← es.field "amp_w" Value.float? d.ampW
    phaseRad := ← es.field "phase_rad" Value.float? d.phaseRad
    noiseStdW := ← es.field "noise_std_w" Value.float? d.noiseStdW
    powerFactor := ← es.field "power_factor" Value.float? d.powerFactor
    completelyStatic := ← es.field "completely_static" Value.truth? d.completelyStatic }

def pvSystem? (v : Value) : Option (PvConfig Double) := do
  let es ← v.record? .variant ["peak_w", "sunrise_s", "sunset_s", "noise_std"]
  let d : PvConfig Double := .default
  return {
    peakW := ← es.field "peak_w" Value.float? d.peakW
    sunriseS := ← es.field "sunrise_s" Value.word? d.sunriseS
    sunsetS := ← es.field "sunset_s" Value.word? d.sunsetS
    noiseStd := ← es.field "noise_std" Value.float? d.noiseStd }

def battery? (v : Value) : Option (BatteryConfig Double) := do
  let es ← v.record? .variant
    ["mode", "capacity_wh", "initial_soc", "max_charge_w", "max_discharge_w", "eta_charge",
      "eta_discharge", "penalty_per_kwh"]
  let d : BatteryConfig Double := .default
  return {
    mode := ← es.field "mode" (Value.choice? .variant BatteryMode.ofName?) d.mode
    capacityWh := ← es.field "capacity_wh" Value.float? d.capacityWh
    initialSoc := ← es.field "initial_soc" Value.float? d.initialSoc
    maxChargeW := ← es.field "max_charge_w" Value.float? d.maxChargeW
    maxDischargeW := ← es.field "max_discharge_w" Value.float? d.maxDischargeW
    etaCharge := ← es.field "eta_charge" Value.float? d.etaCharge
    etaDischarge := ← es.field "eta_discharge" Value.float? d.etaDischarge
    penaltyPerKwh := ← es.field "penalty_per_kwh" Value.float? d.penaltyPerKwh }

def evCharger? (v : Value) : Option (EvConfig Double) := do
  let es ← v.record? .variant
    ["max_charge_w", "demand_wh_min", "demand_wh_max", "dwell_steps_min", "dwell_steps_max",
      "penalty_per_kwh"]
  let d : EvConfig Double := .default
  return {
    maxChargeW := ← es.field "max_charge_w" Value.float? d.maxChargeW
    demandWhMin := ← es.field "demand_wh_min" Value.float? d.demandWhMin
    demandWhMax := ← es.field "demand_wh_max" Value.float? d.demandWhMax
    dwellStepsMin := ← es.field "dwell_steps_min" Value.word? d.dwellStepsMin
    dwellStepsMax := ← es.field "dwell_steps_max" Value.word? d.dwellStepsMax
    penaltyPerKwh := ← es.field "penalty_per_kwh" Value.float? d.penaltyPerKwh }

def chp? (v : Value) : Option (ChpConfig Double) := do
  let es ← v.record? .variant
    ["electrical_w", "thermal_w", "gas_w", "on_below_c", "off_above_c", "max_temp_c",
      "start_cost"]
  let d : ChpConfig Double := .default
  return {
    electricalW := ← es.field "electrical_w" Value.float? d.electricalW
    thermalW := ← es.field "thermal_w" Value.float? d.thermalW
    gasW := ← es.field "gas_w" Value.float? d.gasW
    onBelowC := ← es.field "on_below_c" Value.float? d.onBelowC
    offAboveC := ← es.field "off_above_c" Value.float? d.offAboveC
    maxTempC := ← es.field "max_temp_c" Value.float? d.maxTempC
    startCost := ← es.field "start_cost" Value.float? d.startCost }

def hotWaterTank? (v : Value) : Option (TankConfig Double) := do
  let es ← v.record? .variant
    ["volume_l", "initial_temp_c", "ambient_temp_c", "loss_w_per_k", "min_temp_c",
      "penalty_per_kelvin_hour"]
  let d : TankConfig Double := .default
  return {
    volumeL := ← es.field "volume_l" Value.float? d.volumeL
    initialTempC := ← es.field "initial_temp_c" Value.float? d.initialTempC
    ambientTempC := ← es.field "ambient_temp_c" Value.float? d.ambientTempC
    lossWPerK := ← es.field "loss_w_per_k" Value.float? d.lossWPerK
    minTempC := ← es.field "min_temp_c" Value.float? d.minTempC
    penaltyPerKelvinHour :=
      ← es.field "penalty_per_kelvin_hour" Value.float? d.penaltyPerKelvinHour }

def hotWaterDemand? (v : Value) : Option (HotWaterDemandConfig Double) := do
  let es ← v.record? .variant ["daily_energy_wh"]
  let d : HotWaterDemandConfig Double := .default
  return { dailyEnergyWh := ← es.field "daily_energy_wh" Value.float? d.dailyEnergyWh }

def model? (kind : String) (v : Value) : Option (DeviceModel Double) :=
  match kind with
  | "base_load" => (baseLoad? v).map .baseLoad
  | "pv_system" => (pvSystem? v).map .pvSystem
  | "battery" => (battery? v).map .battery
  | "ev_charger" => (evCharger? v).map .evCharger
  | "chp" => (chp? v).map .chp
  | "hot_water_tank" => (hotWaterTank? v).map .hotWaterTank
  | "hot_water_demand" => (hotWaterDemand? v).map .hotWaterDemand
  | _ => none

/-- A device: a table with a name, a kind, perhaps an identity, and the parameters of the kind. -/
def device? : Value → Option (DeviceConfig Double)
  | .table form es => do
    let name ← Entries.required es "name" Value.text?
    let id? ← Entries.optionalField es "id" Value.device?
    let own := Entries.erase (Entries.erase es "name") "id"
    let (kind, rest) ← (Value.table form own).variant? "kind"
    return { name, id?, model := ← model? kind rest }
  | _ => none

def meter? (v : Value) : Option MeterConfig := do
  let es ← v.record? .plain ["name", "pv", "chp", "battery"]
  let d := MeterConfig.default
  return {
    name := ← es.field "name" Value.text? d.name
    pv := ← es.field "pv" texts? d.pv
    chp := ← es.field "chp" texts? d.chp
    battery := ← es.field "battery" texts? d.battery }

def commodity? : Value → Option Commodity := Value.choice? .plain Commodity.ofName?

def quantity? : Value → Option MeterQuantity := Value.choice? .plain MeterQuantity.ofName?

def relation? (v : Value) : Option RelationConfig := do
  let es ← v.record? .plain ["active", "passive", "commodity", "back"]
  return {
    active := ← es.required "active" Value.text?
    passive := ← es.required "passive" Value.text?
    commodity := ← es.required "commodity" commodity?
    back? := ← es.optionalField "back" commodity? }

def grid? (v : Value) : Option GridConfig := do
  let es ← v.record? .plain ["meters", "relations", "fast_path"]
  let d := GridConfig.default
  return {
    meters := ← es.field "meters" (Value.listOf? meter?) d.meters
    relations := ← es.field "relations" (Value.listOf? relation?) d.relations
    fastPath := ← es.field "fast_path" Value.truth? d.fastPath }

def grids? (v : Value) : Option GridsConfig := do
  let es ← v.record? .plain ["electrical", "thermal"]
  return {
    electrical := ← es.optionalField "electrical" grid?
    thermal := ← es.optionalField "thermal" grid? }

def priceWindow? (v : Value) : Option (PriceWindow Double) := do
  let es ← v.record? .plain ["start", "end", "price"]
  return {
    start := ← es.required "start" Value.word?
    stop := ← es.required "end" Value.word?
    price := ← es.required "price" Value.float? }

def price? (v : Value) : Option (PriceConfig Double) := do
  let es ← v.record? .plain ["commodity", "default", "windows"]
  return {
    quantity := ← es.required "commodity" quantity?
    signal := {
      default := ← es.required "default" Value.float?
      windows := ← es.field "windows" (Value.listOf? priceWindow?) [] } }

def limitWindow? (v : Value) : Option (LimitWindow Double) := do
  let es ← v.record? .plain ["start", "end", "lower", "upper"]
  return {
    start := ← es.required "start" Value.word?
    stop := ← es.required "end" Value.word?
    lower? := ← es.optionalField "lower" Value.float?
    upper? := ← es.optionalField "upper" Value.float? }

def limit? (v : Value) : Option (LimitConfig Double) := do
  let es ← v.record? .plain ["commodity", "windows"]
  return {
    quantity := ← es.required "commodity" quantity?
    signal := { windows := ← es.field "windows" (Value.listOf? limitWindow?) [] } }

def ofValue? (v : Value) : Option (Config Double) := do
  let es ← v.record? .plain
    ["optimization", "ranking", "algorithms", "fitness", "devices", "grid", "prices", "limits"]
  let d : Config Double := .empty
  return {
    optimization := ← es.field "optimization" optimization? d.optimization
    ranking := ← es.field "ranking" ranking? d.ranking
    algorithms := ← es.field "algorithms" (Value.listOf? algorithm?) d.algorithms
    fitness := ← es.field "fitness" fitness? d.fitness
    devices := ← es.field "devices" (Value.listOf? device?) d.devices
    grid := ← es.field "grid" grids? d.grid
    prices := ← es.field "prices" (Value.listOf? price?) d.prices
    limits := ← es.field "limits" (Value.listOf? limit?) d.limits }

def ofString? (text : String) : Option (Config Double) := do
  ofValue? (.table .header (← Document.ofString? text))

end Config

end HomeEnergy

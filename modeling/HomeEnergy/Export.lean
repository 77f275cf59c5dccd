import HomeEnergy.Csv
import HomeEnergy.Decimal
import HomeEnergy.Kpi
import HomeEnergy.Schedule

/-!
# Tables and reports

The load profile and the schedules as tables of comma-separated values, and the key figures as text. Powers
have four places and temperatures two.
-/

namespace HomeEnergy

def LoadProfile.csvHeader : List String :=
  "tick" :: MeterQuantity.all.map fun q => q.name.map Char.toLower

def LoadProfile.csvRow (tick : UInt64) (s : MeterState Double) : List String :=
  toString tick :: MeterQuantity.all.map fun q => Decimal.fixedPlaces 4 (s.power q)

def LoadProfile.toCsv (p : LoadProfile Double) : String :=
  Csv.text (csvHeader :: p.samples.map fun e => csvRow e.1 e.2)

structure DeviceNames where
  -- in ascending order of the devices, one name per device
  entries : List (DeviceId × String)
deriving DecidableEq, Repr, Inhabited

namespace DeviceNames

def empty : DeviceNames := ⟨[]⟩

def insert (names : DeviceNames) (d : DeviceId) (name : String) : DeviceNames :=
  let before := names.entries.filter fun e => decide (e.1.toNat < d.toNat)
  let after := names.entries.filter fun e => decide (d.toNat < e.1.toNat)
  ⟨before ++ (d, name) :: after⟩

/-- The names of a list; a later name of a device replaces an earlier one. -/
def ofList (entries : List (DeviceId × String)) : DeviceNames :=
  entries.foldl (fun names e => names.insert e.1 e.2) empty

def get? (names : DeviceNames) (d : DeviceId) : Option String :=
  (names.entries.find? fun e => e.1 == d).map fun e => e.2

end DeviceNames

namespace Schedule

def csvHeader : List String :=
  ["device", "kind", "tick", "commodity", "power_w", "temperature_c"]

def temperatureCell : Option (Option Double) → String
  | some (some t) => Decimal.fixedPlaces 2 t
  | _ => ""

/-- The rows of one tick of a schedule: one per series. A series that is too short counts as zero
power and no temperature. -/
def csvRows (name : String) (s : Schedule Double) (i : Nat) (tick : UInt64) : List (List String) :=
  s.series.map fun r =>
    [name, s.kind, toString tick, r.commodity.name,
      Decimal.fixedPlaces 4 (r.powers[i]?.getD 0), temperatureCell r.temperatures[i]?]

/-- The table of schedules, row by row for each device, tick and commodity. A device without a name
goes by its identifier. -/
def toCsv (schedules : List (Schedule Double)) (names : DeviceNames) : String :=
  Csv.text (csvHeader :: schedules.flatMap fun s =>
    let name := (names.get? s.device).getD s.device.toString
    s.ticks.toList.zipIdx.flatMap fun (tick, i) => csvRows name s i tick)

end Schedule

/-- The report of key figures, without a line end behind the last line. -/
def Kpi.report (k : Kpi Double) : String :=
  String.intercalate "\n"
    ["--- KPI Report ---",
      "Grid import:           " ++ Decimal.fixedPlaces 2 k.importKwh ++ " kWh",
      "Grid export:           " ++ Decimal.fixedPlaces 2 k.exportKwh ++ " kWh",
      "Peak import:           " ++ Decimal.fixedPlaces 0 k.peakImportW ++ " W",
      "Peak export:           " ++ Decimal.fixedPlaces 0 k.peakExportW ++ " W",
      "PV self-consumption:   " ++ Decimal.fixedPlaces 1 (k.pvSelfConsumption * 100) ++ "%",
      "Natural gas:           " ++ Decimal.fixedPlaces 2 k.gasKwh ++ " kWh",
      "Energy cost:           " ++ Decimal.fixedPlaces 3 k.energyCost]

end HomeEnergy

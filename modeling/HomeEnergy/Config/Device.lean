import HomeEnergy.Device.Battery

/-!
# Configured devices

The parameters of each device model as a scenario gives them, with the values that stand in for missing ones.
-/

namespace HomeEnergy

structure BaseLoadConfig (α : Type) where
  baseW : α
  ampW : α
  phaseRad : α
  noiseStdW : α
  powerFactor : α
  completelyStatic : Bool

structure PvConfig (α : Type) where
  peakW : α
  sunriseS : UInt64
  sunsetS : UInt64
  noiseStd : α

structure BatteryConfig (α : Type) where
  mode : BatteryMode
  capacityWh : α
  initialSoc : α
  maxChargeW : α
  maxDischargeW : α
  etaCharge : α
  etaDischarge : α
  penaltyPerKwh : α

structure EvConfig (α : Type) where
  maxChargeW : α
  demandWhMin : α
  demandWhMax : α
  dwellStepsMin : UInt64
  dwellStepsMax : UInt64
  penaltyPerKwh : α

structure ChpConfig (α : Type) where
  electricalW : α
  thermalW : α
  gasW : α
  onBelowC : α
  offAboveC : α
  maxTempC : α
  startCost : α

structure TankConfig (α : Type) where
  volumeL : α
  initialTempC : α
  ambientTempC : α
  lossWPerK : α
  minTempC : α
  penaltyPerKelvinHour : α

structure HotWaterDemandConfig (α : Type) where
  dailyEnergyWh : α

inductive DeviceModel (α : Type) where
  | baseLoad (c : BaseLoadConfig α)
  | pvSystem (c : PvConfig α)
  | battery (c : BatteryConfig α)
  | evCharger (c : EvConfig α)
  | chp (c : ChpConfig α)
  | hotWaterTank (c : TankConfig α)
  | hotWaterDemand (c : HotWaterDemandConfig α)

def DeviceModel.name {α : Type} : DeviceModel α → String
  | baseLoad _ => "base_load"
  | pvSystem _ => "pv_system"
  | battery _ => "battery"
  | evCharger _ => "ev_charger"
  | chp _ => "chp"
  | hotWaterTank _ => "hot_water_tank"
  | hotWaterDemand _ => "hot_water_demand"

structure DeviceConfig (α : Type) where
  name : String
  id? : Option DeviceId
  model : DeviceModel α

section Defaults

variable {α : Type} [Scalar α]

def BaseLoadConfig.default : BaseLoadConfig α :=
  { baseW := 600
    ampW := 300
    phaseRad := 1.2
    noiseStdW := 40
    powerFactor := 0.95
    completelyStatic := false }

def PvConfig.default : PvConfig α :=
  { peakW := 5000, sunriseS := 21600, sunsetS := 64800, noiseStd := 0.05 }

def BatteryConfig.default : BatteryConfig α :=
  { mode := .scheduled
    capacityWh := 10000
    initialSoc := 0.5
    maxChargeW := 5000
    maxDischargeW := 5000
    etaCharge := 0.95
    etaDischarge := 0.95
    penaltyPerKwh := 0.3 }

def EvConfig.default : EvConfig α :=
  { maxChargeW := 7200
    demandWhMin := 4000
    demandWhMax := 14000
    dwellStepsMin := 12
    dwellStepsMax := 40
    penaltyPerKwh := 1 }

def ChpConfig.default : ChpConfig α :=
  { electricalW := 1000
    thermalW := 2500
    gasW := 4000
    onBelowC := 55
    offAboveC := 70
    maxTempC := 80
    startCost := 0.05 }

def TankConfig.default : TankConfig α :=
  { volumeL := 300
    initialTempC := 60
    ambientTempC := 20
    lossWPerK := 2
    minTempC := 45
    penaltyPerKelvinHour := 0.1 }

def HotWaterDemandConfig.default : HotWaterDemandConfig α :=
  { dailyEnergyWh := 6000 }

end Defaults

end HomeEnergy

import HomeEnergy.Billing

/-!
# Key figures of a load profile

Energy drawn from and fed into the public grid, peaks, the share of photovoltaic generation that stays
in the house, gas and energy cost. All are computed from the profile that the cost is computed from,
with the same billing rule.
-/

namespace HomeEnergy

structure Kpi (α : Type) where
  importKwh : α
  exportKwh : α
  peakImportW : α
  peakExportW : α
  pvSelfConsumption : α
  gasKwh : α
  energyCost : α

namespace Kpi

variable {α : Type} [Scalar α]

structure Totals (α : Type) where
  importKwh : α
  exportKwh : α
  peakImportW : α
  peakExportW : α
  pvAutoKwh : α
  pvFeedInKwh : α
  gasKwh : α
  energyCost : α

def Totals.add (prices : List (MeterQuantity × PriceSignal α)) (kwh : α) (tick : UInt64)
    (power : MeterQuantity → α) (t : Totals α) : Totals α :=
  let external := power .activeExternal
  { importKwh := t.importKwh + Scalar.positivePart external * kwh
    exportKwh := t.exportKwh + Scalar.positivePart (-external) * kwh
    peakImportW := Scalar.max t.peakImportW external
    peakExportW := Scalar.max t.peakExportW (-external)
    pvAutoKwh := t.pvAutoKwh + -(power .pvAutoConsumption) * kwh
    pvFeedInKwh := t.pvFeedInKwh + -(power .pvFeedIn) * kwh
    gasKwh := t.gasKwh + Scalar.positivePart (power .gasExternal) * kwh
    energyCost := addEnergyCost prices kwh tick power t.energyCost }

/-- The figures of totals. Without photovoltaic generation nothing of it is consumed. -/
def Totals.toKpi (t : Totals α) : Kpi α :=
  let pvTotal := t.pvAutoKwh + t.pvFeedInKwh
  { importKwh := t.importKwh
    exportKwh := t.exportKwh
    peakImportW := t.peakImportW
    peakExportW := t.peakExportW
    pvSelfConsumption := if 0 < pvTotal then t.pvAutoKwh / pvTotal else 0
    gasKwh := t.gasKwh
    energyCost := t.energyCost }

/-- The figures of a profile under given prices. -/
@[specialize] def ofProfile (profile : LoadProfile α) (prices : ByQuantity (PriceSignal α)) :
    Kpi α :=
  let kwh : α := kwhPerWatt profile.step
  let entries := prices.toList
  let zero : Totals α := ⟨0, 0, 0, 0, 0, 0, 0, 0⟩
  ((List.range profile.size).foldl (fun t i =>
    t.add entries kwh (profile.tickAt i) (fun q => profile.powerAtIndex q i)) zero).toKpi

end Kpi

end HomeEnergy

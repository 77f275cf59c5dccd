import HomeEnergy.Optimizer
import HomeEnergy.Proofs.Distribution
import HomeEnergy.Proofs.Readiness

/-!
# Which plans are accepted

A plan has an evaluator unless it has no parts, or a device stands on both sides of its grids. The second
half of the module is such a plan, for the places where a statement about all plans is tried on one: a
household with all seven device models, a load that is left out, an electrical and a thermal grid.

* `Problem.collision?_eq_none` — when no device stands on both sides.
* `Plan.exists_evaluator_iff` — **when a plan has an evaluator**.
* `household` — the plan; `household_evaluator` — it has one; `household_width` — how wide its solutions are.
-/

namespace HomeEnergy

theorem mem_sortedIds {ids : List DeviceId} {d : DeviceId} : d ∈ sortedIds ids ↔ d ∈ ids := by
  rw [sortedIds, mem_eraseReps, List.mem_mergeSort]

namespace Problem

/-- No device stands on both sides if no active end is passive in any grid. -/
theorem collision?_eq_none {α : Type} {grids : List (Grid α)} :
    collision? grids = none ↔
      ∀ g ∈ grids, ∀ r ∈ g.topology.relations, ∀ g' ∈ grids, ¬g'.topology.isPassive r.active := by
  simp only [collision?, List.find?_eq_none, mem_sortedIds, List.mem_flatMap, List.mem_map]
  constructor
  · intro h g hg r hr g' hg' hpassive
    exact h r.active ⟨g, hg, r, hr, rfl⟩ (List.any_eq_true.mpr ⟨g', hg', hpassive⟩)
  · rintro h d ⟨g, hg, r, hr, rfl⟩ hany
    obtain ⟨g', hg', hpassive⟩ := List.any_eq_true.mp hany
    exact h g hg r hr g' hg' hpassive

variable {P α : Type} [Scalar α] [Part P α]

/-- A list of parts without a collision makes a problem. -/
theorem exists_new_iff {parts : List P} {grids : List (Grid α)} :
    (∃ problem : Problem P α, Problem.new parts grids = .ok problem) ↔
      parts ≠ [] ∧ collision? grids = none := by
  unfold Problem.new
  cases parts with
  | nil => simp
  | cons p parts =>
    cases hcollision : collision? grids with
    | some d => simp
    | none => simp

end Problem

namespace Plan

variable {P α : Type} [Scalar α] [Part P α] {plan : Plan P α}

/-- The evaluator of a plan, written out. -/
theorem evaluator_eq_ok {problem : Problem P α} {fresh : Evaluator P α}
    (h : plan.evaluator = .ok (problem, fresh)) :
    Problem.new plan.parts plan.grids = .ok problem ∧
      fresh =
        { pool := .new problem plan.multithreaded
          layout := .ofParts plan.parts
          penaltyPerKwh := plan.penaltyPerKwh
          signals := plan.signals
          window := .new problem.referenceTime problem.horizon plan.step plan.start } := by
  unfold evaluator at h
  cases hnew : Problem.new plan.parts plan.grids with
  | error failure =>
    rw [hnew] at h
    exact absurd h (by simp [bind, Except.bind])
  | ok made =>
    rw [hnew] at h
    have hpair := Except.ok.inj h
    obtain ⟨rfl, rfl⟩ := Prod.mk.inj hpair
    exact ⟨rfl, rfl⟩

/-- **When a plan has an evaluator.** -/
theorem exists_evaluator_iff :
    (∃ problem fresh, plan.evaluator = .ok (problem, fresh)) ↔
      plan.parts ≠ [] ∧ Problem.collision? plan.grids = none := by
  rw [← Problem.exists_new_iff (P := P)]
  constructor
  · rintro ⟨problem, fresh, h⟩
    exact ⟨problem, (evaluator_eq_ok h).1⟩
  · rintro ⟨problem, hnew⟩
    unfold evaluator
    rw [hnew]
    exact ⟨problem, _, rfl⟩

end Plan

/-! ### A household -/

namespace Household

def deviceId (n : Nat) : DeviceId := .ofNat n

def electricalMeter : DeviceId := .ofNat 100

def gasMeter : DeviceId := .ofNat 101

/-- Everything that consumes or generates electricity is connected to one meter. -/
def electricalTopology : Topology :=
  { meters := [electricalMeter]
    relations := [1, 2, 3, 4, 5].map fun n =>
      { active := deviceId n, passive := electricalMeter, forward := .activePower,
        back := .activePower }
    meterDevices :=
      [{ meter := electricalMeter, pv := [deviceId 2], chp := [deviceId 5],
         battery := [deviceId 3] }] }

/-- The unit heats the tank and sees its temperature, and the demand draws from the tank. -/
def thermalTopology : Topology :=
  { meters := [gasMeter]
    relations :=
      [{ active := deviceId 5, passive := deviceId 6, forward := .heatingHotWater,
         back := .heatingHotWater },
        { active := deviceId 7, passive := deviceId 6, forward := .domesticHotWater,
          back := .domesticHotWater },
        { active := deviceId 5, passive := gasMeter, forward := .naturalGas, back := .naturalGas }]
    meterDevices := [] }

variable (α : Type) [Transcendental α]

/-- The devices of the household, optimized over four steps of a quarter of an hour. The last one is left
out of runs. -/
def devices : List (Device α) :=
  let timing (n : Nat) : Timing := (Timing.new (deviceId n) 0 2700).withStep 900
  [.baseLoad (.new (deviceId 1) 0 2700 400 1),
    .pvSystem (.new (deviceId 2) 0 2700 3000),
    .battery
      { timing := timing 3, capacityWh := 5000, initialSoc := 0.5, soc := 0.5, maxChargeW := 2000,
        maxDischargeW := 2000, chargeEfficiency := 1, dischargeEfficiency := 1, penaltyPerKwh := 1,
        mode := .scheduled, setpoints := #[], lastPowerW := 0, socTrace := #[], terminalCost := 0 },
    .evCharger
      { timing := timing 4, maxChargeW := 3000, penaltyPerKwh := 1,
        session := { arrivalStep := 1, deadlineStep := 3, energyWh := 1500 }, enabled := #[],
        remainingWh := 1500, terminalCost := 0 },
    .chp (.new (deviceId 5) 0 2700 900),
    .hotWaterTank
      { timing := timing 6, volumeL := 200, initialTempC := 50, ambientTempC := 20, lossWPerK := 2,
        minTempC := 45, penaltyPerKelvinHour := 1, tempC := 50, initialPending := true,
        deficitKelvinHours := 0, trace := #[], terminalCost := 0 },
    .hotWaterDemand (.new (deviceId 7) 0 2700 4000),
    .baseLoad { BaseLoad.new (deviceId 8) 0 2700 100 2 with isStatic := true }]

def grids : List (Grid α) :=
  [.electrical { topology := electricalTopology, fastPath := true, run? := none },
    .thermal { topology := thermalTopology, oneMeter := rfl, run? := none }]

end Household

/-- A household that looks for a good schedule by genetic and by random search. -/
def household (α : Type) [Transcendental α] (ranking : Ranking α) : Plan (Device α) α :=
  { parts := Household.devices α
    grids := Household.grids α
    signals := { prices := .ofList [(.activeExternal, { default := 0.3, windows := [] })],
                 limits := .empty }
    penaltyPerKwh := defaultPenalty
    searches := [.genetic .default, .random .default]
    ranking
    step := 900
    multithreaded := true
    start := 0 }

theorem Household.steps_timing (d : DeviceId) : ((Timing.new d 0 2700).withStep 900).steps = 4 := by
  show (if (2700 : UInt64) < 0 then 0
    else (2700 - 0) / Timing.atLeastOne (Timing.atLeastOne 900) + 1) = 4
  decide

/-- What the devices of the household are controlled by. -/
theorem Household.map_ownedCount (α : Type) [Transcendental α] (e : Encoding) :
    (Household.devices α).map (Layout.ownedCount e)
      = [0, 0, if e = .binary then 8 else 4, 2, 4, 0, 0, 0] := by
  have hchp : (Chp.new (α := α) (deviceId 5) 0 2700 900).timing.steps = 4 := steps_timing _
  have hload : (BaseLoad.new (α := α) (deviceId 1) 0 2700 400 1).isStatic = false := rfl
  have hsession : ({ arrivalStep := 1, deadlineStep := 3, energyWh := 1500 } :
      EvSession α).dwellSteps = 2 := by
    show (3 : UInt64) - 1 = 2
    decide
  cases e <;> simp [devices, Layout.ownedCount, Part.isStatic, Part.variableCount, Device.isStatic,
    Device.variableCount, Battery.variableCount, steps_timing, hchp, hload, hsession]

theorem household_width (α : Type) [Transcendental α] (ranking : Ranking α) (e : Encoding) :
    (Layout.ofParts (household α ranking).parts).width e = if e = .binary then 14 else 10 := by
  rw [Layout.width_ofParts, household, Household.map_ownedCount]
  cases e <;> decide

/-- The variables of the household can be counted. -/
theorem household_totalCount (α : Type) [Transcendental α] (ranking : Ranking α) (e : Encoding) :
    Layout.totalCount e (household α ranking).parts = if e = .binary then 14 else 10 := by
  have hcounts := congrArg (List.map UInt64.toNat) (Household.map_ownedCount α e)
  rw [List.map_map] at hcounts
  show (List.map _ (Household.devices α)).sum = _
  rw [show List.map (fun p => (Layout.ownedCount e p).toNat) (Household.devices α) = _ from hcounts]
  cases e <;> rfl

theorem household_evaluator (α : Type) [Transcendental α] (ranking : Ranking α) :
    ∃ problem fresh, (household α ranking).evaluator = .ok (problem, fresh) := by
  refine Plan.exists_evaluator_iff.mpr ⟨by simp [household, Household.devices], ?_⟩
  refine Problem.collision?_eq_none.mpr ?_
  simp only [household, Household.grids, List.forall_mem_cons, List.not_mem_nil, false_implies,
    implies_true, and_true, Grid.topology]
  decide

theorem household_window {α : Type} [Transcendental α] {ranking : Ranking α}
    {problem : Problem (Device α) α} {fresh : Evaluator (Device α) α}
    (h : (household α ranking).evaluator = .ok (problem, fresh)) :
    fresh.window = .new 0 2700 900 0 := by
  obtain ⟨hnew, rfl⟩ := Plan.evaluator_eq_ok h
  rw [Problem.new_eq_ok hnew]
  rfl

end HomeEnergy

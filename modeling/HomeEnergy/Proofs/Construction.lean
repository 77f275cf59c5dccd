import HomeEnergy.Proofs.Draws
import HomeEnergy.Proofs.Outcomes
import HomeEnergy.Scalar.Double
import HomeEnergy.Scenario

/-!
# Building checked scenarios

A scenario is built from a configuration that breaks no constraint. Every precondition of a device model is one
of the constraints, so that nothing stops the program half way, with one exception: no constraint bounds the
energy need of a charger from above, and no need can be drawn from a range without end.

* `EvCharger.drawSession_drawn` — **a session is drawn exactly if the needs span a finite range**, whatever the
  source, and it lies within the horizon.
* `Scenario.device_eq_error_iff` — the device of a checked model is built exactly if it is no such charger.
* `NeverStops` — results that are answers; grids and searches only give answers.
* `ofConfig_stops_iff` — **building a checked scenario stops the program exactly if it has such a charger.**
-/

namespace HomeEnergy

/-! ### Sessions -/

section Sessions

variable {α : Type} [Scalar α]

/-- Ranges in which the needs are in order and span a finite range. -/
def EvRanges.Drawable (r : EvRanges α) : Prop :=
  r.demandWhMin ≤ r.demandWhMax ∧ Scalar.isFinite (r.demandWhMax - r.demandWhMin) = true

theorem EvRanges.drawable_iff {r : EvRanges α} (h : r.demandWhMin ≤ r.demandWhMax) :
    r.Drawable ↔ Scalar.isFinite (r.demandWhMax - r.demandWhMin) = true :=
  and_iff_right h

namespace EvCharger

/-- The possible results of drawing a session: one within the horizon, or none from an endless range. -/
def Drawn (timing : Timing) (ranges : EvRanges α) : Except Defect (EvSession α) → Prop
  | .error e => e = .emptyRange ∧ timing.steps ≠ 0 ∧ ¬ ranges.Drawable
  | .ok s => (timing.steps = 0 ∨ ranges.Drawable) ∧
      s.arrivalStep ≤ s.deadlineStep ∧ s.deadlineStep ≤ timing.steps

theorem lesser_le_right (a b : UInt64) : lesser a b ≤ b := by
  unfold lesser
  split
  · exact UInt64.le_refl b
  · rename_i h
    exact UInt64.not_lt.mp h

/-- **A session is drawn exactly if the needs span a finite range**, and lies within the horizon. The ranges of
its length and its arrival are never empty. -/
theorem drawSession_drawn (timing : Timing) (maxChargeW : α) (ranges : EvRanges α) :
    Draw.Always (Drawn timing ranges) (drawSession timing maxChargeW ranges) := by
  unfold drawSession
  by_cases hsteps : timing.steps = 0
  · rw [if_pos hsteps]
    exact Draw.always_pure ⟨Or.inl hsteps, UInt64.le_refl 0, UInt64.zero_le⟩
  rw [if_neg hsteps]
  have hmax := UInt64.le_iff_toNat_le.mp (lesser_le_right ranges.dwellStepsMax timing.steps)
  have hmin := UInt64.le_iff_toNat_le.mp
    (lesser_le_right ranges.dwellStepsMin (lesser ranges.dwellStepsMax timing.steps))
  have hsize := timing.steps.toNat_lt_size
  have hword := timing.steps.toNat_lt
  refine Draw.always_bind (Draw.indexBetween_always hmin (by omega)) fun dwell? hdwell => ?_
  obtain ⟨dwell, rfl, -, hdwell⟩ := hdwell
  refine Draw.always_bind (Draw.indexBetween_always (Nat.zero_le _) (by omega))
    fun arrival? harrival => ?_
  obtain ⟨arrival, rfl, -, harrival⟩ := harrival
  refine Draw.always_bind (Draw.between_always ranges.demandWhMin ranges.demandWhMax)
    fun demand? hdemand => ?_
  split at hdemand
  · rename_i hdrawable
    obtain ⟨demand, rfl⟩ := hdemand
    have hstart : (UInt64.ofNat arrival).toNat = arrival :=
      UInt64.toNat_ofNat_of_lt' (by omega)
    have hlength : (UInt64.ofNat dwell).toNat = dwell :=
      UInt64.toNat_ofNat_of_lt' (by omega)
    have hstop : (UInt64.ofNat arrival + UInt64.ofNat dwell).toNat = arrival + dwell := by
      rw [UInt64.toNat_add, hstart, hlength, Nat.mod_eq_of_lt (by omega)]
    refine Draw.always_pure ⟨Or.inr hdrawable, ?_, ?_⟩
    · show UInt64.ofNat arrival ≤ UInt64.ofNat arrival + UInt64.ofNat dwell
      rw [UInt64.le_iff_toNat_le, hstop, hstart]
      omega
    · show UInt64.ofNat arrival + UInt64.ofNat dwell ≤ timing.steps
      rw [UInt64.le_iff_toNat_le, hstop]
      omega
  · rename_i hdrawable
    subst hdemand
    exact Draw.always_pure ⟨rfl, hsteps, hdrawable⟩

/-- A charger with a positive power and ranges in order is built exactly if its session is drawn. -/
theorem new_eq_error_iff (device : DeviceId) (referenceTime horizon step : UInt64) {maxChargeW : α}
    {ranges : EvRanges α} {seed : UInt64} (hpower : 0 < maxChargeW) (hneed : 0 ≤ ranges.demandWhMin)
    (horder : ranges.demandWhMin ≤ ranges.demandWhMax)
    (hdwell : 0 < ranges.dwellStepsMin ∧ ranges.dwellStepsMin ≤ ranges.dwellStepsMax) (e : Defect) :
    new device referenceTime horizon step maxChargeW ranges seed = .error e ↔
      e = .emptyRange ∧ ((Timing.new device referenceTime horizon).withStep step).steps ≠ 0 ∧
        ¬ ranges.Drawable := by
  have hdrawn := drawSession_drawn ((Timing.new device referenceTime horizon).withStep step) maxChargeW
    ranges (.ofSeed seed)
  unfold new
  rw [if_pos ⟨hpower, hneed, horder, hdwell.1, hdwell.2⟩]
  dsimp only
  cases hsession : ((drawSession ((Timing.new device referenceTime horizon).withStep step) maxChargeW
      ranges).run (.ofSeed seed)).1 with
  | error e' =>
    rw [hsession] at hdrawn
    obtain ⟨rfl, hsteps, hdrawable⟩ := hdrawn
    show Except.error Defect.emptyRange = .error e ↔ _
    rw [Except.error.injEq]
    exact ⟨fun h => ⟨h.symm, hsteps, hdrawable⟩, fun h => h.1.symm⟩
  | ok s =>
    rw [hsession] at hdrawn
    refine ⟨(nomatch ·), ?_⟩
    rintro ⟨-, hsteps, hendless⟩
    exact absurd hdrawn.1 (not_or.mpr ⟨hsteps, hendless⟩)

end EvCharger

end Sessions

/-! ### Constraints -/

namespace Config

@[simp] theorem require_eq_nil {holds : Bool} {field message : String} :
    require holds field message = [] ↔ holds = true := by
  cases holds <;> simp [require]

variable {α : Type} [Scalar α]

theorem modelIssues_of_issues {c : Config α} (h : c.issues = []) {d : DeviceConfig α} {i : Nat}
    (hd : (d, i) ∈ c.devices.zipIdx) :
    modelIssues (fun name => element "devices" i ++ "." ++ name) d.model = [] := by
  simp only [issues, List.append_eq_nil_iff, List.flatMap_eq_nil_iff] at h
  have hdevice := h.1.1.1.1.2 (d, i) hd
  simp only [deviceIssues, List.append_eq_nil_iff] at hdevice
  exact hdevice.2

end Config

/-! ### Devices -/

def EvConfig.ranges {α : Type} (c : EvConfig α) : EvRanges α :=
  { demandWhMin := c.demandWhMin, demandWhMax := c.demandWhMax,
    dwellStepsMin := c.dwellStepsMin, dwellStepsMax := c.dwellStepsMax }

/-- A charger whose needs span no finite range. -/
def DeviceModel.Endless {α : Type} [Scalar α] : DeviceModel α → Prop
  | .evCharger c => Scalar.isFinite (c.demandWhMax - c.demandWhMin) = false
  | _ => False

def OptimizationConfig.steps (o : OptimizationConfig) : UInt64 :=
  ((Timing.new .nil o.referenceTime o.horizon).withStep o.stepSize).steps

namespace Scenario

variable {α : Type} [Transcendental α]

/-- The device of a checked model is built exactly if it is no charger with endless needs, or if there is no
step at which it could charge. -/
theorem device_eq_error_iff (o : OptimizationConfig) (id : DeviceId) (seed : UInt64)
    {field : String → String} {m : DeviceModel α} (h : Config.modelIssues field m = []) (e : Defect) :
    device o id seed m = .error e ↔ e = .emptyRange ∧ o.steps ≠ 0 ∧ m.Endless := by
  cases m with
  | baseLoad c =>
    simp only [Config.modelIssues, Config.require_eq_nil, Config.isPositiveShare, Bool.and_eq_true,
      decide_eq_true_eq] at h
    simp [device, BaseLoad.withPowerFactor, h, DeviceModel.Endless, bind, Except.bind, pure, Except.pure]
  | pvSystem c =>
    simp only [Config.modelIssues, Config.require_eq_nil, Bool.and_eq_true, decide_eq_true_eq] at h
    simp [device, PvSystem.withDaylight, h, DeviceModel.Endless, bind, Except.bind, pure, Except.pure]
  | battery c =>
    simp only [Config.modelIssues, Config.require_eq_nil, List.append_eq_nil_iff, Config.isPositive,
      Config.isShare, Config.isPositiveShare, Bool.and_eq_true, decide_eq_true_eq] at h
    obtain ⟨⟨⟨⟨⟨hcapacity, -⟩, hsoc⟩, hpower⟩, hcharge⟩, hdischarge⟩ := h
    simp [device, Battery.new, Battery.withEfficiency, hcapacity, hsoc, hpower, hcharge, hdischarge,
      DeviceModel.Endless, bind, Except.bind, pure, Except.pure]
  | evCharger c =>
    simp only [Config.modelIssues, Config.require_eq_nil, List.append_eq_nil_iff, Config.isPositive,
      Bool.and_eq_true, decide_eq_true_eq] at h
    obtain ⟨⟨⟨hpower, -⟩, hneed⟩, hdwell⟩ := h
    have hdevice : device o id seed (.evCharger c)
        = (EvCharger.new id o.referenceTime o.horizon o.stepSize c.maxChargeW c.ranges seed).map
            fun d => .evCharger (d.withPenalty c.penaltyPerKwh) := rfl
    rw [hdevice, map_eq_error_iff, EvCharger.new_eq_error_iff _ _ _ _ hpower hneed.1 hneed.2 hdwell,
      EvRanges.drawable_iff hneed.2]
    show _ ↔ e = .emptyRange ∧ o.steps ≠ 0 ∧ Scalar.isFinite (c.demandWhMax - c.demandWhMin) = false
    rw [Bool.not_eq_true]
    rfl
  | chp c =>
    simp only [Config.modelIssues, Config.require_eq_nil, Bool.and_eq_true, decide_eq_true_eq] at h
    simp [device, Chp.withHysteresis, h, DeviceModel.Endless, bind, Except.bind, pure, Except.pure]
  | hotWaterTank c =>
    simp only [Config.modelIssues, Config.require_eq_nil, Config.isPositive, Bool.and_eq_true,
      decide_eq_true_eq] at h
    simp [device, HotWaterTank.new, h, DeviceModel.Endless, bind, Except.bind, pure, Except.pure]
  | hotWaterDemand c => simp [device, DeviceModel.Endless, pure, Except.pure]

/-- The devices of a checked scenario are built, or some charger has endless needs. -/
theorem devices_eq_error_iff {c : Config α} (h : c.issues = []) (e : Defect) :
    devices c = .error e ↔
      e = .emptyRange ∧ c.optimization.steps ≠ 0 ∧ ∃ d ∈ c.devices, d.model.Endless := by
  have hdevice : ∀ x ∈ c.devices.zipIdx, ∀ e,
      device c.optimization (identity x.2 x.1) (deviceSeed c.optimization.seed x.2) x.1.model = .error e ↔
        e = .emptyRange ∧ c.optimization.steps ≠ 0 ∧ x.1.model.Endless :=
    fun _ hx => device_eq_error_iff _ _ _ (Config.modelIssues_of_issues h hx)
  have hlist : (∃ x ∈ c.devices.zipIdx, c.optimization.steps ≠ 0 ∧ x.1.model.Endless) ↔
      c.optimization.steps ≠ 0 ∧ ∃ d ∈ c.devices, d.model.Endless := by
    constructor
    · rintro ⟨⟨d, i⟩, hx, hsteps, hendless⟩
      exact ⟨hsteps, d, (List.mem_zipIdx_iff_getElem?.mp hx) |> List.mem_of_getElem?, hendless⟩
    · rintro ⟨hsteps, d, hd, hendless⟩
      obtain ⟨i, hi⟩ := List.mem_iff_getElem?.mp hd
      exact ⟨(d, i), List.mem_zipIdx_iff_getElem?.mpr hi, hsteps, hendless⟩
  rw [← hlist]
  exact mapM_eq_error_iff hdevice e

end Scenario

/-! ### Answers -/

/-- A result that is an answer: it does not stop the program on a broken precondition. -/
def NeverStops {β : Type} (r : Except Failure β) : Prop :=
  ∀ e, r ≠ .error (.defect e)

theorem neverStops_pure {β : Type} (x : β) : NeverStops (pure x : Except Failure β) :=
  fun _ => nofun

theorem neverStops_bind {β γ : Type} {r : Except Failure β} {f : β → Except Failure γ}
    (h : NeverStops r) (hf : ∀ x, NeverStops (f x)) : NeverStops (r >>= f) := by
  cases r with
  | error e => exact fun e' he => h e' (congrArg Except.error (Except.error.inj he))
  | ok x => exact hf x

theorem neverStops_map {β γ : Type} {r : Except Failure β} {f : β → γ} (h : NeverStops r) :
    NeverStops (r.map f) :=
  fun e he => h e (map_eq_error_iff.mp he)

theorem neverStops_mapM {β γ : Type} {f : β → Except Failure γ} (h : ∀ x, NeverStops (f x)) :
    ∀ l : List β, NeverStops (l.mapM f) := by
  intro l
  induction l with
  | nil => exact neverStops_pure []
  | cons x l ih =>
    rw [List.mapM_cons]
    exact neverStops_bind (h x) fun y => neverStops_bind ih fun ys => neverStops_pure _

theorem Topology.validate_neverStops (t : Topology) : NeverStops t.validate := by
  intro e
  unfold Topology.validate
  split
  · nofun
  · split <;> nofun

section Answers

variable {α : Type}

theorem ElectricalGrid.new_neverStops (t : Topology) :
    NeverStops (ElectricalGrid.new t : Except Failure (ElectricalGrid α)) :=
  neverStops_bind t.validate_neverStops fun _ => neverStops_pure _

theorem ThermalGrid.new_neverStops (t : Topology) :
    NeverStops (ThermalGrid.new t : Except Failure (ThermalGrid α)) := by
  unfold ThermalGrid.new
  split
  · exact neverStops_bind t.validate_neverStops fun _ => neverStops_pure _
  · exact fun _ => nofun

namespace Scenario

def electricalGrid (devices : List (String × DeviceId)) (e : GridConfig) : Except Failure (Grid α) :=
  (ElectricalGrid.new (topology devices 0 e)).map fun grid => .electrical (grid.withFastPath e.fastPath)

def thermalGrid (devices : List (String × DeviceId)) (firstMeter : Nat) (t : GridConfig) :
    Except Failure (Grid α) :=
  (ThermalGrid.new (topology devices firstMeter t)).map .thermal

def firstThermalMeter (g : GridsConfig) : Nat :=
  (g.electrical.map fun e => e.meters.length).getD 0

/-- The grids of a scenario, one after the other. -/
theorem grids_eq (devices : List (String × DeviceId)) (g : GridsConfig) :
    grids α devices g = do
      let electrical ← g.electrical.toList.mapM (electricalGrid devices)
      let thermal ← g.thermal.toList.mapM (thermalGrid devices (firstThermalMeter g))
      return electrical ++ thermal := by
  obtain ⟨electrical?, thermal?⟩ := g
  unfold grids electricalGrid thermalGrid firstThermalMeter
  cases electrical? with
  | none =>
    cases thermal? with
    | none => rfl
    | some t =>
      simp only [Option.toList, List.mapM_cons, List.mapM_nil, Option.map_none, Option.getD_none]
      cases (ThermalGrid.new (topology devices 0 t) : Except Failure (ThermalGrid α)) <;> rfl
  | some e =>
    simp only [Option.toList, List.mapM_cons, List.mapM_nil]
    cases (ElectricalGrid.new (topology devices 0 e) : Except Failure (ElectricalGrid α)) with
    | error => rfl
    | ok grid =>
      cases thermal? with
      | none => rfl
      | some t =>
        simp only [List.mapM_cons, List.mapM_nil, Option.map_some, Option.getD_some]
        cases (ThermalGrid.new (topology devices e.meters.length t) : Except Failure (ThermalGrid α)) <;> rfl

theorem grids_neverStops (devices : List (String × DeviceId)) (g : GridsConfig) :
    NeverStops (grids α devices g) := by
  rw [grids_eq]
  refine neverStops_bind (neverStops_mapM ?_ _) fun electrical =>
    neverStops_bind (neverStops_mapM ?_ _) fun thermal => neverStops_pure _
  · exact fun e => neverStops_map (ElectricalGrid.new_neverStops _)
  · exact fun t => neverStops_map (ThermalGrid.new_neverStops _)

end Scenario

theorem Search.checked_neverStops [Transcendental α] (search : Search α) : NeverStops search.checked := by
  intro e
  unfold Search.checked
  split
  · split <;> nofun
  · nofun

end Answers

/-! ### Scenarios -/

section Scenarios

variable {α : Type} [Transcendental α]

/-- Building a checked scenario stops the program only where its devices are built. -/
theorem Scenario.ofConfig_stops_iff_devices {c : Config α} (h : c.issues = []) (e : Defect) :
    ofConfig c = .error (.defect e) ↔ devices c = .error e := by
  have hissues : (!c.issues.isEmpty) = false := by rw [h]; rfl
  unfold ofConfig
  simp only [hissues, Bool.false_eq_true, if_false]
  cases hdevices : devices c with
  | error e' =>
    show Except.error (Failure.defect e') = .error (.defect e) ↔ Except.error e' = .error e
    simp
  | ok parts =>
    refine ⟨fun hstop => absurd hstop ?_, nofun⟩
    refine neverStops_bind (grids_neverStops _ _) (fun grids => ?_) e
    exact neverStops_bind (neverStops_mapM Search.checked_neverStops _) fun searches => neverStops_pure _

/-- **Building a checked scenario stops the program exactly if a charger has endless needs** and a step at which
it could charge. In every other case the scenario is built, or the failure is an answer. -/
theorem ofConfig_stops_iff {c : Config α} (h : c.issues = []) (e : Defect) :
    Scenario.ofConfig c = .error (.defect e) ↔
      e = .emptyRange ∧ c.optimization.steps ≠ 0 ∧ ∃ d ∈ c.devices, d.model.Endless := by
  rw [Scenario.ofConfig_stops_iff_devices h, Scenario.devices_eq_error_iff h]

end Scenarios

/-- The household breaks no constraint, its charger needs a finite energy, and nothing stops its construction. -/
theorem ofConfig_stops_iff_household :
    (Config.household : Config Double).issues = [] ∧
      ∀ e, Scenario.ofConfig (Config.household : Config Double) ≠ .error (.defect e) := by
  have hissues : (Config.household : Config Double).issues = [] := by decide +kernel
  refine ⟨hissues, fun e hstop => ?_⟩
  obtain ⟨-, -, d, hd, hendless⟩ := (ofConfig_stops_iff hissues e).mp hstop
  simp only [Config.household, Config.named, List.mem_cons, List.not_mem_nil, or_false] at hd
  rcases hd with rfl | rfl | rfl | rfl
  · exact hendless
  · exact hendless
  · exact hendless
  · have hfinite : Scalar.isFinite ((14000 : Double) - 4000) = true := by decide +kernel
    exact Bool.false_ne_true (Eq.trans (Eq.symm hendless) hfinite)

/-- A charger that may need any energy from 4 kWh on. -/
def Config.endlessNeed : Config Double :=
  { Config.empty with
    algorithms := [.genetic .default]
    devices := [Config.named "ev" (.evCharger { EvConfig.default with demandWhMax := Scalar.infinity })] }

/-- **A scenario that breaks no constraint can stop the program when it is built.** -/
theorem endlessNeed_stops :
    Config.endlessNeed.issues = [] ∧
      Scenario.ofConfig Config.endlessNeed = .error (.defect .emptyRange) := by
  have hissues : Config.endlessNeed.issues = [] := by decide +kernel
  have hdevices : Scenario.devices Config.endlessNeed = .error .emptyRange := by
    refine (Scenario.devices_eq_error_iff hissues .emptyRange).mpr ⟨rfl, by decide, _, List.mem_singleton_self _, ?_⟩
    show Scalar.isFinite _ = false
    decide +kernel
  exact ⟨hissues, (Scenario.ofConfig_stops_iff_devices hissues .emptyRange).mpr hdevices⟩

end HomeEnergy

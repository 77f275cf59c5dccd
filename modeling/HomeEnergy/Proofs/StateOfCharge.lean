import HomeEnergy.Device.Battery
import HomeEnergy.Proofs.Balance
import HomeEnergy.Proofs.Outcomes
import HomeEnergy.Proofs.Rational
import HomeEnergy.Proofs.Series
import Mathlib.Tactic.FieldSimp
import Mathlib.Tactic.Positivity
import Mathlib.Tactic.Ring

/-!
# The energy in a battery

A setpoint is cut to the power limits and then to what the free or the stored energy allows in one step. In exact
numbers the state of charge then follows the powers alone.

* `Battery.Sound` — parameters that the constructors of a battery accept; `Battery.Ready` — such a battery in a run.
* `Battery.storedWh` — what a series of powers stores, given the efficiencies.
* `Battery.applySetpoint_of_pos`, `Battery.applySetpoint_of_neg` — one step of charging and of discharging.
* `Battery.applySetpoint_obeys` — **a step follows its setpoint within all limits, and the state of charge is never cut
  back**.
* `Battery.run_stores` — over a series of steps the state of charge changes by what the powers store.
* `charge_follows_powers` — what this makes of a run.
-/

namespace HomeEnergy

namespace Battery

variable {d e : Battery ℚ} {w : ℚ}

/-! ### Batteries -/

/-- Parameters that the constructors of a battery accept. -/
structure Sound (d : Battery ℚ) : Prop where
  capacity_pos : 0 < d.capacityWh
  initialSoc_nonneg : 0 ≤ d.initialSoc
  initialSoc_le_one : d.initialSoc ≤ 1
  maxChargeW_nonneg : 0 ≤ d.maxChargeW
  maxDischargeW_nonneg : 0 ≤ d.maxDischargeW
  chargeEfficiency_pos : 0 < d.chargeEfficiency
  chargeEfficiency_le_one : d.chargeEfficiency ≤ 1
  dischargeEfficiency_pos : 0 < d.dischargeEfficiency
  dischargeEfficiency_le_one : d.dischargeEfficiency ≤ 1

/-- A battery in a run: a step takes time and the state of charge is a share. -/
structure Ready (d : Battery ℚ) : Prop extends Sound d where
  hours_pos : 0 < (d.timing.stepHours : ℚ)
  soc_nonneg : 0 ≤ d.soc
  soc_le_one : d.soc ≤ 1

theorem start_ready (h : d.Sound) (s : RunSettings) : (d.start s).Ready where
  toSound := { h with }
  hours_pos := Timing.stepHours_pos (Timing.atLeastOne_ne_zero s.step)
  soc_nonneg := h.initialSoc_nonneg
  soc_le_one := h.initialSoc_le_one

/-- A battery that was built is sound. -/
theorem new_sound {device : DeviceId} {referenceTime horizon step : UInt64} {capacityWh soc maxChargeW maxDischargeW : ℚ}
    (h : Battery.new device referenceTime horizon step capacityWh soc maxChargeW maxDischargeW = .ok d) :
    d.Sound := by
  unfold Battery.new at h
  split at h
  · rename_i hparams
    obtain rfl := Except.ok.inj h
    simp only [Scalar.rat_zero, Scalar.rat_one] at hparams
    obtain ⟨hcapacity, ⟨hnonneg, hle⟩, hcharge, hdischarge⟩ := hparams
    exact ⟨hcapacity, hnonneg, hle, hcharge, hdischarge, zero_lt_one, le_refl 1, zero_lt_one, le_refl 1⟩
  · exact absurd h (by simp)

/-- A sound battery stays one with efficiencies that are accepted. -/
theorem Sound.withEfficiency (hd : d.Sound) {charge discharge : ℚ}
    (h : d.withEfficiency charge discharge = .ok e) : e.Sound := by
  unfold Battery.withEfficiency at h
  split at h
  · rename_i hparams
    obtain rfl := Except.ok.inj h
    simp only [Scalar.rat_zero, Scalar.rat_one] at hparams
    obtain ⟨⟨hpos, hle⟩, hpos', hle'⟩ := hparams
    exact { hd with
      chargeEfficiency_pos := hpos
      chargeEfficiency_le_one := hle
      dischargeEfficiency_pos := hpos'
      dischargeEfficiency_le_one := hle' }
  · exact absurd h (by simp)

/-- The battery that another one is with a different state of charge and different records of its run. -/
structure Like (e d : Battery ℚ) : Prop where
  capacityWh : e.capacityWh = d.capacityWh
  initialSoc : e.initialSoc = d.initialSoc
  maxChargeW : e.maxChargeW = d.maxChargeW
  maxDischargeW : e.maxDischargeW = d.maxDischargeW
  chargeEfficiency : e.chargeEfficiency = d.chargeEfficiency
  dischargeEfficiency : e.dischargeEfficiency = d.dischargeEfficiency
  penaltyPerKwh : e.penaltyPerKwh = d.penaltyPerKwh
  step : e.timing.step = d.timing.step

def withSoc (d : Battery ℚ) (soc : ℚ) : Battery ℚ :=
  { d with soc }

theorem like_withSoc (d : Battery ℚ) (soc : ℚ) : (d.withSoc soc).Like d :=
  ⟨rfl, rfl, rfl, rfl, rfl, rfl, rfl, rfl⟩

/-! ### Energies -/

def chargedWh (d : Battery ℚ) (powers : List ℚ) : ℚ :=
  (powers.map fun p => max p 0 * d.timing.stepHours).sum

def dischargedWh (d : Battery ℚ) (powers : List ℚ) : ℚ :=
  (powers.map fun p => max (-p) 0 * d.timing.stepHours).sum

/-- The energy that a series of powers stores, in Wh: less than is drawn, and more is taken out than is delivered. -/
def storedWh (d : Battery ℚ) (powers : List ℚ) : ℚ :=
  d.chargeEfficiency * d.chargedWh powers - d.dischargedWh powers / d.dischargeEfficiency

theorem storedWh_cons (d : Battery ℚ) (p : ℚ) (powers : List ℚ) :
    d.storedWh (p :: powers) = d.storedWh [p] + d.storedWh powers := by
  simp only [storedWh, chargedWh, dischargedWh, List.map_cons, List.map_nil, List.sum_cons, List.sum_nil]
  ring

theorem storedWh_of_nonneg (d : Battery ℚ) {p : ℚ} (h : 0 ≤ p) :
    d.storedWh [p] = d.chargeEfficiency * (p * d.timing.stepHours) := by
  have hnone : max (-p) 0 = 0 := max_eq_right (by linarith)
  simp [storedWh, chargedWh, dischargedWh, max_eq_left h, hnone]

theorem storedWh_of_nonpos (d : Battery ℚ) {p : ℚ} (h : p ≤ 0) :
    d.storedWh [p] = -(-p * d.timing.stepHours / d.dischargeEfficiency) := by
  have hall : max (-p) 0 = -p := max_eq_left (by linarith)
  simp [storedWh, chargedWh, dischargedWh, max_eq_right h, hall]

theorem Like.storedWh_eq (h : e.Like d) (powers : List ℚ) : e.storedWh powers = d.storedWh powers := by
  simp only [storedWh, chargedWh, dischargedWh, Timing.stepHours_rat, h.chargeEfficiency, h.dischargeEfficiency,
    h.step]

/-! ### One step -/

theorem limitedPower_of_nonneg (h : 0 ≤ w) : d.limitedPower w = min w d.maxChargeW := by
  unfold limitedPower
  rw [Scalar.rat_zero, if_pos h, Scalar.min_rat]

theorem limitedPower_of_neg (h : w < 0) : d.limitedPower w = max w (-d.maxDischargeW) := by
  unfold limitedPower
  rw [Scalar.rat_zero, if_neg (not_le.mpr h), Scalar.max_rat]

def chargingW (d : Battery ℚ) (command : ℚ) : ℚ :=
  min command (max ((1 - d.soc) * d.capacityWh / d.chargeEfficiency / d.timing.stepHours) 0)

def dischargingW (d : Battery ℚ) (command : ℚ) : ℚ :=
  min command (max (d.soc * d.capacityWh * d.dischargeEfficiency / d.timing.stepHours) 0)

theorem applySetpoint_of_pos (h : 0 < d.limitedPower w) :
    d.applySetpoint w = (d.chargingW (d.limitedPower w),
      d.withSoc (Scalar.clamp 0 1 (d.soc + d.chargingW (d.limitedPower w) * d.timing.stepHours
        * d.chargeEfficiency / d.capacityWh))) := by
  unfold applySetpoint
  simp only [Scalar.rat_zero, Scalar.rat_one, if_pos h, Scalar.min_rat, Scalar.positivePart_rat]
  rfl

theorem applySetpoint_of_neg (h : d.limitedPower w < 0) :
    d.applySetpoint w = (-d.dischargingW (-d.limitedPower w),
      d.withSoc (Scalar.clamp 0 1 (d.soc - d.dischargingW (-d.limitedPower w) * d.timing.stepHours
        / (d.capacityWh * d.dischargeEfficiency)))) := by
  unfold applySetpoint
  simp only [Scalar.rat_zero, Scalar.rat_one, if_neg (lt_asymm h), if_pos h, Scalar.min_rat,
    Scalar.positivePart_rat]
  rfl

theorem applySetpoint_of_zero (h : d.limitedPower w = 0) : d.applySetpoint w = (0, d) := by
  unfold applySetpoint
  simp only [Scalar.rat_zero, h, lt_irrefl, if_false]

/-- What a battery does at a setpoint: it follows the setpoint as far as its power limits and its energy go, and the
state of charge changes by what the power stores. -/
structure Obeys (d : Battery ℚ) (setpoint power : ℚ) (e : Battery ℚ) : Prop where
  within : -d.maxDischargeW ≤ power ∧ power ≤ d.maxChargeW
  charges : 0 ≤ setpoint → 0 ≤ power ∧ power ≤ setpoint
  discharges : setpoint ≤ 0 → setpoint ≤ power ∧ power ≤ 0
  soc_mem : 0 ≤ e.soc ∧ e.soc ≤ 1
  unclamped : e.soc = d.soc + d.storedWh [power] / d.capacityWh

/-- There is no more charging than the command asks for and than there is room. -/
theorem Ready.chargingW_mem (h : d.Ready) {command : ℚ} (hc : 0 < command) :
    0 ≤ d.chargingW command ∧ d.chargingW command ≤ command ∧
      d.chargingW command * d.timing.stepHours * d.chargeEfficiency / d.capacityWh ≤ 1 - d.soc := by
  have hhours := h.hours_pos
  have hcapacity := h.capacity_pos
  have hefficiency := h.chargeEfficiency_pos
  have hroom : 0 ≤ 1 - d.soc := by linarith [h.soc_le_one]
  have hfree : 0 ≤ (1 - d.soc) * d.capacityWh / d.chargeEfficiency / d.timing.stepHours := by positivity
  rw [chargingW, max_eq_left hfree]
  refine ⟨le_min hc.le hfree, min_le_left _ _, ?_⟩
  -- at the greatest power that there is room for the battery is full after the step
  calc min command ((1 - d.soc) * d.capacityWh / d.chargeEfficiency / d.timing.stepHours) * d.timing.stepHours
        * d.chargeEfficiency / d.capacityWh
      ≤ (1 - d.soc) * d.capacityWh / d.chargeEfficiency / d.timing.stepHours * d.timing.stepHours
        * d.chargeEfficiency / d.capacityWh := by
        gcongr
        exact min_le_right _ _
    _ = 1 - d.soc := by field_simp

/-- There is no more discharging than the command asks for and than there is energy. -/
theorem Ready.dischargingW_mem (h : d.Ready) {command : ℚ} (hc : 0 < command) :
    0 ≤ d.dischargingW command ∧ d.dischargingW command ≤ command ∧
      d.dischargingW command * d.timing.stepHours / (d.capacityWh * d.dischargeEfficiency) ≤ d.soc := by
  have hhours := h.hours_pos
  have hcapacity := h.capacity_pos
  have hefficiency := h.dischargeEfficiency_pos
  have hsoc := h.soc_nonneg
  have hstored : 0 ≤ d.soc * d.capacityWh * d.dischargeEfficiency / d.timing.stepHours := by positivity
  rw [dischargingW, max_eq_left hstored]
  refine ⟨le_min hc.le hstored, min_le_left _ _, ?_⟩
  -- at the greatest power that there is energy for the battery is empty after the step
  calc min command (d.soc * d.capacityWh * d.dischargeEfficiency / d.timing.stepHours) * d.timing.stepHours
        / (d.capacityWh * d.dischargeEfficiency)
      ≤ d.soc * d.capacityWh * d.dischargeEfficiency / d.timing.stepHours * d.timing.stepHours
        / (d.capacityWh * d.dischargeEfficiency) := by
        gcongr
        exact min_le_right _ _
    _ = d.soc := by field_simp

/-- The limits of power never turn a setpoint round and never exceed it. -/
theorem Sound.limitedPower_mem (h : d.Sound) (w : ℚ) :
    (0 ≤ w → 0 ≤ d.limitedPower w ∧ d.limitedPower w ≤ w) ∧
      (w ≤ 0 → w ≤ d.limitedPower w ∧ d.limitedPower w ≤ 0) ∧
      -d.maxDischargeW ≤ d.limitedPower w ∧ d.limitedPower w ≤ d.maxChargeW := by
  have hcharge := h.maxChargeW_nonneg
  have hdischarge := h.maxDischargeW_nonneg
  rcases le_or_gt 0 w with hw | hw
  · rw [limitedPower_of_nonneg hw]
    have hnonneg : 0 ≤ min w d.maxChargeW := le_min hw hcharge
    refine ⟨fun _ => ⟨hnonneg, min_le_left _ _⟩, fun hw' => ?_, by linarith, min_le_right _ _⟩
    obtain rfl : w = 0 := le_antisymm hw' hw
    exact ⟨hnonneg, min_le_left _ _⟩
  · rw [limitedPower_of_neg hw]
    have hnonpos : max w (-d.maxDischargeW) ≤ 0 := max_le hw.le (by linarith)
    exact ⟨fun hw' => absurd hw (not_lt.mpr hw'), fun _ => ⟨le_max_left _ _, hnonpos⟩, le_max_right _ _,
      by linarith⟩

theorem Ready.charging_obeys (h : d.Ready) (hpos : 0 < d.limitedPower w) :
    d.Obeys w (d.applySetpoint w).1 (d.applySetpoint w).2 := by
  obtain ⟨hnonneg, hle, hroom⟩ := h.chargingW_mem hpos
  obtain ⟨hcharge, hdischarge, -, hmax⟩ := h.limitedPower_mem w
  have hmin := h.maxDischargeW_nonneg
  have hgain : 0 ≤ d.chargingW (d.limitedPower w) * d.timing.stepHours * d.chargeEfficiency / d.capacityWh := by
    have hhours := h.hours_pos
    have hefficiency := h.chargeEfficiency_pos
    have hcapacity := h.capacity_pos
    positivity
  have hsoc := h.soc_nonneg
  rw [applySetpoint_of_pos hpos, Scalar.clamp_eq_self (by linarith) (by linarith)]
  constructor
  case within => exact ⟨by linarith, hle.trans hmax⟩
  case charges => exact fun hw => ⟨hnonneg, hle.trans (hcharge hw).2⟩
  case discharges => exact fun hw => absurd (hdischarge hw).2 (not_le.mpr hpos)
  case soc_mem =>
    show 0 ≤ d.soc + _ ∧ d.soc + _ ≤ 1
    exact ⟨by linarith, by linarith⟩
  case unclamped =>
    rw [storedWh_of_nonneg d hnonneg]
    show d.soc + _ = d.soc + _
    ring

theorem Ready.discharging_obeys (h : d.Ready) (hneg : d.limitedPower w < 0) :
    d.Obeys w (d.applySetpoint w).1 (d.applySetpoint w).2 := by
  obtain ⟨hnonneg, hle, hstored⟩ := h.dischargingW_mem (neg_pos.mpr hneg)
  obtain ⟨hcharge, hdischarge, hmin, -⟩ := h.limitedPower_mem w
  have hmax := h.maxChargeW_nonneg
  have hcapacity := h.capacity_pos
  have hefficiency := h.dischargeEfficiency_pos
  have hloss : 0 ≤ d.dischargingW (-d.limitedPower w) * d.timing.stepHours
      / (d.capacityWh * d.dischargeEfficiency) := by
    have hhours := h.hours_pos
    positivity
  have hsoc := h.soc_le_one
  rw [applySetpoint_of_neg hneg, Scalar.clamp_eq_self (by linarith) (by linarith)]
  constructor
  case within => exact ⟨by linarith, by linarith⟩
  case charges => exact fun hw => absurd (hcharge hw).1 (not_le.mpr hneg)
  case discharges => exact fun hw => ⟨by linarith [(hdischarge hw).1], by linarith⟩
  case soc_mem =>
    show 0 ≤ d.soc - _ ∧ d.soc - _ ≤ 1
    exact ⟨by linarith, by linarith⟩
  case unclamped =>
    rw [storedWh_of_nonpos d (by linarith), neg_neg]
    show d.soc - _ = d.soc + _
    field_simp
    ring

theorem Ready.idling_obeys (h : d.Ready) (hzero : d.limitedPower w = 0) :
    d.Obeys w (d.applySetpoint w).1 (d.applySetpoint w).2 := by
  obtain ⟨hcharge, hdischarge, hmin, hmax⟩ := h.limitedPower_mem w
  rw [hzero] at hmin hmax
  rw [applySetpoint_of_zero hzero]
  constructor
  case within => exact ⟨hmin, hmax⟩
  case charges => exact fun hw => ⟨le_refl 0, hw⟩
  case discharges => exact fun hw => ⟨hw, le_refl 0⟩
  case soc_mem => exact ⟨h.soc_nonneg, h.soc_le_one⟩
  case unclamped => rw [storedWh_of_nonneg d (le_refl 0), zero_mul, mul_zero, zero_div, add_zero]

/-- **A step follows its setpoint within all limits, and the state of charge is never cut back.** -/
theorem Ready.applySetpoint_obeys (h : d.Ready) (w : ℚ) :
    d.Obeys w (d.applySetpoint w).1 (d.applySetpoint w).2 := by
  rcases lt_trichotomy (d.limitedPower w) 0 with hneg | hzero | hpos
  · exact h.discharging_obeys hneg
  · exact h.idling_obeys hzero
  · exact h.charging_obeys hpos

theorem applySetpoint_like (d : Battery ℚ) (w : ℚ) : (d.applySetpoint w).2.Like d := by
  rcases lt_trichotomy (d.limitedPower w) 0 with hneg | hzero | hpos
  · rw [applySetpoint_of_neg hneg]
    exact d.like_withSoc _
  · rw [applySetpoint_of_zero hzero]
    exact ⟨rfl, rfl, rfl, rfl, rfl, rfl, rfl, rfl⟩
  · rw [applySetpoint_of_pos hpos]
    exact d.like_withSoc _

/-! ### Series of steps -/

theorem Ready.of_like (h : d.Ready) (hlike : e.Like d) (hsoc : 0 ≤ e.soc ∧ e.soc ≤ 1) : e.Ready where
  capacity_pos := hlike.capacityWh ▸ h.capacity_pos
  initialSoc_nonneg := hlike.initialSoc ▸ h.initialSoc_nonneg
  initialSoc_le_one := hlike.initialSoc ▸ h.initialSoc_le_one
  maxChargeW_nonneg := hlike.maxChargeW ▸ h.maxChargeW_nonneg
  maxDischargeW_nonneg := hlike.maxDischargeW ▸ h.maxDischargeW_nonneg
  chargeEfficiency_pos := hlike.chargeEfficiency ▸ h.chargeEfficiency_pos
  chargeEfficiency_le_one := hlike.chargeEfficiency ▸ h.chargeEfficiency_le_one
  dischargeEfficiency_pos := hlike.dischargeEfficiency ▸ h.dischargeEfficiency_pos
  dischargeEfficiency_le_one := hlike.dischargeEfficiency ▸ h.dischargeEfficiency_le_one
  hours_pos := by
    rw [Timing.stepHours_rat, hlike.step, ← Timing.stepHours_rat]
    exact h.hours_pos
  soc_nonneg := hsoc.1
  soc_le_one := hsoc.2

theorem Like.refl (d : Battery ℚ) : d.Like d :=
  ⟨rfl, rfl, rfl, rfl, rfl, rfl, rfl, rfl⟩

theorem Like.trans {b : Battery ℚ} (h : e.Like d) (h' : d.Like b) : e.Like b :=
  ⟨h.capacityWh.trans h'.capacityWh, h.initialSoc.trans h'.initialSoc, h.maxChargeW.trans h'.maxChargeW,
    h.maxDischargeW.trans h'.maxDischargeW, h.chargeEfficiency.trans h'.chargeEfficiency,
    h.dischargeEfficiency.trans h'.dischargeEfficiency, h.penaltyPerKwh.trans h'.penaltyPerKwh,
    h.step.trans h'.step⟩

section Runs

variable {X Y : Type} {f : Battery ℚ → X → Y × Battery ℚ} {setpoint : Battery ℚ → X → ℚ} {power : Y → ℚ}
  {T : X → Prop} {xs : List X}

/-- Inputs that are setpoints to a battery, with answers that are powers. -/
structure Driven (f : Battery ℚ → X → Y × Battery ℚ) (setpoint : Battery ℚ → X → ℚ) (power : Y → ℚ)
    (T : X → Prop) : Prop where
  obeys : ∀ (d : Battery ℚ) (x : X), T x → d.Ready → d.Obeys (setpoint d x) (power (f d x).1) (f d x).2
  like : ∀ (d : Battery ℚ) (x : X), (f d x).2.Like d

theorem Driven.run_ready (hf : Driven f setpoint power T) (h : d.Ready) (hxs : ∀ x ∈ xs, T x) :
    (Series.run f d xs).2.Ready ∧ (Series.run f d xs).2.Like d := by
  refine Series.run_keeps (I := fun e : Battery ℚ => e.Ready ∧ e.Like d) ?_ ⟨h, Like.refl d⟩ hxs
  rintro e x hx ⟨hready, hlike⟩
  have hsoc := (hf.obeys e x hx hready).soc_mem
  exact ⟨hready.of_like (hf.like e x) hsoc, (hf.like e x).trans hlike⟩

/-- **Over a series of inputs the state of charge changes by what the powers store.** -/
theorem Driven.run_stores (hf : Driven f setpoint power T) (h : d.Ready) (hxs : ∀ x ∈ xs, T x) :
    d.capacityWh * ((Series.run f d xs).2.soc - d.soc) = d.storedWh ((Series.run f d xs).1.map power) := by
  induction xs generalizing d with
  | nil => simp [storedWh, chargedWh, dischargedWh]
  | cons x xs ih =>
    have hobeys := hf.obeys d x (hxs x (by simp)) h
    have hlike := hf.like d x
    have hrest := ih (h.of_like hlike hobeys.soc_mem) fun y hy => hxs y (by simp [hy])
    rw [hlike.capacityWh, hlike.storedWh_eq, hobeys.unclamped] at hrest
    rw [Series.run_cons, List.map_cons, storedWh_cons, ← hrest]
    have hcapacity : d.capacityWh ≠ 0 := h.capacity_pos.ne'
    field_simp
    ring

/-- The account of a run: what the state of charge and the terminal cost come to, given the powers. -/
structure Accounts (d : Battery ℚ) (powers : List ℚ) (e : Battery ℚ) : Prop where
  like : e.Like d
  balance : d.capacityWh * (e.soc - d.initialSoc)
    = d.chargeEfficiency * d.chargedWh powers - d.dischargedWh powers / d.dischargeEfficiency
  cost : e.settle.terminalCost = d.penaltyPerKwh
    * (max (d.dischargedWh powers / d.dischargeEfficiency - d.chargeEfficiency * d.chargedWh powers) 0 / 1000)

theorem terminalCost_settle (d : Battery ℚ) :
    d.settle.terminalCost = max (d.initialSoc - d.soc) 0 * d.capacityWh / 1000 * d.penaltyPerKwh := by
  have hunit : (@OfNat.ofNat Rat 1000 (Scalar.instOfNat 1000)) = (1000 : ℚ) := rfl
  show Scalar.positivePart (d.initialSoc - d.soc) * d.capacityWh / _ * d.penaltyPerKwh = _
  rw [Scalar.positivePart_rat, hunit]

theorem Driven.run_accounts (hf : Driven f setpoint power T) (h : d.Ready) (hsoc : d.soc = d.initialSoc)
    (hxs : ∀ x ∈ xs, T x) : Accounts d ((Series.run f d xs).1.map power) (Series.run f d xs).2 := by
  obtain ⟨-, hlike⟩ := hf.run_ready h hxs
  have hstores := hf.run_stores h hxs
  rw [hsoc] at hstores
  refine ⟨hlike, hstores, ?_⟩
  have hmissing : max (d.initialSoc - (Series.run f d xs).2.soc) 0 * d.capacityWh
      = max (-d.storedWh ((Series.run f d xs).1.map power)) 0 := by
    rw [← hstores, max_mul_of_nonneg _ _ h.capacity_pos.le, zero_mul]
    congr 1
    ring
  rw [terminalCost_settle, hlike.initialSoc, hlike.capacityWh, hlike.penaltyPerKwh, hmissing, storedWh, neg_sub]
  ring

end Runs

theorem applySetpoint_drives : Driven applySetpoint (fun _ w => w) id fun _ => True where
  obeys _ w _ h := h.applySetpoint_obeys w
  like := applySetpoint_like

/-- A tick gives a battery a setpoint, from its schedule or from the meter, and the power is published. -/
theorem step_drives : Driven (Series.ticks step) (fun d x => d.setpointAt x.1)
    (fun m => m.power .activePower) fun x => x.2.allows .activePower = true where
  obeys d x hx h := by
    have hobeys := h.applySetpoint_obeys (d.setpointAt x.1)
    have hpublished : (Series.ticks step d x).1.power .activePower = (d.applySetpoint (d.setpointAt x.1)).1 := by
      show (x.2.setPower .activePower (d.applySetpoint (d.setpointAt x.1)).1).power .activePower = _
      exact (FlowMap.power_setPower hx _ _).trans (if_pos rfl)
    rw [hpublished]
    exact ⟨hobeys.within, hobeys.charges, hobeys.discharges, hobeys.soc_mem, hobeys.unclamped⟩
  like d x := by
    obtain ⟨h₁, h₂, h₃, h₄, h₅, h₆, h₇, h₈⟩ := d.applySetpoint_like (d.setpointAt x.1)
    exact ⟨h₁, h₂, h₃, h₄, h₅, h₆, h₇, h₈⟩

end Battery

/-- **The state of charge follows the powers, and no limit hides energy.** A battery with sound parameters is started,
at any step, and takes a series of setpoints of any length, or goes through a series of ticks that give it setpoints
and publish its powers. At each setpoint the power is within the limits of power, is not turned round and is not
greater than the setpoint. The state of charge stays a share and changes by what the power stores, without ever being
cut back. Over the whole series the charge changes by the energy drawn less the losses and by the energy delivered and
the losses, and the terminal cost is the penalty for what is missing by this account. -/
theorem charge_follows_powers {d : Battery ℚ} (h : d.Sound) (s : RunSettings) :
    (∀ (ws : List ℚ) (w : ℚ),
      let e := (Series.run Battery.applySetpoint (d.start s) ws).2
      e.Obeys w (e.applySetpoint w).1 (e.applySetpoint w).2) ∧
    (∀ ws : List ℚ,
      let course := Series.run Battery.applySetpoint (d.start s) ws
      (d.start s).Accounts course.1 course.2) ∧
    (∀ (xs : List (StepInput ℚ × FlowMap ℚ)) (x : StepInput ℚ × FlowMap ℚ),
      (∀ y ∈ xs ++ [x], y.2.allows .activePower = true) →
      let e := (Series.run (Series.ticks Battery.step) (d.start s) xs).2
      e.Obeys (e.setpointAt x.1) ((e.step x.1 x.2).1.power .activePower) (e.step x.1 x.2).2) ∧
    ∀ xs : List (StepInput ℚ × FlowMap ℚ), (∀ y ∈ xs, y.2.allows .activePower = true) →
      let course := Series.run (Series.ticks Battery.step) (d.start s) xs
      (d.start s).Accounts (course.1.map fun m => m.power .activePower) course.2 := by
  have hready := Battery.start_ready h s
  refine ⟨?_, ?_, ?_, ?_⟩
  · intro ws w e
    have he : e.Ready := (Battery.applySetpoint_drives.run_ready hready fun _ _ => trivial).1
    exact he.applySetpoint_obeys w
  · intro ws course
    have haccounts : (d.start s).Accounts (course.1.map id) course.2 :=
      Battery.applySetpoint_drives.run_accounts hready rfl fun _ _ => trivial
    rwa [List.map_id] at haccounts
  · intro xs x hxs e
    have he : e.Ready := (Battery.step_drives.run_ready hready fun y hy => hxs y (by simp [hy])).1
    exact Battery.step_drives.obeys e x (hxs x (by simp)) he
  · intro xs hxs course
    exact Battery.step_drives.run_accounts hready rfl hxs

/-- A battery of ten kWh that is half full at the start and loses a tenth in each direction. Its schedule is to
discharge in the first quarter of an hour and then to idle. -/
def Battery.lossy : Except Defect (Battery ℚ) := do
  let d ← Battery.new ⟨1⟩ 0 3600 900 10000 (1 / 2) 5000 5000
  let d ← d.withEfficiency (9 / 10) (9 / 10)
  return (d.withPenalty 2).withSolution (.binary #[true, false])

theorem Battery.lossy_sound {d : Battery ℚ} (h : Battery.lossy = .ok d) : d.Sound := by
  obtain ⟨b, hb, h⟩ := exists_of_bind_eq_ok h
  obtain ⟨e, he, h⟩ := exists_of_bind_eq_ok h
  obtain rfl := Except.ok.inj h
  exact { (new_sound hb).withEfficiency he with }

/-- Discharged for a quarter of an hour, at 4 kW by a setpoint or at 5 kW by its schedule, this battery misses what it
delivered and a ninth of it. -/
theorem charge_follows_powers_lossy :
    ∃ d, Battery.lossy = .ok d ∧ d.Sound ∧
      (let course := Series.run Battery.applySetpoint (d.start .quarterHours) [-4000]
      (d.start .quarterHours).Accounts course.1 course.2 ∧ course.2.settle.terminalCost = 20 / 9) ∧
      let course := Series.run (Series.ticks Battery.step) (d.start .quarterHours) Series.quarters
      (d.start .quarterHours).Accounts (course.1.map fun m => m.power .activePower) course.2 ∧
        course.2.settle.terminalCost = 25 / 9 := by
  have hvalues : (match Battery.lossy with
    | .ok d => decide
        ((Series.run Battery.applySetpoint (d.start .quarterHours) [-4000]).2.settle.terminalCost = 20 / 9 ∧
        (Series.run (Series.ticks Battery.step) (d.start .quarterHours) Series.quarters).2.settle.terminalCost = 25 / 9)
    | .error _ => false) = true := by decide +kernel
  cases hd : Battery.lossy with
  | error f =>
    rw [hd] at hvalues
    exact absurd hvalues Bool.false_ne_true
  | ok d =>
    rw [hd] at hvalues
    obtain ⟨hcost, hcost'⟩ := of_decide_eq_true hvalues
    have hsound := Battery.lossy_sound hd
    obtain ⟨-, hsetpoints, -, hticks⟩ := charge_follows_powers hsound .quarterHours
    exact ⟨d, rfl, hsound, ⟨hsetpoints [-4000], hcost⟩, hticks Series.quarters Series.quarters_allow, hcost'⟩

end HomeEnergy

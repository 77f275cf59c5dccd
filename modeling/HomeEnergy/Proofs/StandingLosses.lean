import HomeEnergy.Proofs.Construction
import HomeEnergy.Proofs.Rational
import HomeEnergy.Proofs.Series
import Mathlib.Algebra.Order.Group.Abs
import Mathlib.Analysis.Convex.Segment
import Mathlib.Tactic.Positivity
import Mathlib.Tactic.Ring

/-!
# What a tank loses by itself

A tank that is neither heated nor drawn from loses heat to its surroundings. A step takes the loss at its beginning
for its whole length, so what matters is the share of the excess temperature that one step takes away. It is a
constant of the run, and nothing keeps it below one: a small tank with a poor insulation ends a long step colder than
its surroundings.

* `HotWaterTank.lossShare` — the share of the excess temperature that one step takes away.
* `HotWaterTank.after_tempC` — one step of supply, draw and losses.
* `HotWaterTank.run_idle_tempC` — **left alone, the excess temperature of a tank is a geometric series**.
* `HotWaterTank.mem_between_iff`, `HotWaterTank.nearer_iff`, `HotWaterTank.same_side_iff` — what one factor of it does.
* `cools_towards_ambient_iff` — **the temperature stays between its last value and that of the surroundings exactly if
  a step takes at most the whole excess away**.
* `thimble_overcools` — a tank of one litre that does not.
-/

namespace HomeEnergy

namespace HotWaterTank

variable {d : HotWaterTank ℚ}

/-- The share of the temperature above the surroundings that the losses of one step take away. -/
def lossShare (d : HotWaterTank ℚ) : ℚ :=
  d.lossWPerK * d.timing.step.toNat / (d.volumeL * 4186)

def Idle (i : StepInput ℚ) : Prop :=
  i.flows.power .heatingHotWater = 0 ∧ i.flows.power .domesticHotWater = 0

/-! ### One step -/

/-- One step of supply, draw and losses. -/
theorem integrate_tempC (d : HotWaterTank ℚ) (suppliedW drawnW : ℚ) :
    (d.integrate suppliedW drawnW).tempC
      = d.ambientTempC + (1 - d.lossShare) * (d.tempC - d.ambientTempC)
        + (suppliedW - drawnW) * d.timing.step.toNat / (d.volumeL * 4186) := by
  show d.tempC + (suppliedW - drawnW - d.lossWPerK * (d.tempC - d.ambientTempC)) * (d.timing.step.toNat : ℚ)
    / (d.volumeL * ((4186 : ℕ) : ℚ)) = _
  rw [lossShare]
  push_cast
  ring

theorem after_tempC (hpending : d.initialPending = false) {i : StepInput ℚ} (hi : Idle i) :
    (d.after i).tempC = d.ambientTempC + (1 - d.lossShare) * (d.tempC - d.ambientTempC) := by
  have hstep := integrate_tempC d (-(i.flows.power .heatingHotWater)) (i.flows.power .domesticHotWater)
  rw [hi.1, hi.2] at hstep
  simp only [after, hpending, Bool.false_eq_true, if_false, hi.1, hi.2]
  rw [hstep]
  ring

theorem after_of_pending (hpending : d.initialPending = true) (i : StepInput ℚ) :
    d.after i = { d with initialPending := false } := by
  simp only [after, hpending, if_true]

@[simp] theorem after_ambientTempC (d : HotWaterTank ℚ) (i : StepInput ℚ) :
    (d.after i).ambientTempC = d.ambientTempC := by
  unfold after
  split <;> rfl

@[simp] theorem after_lossShare (d : HotWaterTank ℚ) (i : StepInput ℚ) :
    (d.after i).lossShare = d.lossShare := by
  unfold after
  split <;> rfl

@[simp] theorem after_initialPending (d : HotWaterTank ℚ) (i : StepInput ℚ) :
    (d.after i).initialPending = false := by
  unfold after
  split
  · rfl
  · rename_i hpending
    exact Bool.not_eq_true _ ▸ hpending

/-! ### Many steps -/

/-- **Left alone, the excess temperature of a tank is a geometric series.** -/
theorem run_idle_tempC (xs : List (StepInput ℚ × FlowMap ℚ)) (hxs : ∀ x ∈ xs, Idle x.1)
    (hpending : d.initialPending = false) :
    (Series.run (Series.ticks HotWaterTank.step) d xs).2.tempC
      = d.ambientTempC + (1 - d.lossShare) ^ xs.length * (d.tempC - d.ambientTempC) := by
  induction xs generalizing d with
  | nil => simp
  | cons x xs ih =>
    have hrest := ih (d := d.after x.1) (fun y hy => hxs y (by simp [hy])) (after_initialPending d x.1)
    rw [Series.run_cons]
    show (Series.run (Series.ticks HotWaterTank.step) (d.after x.1) xs).2.tempC = _
    rw [hrest, after_tempC hpending (hxs x (by simp)), after_ambientTempC, after_lossShare, List.length_cons]
    ring

/-! ### One factor of a geometric series -/

section Factor

variable {ambient temp share : ℚ}

/-- A step does not change sides if it takes at most the whole excess away. -/
theorem same_side_iff :
    0 ≤ (ambient + (1 - share) * (temp - ambient) - ambient) * (temp - ambient) ↔
      share ≤ 1 ∨ temp = ambient := by
  have hproduct : (ambient + (1 - share) * (temp - ambient) - ambient) * (temp - ambient)
      = (1 - share) * (temp - ambient) ^ 2 := by ring
  rw [hproduct]
  by_cases hat : temp = ambient
  · simp [hat]
  · have hsquare : 0 < (temp - ambient) ^ 2 := by
      have := sub_ne_zero.mpr hat
      positivity
    rw [mul_nonneg_iff_of_pos_right hsquare, sub_nonneg]
    simp [hat]

/-- A step does not lead away from the surroundings if it takes at most twice the excess away. -/
theorem nearer_iff (hshare : 0 ≤ share) :
    |ambient + (1 - share) * (temp - ambient) - ambient| ≤ |temp - ambient| ↔
      share ≤ 2 ∨ temp = ambient := by
  rw [add_sub_cancel_left, abs_mul]
  by_cases hat : temp = ambient
  · simp [hat]
  · have hdistance : 0 < |temp - ambient| := abs_pos.mpr (sub_ne_zero.mpr hat)
    rw [mul_le_iff_le_one_left hdistance, abs_le]
    constructor
    · rintro ⟨hlow, -⟩
      exact Or.inl (by linarith)
    · rintro (hle | heq)
      · exact ⟨by linarith, by linarith⟩
      · exact absurd heq hat

/-- A step stays between the last temperature and that of the surroundings if it takes at most the whole excess
away. -/
theorem mem_between_iff (hshare : 0 ≤ share) :
    (min temp ambient ≤ ambient + (1 - share) * (temp - ambient) ∧
      ambient + (1 - share) * (temp - ambient) ≤ max temp ambient) ↔ share ≤ 1 ∨ temp = ambient := by
  constructor
  · rintro ⟨hlow, hhigh⟩
    refine same_side_iff.mp ?_
    rcases le_total temp ambient with hbelow | habove
    · rw [max_eq_right hbelow] at hhigh
      exact mul_nonneg_of_nonpos_of_nonpos (sub_nonpos.mpr hhigh) (sub_nonpos.mpr hbelow)
    · rw [min_eq_right habove] at hlow
      exact mul_nonneg (sub_nonneg.mpr hlow) (sub_nonneg.mpr habove)
  · rintro (hle | hat)
    · -- The new temperature is a mean of both, and the share is the weight of the surroundings.
      have hmean : ambient + (1 - share) * (temp - ambient) = (1 - share) • temp + share • ambient := by
        simp only [smul_eq_mul]
        ring
      have hrest : 0 ≤ 1 - share := sub_nonneg.mpr hle
      rw [hmean]
      exact ⟨Convex.min_le_combo _ _ hrest hshare (sub_add_cancel 1 share),
        Convex.combo_le_max _ _ hrest hshare (sub_add_cancel 1 share)⟩
    · simp [hat]

/-- A series that does not end in one step is at the temperature of the surroundings only if it started there. -/
theorem at_ambient_iff {initial bound : ℚ} (hbound : 1 ≤ bound) (n : ℕ) :
    (share ≤ bound ∨ ambient + (1 - share) ^ n * (initial - ambient) = ambient) ↔
      share ≤ bound ∨ initial = ambient := by
  by_cases hle : share ≤ bound
  · simp [hle]
  · have hfactor : 1 - share ≠ 0 := by
      intro hone
      exact hle (by linarith)
    simp [hle, hfactor, sub_eq_zero]

end Factor

end HotWaterTank

/-! ### A configured tank -/

open HotWaterTank in
/-- **The temperature of a tank that is left alone stays between its last value and that of the surroundings exactly
if a step takes at most the whole excess away**, whatever the tank is that was configured. It then never changes
sides. Up to twice the excess it does not get farther away either, and beyond that it does in every step. -/
theorem cools_towards_ambient_iff (c : TankConfig ℚ) (field : String → String)
    (hvalid : Config.modelIssues field (.hotWaterTank c) = []) (device : DeviceId)
    (referenceTime horizon : UInt64) (settings : RunSettings) (first : StepInput ℚ × FlowMap ℚ)
    (idle : List (StepInput ℚ × FlowMap ℚ)) (hidle : ∀ x ∈ idle, Idle x.1) :
    ∃ built, HotWaterTank.new device referenceTime horizon c.volumeL c.initialTempC = .ok built ∧
      let tank := ((built.withLosses c.ambientTempC c.lossWPerK).withComfort c.minTempC
        c.penaltyPerKelvinHour).start settings
      let share := max c.lossWPerK 0 * (Timing.atLeastOne settings.step).toNat / (c.volumeL * 4186)
      let temp (n : ℕ) := (Series.run (Series.ticks HotWaterTank.step) tank (first :: idle.take n)).2.tempC
      ∀ n < idle.length,
        temp n = c.ambientTempC + (1 - share) ^ n * (c.initialTempC - c.ambientTempC) ∧
        ((min (temp n) c.ambientTempC ≤ temp (n + 1) ∧ temp (n + 1) ≤ max (temp n) c.ambientTempC) ↔
          share ≤ 1 ∨ c.initialTempC = c.ambientTempC) ∧
        (0 ≤ (temp (n + 1) - c.ambientTempC) * (temp n - c.ambientTempC) ↔
          share ≤ 1 ∨ c.initialTempC = c.ambientTempC) ∧
        (|temp (n + 1) - c.ambientTempC| ≤ |temp n - c.ambientTempC| ↔
          share ≤ 2 ∨ c.initialTempC = c.ambientTempC) := by
  have hvolume : 0 < c.volumeL := by
    simp only [Config.modelIssues, Config.require_eq_nil, Config.isPositive, Bool.and_eq_true,
      decide_eq_true_eq, Scalar.rat_zero] at hvalid
    exact hvalid.1
  refine ⟨_, if_pos (by rwa [Scalar.rat_zero]), ?_⟩
  intro tank share temp n hn
  have hshare : 0 ≤ share := by positivity
  have hlossShare : tank.lossShare = share := by
    show Scalar.positivePart c.lossWPerK * _ / _ = _
    rw [Scalar.positivePart_rat]
    rfl
  have htemp : ∀ k ≤ idle.length,
      temp k = c.ambientTempC + (1 - share) ^ k * (c.initialTempC - c.ambientTempC) := by
    intro k hk
    show (Series.run (Series.ticks HotWaterTank.step) (tank.after first.1) (idle.take k)).2.tempC = _
    rw [run_idle_tempC _ (fun x hx => hidle x (List.mem_of_mem_take hx)) (after_initialPending tank first.1),
      after_ambientTempC, after_lossShare, hlossShare, after_of_pending rfl, List.length_take_of_le hk]
    rfl
  have hnext : temp (n + 1) = c.ambientTempC + (1 - share) * (temp n - c.ambientTempC) := by
    rw [htemp (n + 1) hn, htemp n hn.le]
    ring
  have hat (bound : ℚ) (hbound : 1 ≤ bound) :
      share ≤ bound ∨ temp n = c.ambientTempC ↔ share ≤ bound ∨ c.initialTempC = c.ambientTempC := by
    rw [htemp n hn.le]
    exact at_ambient_iff hbound n
  rw [hnext]
  exact ⟨htemp n hn.le, (mem_between_iff hshare).trans (hat 1 le_rfl), same_side_iff.trans (hat 1 le_rfl),
    (nearer_iff hshare).trans (hat 2 one_le_two)⟩

theorem HotWaterTank.quarters_idle : ∀ x ∈ Series.quarters, Idle x.1 := by
  intro x hx
  obtain ⟨k, -, rfl⟩ := List.mem_map.mp hx
  have hnothing (c : Commodity) : (FlowMap.unrestricted : FlowMap ℚ).power c = 0 := by
    cases c <;> decide +kernel
  exact ⟨hnothing _, hnothing _⟩

/-- A quarter of an hour is short for the tank of the defaults. -/
theorem cools_towards_ambient_iff_default :
    Config.modelIssues id (.hotWaterTank (.default (α := ℚ))) = [] ∧
      ∃ built, HotWaterTank.new (.ofNat 1) 0 3600 300 60 = .ok built ∧
        let tank := ((built.withLosses 20 2).withComfort 45 0.1).start .quarterHours
        let first := ({ tick := 0, flows := .unrestricted, meter := .zero }, .limitedTo HotWaterTank.outputs)
        let temp (n : ℕ) := (Series.run (Series.ticks HotWaterTank.step) tank
          (first :: Series.quarters.take n)).2.tempC
        ∀ n < 4, min (temp n) 20 ≤ temp (n + 1) ∧ temp (n + 1) ≤ max (temp n) 20 := by
  have hvalid : Config.modelIssues id (.hotWaterTank (.default (α := ℚ))) = [] := by decide +kernel
  obtain ⟨built, hbuilt, hcools⟩ := cools_towards_ambient_iff .default id hvalid (.ofNat 1) 0 3600
    .quarterHours _ Series.quarters HotWaterTank.quarters_idle
  refine ⟨hvalid, built, hbuilt, fun n hn => ?_⟩
  exact (hcools n hn).2.1.mpr (Or.inl (by decide +kernel))

def TankConfig.thimble : TankConfig ℚ :=
  { volumeL := 1, initialTempC := 60, ambientTempC := 20, lossWPerK := 10, minTempC := 45,
    penaltyPerKelvinHour := 1 }

/-- **A checked tank that overcools.** It starts 40 K above its surroundings, and after a quarter of an hour it is
below them by more. -/
theorem thimble_overcools :
    Config.modelIssues id (.hotWaterTank .thimble) = [] ∧
      ∃ built, HotWaterTank.new (.ofNat 1) 0 3600 TankConfig.thimble.volumeL TankConfig.thimble.initialTempC
          = .ok built ∧
        let tank := (built.withLosses TankConfig.thimble.ambientTempC TankConfig.thimble.lossWPerK).start
          .quarterHours
        let temp (n : ℕ) := (Series.run (Series.ticks HotWaterTank.step) tank (Series.quarters.take (n + 1))).2.tempC
        (∀ x ∈ Series.quarters, HotWaterTank.Idle x.1) ∧ temp 0 = 60 ∧ temp 1 = 20 - 96280 / 2093 ∧
          temp 1 < min (temp 0) 20 ∧ |temp 0 - 20| < |temp 1 - 20| := by
  refine ⟨by decide +kernel, _, if_pos (by decide +kernel), HotWaterTank.quarters_idle, ?_, ?_, ?_, ?_⟩
  all_goals decide +kernel

end HomeEnergy

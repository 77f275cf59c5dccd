import HomeEnergy.Device.HotWaterDemand
import HomeEnergy.Proofs.Rational
import HomeEnergy.Proofs.Ticks
import Mathlib.Algebra.BigOperators.Intervals
import Mathlib.Algebra.Ring.Periodic
import Mathlib.Tactic.FieldSimp
import Mathlib.Tactic.LinearCombination
import Mathlib.Tactic.Ring

/-!
# The energy of a day of hot water

A hot water demand follows the hours of the day, and its steps may be shorter than an hour and begin anywhere in one.
In rational numbers the draws of a whole day still come to the daily energy: in a day of steps, every hour of the day
has as many ticks as an hour has steps, also if it is split by the start and by midnight.

* `sum_range_of_periodic`, `sum_range_div` — a period summed from any start, and in blocks of equal values.
* `HotWaterDemand.hourOf_tick` — the hour of a tick, counted in steps.
* `HotWaterDemand.sum_shareOf` — the shares of a day of ticks.
* `HotWaterDemand.daily_energy_drawn` — the draws of a day come to the daily energy.
-/

namespace HomeEnergy

open Finset

/-! ### Sums over a period -/

/-- A period has the same sum from every start: one step on, the first value is lost and comes back at the end. -/
theorem sum_range_of_periodic {f : ℕ → ℚ} {n : ℕ} (hf : Function.Periodic f n) (start : ℕ) :
    ∑ k ∈ range n, f (start + k) = ∑ k ∈ range n, f k := by
  induction start with
  | zero => simp
  | succ start ih =>
    have hfirst := sum_range_succ' (fun k => f (start + k)) n
    have hlast := sum_range_succ (fun k => f (start + k)) n
    have hshift : ∀ k, start + 1 + k = start + (k + 1) := fun k => by omega
    simp only [hshift]
    rw [← ih, ← add_right_cancel_iff (a := f (start + 0)), ← hfirst, hlast, hf start, Nat.add_zero]

/-- Each value of a series of blocks is taken as often as a block is long. -/
theorem sum_range_div (f : ℕ → ℚ) (n : ℕ) {m : ℕ} (hm : 0 < m) :
    ∑ k ∈ range (n * m), f (k / m) = m * ∑ h ∈ range n, f h := by
  induction n with
  | zero => simp
  | succ n ih =>
    have hblock : ∀ k ∈ range m, f ((n * m + k) / m) = f n := by
      intro k hk
      rw [Nat.mul_comm, Nat.mul_add_div hm, Nat.div_eq_of_lt (mem_range.mp hk), Nat.add_zero]
    rw [Nat.succ_mul, sum_range_add, ih, sum_congr rfl hblock, sum_const, card_range, nsmul_eq_mul,
      sum_range_succ, mul_add]

namespace HotWaterDemand

/-! ### Hours -/

/-- The hour of the day of a tick, in rational numbers. -/
theorem hourOf_rat (tick : UInt64) : hourOf ℚ tick = tick.toNat / 3600 % 24 := by
  have hfraction : (dayFraction tick : ℚ) * 24 = ((tick.toNat % 86400 : ℕ) : ℚ) / ((3600 : ℕ) : ℚ) := by
    have hword : (Scalar.ofWord (tick % 86400) : ℚ) = ((tick.toNat % 86400 : ℕ) : ℚ) := by
      show (((tick % 86400).toNat : ℕ) : ℚ) = _
      rw [UInt64.toNat_mod]
      rfl
    show (Scalar.ofWord (tick % 86400) : ℚ) / ((86400 : ℕ) : ℚ) * ((24 : ℕ) : ℚ) = _
    rw [hword]
    push_cast
    ring
  have hwhole : Scalar.toNat ((dayFraction tick : ℚ) * 24) = tick.toNat % 86400 / 3600 := by
    show (⌊(dayFraction tick : ℚ) * 24⌋).toNat = _
    rw [hfraction, Rat.floor_natCast_div_natCast]
    rfl
  have hlt : tick.toNat % 86400 / 3600 < 24 := by omega
  show Nat.min (Scalar.toNat ((dayFraction tick : ℚ) * 24)) 23 = _
  rw [hwhole]
  show min _ 23 = _
  omega

/-- The hour of the tick with a number, counted in steps: `start / step` steps before the first tick and `m` to the
hour. -/
theorem hourOf_tick {step m start k : ℕ} (hstep : 0 < step) (hm : step * m = 3600) :
    (start + k * step) / 3600 % 24 = (start / step + k) / m % 24 := by
  rw [← hm, ← Nat.div_div_eq_div_mul, Nat.add_mul_div_right _ _ hstep]

/-! ### Shares -/

def shareOf (h : ℕ) : ℚ :=
  (hourlyShare : List ℚ).getD h 0

theorem sum_shareOf_hours : ∑ h ∈ range 24, shareOf h = Scalar.sum (hourlyShare : List ℚ) := by
  rw [Scalar.sum_rat]
  simp [sum_range_succ, shareOf, hourlyShare]
  ring

theorem sum_hourlyShare_ne_zero : Scalar.sum (hourlyShare : List ℚ) ≠ 0 := by
  rw [Scalar.sum_rat]
  norm_num [hourlyShare]

/-- **In a day of steps from any start, each hour has its share as often as there are steps in an hour.** -/
theorem sum_shareOf {m : ℕ} (hm : 0 < m) (first : ℕ) :
    ∑ k ∈ range (24 * m), shareOf ((first + k) / m % 24) = m * Scalar.sum (hourlyShare : List ℚ) := by
  have hperiodic : Function.Periodic (fun n => shareOf (n / m % 24)) (24 * m) := by
    intro n
    show shareOf ((n + 24 * m) / m % 24) = _
    rw [Nat.add_mul_div_right _ _ hm, Nat.add_mod_right]
  calc ∑ k ∈ range (24 * m), shareOf ((first + k) / m % 24)
      = ∑ k ∈ range (24 * m), shareOf (k / m % 24) := sum_range_of_periodic hperiodic first
    _ = m * ∑ h ∈ range 24, shareOf (h % 24) := sum_range_div (fun h => shareOf (h % 24)) 24 hm
    _ = m * ∑ h ∈ range 24, shareOf h := by
        rw [sum_congr rfl fun h hh => by rw [Nat.mod_eq_of_lt (mem_range.mp hh)]]
    _ = m * Scalar.sum (hourlyShare : List ℚ) := by rw [sum_shareOf_hours]

theorem drawW_rat (d : HotWaterDemand ℚ) (tick : UInt64) :
    d.drawW tick
      = d.dailyEnergyWh * shareOf (tick.toNat / 3600 % 24) / Scalar.sum (hourlyShare : List ℚ) := by
  have hzero : (@OfNat.ofNat ℚ 0 (Scalar.instOfNat 0)) = (0 : ℚ) := Scalar.rat_zero
  rw [drawW, hourOf_rat, hzero]
  rfl

/-- **The draws of a day come to the daily energy**, for every step that goes into an hour and every tick that the day
starts at. The ticks of the day are the words one step apart; the day must not go beyond the last word. -/
theorem daily_energy_drawn (device : DeviceId) (referenceTime horizon : UInt64) {daily : ℚ}
    (hdaily : 0 ≤ daily) {step : UInt64} (hstep : step.toNat ∣ 3600) {start : UInt64}
    (hlast : start.toNat + (86400 - step.toNat) < UInt64.size) :
    ∑ k ∈ range (86400 / step.toNat),
      (new device referenceTime horizon daily).drawW (start + UInt64.ofNat k * step)
        * step.toNat / 3600 = daily := by
  obtain ⟨m, hm⟩ := hstep
  have hspos : 0 < step.toNat := Nat.pos_of_ne_zero fun h => by simp [h] at hm
  have hmpos : 0 < m := Nat.pos_of_ne_zero fun h => by simp [h] at hm
  have hcount : 86400 / step.toNat = 24 * m := by
    rw [show 86400 = 24 * m * step.toNat by rw [Nat.mul_assoc, Nat.mul_comm m, ← hm],
      Nat.mul_div_cancel _ hspos]
  have htick : ∀ k ∈ range (24 * m),
      (start + UInt64.ofNat k * step).toNat = start.toNat + k * step.toNat := by
    intro k hk
    have hk' : (k + 1) * step.toNat ≤ 86400 := by
      calc (k + 1) * step.toNat ≤ 24 * m * step.toNat :=
            Nat.mul_le_mul_right _ (mem_range.mp hk)
        _ = 86400 := by rw [Nat.mul_assoc, Nat.mul_comm m, ← hm]
    rw [Nat.add_mul, Nat.one_mul] at hk'
    rw [toNat_add_ofNat_mul]
    exact Nat.mod_eq_of_lt (by omega)
  have henergy : (new device referenceTime horizon daily).dailyEnergyWh = daily := by
    show Scalar.positivePart daily = daily
    rw [Scalar.positivePart_rat, max_eq_left hdaily]
  have htotal := sum_hourlyShare_ne_zero
  have hday : ∀ k ∈ range (24 * m),
      (new device referenceTime horizon daily).drawW (start + UInt64.ofNat k * step)
          * step.toNat / 3600
        = shareOf ((start.toNat / step.toNat + k) / m % 24)
          * (daily * step.toNat / 3600 / Scalar.sum (hourlyShare : List ℚ)) := by
    intro k hk
    rw [drawW_rat, htick k hk, hourOf_tick hspos hm.symm, henergy]
    ring
  have hhour : (m : ℚ) * step.toNat = 3600 := by
    rw [mul_comm]
    exact_mod_cast hm.symm
  rw [hcount, sum_congr rfl hday, ← sum_mul, sum_shareOf hmpos]
  field_simp
  linear_combination daily * hhour

/-- A day in steps of seven and a half minutes, from a tick ten minutes into an hour. -/
theorem daily_energy_drawn_offset :
    (0 : ℚ) ≤ 6000 ∧ (450 : UInt64).toNat ∣ 3600 ∧
    (37000200 : UInt64).toNat + (86400 - (450 : UInt64).toNat) < UInt64.size ∧
    ∑ k ∈ range (86400 / (450 : UInt64).toNat),
      (new ⟨1⟩ 0 86400 (6000 : ℚ)).drawW (37000200 + UInt64.ofNat k * 450)
        * (450 : UInt64).toNat / 3600 = 6000 := by
  have hdaily : (0 : ℚ) ≤ 6000 := by norm_num
  have hstep : (450 : UInt64).toNat ∣ 3600 := by decide
  have hlast : (37000200 : UInt64).toNat + (86400 - (450 : UInt64).toNat) < UInt64.size := by decide
  exact ⟨hdaily, hstep, hlast, daily_energy_drawn ⟨1⟩ 0 86400 hdaily hstep hlast⟩

end HotWaterDemand

end HomeEnergy

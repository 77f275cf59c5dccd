import HomeEnergy.Device.Timing
import HomeEnergy.Proofs.Exact
import Mathlib.Data.Rat.Floor
import Mathlib.Tactic.Linarith
import Mathlib.Tactic.NormNum

/-!
# The models in rational numbers

The models are written over every number type. Over the rational numbers their operations are the usual ones: there is
no rounding, nothing is undefined, and the two operands of a minimum can be exchanged.

* `Scalar.rat_zero`, `Scalar.rat_one` — literals.
* `Scalar.min_rat`, `Scalar.positivePart_rat`, `Scalar.clamp_mem` — bounds; `Scalar.clamp_eq_self` — nothing is changed
  that is within them.
* `Scalar.sum_rat`, `Scalar.roundHalfUp_rat` — sums and whole numbers.
* `Timing.stepHours_pos` — a step takes time.
-/

namespace HomeEnergy

namespace Scalar

/-! ### Literals -/

@[simp] theorem rat_zero : (@OfNat.ofNat Rat 0 (Scalar.instOfNat 0)) = (0 : ℚ) :=
  Nat.cast_zero

@[simp] theorem rat_one : (@OfNat.ofNat Rat 1 (Scalar.instOfNat 1)) = (1 : ℚ) :=
  Nat.cast_one

/-! ### Bounds -/

theorem min_rat (x y : ℚ) : Scalar.min x y = Min.min x y := by
  show (if x < y then x else y) = _
  split
  · rename_i h
    exact (min_eq_left (le_of_lt h)).symm
  · rename_i h
    exact (min_eq_right (not_lt.mp h)).symm

theorem max_rat (x y : ℚ) : Scalar.max x y = Max.max x y := by
  show (if y < x then x else y) = _
  split
  · rename_i h
    exact (max_eq_left (le_of_lt h)).symm
  · rename_i h
    exact (max_eq_right (not_lt.mp h)).symm

theorem positivePart_rat (x : ℚ) : Scalar.positivePart x = Max.max x 0 := by
  show (if _ < x then x else _) = _
  rw [rat_zero]
  split
  · rename_i h
    exact (max_eq_left (le_of_lt h)).symm
  · rename_i h
    exact (max_eq_right (not_lt.mp h)).symm

theorem clamp_eq_self {lo hi x : ℚ} (hlo : lo ≤ x) (hhi : x ≤ hi) : Scalar.clamp lo hi x = x := by
  unfold clamp
  rw [if_neg (not_lt.mpr hlo)]
  exact if_neg (not_lt.mpr hhi)

/-- What is moved into the bounds is within them. -/
theorem clamp_mem {lo hi : ℚ} (h : lo ≤ hi) (x : ℚ) : lo ≤ Scalar.clamp lo hi x ∧ Scalar.clamp lo hi x ≤ hi := by
  have hraised : lo ≤ if x < lo then lo else x := by
    split
    · exact le_refl lo
    · rename_i hx
      exact not_lt.mp hx
  unfold clamp
  dsimp only
  by_cases hcut : hi < if x < lo then lo else x
  · rw [if_pos hcut]
    exact ⟨h, le_refl hi⟩
  · rw [if_neg hcut]
    exact ⟨hraised, not_lt.mp hcut⟩

/-! ### Sums and whole numbers -/

theorem sum_rat (xs : List Rat) : Scalar.sum xs = xs.sum :=
  sum_eq xs

theorem roundHalfUp_rat (x : Rat) : Scalar.roundHalfUp x = ((⌊x + 1 / 2⌋ : ℤ) : ℚ) := by
  have hhalf : (0.5 : ℚ) = 1 / 2 := by norm_num
  show ((⌊x + (0.5 : ℚ)⌋ : ℤ) : ℚ) = _
  rw [hhalf]

end Scalar

/-! ### Time -/

namespace Timing

theorem stepHours_rat (t : Timing) : (t.stepHours : ℚ) = t.step.toNat / 3600 :=
  rfl

theorem toNat_step_pos {t : Timing} (h : t.step ≠ 0) : 0 < t.step.toNat :=
  Nat.pos_of_ne_zero fun hzero => h (UInt64.toNat_inj.mp hzero)

theorem stepHours_pos {t : Timing} (h : t.step ≠ 0) : 0 < (t.stepHours : ℚ) := by
  have hpos := toNat_step_pos h
  rw [stepHours_rat]
  positivity

end Timing

end HomeEnergy

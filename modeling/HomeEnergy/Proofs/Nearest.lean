import HomeEnergy.Proofs.Rounding

/-!
# Sums and products in double precision

The result of an operation is the exact one, rounded to the nearest number that can be stored.

* `Double.Representable` — the rational numbers that can be stored, but for their size; `Double.Nearest` — no
  representable number is closer.
* `Double.Nearest.le`, `Double.Nearest.ge` — rounding does not cross a representable number;
  `Double.Nearest.abs_sub_le`, `Double.Nearest.le_one` — how far it goes near one.
* `Double.Value`, `Double.Worth` — the rational number that a finite number stands for.
* `Double.value_round` — **a mantissa and an exponent are rounded to a nearest number**.
* `Double.Worth.add`, `Double.Worth.sub`, `Double.Worth.mul` — **operations round the exact result**.
* `Double.Worth.le_iff` — **numbers compare as their values do**; `Double.within_iff` — bounds of numbers are bounds
  of their values.
-/

namespace HomeEnergy

namespace Double

open Float.Model (Format UnpackedFloat totalExponent)
open Float.Model.UnpackedFloat (Accuracy ExtendedMantissa Sign)

/-! ### Representable numbers -/

/-- A number with 53 binary digits, none of them behind the place 1074. -/
def Representable (c : ℚ) : Prop :=
  ∃ n f : ℤ, |n| ≤ 2 ^ 53 ∧ -1074 ≤ f ∧ c = n * 2 ^ f

/-- A representable number that is as close as any other one. -/
structure Nearest (v r : ℚ) : Prop where
  representable : Representable r
  closest : ∀ {c : ℚ}, Representable c → |r - v| ≤ |c - v|

theorem representable_zero : Representable 0 :=
  ⟨0, 0, by norm_num, by norm_num, by norm_num⟩

theorem representable_two_pow (k : ℕ) : Representable (2 ^ k) :=
  ⟨1, k, by norm_num, by omega, by simp⟩

theorem representable_one : Representable 1 := by
  simpa using representable_two_pow 0

theorem Representable.neg {c : ℚ} (h : Representable c) : Representable (-c) := by
  obtain ⟨n, f, hn, hf, rfl⟩ := h
  exact ⟨-n, f, by rwa [abs_neg], hf, by push_cast; ring⟩

theorem Storable.representable {m : ℕ} {e : ℤ} (h : Storable m e) : Representable (m * 2 ^ e) := by
  have hdigits := h.digits
  refine ⟨m, e, ?_, h.least, by push_cast; rfl⟩
  rw [abs_of_nonneg (Int.natCast_nonneg m)]
  omega

/-- A number with a place in front of another one is a multiple of that place. -/
theorem exists_multiple {f t : ℤ} (h : t ≤ f) (n : ℤ) : ∃ i : ℤ, (n : ℚ) * 2 ^ f = i * 2 ^ t := by
  obtain ⟨k, hk⟩ := Int.eq_ofNat_of_zero_le (show 0 ≤ f - t by omega)
  refine ⟨n * 2 ^ k, ?_⟩
  rw [show f = k + t by omega, zpow_add₀ (by norm_num), zpow_natCast]
  push_cast
  ring

/-- A number with a place behind another one is below all numbers with 53 digits in front of that one. -/
theorem le_of_finer {n f t : ℤ} (hn : |n| ≤ 2 ^ 53) (hf : f < t) : (n : ℚ) * 2 ^ f ≤ 2 ^ 52 * 2 ^ t := by
  have hnq : (n : ℚ) ≤ 2 ^ 53 := by exact_mod_cast (le_abs_self n).trans hn
  have hpow : (2 : ℚ) ^ f ≤ 2 ^ (t - 1) := zpow_le_zpow_right₀ (by norm_num) (by omega)
  have hpos : (0 : ℚ) < 2 ^ f := zpow_pos (by norm_num) f
  calc (n : ℚ) * 2 ^ f ≤ 2 ^ 53 * 2 ^ f := mul_le_mul_of_nonneg_right hnq hpos.le
    _ ≤ 2 ^ 53 * 2 ^ (t - 1) := mul_le_mul_of_nonneg_left hpow (by norm_num)
    _ = 2 ^ 52 * 2 ^ t := by
      rw [zpow_sub₀ (by norm_num)]
      norm_num
      ring

/-- There is no number between one and the next place. -/
theorem Representable.step_above_one {c : ℚ} (h : Representable c) (hc : 1 < c) : 1 + 1 / 2 ^ 52 ≤ c := by
  obtain ⟨n, f, hn, -, rfl⟩ := h
  have hplace : (2 : ℚ) ^ (-52 : ℤ) = 1 / 2 ^ 52 := by norm_num
  rcases le_or_gt (-52) f with hf | hf
  · obtain ⟨i, hi⟩ := exists_multiple hf n
    rw [hi, hplace] at hc ⊢
    have hexceeds : ((2 ^ 52 : ℤ) : ℚ) < i := by
      push_cast
      linarith
    have hnext : (2 ^ 52 : ℤ) + 1 ≤ i := by exact_mod_cast hexceeds
    replace hnext : ((2 ^ 52 + 1 : ℤ) : ℚ) ≤ i := by exact_mod_cast hnext
    push_cast at hnext
    linarith
  · have hsmall := le_of_finer hn hf
    rw [hplace] at hsmall
    linarith

namespace Nearest

variable {v r c : ℚ}

theorem refl (h : Representable c) : Nearest c c :=
  ⟨h, fun _ => by simp⟩

theorem neg (h : Nearest v r) : Nearest (-v) (-r) := by
  refine ⟨h.representable.neg, fun {c} hc => ?_⟩
  have hle := h.closest hc.neg
  rw [show -r - -v = -(r - v) by ring, show c - -v = -(-c - v) by ring, abs_neg, abs_neg]
  exact hle

/-- Rounding does not cross a representable number from below. -/
theorem le (h : Nearest v r) (hc : Representable c) (hle : v ≤ c) : r ≤ c := by
  by_contra hlt
  rw [not_le] at hlt
  have hclosest := h.closest hc
  rw [abs_of_nonneg (by linarith), abs_of_nonneg (by linarith)] at hclosest
  linarith

theorem ge (h : Nearest v r) (hc : Representable c) (hle : c ≤ v) : c ≤ r := by
  have hneg := h.neg.le hc.neg (neg_le_neg hle)
  linarith

theorem eq (h : Nearest v r) (hv : Representable v) : r = v :=
  le_antisymm (h.le hv le_rfl) (h.ge hv le_rfl)

/-- Between minus one and one there is a representable number within half of the 53rd place. -/
theorem abs_sub_le (h : Nearest v r) (hv : |v| ≤ 1) : |r - v| ≤ 1 / 2 ^ 54 := by
  obtain ⟨n, hn⟩ : ∃ n : ℤ, |v * 2 ^ 53 - n| ≤ 1 / 2 := ⟨_, abs_sub_round _⟩
  obtain ⟨hlow, hhigh⟩ := abs_le.mp hn
  obtain ⟨hvlow, hvhigh⟩ := abs_le.mp hv
  have hsize : |n| ≤ 2 ^ 53 := by
    have hnlow : (-(2 ^ 53) - 1 : ℚ) < n := by
      norm_num at hlow hhigh ⊢
      linarith
    have hnhigh : (n : ℚ) < 2 ^ 53 + 1 := by
      norm_num at hlow hhigh ⊢
      linarith
    have hnlow : (-(2 ^ 53) - 1 : ℤ) < n := by exact_mod_cast hnlow
    have hnhigh : n < (2 ^ 53 + 1 : ℤ) := by exact_mod_cast hnhigh
    exact abs_le.mpr ⟨by omega, by omega⟩
  refine (h.closest ⟨n, -53, hsize, by norm_num, rfl⟩).trans ?_
  rw [zpow_neg, abs_le]
  constructor <;> norm_num at hlow hhigh ⊢ <;> linarith

/-- A number that exceeds one by half of the 53rd place at most is not rounded to one that exceeds one. -/
theorem le_one (h : Nearest v r) (hv : v ≤ 1 + 1 / 2 ^ 54) : r ≤ 1 := by
  rcases le_or_gt v 1 with hle | hlt
  · exact h.le representable_one hle
  · by_contra hr
    have hstep := h.representable.step_above_one (not_le.mp hr)
    have hclosest := h.closest representable_one
    rw [abs_of_neg (show 1 - v < 0 by linarith)] at hclosest
    have hfar := (le_abs_self (r - v)).trans hclosest
    norm_num at hv hstep
    linarith

end Nearest

/-- Among whole numbers one within a half is as close as any other. -/
theorem abs_sub_le_of_whole {q n : ℤ} {y : ℚ} (h : |(q : ℚ) - y| ≤ 1 / 2) : |(q : ℚ) - y| ≤ |(n : ℚ) - y| := by
  by_cases hqn : n = q
  · rw [hqn]
  · have hone : (1 : ℚ) ≤ |(n : ℚ) - q| := by
      have := Int.one_le_abs (sub_ne_zero.mpr hqn)
      exact_mod_cast this
    have htriangle := abs_sub_le (n : ℚ) y q
    rw [abs_sub_comm y] at htriangle
    linarith

/-- **A number that is cut at its 53rd digit, or at the last place there is, and rounded there is rounded to
a nearest number.** -/
theorem Cuts.nearest {em : ExtendedMantissa} {y : ℚ} (h : Cuts em y) {t : ℤ} (ht : -1074 ≤ t)
    (hhigh : y < 2 ^ 53) (hlow : 2 ^ 52 ≤ y ∨ t = -1074) :
    Nearest (y * 2 ^ t) (em.roundedMantissa * 2 ^ t) := by
  have hnear := h.abs_roundedMantissa
  have hpos : (0 : ℚ) < 2 ^ t := zpow_pos (by norm_num) t
  have hscale : ∀ z : ℚ, |z * 2 ^ t - y * 2 ^ t| = |z - y| * 2 ^ t := by
    intro z
    rw [← sub_mul, abs_mul, abs_of_pos hpos]
  have hwhole : ∀ n : ℤ, |(em.roundedMantissa : ℚ) - y| ≤ |(n : ℚ) - y| := fun n => by
    have := abs_sub_le_of_whole (q := em.roundedMantissa) (n := n) (y := y) (by exact_mod_cast hnear)
    exact_mod_cast this
  constructor
  · have hle : em.roundedMantissa ≤ 2 ^ 53 := by
      have : (em.roundedMantissa : ℚ) < 2 ^ 53 + 1 := by linarith [(abs_le.mp hnear).2]
      have : em.roundedMantissa < 2 ^ 53 + 1 := by exact_mod_cast this
      omega
    refine ⟨em.roundedMantissa, t, ?_, ht, by push_cast; rfl⟩
    rw [abs_of_nonneg (Int.natCast_nonneg _)]
    exact_mod_cast hle
  · rintro c ⟨n, f, hn, hf, rfl⟩
    rcases le_or_gt t f with htf | htf
    · -- a multiple of the last digit
      obtain ⟨i, hmultiple⟩ := exists_multiple htf n
      rw [hmultiple, hscale, hscale]
      exact mul_le_mul_of_nonneg_right (hwhole _) hpos.le
    · -- a number with more places is so small that it lies below all numbers with 53 digits
      have hlow : (2 : ℚ) ^ 52 ≤ y := hlow.resolve_right (by omega)
      have hsmall := le_of_finer hn htf
      have hlast := mul_le_mul_of_nonneg_right (hwhole (2 ^ 52)) hpos.le
      rw [← hscale, ← hscale] at hlast
      refine hlast.trans ?_
      have hy : (2 : ℚ) ^ 52 * 2 ^ t ≤ y * 2 ^ t := mul_le_mul_of_nonneg_right hlow hpos.le
      push_cast
      rw [abs_of_nonpos (by linarith), abs_of_nonpos (by linarith)]
      linarith

/-! ### Values -/

def withSign (s : Sign) (q : ℚ) : ℚ :=
  match s with
  | .positive => q
  | .negative => -q

theorem withSign_neg (s : Sign) (q : ℚ) : withSign (-s) q = -withSign s q := by
  cases s
  · exact (neg_neg q).symm
  · rfl

theorem abs_withSign (s : Sign) (q : ℚ) : |withSign s q| = |q| := by
  cases s
  · exact abs_neg q
  · rfl

/-- What a number that can be stored, but for its size, stands for. -/
inductive Value : UnpackedFloat → ℚ → Prop where
  | zero (s : Sign) : Value (.zero s) 0
  | finite (s : Sign) {m : ℕ} {e : ℤ} (hm : 0 < m) (h : Storable m e) :
      Value (.finite s m e hm) (withSign s (m * 2 ^ e))

theorem Nearest.withSign {v r : ℚ} (h : Nearest v r) (s : Sign) : Nearest (withSign s v) (withSign s r) := by
  cases s
  · exact h.neg
  · exact h

namespace Value

variable {u v : UnpackedFloat} {p q : ℚ}

theorem representable (h : Value u q) : Representable q := by
  cases h with
  | zero s => exact representable_zero
  | finite s hm h => exact ((Nearest.refl h.representable).withSign s).representable

theorem neg (h : Value u q) : Value u.neg (-q) := by
  cases h with
  | zero s =>
    rw [neg_zero]
    exact .zero _
  | finite s hm h =>
    rw [← withSign_neg]
    exact .finite (-s) hm h

/-- A value that is not too large is stored. -/
theorem stored (h : Value u q) (hq : |q| ≤ 2 ^ 64) : stored u = u := by
  cases h with
  | zero s => exact stored_zero s
  | @finite s m e hm h =>
    refine stored_storable h hm ?_ s
    by_contra he
    have hpow : (2 : ℚ) ^ (65 : ℤ) ≤ 2 ^ e := zpow_le_zpow_right₀ (by norm_num) (by omega)
    have hone : (1 : ℚ) ≤ m := by exact_mod_cast hm
    have hpos : (0 : ℚ) < 2 ^ e := zpow_pos (by norm_num) e
    rw [abs_withSign, abs_of_nonneg (mul_nonneg (Nat.cast_nonneg m) hpos.le)] at hq
    have hle := mul_le_mul_of_nonneg_right hone hpos.le
    norm_num at hpow hq hle
    linarith

end Value

/-! ### Rounding -/

/-- A mantissa is shifted by as many digits as its exponent is in front of the rounding exponent. -/
theorem shift_exact {m k : ℕ} {e : ℤ} (hk : roundingExponent m e = e + k) :
    UnpackedFloat.shiftToTargetExponent .binary64 m e .exact
      = (ExtendedMantissa.ofMantissaAndAccuracy m .exact >>> k, roundingExponent m e) := by
  simp only [UnpackedFloat.shiftToTargetExponent, UnpackedFloat.shiftToExponent, targetExponent_eq, hk,
    show (e + k - e).toNat = k by omega]

/-- At its rounding exponent a number has 53 digits in front of the point, or fewer if the exponent is the least. -/
theorem digits_of_roundingExponent {m k : ℕ} (hm : 0 < m) {e : ℤ} (hk : roundingExponent m e = e + k) :
    (m : ℚ) / 2 ^ k < 2 ^ 53 ∧ (2 ^ 52 ≤ (m : ℚ) / 2 ^ k ∨ roundingExponent m e = -1074) := by
  constructor
  · have hdigits : m < 2 ^ (53 + k) :=
      Nat.lt_log2_self.trans_le (Nat.pow_le_pow_right two_pos (by unfold roundingExponent at hk; omega))
    rw [div_lt_iff₀ (by positivity), ← pow_add]
    exact_mod_cast hdigits
  · by_cases hleast : roundingExponent m e = -1074
    · exact Or.inr hleast
    · have hdigits : 2 ^ (52 + k) ≤ m :=
        (Nat.pow_le_pow_right two_pos (by unfold roundingExponent at hk hleast; omega)).trans
          (Nat.log2_self_le hm.ne')
      rw [le_div_iff₀ (by positivity), ← pow_add]
      exact Or.inl (by exact_mod_cast hdigits)

/-- A rounded mantissa can be stored as it is, unless rounding up has led to one digit more: that digit is a zero. -/
theorem shift_rounded {q : ℕ} (hq : 0 < q) {t : ℤ} (hleast : -1074 ≤ t) (hhigh : q ≤ 2 ^ 53)
    (hlow : 2 ^ 52 ≤ q ∨ t = -1074) :
    ∃ m e, Storable m e ∧ 0 < m ∧ (m : ℚ) * 2 ^ e = q * 2 ^ t ∧
      UnpackedFloat.shiftToTargetExponent .binary64 q t .exact = (⟨m, false, false⟩, e) := by
  rcases hhigh.lt_or_eq with hlt | rfl
  · exact ⟨q, t, ⟨hlt, hleast, hlow⟩, hq, rfl, shift_self ⟨hlt, hleast, hlow⟩ hq⟩
  · have hstorable : Storable (2 ^ 52) (t + 1) := ⟨by norm_num, by omega, Or.inl le_rfl⟩
    have hcarry := shift_storable hstorable (by norm_num) 1
    rw [show (2 ^ 1 * 2 ^ 52 : ℕ) = 2 ^ 53 by norm_num, Nat.cast_one, add_sub_cancel_right] at hcarry
    refine ⟨2 ^ 52, t + 1, hstorable, by norm_num, ?_, hcarry⟩
    rw [zpow_add₀ (by norm_num)]
    norm_num
    ring

/-- A mantissa that is placed at its rounding exponent, or in front of it, is rounded to a nearest number. -/
theorem value_roundWithAccuracy (s : Sign) {m : ℕ} (hm : 0 < m) {e : ℤ} (he : e ≤ roundingExponent m e) :
    ∃ r, Nearest (m * 2 ^ e) r ∧
      Value (UnpackedFloat.roundWithAccuracy .binary64 s m e .exact) (withSign s r) := by
  obtain ⟨k, hk⟩ : ∃ k : ℕ, roundingExponent m e = e + k := ⟨(roundingExponent m e - e).toNat, by omega⟩
  have hleast : -1074 ≤ roundingExponent m e := le_max_right _ _
  have hcuts := (cuts_exact m).shiftRight k
  obtain ⟨hhigh, hlow⟩ := digits_of_roundingExponent hm hk
  have hvalue : (m : ℚ) / 2 ^ k * 2 ^ roundingExponent m e = m * 2 ^ e := by
    rw [hk, zpow_add₀ (by norm_num), zpow_natCast]
    field_simp
  have hnearest := hcuts.nearest hleast hhigh hlow
  rw [hvalue] at hnearest
  refine ⟨_, hnearest, ?_⟩
  obtain ⟨hdown, hup⟩ := abs_le.mp hcuts.abs_roundedMantissa
  have hshift := shift_exact hk
  generalize hq : (ExtendedMantissa.ofMantissaAndAccuracy m .exact >>> k).roundedMantissa = q at hdown hup ⊢
  generalize roundingExponent m e = t at hleast hlow hshift ⊢
  simp only [UnpackedFloat.roundWithAccuracy, hshift, hq]
  rcases Nat.eq_zero_or_pos q with rfl | hpos
  · -- everything has been cut off
    have hnone : (UnpackedFloat.shiftToTargetExponent .binary64 0 t .exact).1.mantissa = 0 := by
      refine (mantissa_shiftRight _ _).trans ?_
      rw [mantissa_ofMantissaAndAccuracy, Nat.zero_div]
    have hzero : withSign s ((0 : ℕ) * 2 ^ t) = 0 := by cases s <;> simp [withSign]
    rw [dif_pos hnone, hzero]
    exact .zero s
  · have hfull : q ≤ 2 ^ 53 := by
      have hless : (q : ℚ) < 2 ^ 53 + 1 := by linarith
      exact Nat.le_of_lt_succ (by exact_mod_cast hless)
    have hdigits : 2 ^ 52 ≤ q ∨ t = -1074 := hlow.imp_left fun hlow => by
      have hmore : (2 ^ 52 : ℚ) < q + 1 := by linarith
      exact Nat.le_of_lt_succ (by exact_mod_cast hmore)
    obtain ⟨n, f, hstorable, hn, hsame, hrest⟩ := shift_rounded hpos hleast hfull hdigits
    rw [← hsame]
    simp only [hrest, dif_neg hn.ne']
    exact .finite s hn hstorable

/-- **A mantissa and an exponent are rounded to a nearest number.** -/
theorem value_round (s : Sign) {m : ℕ} (hm : 0 < m) (e : ℤ) :
    ∃ r, Nearest (m * 2 ^ e) r ∧ Value (UnpackedFloat.round .binary64 s m e) (withSign s r) := by
  -- zeros are appended until the exponent is small enough
  generalize hk : (e - roundingExponent m e).toNat = k
  have hmantissa : m <<< k = 2 ^ k * m := by rw [Nat.shiftLeft_eq, Nat.mul_comm]
  have hround : UnpackedFloat.round .binary64 s m e
      = UnpackedFloat.roundWithAccuracy .binary64 s (2 ^ k * m) (e - k) .exact := by
    simp only [UnpackedFloat.round, UnpackedFloat.decreaseExponent, targetExponent_eq, hk, hmantissa]
  have hplace : e - k ≤ roundingExponent (2 ^ k * m) (e - k) := by
    rw [roundingExponent, log2_shift hm]
    unfold roundingExponent at hk
    push_cast
    omega
  have hvalue : ((2 ^ k * m : ℕ) : ℚ) * 2 ^ (e - k : ℤ) = m * 2 ^ e := by
    rw [zpow_sub₀ (by norm_num), zpow_natCast]
    push_cast
    field_simp
  obtain ⟨r, hr, hresult⟩ := value_roundWithAccuracy s (Nat.mul_pos (Nat.two_pow_pos k) hm) hplace
  rw [hvalue] at hr
  exact ⟨r, hr, hround ▸ hresult⟩

/-- A whole number of units at a place is rounded to a nearest number. -/
theorem value_normalize (n : ℤ) (e : ℤ) :
    ∃ r, Nearest (n * 2 ^ e) r ∧ Value (UnpackedFloat.normalize .binary64 n e .positive) r := by
  unfold UnpackedFloat.normalize
  split
  · rename_i hneg
    have hneg := Int.compare_eq_lt.mp hneg
    obtain ⟨r, hr, hresult⟩ := value_round .negative (show 0 < (-n).toNat by omega) e
    have hcast : (((-n).toNat : ℤ) : ℚ) = -n := by rw [Int.toNat_of_nonneg (by omega)]; push_cast; rfl
    refine ⟨-r, ?_, hresult⟩
    have hr := hr.neg
    rwa [← Int.cast_natCast, hcast, neg_mul, neg_neg] at hr
  · rename_i hzero
    obtain rfl := Int.compare_eq_eq.mp hzero
    refine ⟨0, ?_, .zero _⟩
    rw [Int.cast_zero, zero_mul]
    exact Nearest.refl representable_zero
  · rename_i hpos
    have hpos := Int.compare_eq_gt.mp hpos
    obtain ⟨r, hr, hresult⟩ := value_round .positive (show 0 < n.toNat by omega) e
    have hcast : ((n.toNat : ℤ) : ℚ) = n := by rw [Int.toNat_of_nonneg (by omega)]
    rw [← Int.cast_natCast, hcast] at hr
    exact ⟨r, hr, hresult⟩

/-! ### Operations on values -/

/-- A mantissa that is shifted to a smaller exponent. -/
theorem cast_apply_shiftLeft (s : Sign) (m : ℕ) {e g : ℤ} {k : ℕ} (h : e = g + k) :
    ((s.apply (m <<< k : ℕ) : ℤ) : ℚ) * 2 ^ g = withSign s (m * 2 ^ e) := by
  have hcast : ((m <<< k : ℕ) : ℚ) * 2 ^ g = m * 2 ^ e := by
    rw [Nat.shiftLeft_eq, h, zpow_add₀ (by norm_num), zpow_natCast]
    push_cast
    ring
  cases s
  · show ((-((m <<< k : ℕ) : ℤ) : ℤ) : ℚ) * 2 ^ g = -(m * 2 ^ e)
    rw [← hcast, Int.cast_neg, Int.cast_natCast, neg_mul]
  · exact hcast

theorem withSign_mul (s t : Sign) (p q : ℚ) : withSign s p * withSign t q = withSign (s * t) (p * q) := by
  cases s <;> cases t
  · exact neg_mul_neg p q
  · exact neg_mul p q
  · exact mul_neg p q
  · rfl

variable {u v : UnpackedFloat} {p q : ℚ}

/-- **A sum is rounded to a nearest number.** -/
theorem Value.add (hu : Value u p) (hv : Value v q) :
    ∃ r, Nearest (p + q) r ∧ Value (UnpackedFloat.add .binary64 u v) r := by
  cases hu with
  | zero s =>
    rw [zero_add]
    refine ⟨q, Nearest.refl hv.representable, ?_⟩
    cases hv with
    | zero t => cases s <;> cases t <;> exact .zero _
    | finite t hn h => exact .finite t hn h
  | @finite s m e hm h =>
    cases hv with
    | zero t =>
      rw [add_zero]
      exact ⟨_, Nearest.refl (Value.finite s hm h).representable, .finite s hm h⟩
    | @finite t n f hn h' =>
      obtain ⟨r, hr, hresult⟩ := value_normalize
        (s.apply (m <<< (e - min e f).toNat : ℕ) + t.apply (n <<< (f - min e f).toNat : ℕ)) (min e f)
      refine ⟨r, ?_, hresult⟩
      rw [Int.cast_add, add_mul, cast_apply_shiftLeft s m (e := e) (by omega),
        cast_apply_shiftLeft t n (e := f) (by omega)] at hr
      exact hr

/-- A difference is a sum with the opposite number. -/
theorem sub_eq_add_neg_of_value (hu : Value u p) (hv : Value v q) :
    UnpackedFloat.sub .binary64 u v = UnpackedFloat.add .binary64 u v.neg := by
  cases hu with
  | zero s =>
    cases hv with
    | zero t => rfl
    | finite t hn h => rfl
  | @finite s m e hm h =>
    cases hv with
    | zero t => rfl
    | @finite t n f hn h' =>
      have hflip : ∀ z : ℤ, (-t).apply z = -t.apply z := fun z => by
        cases t
        · exact (neg_neg z).symm
        · rfl
      simp only [UnpackedFloat.sub, UnpackedFloat.add, UnpackedFloat.neg, hflip, sub_eq_add_neg]

/-- A product has so many digits that none have to be appended. -/
theorem add_le_roundingExponent_mul {m n : ℕ} {e f : ℤ} (h : Storable m e) (h' : Storable n f) (hm : 0 < m)
    (hn : 0 < n) : e + f ≤ roundingExponent (m * n) (e + f) := by
  have hfull : ∀ {a b : ℕ}, 0 < b → 2 ^ 52 ≤ a → 52 ≤ (a * b).log2 := fun {a b} hb ha =>
    (Nat.le_log2 (by positivity)).mpr (ha.trans (Nat.le_mul_of_pos_right a hb))
  unfold roundingExponent
  rcases h.full with hdigits | rfl
  · have := hfull hn hdigits
    omega
  · rcases h'.full with hdigits | rfl
    · have := hfull hm hdigits
      rw [Nat.mul_comm m n]
      omega
    · omega

/-- **A product is rounded to a nearest number.** -/
theorem Value.mul (hu : Value u p) (hv : Value v q) :
    ∃ r, Nearest (p * q) r ∧ Value (UnpackedFloat.mul .binary64 u v) r := by
  cases hu with
  | zero s =>
    rw [zero_mul]
    refine ⟨0, Nearest.refl representable_zero, ?_⟩
    cases hv <;> exact .zero _
  | @finite s m e hm h =>
    cases hv with
    | zero t =>
      rw [mul_zero]
      exact ⟨0, Nearest.refl representable_zero, .zero _⟩
    | @finite t n f hn h' =>
      have hplace := add_le_roundingExponent_mul h h' hm hn
      obtain ⟨r, hr, hresult⟩ := value_roundWithAccuracy (s * t) (Nat.mul_pos hm hn) hplace
      refine ⟨_, ?_, hresult⟩
      rw [withSign_mul]
      convert hr.withSign (s * t) using 2
      rw [zpow_add₀ (by norm_num)]
      push_cast
      ring

/-! ### Numbers -/

/-- A defined and finite number stands for a rational number. -/
def Worth (x : Double) (q : ℚ) : Prop :=
  Value x.unpacked q

theorem worth_of_unpacked {x : Double} {s : Sign} {m : ℕ} {e : ℤ} {hm : 0 < m}
    (h : x.unpacked = .finite s m e hm) : x.Worth (withSign s (m * 2 ^ e)) := by
  rw [Worth, h]
  exact .finite s hm (storable_unpacked h).1

theorem unpacked_lift₂ {f : Float → Float → Float} {op : UnpackedFloat → UnpackedFloat → UnpackedFloat}
    (hf : OperatesBy f op) (a b : Float) :
    (lift₂ f (number a) (number b)).unpacked = stored (op (number a).unpacked (number b).unpacked) := by
  show (ofFloat (f a b)).unpacked = _
  rw [unpacked_ofFloat, hf]
  rfl

namespace Worth

variable {x y : Double} {v : ℚ}

theorem exists_number (h : x.Worth p) : ∃ a, x = number a := by
  cases x with
  | number a => exact ⟨a, rfl⟩
  | undefined b => exact absurd h (by rintro ⟨⟩)

/-- An operation of numbers is that of their values, and its result is stored. -/
theorem lift₂ {f : Float → Float → Float} {op : UnpackedFloat → UnpackedFloat → UnpackedFloat}
    (hf : OperatesBy f op) (hx : x.Worth p) (hy : y.Worth q)
    (hop : ∃ r, Nearest v r ∧ Value (op x.unpacked y.unpacked) r) (hv : |v| ≤ 2 ^ 64) :
    ∃ r, Nearest v r ∧ (lift₂ f x y).Worth r := by
  obtain ⟨a, rfl⟩ := hx.exists_number
  obtain ⟨b, rfl⟩ := hy.exists_number
  obtain ⟨r, hr, hresult⟩ := hop
  have hlarge := representable_two_pow 64
  have hsmall : |r| ≤ 2 ^ 64 :=
    abs_le.mpr ⟨hr.ge hlarge.neg (abs_le.mp hv).1, hr.le hlarge (abs_le.mp hv).2⟩
  refine ⟨r, hr, ?_⟩
  rw [Worth, unpacked_lift₂ hf, hresult.stored hsmall]
  exact hresult

/-- **Opposites are not rounded.** -/
theorem neg (hx : x.Worth p) (h : |p| ≤ 2 ^ 64) : (-x).Worth (-p) := by
  obtain ⟨a, rfl⟩ := hx.exists_number
  have hopposite : (-number a : Double).unpacked = stored (number a).unpacked.neg := rfl
  have hvalue := Value.neg hx
  rw [Worth, hopposite, hvalue.stored (by rwa [abs_neg])]
  exact hvalue

/-- **Sums are rounded to a nearest number.** -/
theorem add (hx : x.Worth p) (hy : y.Worth q) (h : |p + q| ≤ 2 ^ 64) :
    ∃ r, Nearest (p + q) r ∧ (x + y).Worth r :=
  lift₂ operatesBy_add hx hy (Value.add hx hy) h

/-- **Differences are rounded to a nearest number.** -/
theorem sub (hx : x.Worth p) (hy : y.Worth q) (h : |p - q| ≤ 2 ^ 64) :
    ∃ r, Nearest (p - q) r ∧ (x - y).Worth r := by
  refine lift₂ operatesBy_sub hx hy ?_ h
  rw [sub_eq_add_neg_of_value hx hy, sub_eq_add_neg]
  exact Value.add hx (Value.neg hy)

/-- **Products are rounded to a nearest number.** -/
theorem mul (hx : x.Worth p) (hy : y.Worth q) (h : |p * q| ≤ 2 ^ 64) :
    ∃ r, Nearest (p * q) r ∧ (x * y).Worth r :=
  lift₂ operatesBy_mul hx hy (Value.mul hx hy) h

end Worth

/-! ### Comparisons -/

theorem Value.unique (hu : Value u p) (hv : Value u q) : p = q := by
  cases hu with
  | zero s =>
    cases hv
    rfl
  | finite s hm h =>
    cases hv
    rfl

theorem Value.exists_place (h : Value u q) : ∃ a, place? u = some a := by
  cases h with
  | zero s => exact ⟨_, rfl⟩
  | finite s hm h => cases s <;> exact ⟨_, rfl⟩

/-- Exponents are compared before mantissas, since all digits of a mantissa are in use above the least exponent. -/
theorem magnitude_lt {m n : ℕ} {e f : ℤ} (h : Storable m e) (h' : Storable n f)
    (hlt : e < f ∨ e = f ∧ m < n) : (m : ℚ) * 2 ^ e < n * 2 ^ f := by
  rcases hlt with hlt | ⟨rfl, hlt⟩
  · have hleast := h.least
    have hfull : 2 ^ 52 ≤ n := h'.full.resolve_right (by omega)
    have hn : (2 ^ 52 : ℚ) ≤ n := by exact_mod_cast hfull
    have hm : (m : ℚ) < 2 ^ 53 := by exact_mod_cast h.digits
    calc (m : ℚ) * 2 ^ e < 2 ^ 53 * 2 ^ e := mul_lt_mul_of_pos_right hm (zpow_pos (by norm_num) e)
      _ = 2 ^ 52 * 2 ^ (e + 1) := by
        rw [zpow_add₀ (by norm_num)]
        norm_num
        ring
      _ ≤ n * 2 ^ f :=
        mul_le_mul hn (zpow_le_zpow_right₀ (by norm_num) (by omega)) (zpow_pos (by norm_num) _).le
          (Nat.cast_nonneg n)
  · have hlt : (m : ℚ) < n := by exact_mod_cast hlt
    exact mul_lt_mul_of_pos_right hlt (zpow_pos (by norm_num) e)

/-- The number at the later place has the greater value. -/
theorem Value.lt_of_place (hu : Value u p) (hv : Value v q) {a b : ℤ ×ₗ ℤ ×ₗ ℤ} (ha : a ∈ place? u)
    (hb : b ∈ place? v) (hlt : a < b) : p < q := by
  have hpositive : ∀ {m : ℕ} (e : ℤ), 0 < m → (0 : ℚ) < m * 2 ^ e := fun e hm =>
    mul_pos (Nat.cast_pos.mpr hm) (zpow_pos (by norm_num) e)
  cases hu with
  | zero s =>
    cases hv with
    | zero t =>
      simp only [place?, Option.mem_def, Option.some.injEq] at ha hb
      exact absurd hlt (ha ▸ hb ▸ lt_irrefl _)
    | @finite t n f hn h' =>
      cases t <;> simp only [place?, Option.mem_def, Option.some.injEq] at ha hb <;> subst ha hb
      · simp [Prod.Lex.toLex_lt_toLex] at hlt
      · exact hpositive f hn
  | @finite s m e hm h =>
    cases hv with
    | zero t =>
      cases s <;> simp only [place?, Option.mem_def, Option.some.injEq] at ha hb <;> subst ha hb
      · exact neg_lt_zero.mpr (hpositive e hm)
      · simp [Prod.Lex.toLex_lt_toLex] at hlt
    | @finite t n f hn h' =>
      cases s <;> cases t <;> simp only [place?, Option.mem_def, Option.some.injEq] at ha hb <;> subst ha hb
      · simp only [Prod.Lex.toLex_lt_toLex, lt_self_iff_false, true_and, false_or] at hlt
        exact neg_lt_neg (magnitude_lt h' h (by omega))
      · exact (neg_lt_zero.mpr (hpositive e hm)).trans (hpositive f hn)
      · simp [Prod.Lex.toLex_lt_toLex] at hlt
      · simp only [Prod.Lex.toLex_lt_toLex, lt_self_iff_false, true_and, false_or] at hlt
        exact magnitude_lt h h' (by omega)

/-- **Numbers compare as their values do.** -/
theorem Worth.le_iff {x y : Double} (hx : x.Worth p) (hy : y.Worth q) : x ≤ y ↔ p ≤ q := by
  obtain ⟨a, ha⟩ := Value.exists_place hx
  obtain ⟨b, hb⟩ := Value.exists_place hy
  have hplaces : x ≤ y ↔ a ≤ b := by
    rw [Double.le_iff, standing?_eq, standing?_eq, ha, hb]
    simp
  rw [hplaces]
  rcases lt_trichotomy a b with hlt | heq | hgt
  · exact iff_of_true hlt.le (Value.lt_of_place hx hy ha hb hlt).le
  · refine iff_of_true heq.le (le_of_eq ?_)
    rcases eq_of_place? (ha.trans (heq ▸ hb.symm)) with hsame | ⟨s, t, hs, ht⟩
    · exact Value.unique hx (hsame ▸ hy)
    · rw [Worth, hs] at hx
      rw [Worth, ht] at hy
      cases hx
      cases hy
      rfl
  · exact iff_of_false hgt.not_ge (Value.lt_of_place hy hx hb ha hgt).not_ge

theorem Worth.lt_iff {x y : Double} (hx : x.Worth p) (hy : y.Worth q) : x < y ↔ p < q := by
  rw [Scalar.Ordered.lt_iff_le_not_ge, hx.le_iff hy, hy.le_iff hx, lt_iff_le_not_ge]

theorem Worth.isFinite {x : Double} (h : x.Worth q) : Scalar.isFinite x = true := by
  obtain ⟨a, rfl⟩ := h.exists_number
  show a.toModel.unpack.isFinite = true
  change Value a.toModel.unpack q at h
  generalize a.toModel.unpack = u at h
  cases h <;> rfl

/-- Every finite number has a value. -/
theorem exists_worth_of_isFinite {x : Double} (h : Scalar.isFinite x = true) : ∃ q, x.Worth q := by
  match x, h with
  | number a, h =>
    have h : a.toModel.unpack.isFinite = true := h
    cases hu : a.toModel.unpack with
    | zero s => exact ⟨0, by rw [Worth, unpacked, hu]; exact .zero s⟩
    | finite s m e hm => exact ⟨_, worth_of_unpacked (x := number a) hu⟩
    | _ => rw [hu] at h; exact absurd h Bool.false_ne_true

/-- Infinities have places outside of those of numbers with values. -/
theorem Worth.standing_bounds {z : Double} {r : ℚ} {d : ℤ ×ₗ ℤ ×ₗ ℤ} (hz : z.Worth r) (hd : d ∈ standing? z) :
    toLex (-2, toLex (0, 0)) < d ∧ d < toLex (2, toLex (0, 0)) := by
  rw [standing?_eq] at hd
  change Value z.unpacked r at hz
  generalize z.unpacked = u at hz hd
  cases hz with
  | zero s =>
    obtain rfl := Option.some.inj hd
    exact ⟨by decide, by decide⟩
  | finite s hm h =>
    cases s <;> obtain rfl := Option.some.inj hd <;> constructor <;> simp [Prod.Lex.toLex_lt_toLex]

/-- What lies between two numbers that have values has a value. -/
theorem exists_worth {lo hi x : Double} (hlo : lo.Worth p) (hhi : hi.Worth q) (hlow : lo ≤ x)
    (hhigh : x ≤ hi) : ∃ v, x.Worth v := by
  obtain ⟨a, ha, c, hc, hac⟩ := Double.le_iff.mp hlow
  obtain ⟨c', hc', b, hb, hcb⟩ := Double.le_iff.mp hhigh
  obtain rfl : c = c' := Option.some.inj (hc.symm.trans hc')
  refine exists_worth_of_isFinite ?_
  have hleast := (hlo.standing_bounds ha).1.trans_le hac
  have hgreatest := hcb.trans_lt (hhi.standing_bounds hb).2
  match x, hc with
  | number z, hc =>
    show z.toModel.unpack.isFinite = true
    change c ∈ place? z.toModel.unpack at hc
    generalize z.toModel.unpack = u at hc
    rcases u with (_ | _) | _ | _ | _
    · exact absurd hleast (Option.some.inj hc ▸ lt_irrefl _)
    · exact absurd hgreatest (Option.some.inj hc ▸ lt_irrefl _)
    · exact absurd hc (Option.not_mem_none c)
    · rfl
    · rfl

def Within (x : Double) (lo hi : ℚ) : Prop :=
  ∃ q, x.Worth q ∧ lo ≤ q ∧ q ≤ hi

theorem within_iff {lo hi x : Double} (hlo : lo.Worth p) (hhi : hi.Worth q) :
    lo ≤ x ∧ x ≤ hi ↔ x.Within p q := by
  constructor
  · rintro ⟨hlow, hhigh⟩
    obtain ⟨v, hv⟩ := exists_worth hlo hhi hlow hhigh
    exact ⟨v, hv, (hlo.le_iff hv).mp hlow, (hv.le_iff hhi).mp hhigh⟩
  · rintro ⟨v, hv, hlow, hhigh⟩
    exact ⟨(hlo.le_iff hv).mpr hlow, (hv.le_iff hhi).mpr hhigh⟩

end Double

end HomeEnergy

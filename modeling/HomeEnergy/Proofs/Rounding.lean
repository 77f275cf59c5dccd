import HomeEnergy.Proofs.TotalOrder
import HomeEnergy.Proofs.Zeros

/-!
# What can be stored

A result is rounded before it is stored, and what can be stored as it is must not be changed by that.

* `Double.Cuts` — what is left of a number whose last digits are cut off, with two bits that say what they were;
  `Double.Cuts.abs_roundedMantissa` — **from these the nearest whole number is found.**
* `Double.Storable` — mantissas and exponents of stored numbers; `Double.roundWithAccuracy_storable`,
  `Double.stored_storable` — **such a number is neither rounded nor changed by storing it.**
* `Double.storable_unpacked` — what a number is made of can be stored.
* `Double.one_mul_finite`, `Double.neg_one_mul_finite`, `Double.isZero_zero_mul` — products with one, minus one and
  zero are exact.
-/

namespace HomeEnergy

namespace Double

open Float.Model (Format UnpackedFloat totalExponent)
open Float.Model.UnpackedFloat (Accuracy ExtendedMantissa Sign)

/-! ### Cutting digits off -/

/-- What is left of a number without the digits behind the point, and two bits that say what they were. -/
structure Cuts (em : ExtendedMantissa) (x : ℚ) : Prop where
  low : (em.mantissa : ℚ) ≤ x
  high : x < em.mantissa + 1
  round : em.roundBit = true ↔ (em.mantissa : ℚ) + 1 / 2 ≤ x
  sticky : em.stickyBit = true ↔ x ≠ em.mantissa ∧ x ≠ em.mantissa + 1 / 2

theorem cuts_exact (m : ℕ) : Cuts (.ofMantissaAndAccuracy m .exact) m := by
  refine ⟨le_rfl, lt_add_one _, ?_, ?_⟩
  · have : ¬ (m : ℚ) + 1 / 2 ≤ m := by linarith
    exact iff_of_false Bool.false_ne_true this
  · exact iff_of_false Bool.false_ne_true fun h => h.1 rfl

namespace Cuts

variable {em : ExtendedMantissa} {x : ℚ}

/-- Cutting one more binary digit off. -/
theorem shiftRightOne (h : Cuts em x) : Cuts em.shiftRightOne (x / 2) := by
  have hsplit : (em.mantissa : ℚ) = 2 * (em.mantissa / 2 : ℕ) + (em.mantissa % 2 : ℕ) := by
    exact_mod_cast (Nat.div_add_mod em.mantissa 2).symm
  have hlow := h.low
  have hhigh := h.high
  have hany : (em.roundBit || em.stickyBit) = true ↔ x ≠ em.mantissa := by
    rw [Bool.or_eq_true, h.round, h.sticky]
    constructor
    · rintro (hround | hsticky)
      · exact fun heq => by linarith
      · exact hsticky.1
    · intro hne
      by_cases hhalf : x = em.mantissa + 1 / 2
      · exact Or.inl hhalf.ge
      · exact Or.inr ⟨hne, hhalf⟩
  rcases Nat.mod_two_eq_zero_or_one em.mantissa with hbit | hbit
  all_goals
    rw [hbit] at hsplit
    push_cast at hsplit
    refine ⟨?_, ?_, ?_, hany.trans ?_⟩
    · show ((em.mantissa / 2 : ℕ) : ℚ) ≤ x / 2
      linarith
    · show x / 2 < ((em.mantissa / 2 : ℕ) : ℚ) + 1
      linarith
  · show (em.mantissa % 2 != 0) = true ↔ ((em.mantissa / 2 : ℕ) : ℚ) + 1 / 2 ≤ x / 2
    rw [hbit]
    exact iff_of_false Bool.false_ne_true (by linarith)
  · show _ ↔ x / 2 ≠ ((em.mantissa / 2 : ℕ) : ℚ) ∧ x / 2 ≠ ((em.mantissa / 2 : ℕ) : ℚ) + 1 / 2
    refine ⟨fun hne => ⟨fun heq => hne (by linarith), by linarith⟩, fun hne heq => hne.1 (by linarith)⟩
  · show (em.mantissa % 2 != 0) = true ↔ ((em.mantissa / 2 : ℕ) : ℚ) + 1 / 2 ≤ x / 2
    rw [hbit]
    exact iff_of_true rfl (by linarith)
  · show _ ↔ x / 2 ≠ ((em.mantissa / 2 : ℕ) : ℚ) ∧ x / 2 ≠ ((em.mantissa / 2 : ℕ) : ℚ) + 1 / 2
    refine ⟨fun hne => ⟨by linarith, fun heq => hne (by linarith)⟩, fun hne heq => hne.2 (by linarith)⟩

/-- Cutting some binary digits off. -/
theorem shiftRight (h : Cuts em x) (k : ℕ) : Cuts (em >>> k) (x / 2 ^ k) := by
  induction k with
  | zero =>
    rw [pow_zero, div_one]
    exact h
  | succ k ih =>
    have hstep := ih.shiftRightOne
    rw [div_div, ← pow_succ] at hstep
    exact hstep

/-- **What is left is rounded to the nearest whole number.** -/
theorem abs_roundedMantissa (h : Cuts em x) : |(em.roundedMantissa : ℚ) - x| ≤ 1 / 2 := by
  obtain ⟨hlow, hhigh, hround, hsticky⟩ := h
  rcases em with ⟨m, _ | _, _ | _⟩
  · -- nothing was cut off
    have hx : x = m := by
      by_contra hne
      refine Bool.false_ne_true (hsticky.mpr ⟨hne, fun heq => ?_⟩)
      exact Bool.false_ne_true (hround.mpr heq.ge)
    show |(m : ℚ) - x| ≤ 1 / 2
    norm_num [hx]
  · -- less than a half
    have hx : x < m + 1 / 2 := not_le.mp fun hle => Bool.false_ne_true (hround.mpr hle)
    show |(m : ℚ) - x| ≤ 1 / 2
    exact abs_le.mpr ⟨by linarith, by linarith⟩
  · -- a half, which goes to the even neighbour
    have hx : x = m + 1 / 2 := by
      by_contra hne
      refine Bool.false_ne_true (hsticky.mpr ⟨fun heq => ?_, hne⟩)
      have hle := hround.mp rfl
      linarith
    show |((m + m % 2 : ℕ) : ℚ) - x| ≤ 1 / 2
    rcases Nat.mod_two_eq_zero_or_one m with hbit | hbit
    all_goals
      rw [hbit, hx]
      push_cast
      exact abs_le.mpr ⟨by linarith, by linarith⟩
  · -- more than a half
    have hx : m + 1 / 2 ≤ x := hround.mp rfl
    show |((m + 1 : ℕ) : ℚ) - x| ≤ 1 / 2
    push_cast
    exact abs_le.mpr ⟨by linarith, by linarith⟩

/-- A whole number is left as it is. -/
theorem eq_of_whole {m : ℕ} (h : Cuts em m) : em = ⟨m, false, false⟩ := by
  obtain ⟨hlow, hhigh, hround, hsticky⟩ := h
  rcases em with ⟨n, r, s⟩
  have hm : n = m := by
    have hlow : n ≤ m := by exact_mod_cast hlow
    have hhigh : m < n + 1 := by exact_mod_cast hhigh
    omega
  subst hm
  have hr : r = false := by
    refine Bool.eq_false_iff.mpr fun hr => ?_
    have hle := hround.mp hr
    linarith
  have hs : s = false := Bool.eq_false_iff.mpr fun hs => (hsticky.mp hs).1 rfl
  rw [hr, hs]

end Cuts

/-! ### Stored numbers -/

/-- A mantissa and an exponent as they are stored: 53 digits, or fewer at the least exponent. -/
structure Storable (m : ℕ) (e : ℤ) : Prop where
  digits : m < 2 ^ 53
  least : -1074 ≤ e
  full : 2 ^ 52 ≤ m ∨ e = -1074

def roundingExponent (m : ℕ) (e : ℤ) : ℤ :=
  max (m.log2 + 1 + e - 53) (-1074)

theorem targetExponent_eq (m : ℕ) (e : ℤ) :
    Format.binary64.targetExponent (totalExponent m e) = roundingExponent m e :=
  rfl

theorem log2_of_full {m : ℕ} (hlow : 2 ^ 52 ≤ m) (hhigh : m < 2 ^ 53) : m.log2 = 52 := by
  have hne : m ≠ 0 := by omega
  have hle : 52 ≤ m.log2 := (Nat.le_log2 hne).mpr hlow
  have hlt : m.log2 < 53 := (Nat.log2_lt hne).mpr hhigh
  omega

theorem Storable.roundingExponent_eq {m : ℕ} {e : ℤ} (h : Storable m e) (hm : 0 < m) :
    roundingExponent m e = e := by
  have hleast := h.least
  unfold roundingExponent
  rcases h.full with hfull | rfl
  · rw [log2_of_full hfull h.digits]
    omega
  · have hlt : m.log2 < 53 := (Nat.log2_lt hm.ne').mpr h.digits
    omega

theorem log2_shift {m : ℕ} (hm : 0 < m) (k : ℕ) : (2 ^ k * m).log2 = k + m.log2 := by
  have hpos : 0 < 2 ^ k := Nat.two_pow_pos k
  refine (Nat.log2_eq_iff (Nat.mul_pos hpos hm).ne').mpr ⟨?_, ?_⟩
  · rw [Nat.pow_add]
    exact Nat.mul_le_mul_left _ (Nat.log2_self_le hm.ne')
  · rw [Nat.add_assoc, Nat.pow_add]
    exact Nat.mul_lt_mul_of_pos_left Nat.lt_log2_self hpos

/-- Zeros that are shifted out leave the rest. -/
theorem shift_storable {m : ℕ} {e : ℤ} (h : Storable m e) (hm : 0 < m) (k : ℕ) :
    UnpackedFloat.shiftToTargetExponent .binary64 (2 ^ k * m) (e - k) .exact
      = (⟨m, false, false⟩, e) := by
  have htarget : Format.binary64.targetExponent (totalExponent (2 ^ k * m) (e - k)) = e := by
    rw [targetExponent_eq, roundingExponent, log2_shift hm]
    have := h.roundingExponent_eq hm
    unfold roundingExponent at this
    push_cast
    omega
  have hcuts := (cuts_exact (2 ^ k * m)).shiftRight k
  rw [Nat.cast_mul, Nat.cast_pow, Nat.cast_ofNat, mul_div_cancel_left₀ _ (by positivity)] at hcuts
  have hamount : (e - (e - k)).toNat = k := by omega
  simp only [UnpackedFloat.shiftToTargetExponent, UnpackedFloat.shiftToExponent, htarget, hamount,
    hcuts.eq_of_whole, sub_add_cancel]

theorem shift_self {m : ℕ} {e : ℤ} (h : Storable m e) (hm : 0 < m) :
    UnpackedFloat.shiftToTargetExponent .binary64 m e .exact = (⟨m, false, false⟩, e) := by
  have hshift := shift_storable h hm 0
  rwa [pow_zero, one_mul, Nat.cast_zero, sub_zero] at hshift

/-- **A number that can be stored is not rounded.** -/
theorem roundWithAccuracy_storable {m : ℕ} {e : ℤ} (h : Storable m e) (hm : 0 < m) (k : ℕ) (s : Sign) :
    UnpackedFloat.roundWithAccuracy .binary64 s (2 ^ k * m) (e - k) .exact = .finite s m e hm := by
  have hrounded : (⟨m, false, false⟩ : ExtendedMantissa).roundedMantissa = m := rfl
  simp only [UnpackedFloat.roundWithAccuracy, shift_storable h hm k, hrounded, shift_self h hm]
  exact dif_neg hm.ne'

theorem sign_packComponents (s : Sign) (e : BitVec 11) (m : BitVec 52) :
    Sign.ofBitVec (UnpackedFloat.unpackSign (UnpackedFloat.packComponents .binary64 s e m)) = s := by
  simp only [UnpackedFloat.unpackSign, UnpackedFloat.packComponents, BitVec.extractLsb]
  rw [BitVec.extractLsb'_append_eq_of_le (by omega), BitVec.extractLsb'_append_eq_of_le (by omega)]
  cases s <;> rfl

theorem finite_congr {s : Sign} {m m' : ℕ} {e e' : ℤ} {hm : 0 < m} {hm' : 0 < m'} (h : m = m')
    (he : e = e') : UnpackedFloat.finite s m e hm = .finite s m' e' hm' := by
  subst h he
  rfl

/-- The first digit of a number with all digits is not stored. -/
theorem unpack_packComponents_full (s : Sign) {m : ℕ} {e : ℤ} (hlow : 2 ^ 52 ≤ m) (hhigh : m < 2 ^ 53)
    (hleast : -1074 ≤ e) (he : e ≤ 971) (hm : 0 < m) :
    UnpackedFloat.unpack .binary64
        (UnpackedFloat.packComponents .binary64 s (BitVec.ofNat 11 (e + 1075).toNat) (BitVec.ofNat 52 m))
      = .finite s m e hm := by
  have hexponent : (BitVec.ofNat 11 (e + 1075).toNat).toNat = (e + 1075).toNat := by
    rw [BitVec.toNat_ofNat]
    omega
  have hne : ∀ b : BitVec 11, b.toNat ≠ (e + 1075).toNat → BitVec.ofNat 11 (e + 1075).toNat ≠ b :=
    fun b hb heq => hb (by rw [← heq, hexponent])
  have hmantissa : (1#1 ++ BitVec.ofNat 52 m).toNat = m := by
    rw [toNat_leading, BitVec.toNat_ofNat]
    omega
  have hbias : Format.binary64.exponentBias = 1023 := rfl
  simp only [UnpackedFloat.unpack, UnpackedFloat.unpackMantissa_packComponents,
    UnpackedFloat.unpackExponent_packComponents, sign_packComponents, hbias]
  rw [if_neg (hne _ (by change 2047 ≠ _; omega)), if_neg (hne _ (by change 0 ≠ _; omega))]
  refine finite_congr hmantissa ?_
  rw [hexponent]
  push_cast
  omega

/-- Numbers with fewer digits have the least exponent. -/
theorem unpack_packComponents_least (s : Sign) {m : ℕ} (hhigh : m < 2 ^ 52) (hm : 0 < m) :
    UnpackedFloat.unpack .binary64
        (UnpackedFloat.packComponents .binary64 s 0#11 (BitVec.ofNat 52 m))
      = .finite s m (-1074) hm := by
  have hmantissa : (BitVec.ofNat 52 m).toNat = m := by
    rw [BitVec.toNat_ofNat, Nat.mod_eq_of_lt hhigh]
  have hne : BitVec.ofNat 52 m ≠ 0#52 := fun heq => by
    rw [heq] at hmantissa
    change 0 = m at hmantissa
    omega
  have hbias : Format.binary64.exponentBias = 1023 := rfl
  simp only [UnpackedFloat.unpack, UnpackedFloat.unpackMantissa_packComponents,
    UnpackedFloat.unpackExponent_packComponents, sign_packComponents, hbias]
  rw [if_neg (by decide), if_pos trivial, dif_neg hne]
  exact finite_congr hmantissa rfl

/-- A number that can be stored is stored as it is, unless it is too large. -/
theorem stored_storable {m : ℕ} {e : ℤ} (h : Storable m e) (hm : 0 < m) (he : e ≤ 971) (s : Sign) :
    stored (.finite s m e hm) = .finite s m e hm := by
  have hbias : Format.binary64.exponentBias = 1023 := rfl
  have hbits : Format.binary64.mantissaBits = 53 := rfl
  have hleast := h.least
  have hplace : (e + ((1023 : ℕ) : ℤ) + ((52 : ℕ) : ℤ)).toNat = (e + 1075).toNat := by omega
  have hfits : ¬ 2 ^ 11 ≤ (e + 1075).toNat + 1 := by omega
  show UnpackedFloat.unpack .binary64 (UnpackedFloat.pack .binary64 (.finite s m e hm)) = _
  by_cases hfull : 2 ^ 52 ≤ m
  · have hpacked : UnpackedFloat.pack .binary64 (.finite s m e hm) = UnpackedFloat.packComponents
        .binary64 s (BitVec.ofNat 11 (e + 1075).toNat) (BitVec.ofNat 52 m) := by
      have hlog : m.log2 + 1 = 53 := by rw [log2_of_full hfull h.digits]
      simp only [UnpackedFloat.pack, hbias, hbits, hplace, if_neg hfits, if_pos hlog]
    rw [hpacked]
    exact unpack_packComponents_full s hfull h.digits hleast he hm
  · have hless : m < 2 ^ 52 := Nat.lt_of_not_le hfull
    obtain rfl : e = -1074 := h.full.resolve_left hfull
    have hpacked : UnpackedFloat.pack .binary64 (.finite s m (-1074) hm)
        = UnpackedFloat.packComponents .binary64 s 0#11 (BitVec.ofNat 52 m) := by
      have hlog : m.log2 + 1 ≠ 53 := by
        have := (Nat.log2_lt hm.ne').mpr hless
        omega
      simp only [UnpackedFloat.pack, hbias, hbits, hplace, if_neg hfits, if_neg hlog]
    rw [hpacked]
    exact unpack_packComponents_least s hless hm

/-- What a number is made of can be stored. -/
theorem storable_unpacked {x : Double} {s : Sign} {m : ℕ} {e : ℤ} {hm : 0 < m}
    (h : x.unpacked = .finite s m e hm) : Storable m e ∧ e ≤ 971 := by
  match x, h with
  | number a, h =>
    have h : a.toModel.unpack = .finite s m e hm := h
    have hcanonical : Canonical a.toModel.unpack :=
      (seat_unpack a.toModel.toBits.toBitVec fun hnan => absurd (h.symm.trans hnan) (by simp)).1
    rw [h] at hcanonical
    obtain ⟨hleast, hlarge, hdigits, hfull⟩ := hcanonical
    exact ⟨⟨hdigits, hleast, by omega⟩, by omega⟩

/-! ### Products with units -/

theorem ofFloat_pack_unpack {a : Float} (h : a.toModel.unpack ≠ .notANumber) :
    ofFloat (.ofModel (.pack a.toModel.unpack)) = number a := by
  rw [pack_unpack]
  exact ofFloat_eq_number h

/-- A product with one or minus one is not rounded. -/
theorem mul_unit (t : Sign) {a : Float} (hfinite : a.isFinite = true) :
    UnpackedFloat.mul .binary64 (.finite t (2 ^ 52) (-52) (by decide)) a.toModel.unpack
      = match t with
        | .positive => a.toModel.unpack
        | .negative => a.toModel.unpack.neg := by
  have hfinite : a.toModel.unpack.isFinite = true := hfinite
  cases hu : a.toModel.unpack with
  | zero s => cases t <;> cases s <;> rfl
  | finite s m e hm =>
    obtain ⟨hstorable, -⟩ := storable_unpacked (x := number a) hu
    have hround := roundWithAccuracy_storable hstorable hm 52
    rw [Int.sub_eq_add_neg, Int.add_comm] at hround
    refine (hround (t * s)).trans ?_
    cases t <;> cases s <;> rfl
  | _ => rw [hu] at hfinite; exact absurd hfinite Bool.false_ne_true

/-- **One times a finite number is the number.** -/
theorem one_mul_finite {x : Double} (h : Scalar.isFinite x = true) : 1 * x = x := by
  match x, h with
  | number a, h =>
    have hnan : a.toModel.unpack ≠ .notANumber := fun hnan => by
      have h : a.toModel.unpack.isFinite = true := h
      rw [hnan] at h
      exact Bool.false_ne_true h
    have hproduct : (1 * number a : Double) = ofFloat (.ofModel (.pack
        (UnpackedFloat.mul .binary64 (.finite .positive (2 ^ 52) (-52) (by decide)) a.toModel.unpack))) :=
      rfl
    rw [hproduct, mul_unit .positive h]
    exact ofFloat_pack_unpack hnan

/-- **Minus one times a finite number is its opposite.** -/
theorem neg_one_mul_finite {x : Double} (h : Scalar.isFinite x = true) : -1 * x = -x := by
  match x, h with
  | number a, h =>
    have hnan : (-a).toModel.unpack ≠ .notANumber := fun hnan => by
      have h : a.toModel.unpack.isFinite = true := h
      have hstored : (-a).toModel.unpack = stored a.toModel.unpack.neg := rfl
      have hself : stored a.toModel.unpack = a.toModel.unpack := stored_unpack _
      cases hu : a.toModel.unpack with
      | zero s =>
        rw [hstored, hu] at hnan
        cases s <;> exact absurd hnan (by simp [UnpackedFloat.neg])
      | finite s m e hm =>
        obtain ⟨hstorable, hlarge⟩ := storable_unpacked (x := number a) hu
        rw [hstored, hu] at hnan
        exact absurd ((stored_storable hstorable hm hlarge (-s)).symm.trans hnan) (by simp)
      | _ => rw [hu] at h; exact Bool.false_ne_true h
    have hproduct : (-1 * number a : Double) = ofFloat (.ofModel (.pack
        (UnpackedFloat.mul .binary64 (.finite .negative (2 ^ 52) (-52) (by decide)) a.toModel.unpack))) :=
      rfl
    rw [hproduct, mul_unit .negative h]
    exact ofFloat_eq_number hnan

/-- Zero times a finite number is a zero. -/
theorem isZero_zero_mul {x : Double} (h : Scalar.isFinite x = true) : IsZero (0 * x) := by
  match x, h with
  | number a, h =>
    have h : a.toModel.unpack.isFinite = true := h
    show IsZero (ofFloat (.ofModel (.pack
      (UnpackedFloat.mul .binary64 (.zero .positive) a.toModel.unpack))))
    cases hu : a.toModel.unpack with
    | zero s => exact isZero_ofFloat_pack _
    | finite s m e hm => exact isZero_ofFloat_pack _
    | _ => rw [hu] at h; exact absurd h Bool.false_ne_true

end Double

end HomeEnergy

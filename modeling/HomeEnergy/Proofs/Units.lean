import HomeEnergy.Proofs.Draws
import HomeEnergy.Proofs.Exact
import HomeEnergy.Proofs.Nearest

/-!
# Numbers between zero and one

Variables of solutions are drawn between zero and one and have to stay there. Rounding could move them out, and
an undefined number is not between any bounds.

* `Scalar.InUnit` — numbers between zero and one; `Scalar.Unital` — the laws by which draws and blends stay among
  them.
* `Draw.Documented`, `Draw.Regular` — the bounds of the functions that noise is made of.
* `Draw.unit_always`, `Draw.normalNoise_defined` — a uniform number is between zero and one, and **normal noise is
  a defined number** unless its spread is not.
* `Double.blend_within` — **a number that is rounded three times on its way from one number to another one does not
  leave the unit interval.**
* `Double.word_mem` — **a word scaled down does not reach one.**
* `Double.unital` — the laws hold of double-precision numbers, and without rounding of the real numbers, where
  `Draw.documented_real` holds, too.
-/

namespace HomeEnergy

def Scalar.InUnit {α : Type} [Scalar α] (x : α) : Prop :=
  0 ≤ x ∧ x ≤ 1

/-- What a search needs of arithmetic so that its variables stay between zero and one. -/
class Scalar.Unital (α : Type) [Transcendental α] : Prop extends Scalar.Ordered α where
  defined_of_le : ∀ {x y : α}, x ≤ y → x ≤ x ∧ y ≤ y
  zero_le_one : (0 : α) ≤ 1
  least_lt_one : (1e-9 : α) < 1
  word_mem : ∀ w : UInt64, (0 : α) ≤ Scalar.ofWord (w >>> 11) / 9007199254740992 ∧
    (Scalar.ofWord (w >>> 11) / 9007199254740992 : α) < 1
  blend_inUnit : ∀ {x y t : α}, Scalar.InUnit x → Scalar.InUnit y → Scalar.InUnit t →
    Scalar.InUnit (x + t * (y - x))
  add_defined : ∀ {x y : α}, Scalar.InUnit x → y ≤ y → x + y ≤ x + y
  mul_defined : ∀ {x y : α}, Scalar.isFinite x = true → y ≤ y →
    Scalar.isFinite y = true ∨ x < 0 ∨ 0 < x → x * y ≤ x * y
  radicand_mem : ∀ {x : α}, -21 ≤ x → x ≤ 0 → 0 ≤ -2 * x ∧ -2 * x ≤ 42
  angle_mem : ∀ {x : α}, Scalar.InUnit x →
    0 ≤ 2 * Transcendental.pi * x ∧ 2 * Transcendental.pi * x ≤ 7
  isFinite_mul : ∀ {x y : α}, 0 ≤ x → x ≤ 7 → -1 ≤ y → y ≤ 1 → Scalar.isFinite (x * y) = true

namespace Scalar

variable {α : Type} [Transcendental α] [Unital α]

theorem zero_inUnit : InUnit (0 : α) :=
  ⟨(Unital.defined_of_le Unital.zero_le_one).1, Unital.zero_le_one⟩

theorem one_inUnit : InUnit (1 : α) :=
  ⟨Unital.zero_le_one, (Unital.defined_of_le Unital.zero_le_one).2⟩

theorem InUnit.defined {x : α} (h : InUnit x) : x ≤ x :=
  (Unital.defined_of_le h.1).2

/-- A defined number is moved between zero and one. -/
theorem clamp_inUnit {x : α} (h : x ≤ x) : InUnit (clamp 0 1 x) := by
  have hlow : 0 ≤ (if x < 0 then 0 else x) := by
    split
    · exact zero_inUnit.1
    · rename_i hnot
      exact Ordered.le_of_not_lt zero_inUnit.1 h hnot
  simp only [clamp]
  generalize (if x < 0 then 0 else x) = y at hlow
  split
  · exact one_inUnit
  · rename_i hnot
    exact ⟨hlow, Ordered.le_of_not_lt (Unital.defined_of_le hlow).2 one_inUnit.2 hnot⟩

/-- A number below one is moved to where its logarithm is not too small. -/
theorem clamp_least {x : α} (hlt : x < 1) : 1e-9 ≤ clamp 1e-9 1 x ∧ clamp 1e-9 1 x < 1 := by
  have hself : (1e-9 : α) ≤ 1e-9 := (Unital.defined_of_le (Ordered.le_of_lt Unital.least_lt_one)).1
  have hx : x ≤ x := (Unital.defined_of_le (Ordered.le_of_lt hlt)).1
  have hlow : 1e-9 ≤ (if x < 1e-9 then 1e-9 else x) ∧ (if x < 1e-9 then 1e-9 else x) < 1 := by
    split
    · exact ⟨hself, Unital.least_lt_one⟩
    · rename_i hnot
      exact ⟨Ordered.le_of_not_lt hself hx hnot, hlt⟩
  simp only [clamp]
  generalize (if x < 1e-9 then 1e-9 else x) = y at hlow
  have hnot : ¬ 1 < y := fun hgt => Ordered.not_le_of_lt hgt (Ordered.le_of_lt hlow.2)
  rw [if_neg hnot]
  exact hlow

end Scalar

namespace Draw

open Scalar

variable {α : Type} [Transcendental α]

def deviate (u v : α) : α :=
  Transcendental.sqrt (-2 * Transcendental.ln u) * Transcendental.cos (2 * Transcendental.pi * v)

structure Documented (α : Type) [Transcendental α] : Prop where
  ln_mem : ∀ {u : α}, 1e-9 ≤ u → u < 1 → -21 ≤ Transcendental.ln u ∧ Transcendental.ln u ≤ 0
  sqrt_mem : ∀ {x : α}, 0 ≤ x → x ≤ 42 → 0 ≤ Transcendental.sqrt x ∧ Transcendental.sqrt x ≤ 7
  cos_mem : ∀ {x : α}, 0 ≤ x → x ≤ 7 → -1 ≤ Transcendental.cos x ∧ Transcendental.cos x ≤ 1

/-- What is documented where noise of a spread is drawn. An infinite spread needs deviates other than zero. -/
def Regular (spread : α) : Prop :=
  0 < spread → Documented α ∧ (isFinite spread = true ∨
    ∀ u v : α, 1e-9 ≤ u → u < 1 → 0 ≤ v → v < 1 → deviate u v < 0 ∨ 0 < deviate u v)

variable [Unital α]

theorem deviate_finite (h : Documented α) {u v : α} (hlow : 1e-9 ≤ u) (hhigh : u < 1) (hv : InUnit v) :
    isFinite (deviate u v) = true := by
  obtain ⟨hln, hln'⟩ := h.ln_mem hlow hhigh
  obtain ⟨hradicand, hradicand'⟩ := Unital.radicand_mem hln hln'
  obtain ⟨hsqrt, hsqrt'⟩ := h.sqrt_mem hradicand hradicand'
  obtain ⟨hangle, hangle'⟩ := Unital.angle_mem hv
  obtain ⟨hcos, hcos'⟩ := h.cos_mem hangle hangle'
  exact Unital.isFinite_mul hsqrt hsqrt' hcos hcos'

variable {G : Type} [WordSource G]

theorem unit_always : Always (fun t => 0 ≤ t ∧ t < 1) (unit : StateM G α) :=
  always_bind (always_true _) fun w _ => always_pure (Unital.word_mem w)

/-- **Normal noise is a defined number** if its spread is one. -/
theorem normalNoise_defined {spread : α} (h : spread ≤ spread) (hregular : Regular spread) :
    Always (fun z => z ≤ z) (normalNoise spread : StateM G α) := by
  unfold normalNoise
  split
  · exact always_pure zero_inUnit.1
  · rename_i hnot
    obtain ⟨hdocumented, hspread⟩ := hregular (Ordered.lt_of_not_le zero_inUnit.1 h hnot)
    refine always_bind unit_always fun u hu => always_bind unit_always fun v hv => always_pure ?_
    obtain ⟨hlow, hhigh⟩ := clamp_least hu.2
    have hfinite := deviate_finite hdocumented hlow hhigh ⟨hv.1, Ordered.le_of_lt hv.2⟩
    exact Unital.mul_defined hfinite h (hspread.imp_right fun hne => hne _ _ hlow hhigh hv.1 hv.2)

end Draw

/-! ### Double-precision numbers -/

namespace Double

open Float.Model (Format UnpackedFloat totalExponent)
open Float.Model.UnpackedFloat (Accuracy Sign)

variable {x y : Double} {p q : ℚ}

theorem worth_zero : (0 : Double).Worth 0 :=
  .zero .positive

theorem worth_of_positive (m : ℕ) (e : ℤ) (hm : 0 < m) (h : x.unpacked = .finite .positive m e hm)
    (hq : (m : ℚ) * 2 ^ e = q) : x.Worth q :=
  hq ▸ worth_of_unpacked h

theorem worth_one : (1 : Double).Worth 1 :=
  worth_of_positive (2 ^ 52) (-52) (by decide) rfl (by norm_num)

theorem inUnit_iff : Scalar.InUnit x ↔ x.Within 0 1 :=
  within_iff worth_zero worth_one

theorem Nearest.between {v r lo hi : ℚ} (h : Nearest v r) (hlo : Representable lo) (hhi : Representable hi)
    (hlow : lo ≤ v) (hhigh : v ≤ hi) : lo ≤ r ∧ r ≤ hi :=
  ⟨h.ge hlo hlow, h.le hhi hhigh⟩

/-- **A part of the way between two numbers of the unit interval, rounded after each operation, does not lead out
of it.** The difference may be rounded upwards so that the end is passed, but not by so much that the sum is
rounded to a number above one. -/
theorem blend_within {t : Double} (hx : x.Within 0 1) (hy : y.Within 0 1) (ht : t.Within 0 1) :
    (x + t * (y - x)).Within 0 1 := by
  obtain ⟨p, hp, hp0, hp1⟩ := hx
  obtain ⟨q, hq, hq0, hq1⟩ := hy
  obtain ⟨τ, hτ, hτ0, hτ1⟩ := ht
  have hlarge : (1 : ℚ) + 1 ≤ 2 ^ 64 := by norm_num
  -- the difference
  obtain ⟨d, hd, hdiff⟩ := hq.sub hp (abs_le.mpr ⟨by linarith, by linarith⟩)
  obtain ⟨hdlow, hdhigh⟩ := hd.between (Value.representable hp).neg (Value.representable hq)
    (by linarith) (by linarith)
  have herror := (abs_le.mp (hd.abs_sub_le (abs_le.mpr ⟨by linarith, by linarith⟩))).2
  -- the part of it
  have hpart : (0 ≤ τ * d ∧ τ * d ≤ d) ∨ (d ≤ τ * d ∧ τ * d ≤ 0) := by
    rcases le_total 0 d with hd0 | hd0
    · exact Or.inl ⟨mul_nonneg hτ0 hd0, mul_le_of_le_one_left hd0 hτ1⟩
    · exact Or.inr ⟨by nlinarith, mul_nonpos_of_nonneg_of_nonpos hτ0 hd0⟩
  obtain ⟨s, hs, hproduct⟩ := hτ.mul hdiff (abs_le.mpr ⟨by rcases hpart with h | h <;> linarith,
    by rcases hpart with h | h <;> linarith⟩)
  have hsbounds : (0 ≤ s ∧ s ≤ d) ∨ (d ≤ s ∧ s ≤ 0) :=
    hpart.imp (fun h => hs.between representable_zero hd.representable h.1 h.2)
      (fun h => hs.between hd.representable representable_zero h.1 h.2)
  -- the sum
  obtain ⟨r, hr, hsum⟩ := hp.add hproduct (abs_le.mpr ⟨by rcases hsbounds with h | h <;> linarith,
    by rcases hsbounds with h | h <;> linarith⟩)
  refine ⟨r, hsum, hr.ge representable_zero ?_, hr.le_one ?_⟩
  · rcases hsbounds with h | h <;> linarith
  · rcases hsbounds with h | h <;> linarith

/-! ### Words scaled down -/

theorem representable_natCast {k : ℕ} (hk : k < 2 ^ 53) : Representable k := by
  refine ⟨k, 0, ?_, by norm_num, by simp⟩
  rw [abs_of_nonneg (Int.natCast_nonneg k)]
  omega

/-- A whole number with at most 53 digits is not rounded. -/
theorem worth_ofNat {k : ℕ} (hk : k < 2 ^ 53) : (Scalar.ofNat k : Double).Worth k := by
  have hrepresentable := representable_natCast hk
  have hsize : |(k : ℚ)| ≤ 2 ^ 64 := by
    rw [abs_of_nonneg (Nat.cast_nonneg k)]
    exact_mod_cast hk.le.trans (by norm_num)
  have hword : (number k.toUInt64.toFloat).Worth k := by
    obtain ⟨r, hr, hvalue⟩ := value_normalize k 0
    rw [zpow_zero, mul_one, Int.cast_natCast] at hr
    obtain rfl := hr.eq hrepresentable
    have hmodel : (number k.toUInt64.toFloat).unpacked
        = stored (UnpackedFloat.normalize .binary64 k 0 .positive) := by
      have hk' : k.toUInt64.toNat = k := Nat.mod_eq_of_lt (hk.trans (by norm_num))
      show stored (UnpackedFloat.normalize .binary64 (k.toUInt64.toNat : ℤ) 0 .positive) = _
      rw [hk']
    rw [Worth, hmodel, hvalue.stored hsize]
    exact hvalue
  -- the power of ten that a whole number is multiplied with is one
  obtain ⟨r, hr, hproduct⟩ := hword.mul worth_one (by rwa [mul_one])
  rw [mul_one] at hr
  obtain rfl := hr.eq hrepresentable
  have hnumber : (Scalar.ofNat k : Double).unpacked = (number k.toUInt64.toFloat * 1).unpacked := by
    have hfloat : Float.ofNat k = k.toUInt64.toFloat * Float.ofBits 0x3ff0000000000000 :=
      dif_pos ⟨hk, by norm_num⟩
    show (Float.ofNat k).toModel.unpack = (ofFloat (k.toUInt64.toFloat * Float.ofNat 1)).unpacked
    rw [unpacked_ofFloat, hfloat]
    rfl
  rw [Worth, hnumber]
  exact hproduct

/-- A number with all digits is divided by a power of two in its exponent. -/
theorem div_full {s : Sign} {m : ℕ} {e : ℤ} (hm : 0 < m) (hlow : 2 ^ 52 ≤ m) (hhigh : m < 2 ^ 53)
    (he : -1020 ≤ e) :
    UnpackedFloat.div .binary64 (.finite s m e hm) (.finite .positive (2 ^ 52) 1 (by decide))
      = .finite s m (e - 53) hm := by
  -- the quotient gets one digit too many, which is a zero
  have htarget : min (e - 1) (Format.binary64.targetExponent
      (totalExponent m e - totalExponent (2 ^ 52) 1)) = e - 54 := by
    have htotal : totalExponent (2 ^ 52) 1 = 54 := rfl
    show min (e - 1) (max ((m.log2 + 1 + e - totalExponent (2 ^ 52) 1) - 53) (-1074)) = e - 54
    rw [htotal, log2_of_full hlow hhigh]
    push_cast
    omega
  have hshift : (e - 1 - (e - 54)).toNat = 53 := by omega
  have hmantissa : m <<< 53 = 2 * m * 2 ^ 52 := by
    rw [Nat.shiftLeft_eq]
    ring
  have hround := roundWithAccuracy_storable (e := e - 53) ⟨hhigh, by omega, Or.inl hlow⟩ hm 1
  rw [pow_one, Nat.cast_one, show e - 53 - 1 = e - 54 by ring] at hround
  simp only [UnpackedFloat.div, UnpackedFloat.divCore, htarget, hshift, hmantissa,
    Nat.mul_div_cancel _ (Nat.two_pow_pos 52), Nat.mul_mod_left, UnpackedFloat.accuracyOfFraction, if_true]
  refine (hround (s / .positive)).trans ?_
  cases s <;> rfl

/-- A whole number has as many digits behind the point as there is space. -/
theorem Storable.of_whole {k m : ℕ} {e : ℤ} (h : Storable m e) (hm : 0 < m) (hk : (k : ℚ) = m * 2 ^ e) :
    -52 ≤ e := by
  by_contra hlt
  have hpos : (0 : ℚ) < k := hk ▸ mul_pos (Nat.cast_pos.mpr hm) (zpow_pos (by norm_num) e)
  have hk1 : (1 : ℚ) ≤ k := by exact_mod_cast hpos
  have hm53 : (m : ℚ) < 2 ^ 53 := by exact_mod_cast h.digits
  have hpow : (2 : ℚ) ^ e ≤ 2 ^ (-53 : ℤ) := zpow_le_zpow_right₀ (by norm_num) (by omega)
  have hless : (m : ℚ) * 2 ^ e < 2 ^ 53 * 2 ^ (-53 : ℤ) :=
    mul_lt_mul hm53 hpow (zpow_pos (by norm_num) e) (by norm_num)
  rw [← hk, show (2 : ℚ) ^ 53 * 2 ^ (-53 : ℤ) = 1 by norm_num] at hless
  exact absurd hk1 hless.not_ge

/-- A whole number is divided by the number of all such numbers without rounding. -/
theorem worth_div {k : ℕ} (hx : x.Worth k) (hk : k < 2 ^ 53) :
    (x / 9007199254740992).Worth (k / 2 ^ 53) := by
  obtain ⟨a, rfl⟩ := hx.exists_number
  have hdivide : (number a / 9007199254740992).unpacked = stored (UnpackedFloat.div .binary64
      (number a).unpacked (.finite .positive (2 ^ 52) 1 (by decide))) := unpacked_lift₂ operatesBy_div a _
  rw [Worth, hdivide]
  change Value (number a).unpacked k at hx
  generalize (number a).unpacked = u at hx
  generalize hq : (k : ℚ) = q at hx ⊢
  cases hx with
  | zero s =>
    have hzero : UnpackedFloat.div .binary64 (.zero s) (.finite .positive (2 ^ 52) 1 (by decide))
        = .zero (s / .positive) := rfl
    rw [hzero, stored_zero, zero_div]
    exact .zero _
  | @finite s m e hm h =>
    have hpos : (0 : ℚ) < m * 2 ^ e := mul_pos (Nat.cast_pos.mpr hm) (zpow_pos (by norm_num) e)
    have habs := congrArg abs hq
    rw [abs_withSign, abs_of_pos hpos, Nat.abs_cast] at habs
    have hplace := h.of_whole hm habs
    have hfull : 2 ^ 52 ≤ m := h.full.resolve_right (by omega)
    have hscaled : withSign s (m * 2 ^ (e - 53)) = withSign s (m * 2 ^ e) / 2 ^ 53 := by
      rw [zpow_sub₀ (by norm_num)]
      cases s <;> simp only [withSign] <;> norm_num <;> ring
    have hresult : Value (.finite s m (e - 53) hm) (withSign s (m * 2 ^ e) / 2 ^ 53) :=
      hscaled ▸ .finite s hm ⟨h.digits, by omega, Or.inl hfull⟩
    have hsmall : |withSign s (m * 2 ^ e) / 2 ^ 53| ≤ 2 ^ 64 := by
      have hk53 : (k : ℚ) ≤ 2 ^ 53 := by exact_mod_cast hk.le
      rw [← hq, abs_of_nonneg (by positivity), div_le_iff₀ (by norm_num)]
      exact hk53.trans (by norm_num)
    rw [div_full hm hfull h.digits (by omega), hresult.stored hsmall]
    exact hresult

/-- **The random bits of a word make a number from zero on and below one.** -/
theorem word_mem (w : UInt64) : (0 : Double) ≤ Scalar.ofWord (w >>> 11) / 9007199254740992 ∧
    (Scalar.ofWord (w >>> 11) / 9007199254740992 : Double) < 1 := by
  have hbits : (w >>> 11).toNat < 2 ^ 53 := by
    rw [UInt64.toNat_shiftRight, Nat.shiftRight_eq_div_pow]
    have := w.toNat_lt
    show w.toNat / 2 ^ 11 < 2 ^ 53
    omega
  have hworth := worth_div (worth_ofNat hbits) hbits
  refine ⟨(worth_zero.le_iff hworth).mpr (by positivity), (hworth.lt_iff worth_one).mpr ?_⟩
  rw [div_lt_one (by norm_num)]
  exact_mod_cast hbits

/-! ### Defined results -/

theorem defined_iff : x ≤ x ↔ x.unpacked ≠ .notANumber := by
  rw [le_iff, standing?_eq]
  rcases x.unpacked with (_ | _) | _ | _ | ⟨_ | _, m, e, hm⟩ <;> simp [place?]

theorem roundWithAccuracy_ne_notANumber (s : Sign) (m : ℕ) (e : ℤ) (a : Accuracy) :
    UnpackedFloat.roundWithAccuracy .binary64 s m e a ≠ .notANumber := by
  simp only [UnpackedFloat.roundWithAccuracy]
  split <;> simp

theorem unpack_ne_notANumber {b : BitVec 64} (h : (@UnpackedFloat.unpackExponent .binary64 b).toNat ≠ 2047) :
    UnpackedFloat.unpack .binary64 b ≠ .notANumber := by
  simp only [UnpackedFloat.unpack]
  rw [if_neg fun hones => h (congrArg BitVec.toNat hones)]
  split
  · split <;> simp
  · simp

/-- A number stays defined when it is stored. -/
theorem stored_ne_notANumber {u : UnpackedFloat} (h : u ≠ .notANumber) : stored u ≠ .notANumber := by
  cases u with
  | notANumber => exact absurd rfl h
  | infinity s => simp
  | zero s => simp
  | finite s m e hm =>
    have hbias : Format.binary64.exponentBias = 1023 := rfl
    show UnpackedFloat.unpack .binary64 (UnpackedFloat.pack .binary64 (.finite s m e hm)) ≠ _
    simp only [UnpackedFloat.pack, hbias]
    split
    · -- too large: an infinity
      exact fun hnan => absurd ((stored_infinity s).symm.trans hnan) (by simp)
    · rename_i hfits
      split
      · refine unpack_ne_notANumber ?_
        rw [UnpackedFloat.unpackExponent_packComponents, BitVec.toNat_ofNat]
        change ¬ 2 ^ 11 ≤ _ + 1 at hfits
        change _ % 2 ^ 11 ≠ 2047
        omega
      · refine unpack_ne_notANumber ?_
        rw [UnpackedFloat.unpackExponent_packComponents]
        decide

theorem defined_lift₂ {f : Float → Float → Float} {op : UnpackedFloat → UnpackedFloat → UnpackedFloat}
    (hf : OperatesBy f op) (hx : x ≤ x) (hy : y ≤ y) (hop : op x.unpacked y.unpacked ≠ .notANumber) :
    lift₂ f x y ≤ lift₂ f x y := by
  rw [defined_iff] at hx hy ⊢
  match x, y, hx, hy with
  | number a, number b, _, _ =>
    rw [unpacked_lift₂ hf]
    exact stored_ne_notANumber hop

theorem normalize_ne_notANumber (n e : ℤ) (s : Sign) :
    UnpackedFloat.normalize .binary64 n e s ≠ .notANumber := by
  unfold UnpackedFloat.normalize
  split
  · exact roundWithAccuracy_ne_notANumber _ _ _ _
  · simp
  · exact roundWithAccuracy_ne_notANumber _ _ _ _

/-- A finite number plus a defined one is defined. -/
theorem add_defined (hx : x.Worth q) (hy : y ≤ y) : x + y ≤ x + y := by
  have hself : x ≤ x := (hx.le_iff hx).mpr le_rfl
  refine defined_lift₂ operatesBy_add hself hy ?_
  rw [defined_iff] at hy
  change Value x.unpacked q at hx
  generalize x.unpacked = u at hx
  generalize y.unpacked = v at hy
  cases hx with
  | zero s =>
    rcases v with _ | _ | t | _
    · exact nofun
    · exact absurd rfl hy
    · cases s <;> cases t <;> exact nofun
    · exact nofun
  | finite s hm h =>
    rcases v with _ | _ | _ | _
    · exact nofun
    · exact absurd rfl hy
    · exact nofun
    · exact normalize_ne_notANumber _ _ _

/-- A finite number times a defined one is defined, except for zero times an infinity. -/
theorem mul_defined (hx : x.Worth q) (hy : y ≤ y)
    (hne : Scalar.isFinite y = true ∨ x < 0 ∨ 0 < x) : x * y ≤ x * y := by
  have hself : x ≤ x := (hx.le_iff hx).mpr le_rfl
  refine defined_lift₂ operatesBy_mul hself hy ?_
  rw [hx.lt_iff worth_zero, worth_zero.lt_iff hx] at hne
  have hfinite : Scalar.isFinite y = y.unpacked.isFinite := by cases y <;> rfl
  rw [defined_iff] at hy
  rw [hfinite] at hne
  change Value x.unpacked q at hx
  generalize x.unpacked = u at hx
  generalize y.unpacked = v at hy hne
  cases hx with
  | zero s =>
    rcases v with _ | _ | _ | _
    · exact absurd hne (by simp [UnpackedFloat.isFinite])
    · exact absurd rfl hy
    · exact nofun
    · exact nofun
  | finite s hm h =>
    rcases v with _ | _ | _ | _
    · exact nofun
    · exact absurd rfl hy
    · exact nofun
    · exact roundWithAccuracy_ne_notANumber _ _ _ _

/-! ### The laws -/

theorem worth_seven : (7 : Double).Worth 7 :=
  worth_ofNat (k := 7) (by norm_num)

theorem Worth.mul_between {lo hi : ℚ} (hx : x.Worth p) (hy : y.Worth q) (hlo : Representable lo)
    (hhi : Representable hi) (hlow : lo ≤ p * q) (hhigh : p * q ≤ hi) (hsize : |p * q| ≤ 2 ^ 64) :
    (x * y).Within lo hi := by
  obtain ⟨r, hr, hproduct⟩ := hx.mul hy hsize
  exact ⟨r, hproduct, hr.between hlo hhi hlow hhigh⟩

theorem radicand_mem (hlow : -21 ≤ x) (hhigh : x ≤ 0) : 0 ≤ -2 * x ∧ -2 * x ≤ 42 := by
  have hbound : (-21 : Double).Worth (-21) := (worth_ofNat (k := 21) (by norm_num)).neg (by norm_num)
  have htwo : (-2 : Double).Worth (-2) := (worth_ofNat (k := 2) (by norm_num)).neg (by norm_num)
  have hlast : (42 : Double).Worth 42 := worth_ofNat (k := 42) (by norm_num)
  obtain ⟨q, hq, hqlow, hqhigh⟩ := (within_iff hbound worth_zero).mp ⟨hlow, hhigh⟩
  rw [within_iff worth_zero hlast]
  refine htwo.mul_between hq representable_zero (representable_natCast (k := 42) (by norm_num)) ?_ ?_ ?_
  · linarith
  · linarith
  · exact abs_le.mpr ⟨by linarith, by linarith⟩

theorem angle_mem (h : Scalar.InUnit x) :
    0 ≤ 2 * Transcendental.pi * x ∧ 2 * Transcendental.pi * x ≤ 7 := by
  obtain ⟨q, hq, hq0, hq1⟩ := inUnit_iff.mp h
  have hturn : (2 * Transcendental.pi : Double).Worth (7074237752028440 * 2 ^ (-50 : ℤ)) :=
    worth_of_positive 7074237752028440 (-50) (by norm_num) rfl (by norm_num)
  rw [within_iff worth_zero worth_seven]
  refine hturn.mul_between hq representable_zero (representable_natCast (k := 7) (by norm_num)) ?_ ?_ ?_
  · positivity
  · norm_num
    linarith
  · rw [abs_of_nonneg (by positivity)]
    norm_num
    linarith

theorem isFinite_mul (hx0 : 0 ≤ x) (hx7 : x ≤ 7) (hylow : -1 ≤ y) (hyhigh : y ≤ 1) :
    Scalar.isFinite (x * y) = true := by
  obtain ⟨p, hp, hp0, hp7⟩ := (within_iff worth_zero worth_seven).mp ⟨hx0, hx7⟩
  obtain ⟨q, hq, hqlow, hqhigh⟩ := (within_iff (worth_one.neg (by norm_num)) worth_one).mp ⟨hylow, hyhigh⟩
  have hsize : |p * q| ≤ 7 * 1 := by
    rw [abs_mul, abs_of_nonneg hp0]
    exact mul_le_mul hp7 (abs_le.mpr ⟨hqlow, hqhigh⟩) (abs_nonneg q) (by norm_num)
  obtain ⟨r, -, hproduct⟩ := hp.mul hq (hsize.trans (by norm_num))
  exact hproduct.isFinite

/-- **Variables in double precision stay between zero and one.** -/
instance unital : Scalar.Unital Double where
  defined_of_le h := by
    obtain ⟨a, ha, b, hb, -⟩ := le_iff.mp h
    exact ⟨le_iff.mpr ⟨a, ha, a, ha, le_rfl⟩, le_iff.mpr ⟨b, hb, b, hb, le_rfl⟩⟩
  zero_le_one := by decide
  least_lt_one := by decide
  word_mem := word_mem
  blend_inUnit hx hy ht :=
    inUnit_iff.mpr (blend_within (inUnit_iff.mp hx) (inUnit_iff.mp hy) (inUnit_iff.mp ht))
  add_defined hx hy := by
    obtain ⟨q, hq, -⟩ := inUnit_iff.mp hx
    exact add_defined hq hy
  mul_defined hx hy hne := by
    obtain ⟨q, hq⟩ := exists_worth_of_isFinite hx
    exact mul_defined hq hy hne
  radicand_mem := radicand_mem
  angle_mem := angle_mem
  isFinite_mul := isFinite_mul

end Double

/-! ### Real numbers -/

theorem ofNat_real (n : ℕ) : @OfNat.ofNat ℝ n (Scalar.instOfNat n) = (n : ℝ) :=
  rfl

theorem inUnit_real {x : ℝ} : Scalar.InUnit x ↔ 0 ≤ x ∧ x ≤ 1 := by
  rw [Scalar.InUnit, ofNat_real, ofNat_real, Nat.cast_zero, Nat.cast_one]

/-- The real numbers between zero and one are closed under blending. -/
theorem blend_mem_real {x y t : ℝ} (hx : 0 ≤ x ∧ x ≤ 1) (hy : 0 ≤ y ∧ y ≤ 1) (ht : 0 ≤ t ∧ t ≤ 1) :
    0 ≤ x + t * (y - x) ∧ x + t * (y - x) ≤ 1 := by
  have hparts : x + t * (y - x) = (1 - t) * x + t * y := by ring
  have hrest : 0 ≤ 1 - t := by linarith
  rw [hparts]
  constructor
  · exact add_nonneg (mul_nonneg hrest hx.1) (mul_nonneg ht.1 hy.1)
  · have hfirst := mul_le_mul_of_nonneg_left hx.2 hrest
    have hsecond := mul_le_mul_of_nonneg_left hy.2 ht.1
    linarith

/-- The real numbers obey the laws without rounding. -/
instance : Scalar.Unital ℝ where
  le_trans := le_trans
  le_total _ _ := le_total _ _
  lt_iff_le_not_ge := lt_iff_le_not_ge
  sub_not_pos h h' := by
    rw [ofNat_real, Nat.cast_zero, le_antisymm h h', sub_self]
    exact lt_irrefl 0
  le_refl_add _ := le_rfl
  totalOrder_self x := by
    show (if x < x then Ordering.lt else if x = x then .eq else .gt) = .eq
    rw [if_neg (lt_irrefl x), if_pos rfl]
  defined_of_le _ := ⟨le_rfl, le_rfl⟩
  zero_le_one := by
    rw [ofNat_real, ofNat_real]
    norm_num
  least_lt_one := by
    rw [ofNat_real]
    norm_num
  word_mem w := by
    have hbits : (w >>> 11).toNat < 9007199254740992 := by
      rw [UInt64.toNat_shiftRight, Nat.shiftRight_eq_div_pow]
      have := w.toNat_lt
      show w.toNat / 2 ^ 11 < 9007199254740992
      omega
    show ((0 : ℕ) : ℝ) ≤ ((w >>> 11).toNat : ℝ) / ((9007199254740992 : ℕ) : ℝ) ∧
      ((w >>> 11).toNat : ℝ) / ((9007199254740992 : ℕ) : ℝ) < ((1 : ℕ) : ℝ)
    rw [Nat.cast_zero, Nat.cast_one, div_lt_one (by norm_num)]
    exact ⟨by positivity, by exact_mod_cast hbits⟩
  blend_inUnit hx hy ht :=
    inUnit_real.mpr (blend_mem_real (inUnit_real.mp hx) (inUnit_real.mp hy) (inUnit_real.mp ht))
  add_defined _ _ := le_rfl
  mul_defined _ _ _ := le_rfl
  radicand_mem := by
    intro x hlow hhigh
    change -((21 : ℕ) : ℝ) ≤ x at hlow
    change x ≤ ((0 : ℕ) : ℝ) at hhigh
    show ((0 : ℕ) : ℝ) ≤ -((2 : ℕ) : ℝ) * x ∧ -((2 : ℕ) : ℝ) * x ≤ ((42 : ℕ) : ℝ)
    push_cast at hlow hhigh ⊢
    constructor <;> linarith
  angle_mem h := by
    obtain ⟨h0, h1⟩ := inUnit_real.mp h
    have hpos := Real.pi_pos
    have hpi := Real.pi_lt_d2
    rw [ofNat_real, ofNat_real, ofNat_real]
    show ((0 : ℕ) : ℝ) ≤ (2 : ℕ) * Real.pi * _ ∧ (2 : ℕ) * Real.pi * _ ≤ (7 : ℕ)
    push_cast
    constructor
    · positivity
    · nlinarith
  isFinite_mul _ _ _ _ := rfl

namespace Draw

theorem log_least : -((21 : ℕ) : ℝ) ≤ Real.log ((10 ^ 9 : ℕ) : ℝ)⁻¹ := by
  rw [Real.log_inv, neg_le_neg_iff, Real.log_le_iff_le_exp (by positivity)]
  calc ((10 ^ 9 : ℕ) : ℝ) ≤ 2.7 ^ 21 := by norm_num
    _ ≤ Real.exp 1 ^ 21 := by
      have hone := Real.exp_one_gt_d9
      exact pow_le_pow_left₀ (by norm_num) (by linarith) 21
    _ = Real.exp ((21 : ℕ) : ℝ) := by
      rw [← Real.exp_nat_mul, mul_one]

/-- The real functions are as documented. -/
theorem documented_real : Documented ℝ where
  ln_mem := by
    intro u hlow hhigh
    change u < ((1 : ℕ) : ℝ) at hhigh
    rw [Nat.cast_one] at hhigh
    have hleast : ((10 ^ 9 : ℕ) : ℝ)⁻¹ = 1e-9 := by norm_num
    have hpos : (0 : ℝ) < ((10 ^ 9 : ℕ) : ℝ)⁻¹ := by positivity
    replace hlow : ((10 ^ 9 : ℕ) : ℝ)⁻¹ ≤ u := hleast.trans_le hlow
    show -((21 : ℕ) : ℝ) ≤ Real.log u ∧ Real.log u ≤ ((0 : ℕ) : ℝ)
    rw [Nat.cast_zero]
    exact ⟨log_least.trans (Real.log_le_log hpos hlow), Real.log_nonpos (hpos.le.trans hlow) hhigh.le⟩
  sqrt_mem := by
    intro x _ hhigh
    change x ≤ ((42 : ℕ) : ℝ) at hhigh
    show ((0 : ℕ) : ℝ) ≤ Real.sqrt x ∧ Real.sqrt x ≤ ((7 : ℕ) : ℝ)
    push_cast at hhigh ⊢
    refine ⟨Real.sqrt_nonneg x, Real.sqrt_le_iff.mpr ⟨by norm_num, ?_⟩⟩
    norm_num
    linarith
  cos_mem := by
    intro x _ _
    show -((1 : ℕ) : ℝ) ≤ Real.cos x ∧ Real.cos x ≤ ((1 : ℕ) : ℝ)
    rw [Nat.cast_one]
    exact ⟨Real.neg_one_le_cos x, Real.cos_le_one x⟩

theorem regular_real (spread : ℝ) : Regular spread :=
  fun _ => ⟨documented_real, Or.inl rfl⟩

end Draw

end HomeEnergy

import HomeEnergy.Proofs.Order
import Mathlib

/-!
# Two zeros

A sum that starts at zero differs from the number it is a sum of in one case: the negative zero becomes the
positive one. This module says when the difference is lost again.

* `Double.Same` — numerically equal: both zeros are, and so are two undefined numbers.
* `Double.Similar` — the same number, but for the sign of a zero; products, quotients and differences of
  similar numbers are similar, and rounding them to whole numbers makes them equal.
* `Double.Plain`, `Double.plain_add` — numbers other than the negative zero. **A sum that starts at such a
  number never becomes the negative zero**, because a sum of two numbers is too large to be rounded to zero.
* `Double.Interchangeable` — numbers that come to the same when they are added to a plain one.
* `Double.interchangeable_zero_add`, `Double.interchangeable_rest` — **a number and its sum with zero are
  interchangeable**, and so is what is left of them after a share has been taken off.
-/

namespace HomeEnergy

namespace Double

open Float.Model (Format UnpackedFloat totalExponent)
open Float.Model.UnpackedFloat (Accuracy ExtendedMantissa Sign)

/-! ### Stored numbers -/

/-- What is left of the result of an operation when it has been stored. -/
def stored (u : UnpackedFloat) : UnpackedFloat :=
  (Float.Model.pack u).unpack

theorem ofFloat_eq_number {a : Float} (h : a.toModel.unpack ≠ .notANumber) : ofFloat a = number a := by
  have hnan : a.isNaN = a.toModel.unpack.isNaN := rfl
  unfold ofFloat
  rw [hnan, if_neg]
  cases ha : a.toModel.unpack with
  | notANumber => exact absurd ha h
  | _ => exact Bool.false_ne_true

/-- Storing a number that comes from storage changes nothing. -/
theorem pack_unpack (m : Float.Model) : Float.Model.pack m.unpack = m := by
  obtain ⟨bits, hbits⟩ := m
  have hpack : UnpackedFloat.pack .binary64 (UnpackedFloat.unpack .binary64 bits.toBitVec)
      = bits.toBitVec := UnpackedFloat.pack_unpack_of_valid hbits
  simp only [Float.Model.pack, Float.Model.unpack, hpack]

theorem stored_unpack (m : Float.Model) : stored m.unpack = m.unpack := by
  rw [stored, pack_unpack]

@[simp] theorem stored_notANumber : stored .notANumber = .notANumber := rfl

@[simp] theorem stored_zero (s : Sign) : stored (.zero s) = .zero s := by
  cases s <;> rfl

@[simp] theorem stored_infinity (s : Sign) : stored (.infinity s) = .infinity s := by
  cases s <;> rfl

def OperatesBy (f : Float → Float → Float) (op : UnpackedFloat → UnpackedFloat → UnpackedFloat) : Prop :=
  ∀ a b, f a b = .ofModel (.pack (op a.toModel.unpack b.toModel.unpack))

theorem operatesBy_add : OperatesBy (· + ·) (UnpackedFloat.add .binary64) := fun _ _ => rfl

theorem operatesBy_sub : OperatesBy (· - ·) (UnpackedFloat.sub .binary64) := fun _ _ => rfl

theorem operatesBy_mul : OperatesBy (· * ·) (UnpackedFloat.mul .binary64) := fun _ _ => rfl

theorem operatesBy_div : OperatesBy (· / ·) (UnpackedFloat.div .binary64) := fun _ _ => rfl

theorem unpacked_add (x y : Double) :
    (x + y).unpacked = stored (UnpackedFloat.add .binary64 x.unpacked y.unpacked) := by
  cases x with
  | undefined _ => exact stored_notANumber.symm
  | number a =>
    cases y with
    | undefined _ =>
      show UnpackedFloat.notANumber = stored (UnpackedFloat.add _ a.toModel.unpack .notANumber)
      cases a.toModel.unpack <;> exact stored_notANumber.symm
    | number b => exact unpacked_ofFloat _

/-! ### Numerically equal numbers -/

/-- Numerically equal numbers: they compare equal, or neither compares equal to itself. -/
def Same (x y : Double) : Prop :=
  (x == y) = true ∨ (x == x) = false ∧ (y == y) = false

theorem beq_self_eq_false {x : Double} : (x == x) = false ↔ standing? x = none := by
  rw [← Bool.not_eq_true, beq_iff]
  cases standing? x <;> simp

theorem same_iff {x y : Double} : Same x y ↔ standing? x = standing? y := by
  unfold Same
  rw [beq_self_eq_false, beq_self_eq_false, beq_iff]
  cases standing? x <;> cases standing? y <;> simp [eq_comm]

theorem Same.refl (x : Double) : Same x x :=
  same_iff.mpr rfl

theorem Same.symm {x y : Double} (h : Same x y) : Same y x :=
  same_iff.mpr (same_iff.mp h).symm

theorem Same.lt_iff {x x' y y' : Double} (hx : Same x x') (hy : Same y y') : x < y ↔ x' < y' := by
  rw [Double.lt_iff, Double.lt_iff, same_iff.mp hx, same_iff.mp hy]

theorem Same.le_iff {x x' y y' : Double} (hx : Same x x') (hy : Same y y') : x ≤ y ↔ x' ≤ y' := by
  rw [Double.le_iff, Double.le_iff, same_iff.mp hx, same_iff.mp hy]

theorem place?_stored {u v : UnpackedFloat} (h : place? u = place? v) :
    place? (stored u) = place? (stored v) := by
  rcases eq_of_place? h with rfl | ⟨s, t, rfl, rfl⟩
  · rfl
  · simp [place?]

theorem place?_add {u u' v v' : UnpackedFloat} (hu : place? u = place? u') (hv : place? v = place? v') :
    place? (UnpackedFloat.add .binary64 u v) = place? (UnpackedFloat.add .binary64 u' v') := by
  rcases eq_of_place? hu with rfl | ⟨s, s', rfl, rfl⟩ <;>
    rcases eq_of_place? hv with rfl | ⟨t, t', rfl, rfl⟩
  · rfl
  · rcases u with _ | _ | _ | _
    case zero r => cases r <;> cases t <;> cases t' <;> rfl
    all_goals rfl
  · rcases v with _ | _ | _ | _
    case zero r => cases r <;> cases s <;> cases s' <;> rfl
    all_goals rfl
  · cases s <;> cases s' <;> cases t <;> cases t' <;> rfl

theorem Same.add {x x' y y' : Double} (hx : Same x x') (hy : Same y y') : Same (x + y) (x' + y') := by
  rw [same_iff, standing?_eq, standing?_eq] at *
  rw [unpacked_add, unpacked_add]
  exact place?_stored (place?_add hx hy)

/-- Numerically equal numbers below zero are made of the same. -/
theorem Same.eq_of_neg {x y : Double} (h : Same x y) (hx : x < 0) :
    ∃ a b, x = number a ∧ y = number b ∧ a.toModel.unpack = b.toModel.unpack := by
  obtain ⟨p, hp, o, ho, hlt⟩ := Double.lt_iff.mp hx
  obtain rfl : origin = o := Option.some.inj ho
  have hq : p ∈ standing? y := same_iff.mp h ▸ hp
  match x, y, hp, hq with
  | number a, number b, hp, hq =>
    refine ⟨a, b, rfl, rfl, ?_⟩
    rcases eq_of_place? (hp.trans hq.symm) with heq | ⟨s, t, hs, -⟩
    · exact heq
    · -- a zero is not below zero
      have hzero : p = origin := by
        have hplace : place? a.toModel.unpack = some p := hp
        rw [hs] at hplace
        exact (Option.some.inj hplace).symm
      exact absurd hlt (hzero ▸ lt_irrefl _)

/-! ### The sign of a zero -/

def IsZero (x : Double) : Prop :=
  ∃ s, x.unpacked = .zero s

/-- The same number, but for the sign of a zero. -/
def Similar (x y : Double) : Prop :=
  x = y ∨ x.IsZero ∧ y.IsZero

theorem IsZero.exists_number {x : Double} (h : x.IsZero) :
    ∃ a s, x = number a ∧ a.toModel.unpack = .zero s := by
  obtain ⟨s, hs⟩ := h
  match x, hs with
  | number a, hs => exact ⟨a, s, rfl, hs⟩

theorem isZero_ofFloat_pack (s : Sign) : (ofFloat (.ofModel (.pack (.zero s)))).IsZero :=
  ⟨s, by rw [unpacked_ofFloat]; exact stored_zero s⟩

theorem IsZero.standing? {x : Double} (h : x.IsZero) : x.standing? = some origin := by
  obtain ⟨s, hs⟩ := h
  rw [standing?_eq, hs]
  rfl

theorem Similar.same {x y : Double} (h : Similar x y) : Same x y := by
  rcases h with rfl | ⟨hx, hy⟩
  · exact Same.refl x
  · rw [same_iff, hx.standing?, hy.standing?]

/-- An operation that makes zeros or one number of both zeros does so with similar numbers. -/
theorem Similar.lift₂ {f : Float → Float → Float} {op : UnpackedFloat → UnpackedFloat → UnpackedFloat}
    (hf : OperatesBy f op)
    (hop : ∀ s t v, op (.zero s) v = op (.zero t) v ∨
      ∃ s' t', op (.zero s) v = .zero s' ∧ op (.zero t) v = .zero t')
    {x y : Double} (h : Similar x y) (z : Double) : Similar (lift₂ f x z) (lift₂ f y z) := by
  rcases h with rfl | ⟨hx, hy⟩
  · exact Or.inl rfl
  · obtain ⟨a, s, rfl, hs⟩ := hx.exists_number
    obtain ⟨b, t, rfl, ht⟩ := hy.exists_number
    cases z with
    | undefined _ => exact Or.inl rfl
    | number c =>
      show Similar (ofFloat (f a c)) (ofFloat (f b c))
      rw [hf, hf, hs, ht]
      rcases hop s t c.toModel.unpack with heq | ⟨s', t', hs', ht'⟩
      · exact Or.inl (by rw [heq])
      · rw [hs', ht']
        exact Or.inr ⟨isZero_ofFloat_pack s', isZero_ofFloat_pack t'⟩

theorem Similar.sub {x y : Double} (h : Similar x y) (z : Double) : Similar (x - z) (y - z) := by
  refine h.lift₂ operatesBy_sub ?_ z
  rintro s t (_ | _ | r | _)
  case zero => exact Or.inr (by cases s <;> cases t <;> cases r <;> exact ⟨_, _, rfl, rfl⟩)
  all_goals exact Or.inl rfl

theorem Similar.mul {x y : Double} (h : Similar x y) (z : Double) : Similar (x * z) (y * z) := by
  refine h.lift₂ operatesBy_mul ?_ z
  rintro s t (_ | _ | _ | _)
  case zero => exact Or.inr ⟨_, _, rfl, rfl⟩
  case finite => exact Or.inr ⟨_, _, rfl, rfl⟩
  all_goals exact Or.inl rfl

theorem Similar.div {x y : Double} (h : Similar x y) (z : Double) : Similar (x / z) (y / z) := by
  refine h.lift₂ operatesBy_div ?_ z
  rintro s t (_ | _ | _ | _)
  case infinity => exact Or.inr ⟨_, _, rfl, rfl⟩
  case finite => exact Or.inr ⟨_, _, rfl, rfl⟩
  all_goals exact Or.inl rfl

/-- Rounding to whole numbers does not tell similar numbers apart: a half is added first. -/
theorem Similar.roundHalfUp {x y : Double} (h : Similar x y) :
    Scalar.roundHalfUp x = Scalar.roundHalfUp y := by
  have hhalf : x + 0.5 = y + 0.5 := by
    rcases h with rfl | ⟨hx, hy⟩
    · rfl
    · obtain ⟨a, s, rfl, hs⟩ := hx.exists_number
      obtain ⟨b, t, rfl, ht⟩ := hy.exists_number
      show ofFloat (.ofModel (.pack (UnpackedFloat.add _ a.toModel.unpack _)))
        = ofFloat (.ofModel (.pack (UnpackedFloat.add _ b.toModel.unpack _)))
      rw [hs, ht]
      rfl
  exact congrArg Scalar.floor hhalf

theorem div_congr {c d : Float} (h : c.toModel.unpack = d.toModel.unpack) (x : Double) :
    x / number c = x / number d := by
  cases x with
  | undefined _ => rfl
  | number a =>
    show ofFloat (.ofModel (.pack (UnpackedFloat.div _ a.toModel.unpack c.toModel.unpack)))
      = ofFloat (.ofModel (.pack (UnpackedFloat.div _ a.toModel.unpack d.toModel.unpack)))
    rw [h]

/-! ### Sums are not rounded to zero -/

theorem mantissa_shiftRight (m : ExtendedMantissa) (k : ℕ) :
    (m >>> k).mantissa = m.mantissa / 2 ^ k := by
  induction k with
  | zero => exact (Nat.div_one _).symm
  | succ k ih =>
    show (m >>> k).mantissa / 2 = _
    rw [ih, Nat.div_div_eq_div_mul, Nat.pow_succ]

theorem mantissa_ofMantissaAndAccuracy (m : ℕ) (a : Accuracy) :
    (ExtendedMantissa.ofMantissaAndAccuracy m a).mantissa = m := by
  rcases a with _ | _ | _ | _ <;> rfl

theorem le_roundedMantissa (m : ExtendedMantissa) : m.mantissa ≤ m.roundedMantissa := by
  rcases m with ⟨m, _ | _, _ | _⟩
  · exact le_rfl
  · exact le_rfl
  · exact Nat.le_add_right ..
  · exact Nat.le_add_right ..

/-- A mantissa that is shifted to its place keeps a digit, and has 53 of them at most. -/
theorem shift_bounds {m : ℕ} (hm : 0 < m) {e : ℤ} (he : -1074 ≤ e) (a : Accuracy) :
    let shifted := UnpackedFloat.shiftToTargetExponent .binary64 m e a
    0 < shifted.1.mantissa ∧ shifted.1.mantissa < 2 ^ 53 ∧ -1074 ≤ shifted.2 := by
  intro shifted
  have hlow := Nat.log2_self_le hm.ne'
  have hhigh := Nat.lt_log2_self (n := m)
  have hplaces : (Format.binary64.targetExponent (totalExponent m e) - e).toNat = m.log2 - 52 := by
    show (max ((m.log2 + 1 + e : ℤ) - 53) (-1074) - e).toNat = _
    omega
  have hmantissa : shifted.1.mantissa = m / 2 ^ (m.log2 - 52) := by
    rw [← hplaces]
    refine (mantissa_shiftRight _ _).trans ?_
    rw [mantissa_ofMantissaAndAccuracy]
  rw [hmantissa]
  refine ⟨?_, ?_, ?_⟩
  · refine Nat.div_pos (le_trans ?_ hlow) (Nat.two_pow_pos _)
    exact Nat.pow_le_pow_right two_pos (Nat.sub_le ..)
  · rw [Nat.div_lt_iff_lt_mul (Nat.two_pow_pos _), ← Nat.pow_add]
    exact hhigh.trans_le (Nat.pow_le_pow_right two_pos (by omega))
  · show -1074 ≤ e + ((Format.binary64.targetExponent (totalExponent m e) - e).toNat : ℤ)
    omega

/-- A number that is at least as large as the least one is not rounded to zero. -/
theorem roundWithAccuracy_finite {m : ℕ} (hm : 0 < m) {e : ℤ} (he : -1074 ≤ e) (s : Sign)
    (a : Accuracy) :
    ∃ m' e' h, UnpackedFloat.roundWithAccuracy .binary64 s m e a = .finite s m' e' h ∧
      m' < 2 ^ 53 ∧ -1074 ≤ e' := by
  obtain ⟨hpos, -, he₁⟩ := shift_bounds hm he a
  have hrounded := hpos.trans_le (le_roundedMantissa _)
  obtain ⟨hpos', hlt', he₂⟩ := shift_bounds hrounded he₁ .exact
  refine ⟨_, _, hpos', ?_, hlt', he₂⟩
  exact dif_neg hpos'.ne'

theorem round_finite {m : ℕ} (hm : 0 < m) {e : ℤ} (he : -1074 ≤ e) (s : Sign) :
    ∃ m' e' h, UnpackedFloat.round .binary64 s m e = .finite s m' e' h ∧ m' < 2 ^ 53 ∧ -1074 ≤ e' := by
  refine roundWithAccuracy_finite ?_ ?_ s .exact
  · rw [Nat.shiftLeft_eq]
    exact Nat.mul_pos hm (Nat.two_pow_pos _)
  · show -1074 ≤ e - ((e - max (totalExponent m e - 53) (-1074)).toNat : ℤ)
    omega

/-- A rounded number is not stored as a zero. -/
theorem stored_finite_ne_zero {s t : Sign} {m : ℕ} {e : ℤ} (hm : 0 < m) (hlt : m < 2 ^ 53)
    (he : -1074 ≤ e) : stored (.finite s m e hm) ≠ .zero t := by
  intro hzero
  have hbits := (UnpackedFloat.unpack_eq_zero_iff_of_valid UnpackedFloat.valid_pack).mp hzero
  have hexponent := congrArg (fun b => (UnpackedFloat.unpackExponent b).toNat) hbits
  have hmantissa := congrArg (fun b => (UnpackedFloat.unpackMantissa b).toNat) hbits
  simp only [UnpackedFloat.pack] at hexponent hmantissa
  have hbias : Format.binary64.exponentBias = 1023 := rfl
  split at hexponent
  · -- too large: an infinity
    simp [UnpackedFloat.packedInfinity, UnpackedFloat.packedZero] at hexponent
  · rename_i hsmall
    split at hexponent
    · -- the exponent is stored, and it is not the one of a zero
      simp only [UnpackedFloat.packedZero, UnpackedFloat.unpackExponent_packComponents,
        BitVec.toNat_ofNat, hbias] at hexponent hsmall
      change _ = 0 at hexponent
      omega
    · -- the mantissa has fewer than 53 digits, and all of them are stored
      rename_i hdigits
      rw [if_neg hsmall, if_neg hdigits] at hmantissa
      simp only [UnpackedFloat.packedZero, UnpackedFloat.unpackMantissa_packComponents,
        BitVec.toNat_ofNat] at hmantissa
      change _ = 0 at hmantissa
      have hlog : m.log2 < 52 := by
        have := (Nat.log2_lt hm.ne').mpr hlt
        have : m.log2 + 1 ≠ 53 := hdigits
        omega
      rw [Nat.mod_eq_of_lt ((Nat.log2_lt hm.ne').mp hlog)] at hmantissa
      omega

/-- An exact sum is stored as the positive zero or as no zero. -/
theorem stored_normalize_ne_zero (m : ℤ) {e : ℤ} (he : -1074 ≤ e) :
    stored (UnpackedFloat.normalize .binary64 m e .positive) ≠ .zero .negative := by
  unfold UnpackedFloat.normalize
  split
  · rename_i hneg
    have hpos : 0 < (-m).toNat := by
      have := Int.compare_eq_lt.mp hneg
      omega
    obtain ⟨m', e', h', hround, hlt, he'⟩ := round_finite hpos he .negative
    rw [hround]
    exact stored_finite_ne_zero h' hlt he'
  · simp
  · rename_i hgt
    have hpos : 0 < m.toNat := by
      have := Int.compare_eq_gt.mp hgt
      omega
    obtain ⟨m', e', h', hround, hlt, he'⟩ := round_finite hpos he .positive
    rw [hround]
    exact stored_finite_ne_zero h' hlt he'

/-- No number is smaller than the least one. -/
theorem exponent_unpack {f : Float.Model} {s : Sign} {m : ℕ} {e : ℤ} {hm : 0 < m}
    (h : f.unpack = .finite s m e hm) : -1074 ≤ e := by
  have hbias : Format.binary64.exponentBias = 1023 := rfl
  simp only [Float.Model.unpack, UnpackedFloat.unpack, hbias] at h
  split at h
  · split at h <;> exact absurd h (by simp)
  · split at h
    · split at h
      · exact absurd h (by simp)
      · injection h with _ _ he
        omega
    · rename_i hne
      injection h with _ _ he
      have hpos : 0 < (@UnpackedFloat.unpackExponent .binary64 f.toBits.toBitVec).toNat := by
        refine Nat.pos_of_ne_zero fun hzero => hne ?_
        exact BitVec.eq_of_toNat_eq hzero
      omega

/-- A number other than the negative zero. -/
def Plain (x : Double) : Prop :=
  x.unpacked ≠ .zero .negative

theorem exponent_unpacked {x : Double} {s : Sign} {m : ℕ} {e : ℤ} {hm : 0 < m}
    (h : x.unpacked = .finite s m e hm) : -1074 ≤ e := by
  match x, h with
  | number _, h => exact exponent_unpack h

theorem stored_unpacked (x : Double) : stored x.unpacked = x.unpacked := by
  cases x with
  | undefined _ => exact stored_notANumber
  | number a => exact stored_unpack a.toModel

/-- **Adding to a number other than the negative zero never gives the negative zero.** -/
theorem plain_add {x : Double} (hx : x.Plain) (y : Double) : (x + y).Plain := by
  unfold Plain at *
  rw [unpacked_add]
  have hstored := stored_unpacked x
  have hstored' := stored_unpacked y
  cases hu : x.unpacked with
  | notANumber => simp [UnpackedFloat.add]
  | infinity s =>
    cases y.unpacked with
    | infinity t =>
      show stored (if s == t then _ else _) ≠ _
      split <;> simp
    | _ => simp [UnpackedFloat.add]
  | zero s =>
    cases s with
    | negative => exact absurd hu hx
    | positive =>
      cases hv : y.unpacked with
      | zero t => cases t <;> simp [UnpackedFloat.add]
      | finite t n f hn =>
        rw [hv] at hstored'
        show stored (.finite t n f hn) ≠ _
        rw [hstored']
        simp
      | _ => simp [UnpackedFloat.add]
  | finite s m e hm =>
    cases hv : y.unpacked with
    | finite t n f hn =>
      show stored (UnpackedFloat.normalize _ (_ + _) (min e f) .positive) ≠ _
      exact stored_normalize_ne_zero _ (le_min (exponent_unpacked hu) (exponent_unpacked hv))
    | zero t =>
      rw [hu] at hstored
      show stored (.finite s m e hm) ≠ _
      rw [hstored]
      simp
    | _ => simp [UnpackedFloat.add]

/-! ### Interchangeable numbers -/

/-- Numerically equal numbers that come to the same when they are added to a plain one. -/
structure Interchangeable (x y : Double) : Prop where
  same : Same x y
  add : ∀ z : Double, z.Plain → z + x = z + y

theorem Interchangeable.refl (x : Double) : Interchangeable x x :=
  ⟨Same.refl x, fun _ _ => rfl⟩

theorem Interchangeable.symm {x y : Double} (h : Interchangeable x y) : Interchangeable y x :=
  ⟨h.same.symm, fun z hz => (h.add z hz).symm⟩

theorem Similar.interchangeable {x y : Double} (h : Similar x y) : Interchangeable x y := by
  refine ⟨h.same, ?_⟩
  intro z hz
  rcases h with rfl | ⟨hx, hy⟩
  · rfl
  · obtain ⟨a, s, rfl, hs⟩ := hx.exists_number
    obtain ⟨b, t, rfl, ht⟩ := hy.exists_number
    cases z with
    | undefined _ => rfl
    | number c =>
      have hc : c.toModel.unpack ≠ .zero .negative := hz
      show ofFloat (.ofModel (.pack (UnpackedFloat.add _ c.toModel.unpack a.toModel.unpack)))
        = ofFloat (.ofModel (.pack (UnpackedFloat.add _ c.toModel.unpack b.toModel.unpack)))
      rw [hs, ht]
      cases hv : c.toModel.unpack with
      | zero r =>
        cases r with
        | negative => exact absurd hv hc
        | positive => cases s <;> cases t <;> rfl
      | _ => rfl

/-- The sum of zero and a number is similar to the number. The one exception is a `number` that holds a float
without a value: the sum is undefined, and says so. -/
theorem zero_add_cases (x : Double) :
    Similar x (0 + x) ∨ ∃ a, x = number a ∧ a.toModel.unpack = .notANumber ∧ 0 + x = undefined true := by
  cases x with
  | undefined _ => exact Or.inl (Or.inl rfl)
  | number a =>
    have hsum : (0 + number a : Double)
        = ofFloat (.ofModel (.pack (UnpackedFloat.add .binary64 (.zero .positive) a.toModel.unpack))) :=
      rfl
    have hself : ofFloat (.ofModel (.pack a.toModel.unpack)) = ofFloat a := by rw [pack_unpack]
    rw [hsum]
    cases ha : a.toModel.unpack with
    | notANumber => exact Or.inr ⟨a, rfl, ha, rfl⟩
    | zero s =>
      refine Or.inl (Or.inr ⟨⟨s, ha⟩, ?_⟩)
      cases s <;> exact isZero_ofFloat_pack .positive
    | _ =>
      refine Or.inl (Or.inl ?_)
      rw [ha] at hself
      exact (hself.trans (ofFloat_eq_number (by simp [ha]))).symm

/-- An operation on a float without a value is undefined, and says so. -/
theorem lift₂_notANumber {f : Float → Float → Float} {op : UnpackedFloat → UnpackedFloat → UnpackedFloat}
    (hf : OperatesBy f op) (hop : ∀ v, op .notANumber v = .notANumber) {a : Float}
    (ha : a.toModel.unpack = .notANumber) (c : Float) : lift₂ f (number a) (number c) = undefined true := by
  show ofFloat (f a c) = _
  rw [hf, ha, hop]
  rfl

/-- **A number and its sum with zero are interchangeable.** -/
theorem interchangeable_zero_add (x : Double) : Interchangeable x (0 + x) := by
  rcases zero_add_cases x with h | ⟨a, rfl, ha, hsum⟩
  · exact h.interchangeable
  · rw [hsum]
    constructor
    · rw [same_iff, standing?, ha]
      rfl
    · intro z _
      cases z with
      | undefined _ => rfl
      | number c =>
        have hnan : UnpackedFloat.add .binary64 c.toModel.unpack .notANumber = .notANumber := by
          cases c.toModel.unpack <;> rfl
        show ofFloat (.ofModel (.pack (UnpackedFloat.add _ c.toModel.unpack a.toModel.unpack))) = _
        rw [ha, hnan]
        rfl

/-- The share of a power that leaves through an exporting meter. -/
def exported (net generation power : Double) : Double :=
  if generation < 0 then Scalar.roundHalfUp (power / generation * net) else 0

theorem exported_of_not_neg {g : Double} (h : ¬ g < 0) (net x : Double) : exported net g x = 0 :=
  if_neg h

/-- Of a number and its sum with zero the same share leaves. -/
theorem exported_zero_add {g g' : Double} (hg : Same g g') (net x : Double) :
    exported net g x = exported net g' (0 + x) := by
  by_cases hneg : g < 0
  · have hneg' : g' < 0 := (hg.lt_iff (Same.refl 0)).mp hneg
    obtain ⟨c, d, rfl, rfl, heq⟩ := hg.eq_of_neg hneg
    unfold exported
    rw [if_pos hneg, if_pos hneg', ← div_congr heq (0 + x)]
    rcases zero_add_cases x with h | ⟨a, rfl, ha, hsum⟩
    · exact ((h.div _).mul net).roundHalfUp
    · have hquotient : (number a / number c : Double) = undefined true :=
        lift₂_notANumber operatesBy_div (fun v => by cases v <;> rfl) ha c
      rw [hquotient, hsum]
      rfl
  · have hneg' : ¬ g' < 0 := fun h => hneg ((hg.lt_iff (Same.refl 0)).mpr h)
    rw [exported_of_not_neg hneg, exported_of_not_neg hneg']

/-- **What is left of a number and of its sum with zero is interchangeable**, after the share that leaves has
been taken off. -/
theorem interchangeable_rest {g g' : Double} (hg : Same g g') (net x : Double) :
    Interchangeable (x - exported net g x) ((0 + x) - exported net g' (0 + x)) := by
  rw [← exported_zero_add hg]
  rcases zero_add_cases x with h | ⟨a, rfl, ha, hsum⟩
  · exact (h.sub _).interchangeable
  · -- the share is undefined as well, or zero
    rw [hsum]
    suffices hrest : number a - exported net g (number a) = undefined true by
      rw [hrest]
      exact Interchangeable.refl _
    by_cases hneg : g < 0
    · obtain ⟨c, d, rfl, -, -⟩ := hg.eq_of_neg hneg
      have hquotient : (number a / number c : Double) = undefined true :=
        lift₂_notANumber operatesBy_div (fun v => by cases v <;> rfl) ha c
      rw [exported, if_pos hneg, hquotient]
      rfl
    · rw [exported_of_not_neg hneg]
      exact lift₂_notANumber operatesBy_sub (fun v => by cases v <;> rfl) ha _

end Double

end HomeEnergy

import HomeEnergy.Proofs.Order
import Mathlib

/-!
# The total order of numbers

Selection sorts by a total order, in which undefined numbers and both zeros have places of their own. Among
defined numbers it does not contradict comparisons: what comes first is at most what comes later.

* `Scalar.Sortable` — the laws that a sorted list needs.
* `Double.seat` — the place of a number in the total order, computed from its sign, exponent and mantissa;
  `Double.toInt_rank` — the flipped bits of a number are that place.
* `Double.seat_lt` — a number below another one has the earlier place.
* `Double.sortable` — **the laws hold of double-precision numbers.**
-/

namespace HomeEnergy

/-- What sorting needs beside comparisons: an order of all values that agrees with them where there are any. -/
class Scalar.Sortable (α : Type) [Scalar α] : Prop extends Scalar.Ordered α where
  transCmp : Std.TransCmp (Scalar.totalOrder : α → α → Ordering)
  le_of_totalOrder : ∀ {x y : α}, x ≤ x → y ≤ y → (Scalar.totalOrder x y).isLE = true → x ≤ y

namespace Double

open Float.Model (Format UnpackedFloat)
open Float.Model.UnpackedFloat (Sign)

/-! ### Stored numbers -/

/-- The exponent and the mantissa of a stored number are in range, and the mantissa has its leading digit
unless the exponent is the least. -/
def Canonical : UnpackedFloat → Prop
  | .finite _ m e _ => -1074 ≤ e ∧ e < 972 ∧ m < 2 ^ 53 ∧ (-1074 < e → 2 ^ 52 ≤ m)
  | _ => True

/-- A magnitude with a sign. Negative numbers are counted downwards from `-1`, the place of their zero. -/
def signed : Sign → ℤ → ℤ
  | .positive, k => k
  | .negative, k => -1 - k

/-- The place in the total order: the bits below the sign as a number, with the sign. -/
def seat : UnpackedFloat → ℤ
  | .notANumber => 0
  | .infinity s => signed s (2047 * 2 ^ 52)
  | .zero s => signed s 0
  | .finite s m e _ => signed s ((e + 1074) * 2 ^ 52 + m)

theorem toNat_mantissa (b : BitVec 64) :
    (@UnpackedFloat.unpackMantissa .binary64 b).toNat = b.toNat % 2 ^ 52 := by
  show (b.extractLsb 51 0).toNat = _
  rw [BitVec.extractLsb_toNat, Nat.shiftRight_zero]

theorem toNat_exponent (b : BitVec 64) :
    (@UnpackedFloat.unpackExponent .binary64 b).toNat = b.toNat / 2 ^ 52 % 2 ^ 11 := by
  show (b.extractLsb 62 52).toNat = _
  rw [BitVec.extractLsb_toNat, Nat.shiftRight_eq_div_pow]

theorem toNat_sign (b : BitVec 64) :
    (@UnpackedFloat.unpackSign .binary64 b).toNat = b.toNat / 2 ^ 63 % 2 := by
  show (b.extractLsb 63 63).toNat = _
  rw [BitVec.extractLsb_toNat, Nat.shiftRight_eq_div_pow]

/-- The sign is the highest bit. -/
theorem sign_eq (b : BitVec 64) :
    Sign.ofBitVec (@UnpackedFloat.unpackSign .binary64 b)
      = if b.toNat < 2 ^ 63 then .positive else .negative := by
  have hsign := toNat_sign b
  have hb := b.isLt
  have hzero : @UnpackedFloat.unpackSign .binary64 b = 0#1 ↔ b.toNat < 2 ^ 63 := by
    rw [BitVec.toNat_eq, hsign, BitVec.toNat_ofNat]
    omega
  unfold Sign.ofBitVec
  simp only [hzero]

theorem toNat_leading (m : BitVec 52) : (1#1 ++ m).toNat = 2 ^ 52 + m.toNat := by
  rw [BitVec.toNat_append, ← Nat.shiftLeft_add_eq_or_of_lt m.isLt]
  rfl

/-- A stored number is in range, and its place is made of its sign and the other bits. -/
theorem seat_unpack (b : BitVec 64) (h : UnpackedFloat.unpack .binary64 b ≠ .notANumber) :
    Canonical (UnpackedFloat.unpack .binary64 b) ∧
      seat (UnpackedFloat.unpack .binary64 b)
        = signed (if b.toNat < 2 ^ 63 then .positive else .negative) (b.toNat % 2 ^ 63 : ℕ) := by
  have hbias : Format.binary64.exponentBias = 1023 := rfl
  have hb := b.isLt
  have hmantissa := toNat_mantissa b
  have hexponent := toNat_exponent b
  have hleading := toNat_leading (@UnpackedFloat.unpackMantissa .binary64 b)
  simp only [UnpackedFloat.unpack, sign_eq, hbias] at h ⊢
  by_cases htop : @UnpackedFloat.unpackExponent .binary64 b = -1#11
  · -- an infinity, since the number is defined
    rw [if_pos htop] at h ⊢
    have htop' := congrArg BitVec.toNat htop
    by_cases hzero : @UnpackedFloat.unpackMantissa .binary64 b = 0#52
    · have hzero' := congrArg BitVec.toNat hzero
      rw [if_pos hzero]
      refine ⟨trivial, congrArg (signed _) ?_⟩
      simp at htop' hzero'
      omega
    · exact absurd (if_neg hzero) h
  · rw [if_neg htop]
    have htop' : (@UnpackedFloat.unpackExponent .binary64 b).toNat ≠ 2047 :=
      fun heq => htop (BitVec.eq_of_toNat_eq heq)
    by_cases hlow : @UnpackedFloat.unpackExponent .binary64 b = 0#11
    · rw [if_pos hlow]
      have hlow' : (@UnpackedFloat.unpackExponent .binary64 b).toNat = 0 := congrArg BitVec.toNat hlow
      by_cases hzero : @UnpackedFloat.unpackMantissa .binary64 b = 0#52
      · have hzero' : (@UnpackedFloat.unpackMantissa .binary64 b).toNat = 0 := congrArg BitVec.toNat hzero
        rw [dif_pos hzero]
        refine ⟨trivial, congrArg (signed _) ?_⟩
        omega
      · rw [dif_neg hzero]
        refine ⟨?_, congrArg (signed _) ?_⟩
        · simp only [Canonical]
          omega
        · omega
    · have hlow' : (@UnpackedFloat.unpackExponent .binary64 b).toNat ≠ 0 :=
        fun heq => hlow (BitVec.eq_of_toNat_eq heq)
      rw [if_neg hlow]
      refine ⟨?_, congrArg (signed _) ?_⟩
      · simp only [Canonical]
        omega
      · omega

/-! ### The flipped bits -/

theorem xor_mask {r k : ℕ} (h : r < 2 ^ k) : r ^^^ (2 ^ k - 1) = 2 ^ k - 1 - r := by
  have hnot := BitVec.toNat_not (x := BitVec.ofNat k r)
  rwa [← BitVec.xor_allOnes, BitVec.toNat_xor, BitVec.toNat_allOnes, BitVec.toNat_ofNat,
    Nat.mod_eq_of_lt h] at hnot

/-- Flipping the bits below the highest one. -/
theorem toNat_flip {b : UInt64} (h : 2 ^ 63 ≤ b.toNat) :
    (b ^^^ 0x7fffffffffffffff).toNat = 2 ^ 64 + 2 ^ 63 - 1 - b.toNat := by
  have hb := b.toNat_lt
  have hlow : b.toNat % 2 ^ 63 < 2 ^ 63 := Nat.mod_lt _ (Nat.two_pow_pos 63)
  rw [UInt64.toNat_xor]
  have hmod : (b.toNat ^^^ (2 ^ 63 - 1)) % 2 ^ 63 = 2 ^ 63 - 1 - b.toNat % 2 ^ 63 := by
    rw [Nat.xor_mod_two_pow, ← xor_mask hlow]
    rfl
  have hdiv : (b.toNat ^^^ (2 ^ 63 - 1)) / 2 ^ 63 = 1 := by
    have hone : b.toNat / 2 ^ 63 = 1 := by omega
    rw [Nat.xor_div_two_pow, hone]
    rfl
  show b.toNat ^^^ (2 ^ 63 - 1) = _
  omega

theorem toInt_toInt64 (b : UInt64) :
    b.toInt64.toInt = if b.toNat < 2 ^ 63 then (b.toNat : ℤ) else b.toNat - 2 ^ 64 := by
  show b.toBitVec.toInt = _
  rw [BitVec.toInt_eq_toNat_cond]
  show (if 2 * b.toNat < 2 ^ 64 then (b.toNat : ℤ) else b.toNat - (2 ^ 64 : ℕ)) = _
  have := b.toNat_lt
  split <;> split <;> omega

/-- **The flipped bits of a number are its place in the total order.** -/
theorem toInt_rank {a : Float} (h : a.toModel.unpack ≠ .notANumber) :
    (number a).rank.toInt = seat a.toModel.unpack := by
  have hseat : seat a.toModel.unpack = _ := (seat_unpack a.toModel.toBits.toBitVec h).2
  rw [hseat]
  show (if a.toModel.toBits >>> 63 = 0 then a.toModel.toBits.toInt64
    else (a.toModel.toBits ^^^ 0x7fffffffffffffff).toInt64).toInt
      = signed (if a.toModel.toBits.toNat < 2 ^ 63 then _ else _) (a.toModel.toBits.toNat % 2 ^ 63 : ℕ)
  generalize a.toModel.toBits = b
  have hb := b.toNat_lt
  have hsign : b >>> 63 = 0 ↔ b.toNat < 2 ^ 63 := by
    rw [← UInt64.toNat_inj, UInt64.toNat_shiftRight, Nat.shiftRight_eq_div_pow]
    show b.toNat / 2 ^ 63 = 0 ↔ _
    omega
  by_cases hpos : b.toNat < 2 ^ 63
  · rw [if_pos (hsign.mpr hpos), if_pos hpos, toInt_toInt64, if_pos hpos]
    show (b.toNat : ℤ) = (b.toNat % 2 ^ 63 : ℕ)
    omega
  · rw [if_neg (mt hsign.mp hpos), if_neg hpos, toInt_toInt64, toNat_flip (by omega), if_neg (by omega)]
    show _ = -1 - ((b.toNat % 2 ^ 63 : ℕ) : ℤ)
    omega

/-! ### Places of numbers -/

theorem seat_lt {u v : UnpackedFloat} (hu : Canonical u) (hv : Canonical v) {p q : ℤ ×ₗ ℤ ×ₗ ℤ}
    (hp : p ∈ place? u) (hq : q ∈ place? v) (h : p < q) : seat u < seat v := by
  rcases u with (_ | _) | _ | (_ | _) | ⟨_ | _, m, e, hm⟩ <;>
    rcases v with (_ | _) | _ | (_ | _) | ⟨_ | _, n, f, hn⟩ <;>
    simp only [place?, Option.mem_def, Option.some.injEq, reduceCtorEq] at hp hq <;>
    subst hp hq <;>
    simp [Prod.Lex.toLex_lt_toLex, Canonical] at h hu hv <;>
    simp only [seat, signed] <;> omega

/-- A defined number is in range and has a place in the total order. -/
theorem exists_seat {x : Double} (h : x ≤ x) :
    Canonical x.unpacked ∧ x.rank.toInt = seat x.unpacked := by
  obtain ⟨p, hp, -⟩ := le_iff.mp h
  match x, hp with
  | number a, hp =>
    have hnan : a.toModel.unpack ≠ .notANumber := by
      intro hnan
      have hp : p ∈ place? a.toModel.unpack := hp
      rw [hnan] at hp
      exact absurd hp (Option.not_mem_none p)
    exact ⟨(seat_unpack _ hnan).1, toInt_rank hnan⟩

/-- **The total order of double-precision numbers agrees with comparisons.** -/
instance sortable : Scalar.Sortable Double where
  transCmp := inferInstanceAs (Std.TransCmp (compareOn rank))
  le_of_totalOrder := by
    intro x y hx hy h
    have hrank : x.rank ≤ y.rank := Std.isLE_compare.mp h
    by_contra hnot
    obtain ⟨q, hq, p, hp, hlt⟩ := lt_iff.mp (Scalar.Ordered.lt_of_not_le hy hx hnot)
    rw [standing?_eq] at hp hq
    have hseat := seat_lt (exists_seat hy).1 (exists_seat hx).1 hq hp hlt
    rw [← (exists_seat hx).2, ← (exists_seat hy).2] at hseat
    rw [Int64.le_iff_toInt_le] at hrank
    omega

end Double

end HomeEnergy

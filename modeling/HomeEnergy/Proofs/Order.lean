import HomeEnergy.Scalar.Double
import Mathlib.Algebra.Order.Ring.Int
import Mathlib.Data.Int.Cast.Lemmas
import Mathlib.Data.Nat.Cast.Order.Ring
import Mathlib.Data.Prod.Lex
import Mathlib.Order.Compare

/-!
# How numbers compare

Undefined numbers, two zeros and two infinities make comparisons of double-precision numbers unlike those of a
linear order. This module says which laws are left.

* `Scalar.Ordered` — the laws that a choice of the least number needs.
* `Double.standing?` — the place of a number in a linear order, where both zeros have one place and an
  undefined number has none; `Double.lt_iff`, `Double.le_iff`, `Double.beq_iff` — **comparisons are those of
  places**.
* `Double.ordered` — **the laws hold of double-precision numbers.**
* `Double.le_congr`, `Double.centered_congr` — numbers that compare equal are read alike, as switches and as
  setpoints.
-/

namespace HomeEnergy

/-- What a choice of the least number needs. A number that is not even at most itself is undefined. -/
class Scalar.Ordered (α : Type) [Scalar α] : Prop where
  le_trans : ∀ {x y z : α}, x ≤ y → y ≤ z → x ≤ z
  le_total : ∀ {x y : α}, x ≤ x → y ≤ y → x ≤ y ∨ y ≤ x
  lt_iff_le_not_ge : ∀ {x y : α}, x < y ↔ x ≤ y ∧ ¬ y ≤ x
  sub_not_pos : ∀ {x y : α}, x ≤ y → y ≤ x → ¬ 0 < x - y
  le_refl_add : ∀ {x y : α}, Scalar.isNaN (x + y) = false → x + y ≤ x + y
  totalOrder_self : ∀ x : α, Scalar.totalOrder x x = .eq

namespace Scalar.Ordered

variable {α : Type} [Scalar α] [Scalar.Ordered α] {x y z : α}

theorem lt_irrefl (x : α) : ¬ x < x :=
  fun h => (lt_iff_le_not_ge.mp h).2 (lt_iff_le_not_ge.mp h).1

theorem le_of_lt (h : x < y) : x ≤ y :=
  (lt_iff_le_not_ge.mp h).1

theorem not_le_of_lt (h : x < y) : ¬ y ≤ x :=
  (lt_iff_le_not_ge.mp h).2

theorem lt_of_not_le (hx : x ≤ x) (hy : y ≤ y) (h : ¬ y ≤ x) : x < y :=
  lt_iff_le_not_ge.mpr ⟨(le_total hx hy).resolve_right h, h⟩

theorem le_of_not_lt (hx : x ≤ x) (hy : y ≤ y) (h : ¬ y < x) : x ≤ y := by
  by_contra hnot
  exact h (lt_of_not_le hy hx hnot)

end Scalar.Ordered

namespace Double

open Float.Model (UnpackedFloat)
open Float.Model.UnpackedFloat (Sign)

/-! ### Places of numbers -/

/-- The place of a number: its kind, its exponent and its mantissa, all growing with the number. -/
def place? : UnpackedFloat → Option (ℤ ×ₗ ℤ ×ₗ ℤ)
  | .notANumber => none
  | .infinity .negative => some (toLex (-2, toLex (0, 0)))
  | .finite .negative m e _ => some (toLex (-1, toLex (-e, -m)))
  | .zero _ => some (toLex (0, toLex (0, 0)))
  | .finite .positive m e _ => some (toLex (1, toLex (e, m)))
  | .infinity .positive => some (toLex (2, toLex (0, 0)))

theorem compare_toLex {β : Type} [LinearOrder β] (a b : ℤ) (c d : β) :
    compare (toLex (a, c)) (toLex (b, d)) = (compare a b).then (compare c d) := by
  rw [Prod.Lex.compare_def]
  rfl

theorem compare_cast (m n : ℕ) : compare (m : ℤ) (n : ℤ) = compare m n := by
  rw [← cmp_eq_compare, ← cmp_eq_compare]
  exact Nat.strictMono_cast.cmp_map_eq m n

theorem compare_neg (a b : ℤ) : compare (-a) (-b) = compare b a := by
  rw [← cmp_eq_compare, ← cmp_eq_compare]
  simp [cmp, cmpUsing]

/-- Numbers compare as their places do. -/
theorem compare_eq (u v : UnpackedFloat) :
    u.compare v = (place? u).bind fun p => (place? v).map fun q => compare p q := by
  rcases u with (_ | _) | _ | _ | ⟨_ | _, m, e, hm⟩ <;>
    rcases v with (_ | _) | _ | _ | ⟨_ | _, n, f, hn⟩ <;>
    try rfl
  · show some ((compare e f).then (compare m n)).swap
      = some (compare (toLex (-1, toLex (-e, -(m : ℤ)))) (toLex (-1, toLex (-f, -(n : ℤ)))))
    rw [compare_toLex, compare_toLex, compare_neg e f, compare_neg m n, compare_cast,
      Ordering.swap_then, ← Std.OrientedCmp.eq_swap, ← Std.OrientedCmp.eq_swap]
    rfl
  · show some ((compare e f).then (compare m n))
      = some (compare (toLex (1, toLex (e, (m : ℤ)))) (toLex (1, toLex (f, (n : ℤ)))))
    rw [compare_toLex, compare_toLex, compare_cast]
    rfl

/-- Numbers at one place are the same number, but for the sign of a zero. -/
theorem eq_of_place? {u v : UnpackedFloat} (h : place? u = place? v) :
    u = v ∨ ∃ s t, u = .zero s ∧ v = .zero t := by
  rcases u with (_ | _) | _ | s | ⟨_ | _, m, e, hm⟩ <;>
    rcases v with (_ | _) | _ | t | ⟨_ | _, n, f, hn⟩ <;>
    dsimp only [place?] at h <;>
    simp at h
  · exact Or.inl rfl
  · exact Or.inl rfl
  · exact Or.inl rfl
  · exact Or.inr ⟨s, t, rfl, rfl⟩
  · obtain ⟨rfl, rfl⟩ := h
    exact Or.inl rfl
  · obtain ⟨rfl, rfl⟩ := h
    exact Or.inl rfl

def standing? : Double → Option (ℤ ×ₗ ℤ ×ₗ ℤ)
  | number x => place? x.toModel.unpack
  | undefined _ => none

def unpacked : Double → UnpackedFloat
  | number a => a.toModel.unpack
  | undefined _ => .notANumber

theorem standing?_eq (x : Double) : standing? x = place? x.unpacked := by
  cases x <;> rfl

/-- The result of an operation is undefined exactly where the operation has none. -/
theorem unpacked_ofFloat (a : Float) : (ofFloat a).unpacked = a.toModel.unpack := by
  have hnan : a.isNaN = a.toModel.unpack.isNaN := rfl
  unfold ofFloat
  split
  · rename_i h
    rw [hnan] at h
    cases ha : a.toModel.unpack with
    | notANumber => rfl
    | _ => rw [ha] at h; exact absurd h Bool.false_ne_true
  · rfl

theorem standing?_ofFloat (a : Float) : standing? (ofFloat a) = place? a.toModel.unpack := by
  rw [standing?_eq, unpacked_ofFloat]

/-! ### Comparisons of places -/

/-- A test that goes by the comparison of two numbers goes by their places. -/
theorem test_iff {f : Float → Float → Bool} {r : Ordering → Bool}
    (hf : ∀ a b : Float, f a b = (a.toModel.unpack.compare b.toModel.unpack).any r) (x y : Double) :
    test f x y = true ↔ ∃ p ∈ standing? x, ∃ q ∈ standing? y, r (compare p q) = true := by
  cases x with
  | undefined _ => simp [test, standing?]
  | number a =>
    cases y with
    | undefined _ => simp [test, standing?]
    | number b =>
      simp only [test, standing?, hf, compare_eq]
      cases place? a.toModel.unpack with
      | none => simp
      | some p => cases place? b.toModel.unpack <;> simp

theorem any_beq (o? : Option Ordering) (o : Ordering) : o?.any (fun o' => o' == o) = (o? == some o) := by
  cases o? <;> rfl

theorem lt_iff {x y : Double} : x < y ↔ ∃ p ∈ standing? x, ∃ q ∈ standing? y, p < q := by
  have h := test_iff (f := fun a b => decide (a < b)) (r := fun o => o == .lt) (fun a b => by
    rw [any_beq, Bool.eq_iff_iff, decide_eq_true_eq]
    show decide _ = true ↔ _
    rw [decide_eq_true_eq]
    rfl) x y
  simp only [beq_iff_eq, compare_lt_iff_lt] at h
  exact h

theorem le_iff {x y : Double} : x ≤ y ↔ ∃ p ∈ standing? x, ∃ q ∈ standing? y, p ≤ q := by
  have h := test_iff (f := fun a b => decide (a ≤ b)) (r := Ordering.isLE) (fun a b => by
    rw [Bool.eq_iff_iff, decide_eq_true_eq]
    show decide _ = true ↔ _
    rw [decide_eq_true_eq]
    rfl) x y
  simp only [← Ordering.ne_gt_iff_isLE, compare_le_iff_le] at h
  exact h

theorem beq_iff {x y : Double} : (x == y) = true ↔ ∃ p ∈ standing? x, ∃ q ∈ standing? y, p = q := by
  have h := test_iff (f := fun a b => a == b) (r := fun o => o == .eq) (fun a b => by
    rw [any_beq]
    rfl) x y
  simp only [beq_iff_eq, compare_eq_iff_eq] at h
  exact h

/-! ### The laws -/

abbrev origin : ℤ ×ₗ ℤ ×ₗ ℤ := toLex (0, toLex (0, 0))

/-- A number minus itself is zero, if it is anything: infinities have no difference. -/
theorem sub_self (format : Float.Model.Format) (u : UnpackedFloat) :
    UnpackedFloat.sub format u u = .notANumber ∨ ∃ s, UnpackedFloat.sub format u u = .zero s := by
  rcases u with (_ | _) | _ | (_ | _) | ⟨_ | _, m, e, hm⟩
  · exact Or.inl rfl
  · exact Or.inl rfl
  · exact Or.inl rfl
  · exact Or.inr ⟨_, rfl⟩
  · exact Or.inr ⟨_, rfl⟩
  · refine Or.inr ⟨.positive, ?_⟩
    show UnpackedFloat.normalize format (Sign.apply .negative _ - Sign.apply .negative _) _ _ = _
    rw [Int.sub_self]
    rfl
  · refine Or.inr ⟨.positive, ?_⟩
    show UnpackedFloat.normalize format (Sign.apply .positive _ - Sign.apply .positive _) _ _ = _
    rw [Int.sub_self]
    rfl

/-- A zero stays one when it is stored. -/
theorem place?_pack {u : UnpackedFloat} (h : u = .notANumber ∨ ∃ s, u = .zero s) :
    ∀ p ∈ place? (Float.Model.pack u).unpack, p = origin := by
  intro p hp
  rcases h with rfl | ⟨_ | _, rfl⟩
  · have hnan : (Float.Model.pack .notANumber).unpack = .notANumber := rfl
    rw [hnan] at hp
    exact absurd hp (Option.not_mem_none p)
  · exact (Option.some.inj hp).symm
  · exact (Option.some.inj hp).symm

theorem sub_not_pos {x y : Double} (h : x ≤ y) (h' : y ≤ x) : ¬ 0 < x - y := by
  obtain ⟨p, hp, q, hq, hpq⟩ := le_iff.mp h
  obtain ⟨q', hq', p', hp', hqp⟩ := le_iff.mp h'
  obtain rfl : q = q' := Option.some.inj (hq.symm.trans hq')
  obtain rfl : p = p' := Option.some.inj (hp.symm.trans hp')
  obtain rfl : p = q := le_antisymm hpq hqp
  match x, y, hp, hq with
  | number a, number b, hp, hq =>
    intro hpos
    obtain ⟨o, ho, r, hr, hlt⟩ := lt_iff.mp hpos
    have hdiff : r = origin := by
      change r ∈ standing? (ofFloat (a - b)) at hr
      rw [standing?_ofFloat] at hr
      refine place?_pack ?_ r hr
      rcases eq_of_place? (hp.trans hq.symm) with heq | ⟨s, t, hs, ht⟩
      · rw [heq]
        exact sub_self _ _
      · rw [hs, ht]
        cases s <;> cases t <;> exact Or.inr ⟨_, rfl⟩
    obtain rfl : origin = o := Option.some.inj ho
    exact absurd hlt (hdiff ▸ lt_irrefl _)

theorem le_refl_add {x y : Double} (h : Scalar.isNaN (x + y) = false) : x + y ≤ x + y := by
  have hresult : ∀ z : Float, Scalar.isNaN (ofFloat z) = false → ofFloat z ≤ ofFloat z := by
    intro z hz
    have hnan : z.isNaN = z.toModel.unpack.isNaN := rfl
    rw [le_iff, standing?_ofFloat]
    rcases hx : z.toModel.unpack with (_ | _) | _ | _ | ⟨_ | _, m, e, hm⟩
    case notANumber =>
      rw [hx] at hnan
      have hundefined : ofFloat z = undefined true := if_pos hnan
      rw [hundefined] at hz
      exact absurd hz (by decide)
    all_goals exact ⟨_, rfl, _, rfl, le_rfl⟩
  match x, y, h with
  | number a, number b, h => exact hresult _ h

/-- **Double-precision numbers obey the laws of a choice of the least.** -/
instance ordered : Scalar.Ordered Double where
  le_trans h h' := by
    obtain ⟨p, hp, q, hq, hpq⟩ := le_iff.mp h
    obtain ⟨q', hq', r, hr, hqr⟩ := le_iff.mp h'
    obtain rfl : q = q' := Option.some.inj (hq.symm.trans hq')
    exact le_iff.mpr ⟨p, hp, r, hr, hpq.trans hqr⟩
  le_total h h' := by
    obtain ⟨p, hp, -⟩ := le_iff.mp h
    obtain ⟨q, hq, -⟩ := le_iff.mp h'
    rcases le_total p q with hpq | hqp
    · exact Or.inl (le_iff.mpr ⟨p, hp, q, hq, hpq⟩)
    · exact Or.inr (le_iff.mpr ⟨q, hq, p, hp, hqp⟩)
  lt_iff_le_not_ge := by
    intro x y
    rw [lt_iff, le_iff, le_iff]
    constructor
    · rintro ⟨p, hp, q, hq, hpq⟩
      refine ⟨⟨p, hp, q, hq, hpq.le⟩, ?_⟩
      rintro ⟨q', hq', p', hp', hqp⟩
      obtain rfl : q = q' := Option.some.inj (hq.symm.trans hq')
      obtain rfl : p = p' := Option.some.inj (hp.symm.trans hp')
      exact absurd hpq hqp.not_gt
    · rintro ⟨⟨p, hp, q, hq, hpq⟩, hnot⟩
      exact ⟨p, hp, q, hq, lt_of_not_ge fun hqp => hnot ⟨q, hq, p, hp, hqp⟩⟩
  sub_not_pos := sub_not_pos
  le_refl_add := le_refl_add
  totalOrder_self x := by
    show compare x.rank x.rank = .eq
    simp

/-! ### Numbers that compare equal -/

/-- Numbers that compare equal are the same number or two zeros. -/
theorem eq_of_beq {x y : Double} (h : (x == y) = true) :
    ∃ a b, x = number a ∧ y = number b ∧ (a.toModel.unpack = b.toModel.unpack ∨
      ∃ s t, a.toModel.unpack = .zero s ∧ b.toModel.unpack = .zero t) := by
  obtain ⟨p, hp, q, hq, rfl⟩ := beq_iff.mp h
  match x, y, hp, hq with
  | number a, number b, hp, hq => exact ⟨a, b, rfl, rfl, eq_of_place? (hp.trans hq.symm)⟩

theorem le_congr {x y y' : Double} (h : (y == y') = true) : x ≤ y ↔ x ≤ y' := by
  obtain ⟨p, hp, q, hq, rfl⟩ := beq_iff.mp h
  simp only [le_iff]
  rw [Option.mem_def.mp hp, Option.mem_def.mp hq]

/-- A zero is not moved, whatever its sign. -/
theorem clamp_zero {a : Float} {s : Sign} (h : a.toModel.unpack = .zero s) :
    Scalar.clamp 0 1 (number a) = number a := by
  have hstanding : standing? (number a) = standing? 0 := by
    rw [standing?, h]
    rfl
  have hlow : ¬ number a < 0 := by
    rw [lt_iff, hstanding, ← lt_iff]
    decide
  have hhigh : ¬ 1 < number a := by
    rw [lt_iff, hstanding, ← lt_iff]
    decide
  simp only [Scalar.clamp, if_neg hlow, if_neg hhigh]

theorem centered_zero {a : Float} {s : Sign} (h : a.toModel.unpack = .zero s) :
    2 * Scalar.clamp 0 1 (number a) - 1 = (-1 : Double) := by
  rw [clamp_zero h]
  show ofFloat (.ofModel (.pack (UnpackedFloat.mul _ _ a.toModel.unpack))) - 1 = _
  rw [h]
  cases s <;> rfl

/-- Numbers that compare equal stand for the same setpoint between minus one and one. -/
theorem centered_congr {x y : Double} (h : (x == y) = true) :
    2 * Scalar.clamp 0 1 x - 1 = (2 * Scalar.clamp 0 1 y - 1 : Double) := by
  obtain ⟨a, b, rfl, rfl, heq | ⟨s, t, hs, ht⟩⟩ := eq_of_beq h
  · have hlow : number a < 0 ↔ number b < 0 := by simp only [lt_iff, standing?, heq]
    have hhigh : 1 < number a ↔ 1 < number b := by simp only [lt_iff, standing?, heq]
    have htwice : (2 * number a : Double) = 2 * number b := by
      show ofFloat (.ofModel (.pack (UnpackedFloat.mul _ _ a.toModel.unpack)))
        = ofFloat (.ofModel (.pack (UnpackedFloat.mul _ _ b.toModel.unpack)))
      rw [heq]
    simp only [Scalar.clamp, hlow]
    by_cases hb : number b < 0
    · simp only [if_pos hb]
    · simp only [if_neg hb, hhigh]
      by_cases hb' : 1 < number b
      · simp only [if_pos hb']
      · simp only [if_neg hb', htwice]
  · rw [centered_zero hs, centered_zero ht]

end Double

end HomeEnergy

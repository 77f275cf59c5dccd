import HomeEnergy.Scalar
import HomeEnergy.Scalar.Rational
import Mathlib.Analysis.SpecialFunctions.Trigonometric.Inverse
import Mathlib.Analysis.SpecialFunctions.Log.Basic

/-!
# Sums without rounding

The order in which numbers are added up matters to rounded arithmetic, and an exchange adds up in an order of its
own. A statement about what the sum is supposed to be is a statement about exact numbers.

* `Scalar.Exact` — the laws of addition.
* `Scalar.sum_eq` — a sum of exact numbers is the sum of a list in a commutative monoid.
* `Scalar.sum_filter`, `Scalar.sum_filterMap` — sums over a part of a list.
* The rational and the real numbers are exact. The real numbers have the functions that daily profiles and
  noise are made of, too.
-/

namespace HomeEnergy

namespace Scalar

/-- The laws of addition that rounded arithmetic breaks. -/
class Exact (α : Type) [Scalar α] : Prop where
  add_assoc : ∀ x y z : α, x + y + z = x + (y + z)
  add_comm : ∀ x y : α, x + y = y + x
  zero_add : ∀ x : α, 0 + x = x
  neg_zero : -(0 : α) = 0

section Sums

variable {α : Type} [Scalar α] [Exact α] {β γ : Type}

theorem add_zero (x : α) : x + 0 = x := by
  rw [Exact.add_comm, Exact.zero_add]

/-- Exact numbers are a commutative monoid. This is no instance: the rational and the real numbers have their own, and
`0` is to stay the number that `Scalar` says it is. -/
@[reducible] def addCommMonoid (α : Type) [Scalar α] [Exact α] : AddCommMonoid α where
  zero := (0 : α)
  add_assoc := Exact.add_assoc
  add_comm := Exact.add_comm
  zero_add := Exact.zero_add
  add_zero := add_zero
  nsmul := nsmulRec

/-- **A series of exact numbers adds up to the sum of its list in this monoid.** -/
theorem sum_eq (xs : List α) :
    sum xs = @List.sum α (addCommMonoid α).toAdd (addCommMonoid α).toZero xs := by
  let := addCommMonoid α
  rw [sum, Exact.neg_zero]
  exact List.sum_eq_foldl.symm

@[simp] theorem sum_nil : sum ([] : List α) = 0 :=
  Exact.neg_zero

@[simp] theorem sum_cons (x : α) (xs : List α) : sum (x :: xs) = x + sum xs := by
  let := addCommMonoid α
  rw [sum_eq, sum_eq, List.sum_cons]

/-- A running sum starts from whatever it has. -/
theorem foldl_add (xs : List α) (x : α) : xs.foldl (fun acc x => acc + x) x = x + sum xs := by
  rw [← sum_cons, sum, List.foldl_cons, Exact.neg_zero, Exact.zero_add]

theorem sum_perm {xs ys : List α} (h : xs.Perm ys) : sum xs = sum ys := by
  let := addCommMonoid α
  rw [sum_eq, sum_eq, h.sum_eq]

theorem sum_map_zero {f : β → α} {l : List β} (h : ∀ x ∈ l, f x = 0) : sum (l.map f) = 0 := by
  let := addCommMonoid α
  rw [sum_eq]
  exact List.sum_eq_zero (List.forall_mem_map.mpr h)

theorem sum_map_add (f g : β → α) (l : List β) :
    sum (l.map fun x => f x + g x) = sum (l.map f) + sum (l.map g) := by
  let := addCommMonoid α
  simp only [sum_eq, List.sum_map_add]

theorem sum_flatMap (f : β → List α) (l : List β) :
    sum (l.flatMap f) = sum (l.map fun x => sum (f x)) := by
  let := addCommMonoid α
  simp only [sum_eq, List.flatMap_def, List.sum_flatten, List.map_map, Function.comp_def]

/-- What is left out counts as zero. -/
theorem sum_filterMap (g : β → Option γ) (f : γ → α) (l : List β) :
    sum ((l.filterMap g).map f) = sum (l.map fun x => (g x).elim 0 f) := by
  induction l with
  | nil => rfl
  | cons x l ih =>
    cases h : g x with
    | none => simp [h, ih, Exact.zero_add]
    | some y => simp [h, ih]

theorem sum_filter (p : β → Bool) (f : β → α) (l : List β) :
    sum ((l.filter p).map f) = sum (l.map fun x => if p x then f x else 0) := by
  rw [← List.filterMap_eq_filter, sum_filterMap]
  refine congrArg sum (List.map_congr_left fun x _ => ?_)
  cases hp : p x <;> simp [Option.guard, hp]

end Sums

end Scalar

/-! ### Exact numbers -/

instance : Scalar.Exact Rat where
  add_assoc := Rat.add_assoc
  add_comm := Rat.add_comm
  zero_add x := Rat.zero_add x
  neg_zero := Rat.neg_zero

open Classical in
/-- The real numbers. As among the rational numbers, nothing is infinite or undefined. -/
noncomputable instance : Transcendental ℝ where
  beq x y := decide (x = y)
  ofNat n := (n : ℝ)
  toNat x := ⌊x⌋₊
  floor x := (⌊x⌋ : ℝ)
  isNaN _ := false
  isFinite _ := true
  totalOrder x y := if x < y then .lt else if x = y then .eq else .gt
  infinity := 0
  decLt := inferInstance
  decLe := inferInstance
  pi := Real.pi
  sqrt := Real.sqrt
  ln := Real.log
  sin := Real.sin
  cos := Real.cos
  tan := Real.tan
  acos := Real.arccos

instance : Scalar.Exact ℝ where
  add_assoc := add_assoc
  add_comm := add_comm
  zero_add x := (congrArg (· + x) Nat.cast_zero).trans (zero_add x)
  neg_zero := (congrArg (- ·) Nat.cast_zero).trans (neg_zero.trans Nat.cast_zero.symm)

theorem Scalar.real_zero : (@OfNat.ofNat ℝ 0 (Scalar.instOfNat 0)) = (0 : ℝ) :=
  Nat.cast_zero

end HomeEnergy

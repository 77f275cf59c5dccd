import HomeEnergy.Proofs.Rational

/-!
# Exact numbers with infinities

Power limits may be infinite, and so may what lies outside of them. The numbers of this module are the rational ones,
two infinities and the undefined number, with the rules of floating-point arithmetic and without its rounding: there is
one zero, and a difference of infinities or a product of an infinity with zero is undefined.

* `Extended` — the numbers; they are a number type of the models, and addition is exact.
* `Extended.finite_mul_add`, `Extended.finite_mul_finite_mul` — a finite factor distributes over sums, whatever is
  added up, and finite factors can be put together.
* `Extended.finite_mul_sum` — sums.
* `Extended.le_iff`, `Extended.max_eq` — the order.
-/

namespace HomeEnergy

/-- A rational number, an infinity with its sign, or the undefined number. -/
inductive Extended where
  | finite (x : ℚ)
  | infinite (negative : Bool)
  | undefined
deriving DecidableEq

namespace Extended

def neg : Extended → Extended
  | finite x => finite (-x)
  | infinite s => infinite !s
  | undefined => undefined

/-- A finite number does not change an infinity, and opposite infinities have no sum. -/
def add : Extended → Extended → Extended
  | finite x, finite y => finite (x + y)
  | finite _, infinite s => infinite s
  | infinite s, finite _ => infinite s
  | infinite s, infinite t => if s = t then infinite s else undefined
  | _, _ => undefined

/-- A product has the sign of its factors, and an infinity has no product with zero. -/
def mul : Extended → Extended → Extended
  | finite x, finite y => finite (x * y)
  | finite x, infinite s => if x = 0 then undefined else infinite (decide (x < 0) ^^ s)
  | infinite s, finite x => if x = 0 then undefined else infinite (decide (x < 0) ^^ s)
  | infinite s, infinite t => infinite (s ^^ t)
  | _, _ => undefined

/-- The inverse. That of zero is the positive infinity. -/
def inv : Extended → Extended
  | finite x => if x = 0 then infinite false else finite x⁻¹
  | infinite _ => finite 0
  | undefined => undefined

/-- The strict order. The undefined number is not comparable. -/
def below : Extended → Extended → Bool
  | finite x, finite y => decide (x < y)
  | finite _, infinite s => !s
  | infinite s, finite _ => s
  | infinite s, infinite t => s && !t
  | _, _ => false

/-- Equality of numbers. The undefined number equals nothing. -/
def equals : Extended → Extended → Bool
  | undefined, _ => false
  | x, y => decide (x = y)

/-- The number types of the models include the extended numbers. -/
instance : Scalar Extended where
  add := add
  sub x y := add x (neg y)
  mul := mul
  div x y := mul x (inv y)
  neg := neg
  ofScientific m s e := finite (OfScientific.ofScientific m s e)
  lt x y := below x y = true
  le x y := below x y = true ∨ equals x y = true
  beq := equals
  ofNat n := finite n
  toNat
    | finite x => x.floor.toNat
    | _ => 0
  floor
    | finite x => finite x.floor
    | x => x
  isNaN x := decide (x = undefined)
  isFinite
    | finite _ => true
    | _ => false
  totalOrder x y := if below x y then .lt else if below y x then .gt else .eq
  infinity := infinite false
  decLt _ _ := inferInstanceAs (Decidable (_ = true))
  decLe _ _ := inferInstanceAs (Decidable (_ ∨ _))

variable {k l : ℚ} {s t : Bool}

/-! ### Finite numbers -/

@[simp] theorem zero_eq : (0 : Extended) = finite 0 :=
  congrArg finite Nat.cast_zero

@[simp] theorem finite_sub (k l : ℚ) : finite k - finite l = finite (k - l) :=
  congrArg finite (sub_eq_add_neg k l).symm

@[simp] theorem finite_sub_infinite : finite k - infinite s = infinite !s := rfl
@[simp] theorem infinite_sub_finite : infinite s - finite k = infinite s := rfl

theorem finite_div (k : ℚ) (hl : l ≠ 0) : finite k / finite l = finite (k / l) := by
  show mul (finite k) (if l = 0 then infinite false else finite l⁻¹) = _
  rw [if_neg hl, div_eq_mul_inv]
  rfl

/-! ### The order -/

@[simp] theorem finite_lt_finite : finite k < finite l ↔ k < l := decide_eq_true_iff
@[simp] theorem finite_lt_infinite : finite k < infinite s ↔ s = false := by
  show (!s) = true ↔ s = false
  simp
@[simp] theorem infinite_lt_finite : infinite s < finite k ↔ s = true := Iff.rfl
@[simp] theorem infinite_lt_infinite : infinite s < infinite t ↔ s = true ∧ t = false := by
  cases s <;> cases t <;> decide
@[simp] theorem not_undefined_lt (x : Extended) : ¬ undefined < x := by cases x <;> exact Bool.false_ne_true
@[simp] theorem not_lt_undefined (x : Extended) : ¬ x < undefined := by cases x <;> exact Bool.false_ne_true

theorem le_iff {x y : Extended} : x ≤ y ↔ x < y ∨ x ≠ undefined ∧ x = y := by
  show below x y = true ∨ equals x y = true ↔ below x y = true ∨ _
  cases x <;> simp [equals]

theorem max_eq {x y : Extended} (hy : y ≠ undefined) : Scalar.max x y = if y < x then x else y := by
  show (if decide (y = undefined) then x else if y < x then x else y) = _
  simp [hy]

@[simp] theorem max_finite : Scalar.max (finite k) (finite l) = finite (max k l) := by
  rw [max_eq (by simp)]
  by_cases h : l < k
  · simp [h, max_eq_left h.le]
  · simp [h, max_eq_right (not_lt.mp h)]

/-! ### Sums and products by the kinds of their operands -/

@[simp] theorem finite_add_finite : finite k + finite l = finite (k + l) := rfl
@[simp] theorem finite_add_infinite : finite k + infinite s = infinite s := rfl
@[simp] theorem infinite_add_finite : infinite s + finite k = infinite s := rfl
@[simp] theorem infinite_add_infinite : infinite s + infinite t = if s = t then infinite s else undefined := rfl
@[simp] theorem undefined_add (x : Extended) : undefined + x = undefined := by cases x <;> rfl
@[simp] theorem add_undefined (x : Extended) : x + undefined = undefined := by cases x <;> rfl

@[simp] theorem finite_mul_finite : finite k * finite l = finite (k * l) := rfl
@[simp] theorem finite_mul_infinite :
    finite k * infinite s = if k = 0 then undefined else infinite (decide (k < 0) ^^ s) := rfl
@[simp] theorem infinite_mul_finite :
    infinite s * finite k = if k = 0 then undefined else infinite (decide (k < 0) ^^ s) := rfl
@[simp] theorem infinite_mul_infinite : infinite s * infinite t = infinite (s ^^ t) := rfl
@[simp] theorem undefined_mul (x : Extended) : undefined * x = undefined := by cases x <;> rfl
@[simp] theorem mul_undefined (x : Extended) : x * undefined = undefined := by cases x <;> rfl

/-! ### Laws -/

theorem add_comm (x y : Extended) : x + y = y + x := by
  cases x <;> cases y
  case finite.finite k l => simp [Rat.add_comm]
  case infinite.infinite s t => by_cases hst : s = t <;> simp [hst, eq_comm]
  all_goals simp

/-- Infinities of both signs make a sum undefined, in whatever order it is computed. -/
theorem add_assoc (x y z : Extended) : x + y + z = x + (y + z) := by
  cases x <;> cases y <;> cases z
  case finite.finite.finite => simp [Rat.add_assoc]
  case infinite.infinite.infinite s t u => cases s <;> cases t <;> cases u <;> simp
  case infinite.infinite.finite s t k => by_cases hst : s = t <;> simp [hst]
  case finite.infinite.infinite k s t => by_cases hst : s = t <;> simp [hst]
  all_goals simp

instance : Scalar.Exact Extended where
  add_assoc := add_assoc
  add_comm := add_comm
  zero_add x := by cases x <;> simp
  neg_zero := by
    show neg (0 : Extended) = 0
    simp [neg]

theorem mul_comm (x y : Extended) : x * y = y * x := by
  cases x <;> cases y
  case finite.finite k l => simp [Rat.mul_comm]
  case infinite.infinite s t => simp [Bool.xor_comm]
  all_goals simp

/-- A finite factor distributes over sums, also where they are infinite or undefined. -/
theorem finite_mul_add (k : ℚ) (x y : Extended) : finite k * (x + y) = finite k * x + finite k * y := by
  cases x <;> cases y
  case finite.finite => simp [mul_add]
  case infinite.infinite s t => by_cases hst : s = t <;> by_cases hk : k = 0 <;> simp [hst, hk]
  case finite.infinite => by_cases hk : k = 0 <;> simp [hk]
  case infinite.finite => by_cases hk : k = 0 <;> simp [hk]
  all_goals simp

theorem sign_mul (hk : k ≠ 0) (hl : l ≠ 0) : decide (k * l < 0) = (decide (k < 0) ^^ decide (l < 0)) := by
  rcases hk.lt_or_gt with hk | hk <;> rcases hl.lt_or_gt with hl | hl
  · simp [hk, hl, (mul_pos_of_neg_of_neg hk hl).not_gt]
  · simp [hk, hl.not_gt, mul_neg_of_neg_of_pos hk hl]
  · simp [hk.not_gt, hl, mul_neg_of_pos_of_neg hk hl]
  · simp [hk.not_gt, hl.not_gt, (mul_pos hk hl).not_gt]

/-- Finite factors can be put together. -/
theorem finite_mul_finite_mul (k l : ℚ) (x : Extended) : finite k * (finite l * x) = finite (k * l) * x := by
  cases x with
  | finite x => simp [mul_assoc]
  | infinite s =>
    by_cases hk : k = 0
    · by_cases hl : l = 0 <;> simp [hk, hl]
    · by_cases hl : l = 0
      · simp [hl]
      · simp [hk, hl, sign_mul hk hl]
  | undefined => simp

/-! ### Sums -/

variable {ι : Type}

theorem finite_mul_sum (k : ℚ) (f : ι → Extended) (xs : List ι) :
    finite k * Scalar.sum (xs.map f) = Scalar.sum (xs.map fun i => finite k * f i) := by
  induction xs with
  | nil => simp
  | cons x xs ih => simp [finite_mul_add, ih]

end Extended

end HomeEnergy

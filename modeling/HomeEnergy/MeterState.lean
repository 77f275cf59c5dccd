import HomeEnergy.Scalar
import HomeEnergy.Commodity

/-!
# The meter state of one tick

The totals of every meter quantity over all meters. Grids add what each of their meters contributes.
-/

namespace HomeEnergy

structure MeterState (α : Type) where
  values : Vector α 10
deriving DecidableEq

namespace MeterState

variable {α : Type} [Scalar α]

def zero : MeterState α := ⟨Vector.replicate 10 0⟩

instance : Inhabited (MeterState α) := ⟨zero⟩

@[inline] def power (s : MeterState α) (q : MeterQuantity) : α :=
  s.values[q.index]

@[inline] def set (s : MeterState α) (q : MeterQuantity) (x : α) : MeterState α :=
  ⟨s.values.set q.index x⟩

@[inline] def add (s : MeterState α) (q : MeterQuantity) (x : α) : MeterState α :=
  s.set q (s.power q + x)

omit [Scalar α] in
theorem power_set_self (s : MeterState α) (q : MeterQuantity) (x : α) :
    (s.set q x).power q = x := by
  simp [power, set]

omit [Scalar α] in
theorem power_set_of_ne (s : MeterState α) {q r : MeterQuantity} (h : q ≠ r) (x : α) :
    (s.set q x).power r = s.power r := by
  have : q.index.val ≠ r.index.val := by
    cases q <;> cases r <;> first | exact absurd rfl h | decide
  simp [power, set, this]

end MeterState

end HomeEnergy

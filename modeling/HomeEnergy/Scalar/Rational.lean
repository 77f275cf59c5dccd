import HomeEnergy.Scalar

/-!
# Exact arithmetic

The rational numbers as a number type of the simulation: no rounding, no infinity and nothing
undefined. Conservation and bound statements about devices and grids are statements about this
instance.
-/

namespace HomeEnergy

/-- Rational arithmetic. Nothing is infinite here, so a missing objective costs zero like every
constant one. -/
instance : Scalar Rat where
  ofNat n := (n : Rat)
  toNat x := x.floor.toNat
  floor x := (x.floor : Rat)
  isNaN _ := false
  isFinite _ := true
  totalOrder a b := if a < b then .lt else if a = b then .eq else .gt
  infinity := 0
  decLt := inferInstance
  decLe := inferInstance

end HomeEnergy

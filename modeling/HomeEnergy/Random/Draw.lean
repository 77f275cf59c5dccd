import HomeEnergy.Scalar
import HomeEnergy.Failure
import HomeEnergy.Random.Keystream

/-!
# Random draws

Numbers, switches and choices drawn from a source of words. Each draw takes the source and returns it
advanced, so that the same source gives the same outcome. Draws are written over every `WordSource`:
what holds of them holds for every outcome of the random words.

* `Draw.word64` joins two words, the low one first.
* `Draw.unit` is a number in `[0, 1)` and `Draw.chance` a biased coin.
* `Draw.index` and `Draw.between` choose from a range of indices or of numbers.
* `Draw.normalNoise` is a normally distributed number.
-/

namespace HomeEnergy

namespace Draw

variable {G : Type} [WordSource G]

@[inline] def word : StateM G UInt32 := fun g => WordSource.next g

/-- Two words as one, the low one first. -/
@[inline] def word64 : StateM G UInt64 := do
  let low ← word
  let high ← word
  return low.toUInt64 ||| (high.toUInt64 <<< 32)

/-- A number in `[0, 1)` with 53 random bits. -/
@[inline] def unit {α : Type} [Scalar α] : StateM G α := do
  let w ← word64
  return Scalar.ofWord (w >>> 11) / 9007199254740992

/-- True with probability `p`. A certain event draws nothing. -/
@[inline] def chance {α : Type} [Scalar α] (p : α) : StateM G Bool :=
  if p == 1 then return true
  else do
    let w ← word64
    return w.toNat < Scalar.toNat (p * 18446744073709551616)

/-- A number below `n`, from words of `radix` values: the high half of the product of a word and `n`.
A second word corrects the high half where the low half of the first product is too large to tell. -/
@[inline] def belowWith (radix : Nat) (draw : StateM G Nat) (n : Nat) : StateM G Nat := do
  let first := (← draw) * n
  let high := first / radix
  let low := first % radix
  if radix - n < low then
    let carry := (← draw) * n / radix
    return if radix ≤ low + carry then high + 1 else high
  else
    return high

/-- A number in `[low, high]`, for `low ≤ high`; one word decides if `high` fits a word, two
otherwise. -/
@[specialize] def index (low high : Nat) : StateM G Nat := do
  if high < UInt32.size then
    let i ← belowWith UInt32.size (do return (← word).toNat) (high - low + 1)
    return low + i
  else
    let i ← belowWith UInt64.size (do return (← word64).toNat) (high - low + 1)
    return low + i

/-- A number in `[low, high]`. An empty range is a defect. -/
def indexBetween (low high : Nat) : StateM G (Except Defect Nat) := do
  if high < low then return .error .emptyRange
  else return .ok (← index low high)

/-- A number in `[low, high]`, with 52 random bits. An empty or infinite range is a defect. -/
def between {α : Type} [Scalar α] (low high : α) : StateM G (Except Defect α) := do
  if low ≤ high ∧ Scalar.isFinite (high - low) then
    let w ← word64
    let fraction : α := Scalar.ofWord (w >>> 12) / 4503599627370496
    return .ok (fraction * (high - low) + low)
  else
    return .error .emptyRange

/-- A normally distributed number with mean zero, from two units. Without a spread it is zero and
nothing is drawn. -/
@[specialize] def normalNoise {α : Type} [Transcendental α] (spread : α) : StateM G α := do
  if spread ≤ 0 then
    return 0
  else
    let u : α ← unit
    let u := Scalar.clamp 1e-9 1 u
    let v : α ← unit
    let z := Transcendental.sqrt (-2 * Transcendental.ln u) *
      Transcendental.cos (2 * Transcendental.pi * v)
    return z * spread

end Draw

end HomeEnergy

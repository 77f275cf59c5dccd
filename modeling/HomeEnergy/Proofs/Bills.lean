import HomeEnergy.Kpi
import HomeEnergy.Proofs.Extended

/-!
# What a load profile is billed

The cost of a profile is computed entry by entry into two running totals, and the key figures repeat half of that
computation. This module says what both are supposed to be: a bill, with one charge for every entry of the window.

* `PriceSignal.lastPrice`, `LimitSignal.excess` — signals as they are meant to be read: the last listed window counts.
* `Signals.charge`, `LoadProfile.bill` — what one entry and what a window of entries is charged.
* `PriceSignal.priceAt_eq`, `LimitSignal.violationAt_eq`, `billedPower_eq` — the signals are read that way.
* `fitness_eq`, `Kpi.energyCost_ofProfile` — running totals are sums over the entries.
* `fitness_exact`, `LoadProfile.bill_add_bill`, `fitness_without_limits` — the three parts of the main result.
* `fitness_is_bill` — **the cost of a profile is its bill**, it is additive, and without limits it is the energy cost
  of the key figures.
-/

namespace HomeEnergy

open Extended

/-! ### Bills -/

/-- The price at a tick: that of the last listed window with the tick, or the default. -/
def PriceSignal.lastPrice (s : PriceSignal Extended) (tick : UInt64) : Extended :=
  ((s.windows.filter fun w => w.start ≤ tick ∧ tick < w.stop).getLast?.map fun w => w.price).getD s.default

def LimitWindow.lower (w : LimitWindow Extended) : Extended :=
  w.lower?.getD (infinite true)

def LimitWindow.upper (w : LimitWindow Extended) : Extended :=
  w.upper?.getD (infinite false)

def LimitWindow.distance (w : LimitWindow Extended) (power : ℚ) : Extended :=
  Scalar.max 0 (Scalar.max (w.lower - finite power) (finite power - w.upper))

/-- How far a power is from the range of the last listed window with a tick. Outside every window it is not limited. -/
def LimitSignal.excess (s : LimitSignal Extended) (tick : UInt64) (power : ℚ) : Extended :=
  (s.windows.filter fun w => w.start ≤ tick ∧ tick < w.stop).getLast?.elim 0 fun w => w.distance power

def LimitSignal.Ordered (s : LimitSignal Extended) : Prop :=
  ∀ w ∈ s.windows, w.lower ≤ w.upper

/-- The power that is paid for: of what is exchanged with the public supply, only what is drawn. -/
def MeterQuantity.paid (q : MeterQuantity) (power : ℚ) : ℚ :=
  if q = activeExternal ∨ q = reactiveExternal ∨ q = gasExternal then max 0 power else power

/-- What an hour with the powers of an entry is charged: every priced quantity at its price, and the distance to the
limits of every limited one at the penalty. -/
def Signals.charge (signals : Signals Extended) (penalty : ℚ) (tick : UInt64) (power : MeterQuantity → ℚ) :
    Extended :=
  Scalar.sum (MeterQuantity.all.map fun q =>
    (signals.prices.get? q).elim 0 fun s => s.lastPrice tick * finite (q.paid (power q))) +
  finite penalty * Scalar.sum (MeterQuantity.all.map fun q =>
    (signals.limits.get? q).elim 0 fun s => s.excess tick (power q))

def LoadProfile.entriesIn {α : Type} (p : LoadProfile α) (start stop : UInt64) : List Nat :=
  (List.range p.size).filter fun i => start ≤ p.tickAt i ∧ p.tickAt i < stop

/-- The charges of all entries in the ticks `[start, stop)`, for as long as an entry takes. -/
def LoadProfile.bill (p : LoadProfile ℚ) (signals : Signals Extended) (penalty : ℚ) (start stop : UInt64) :
    Extended :=
  finite (p.step.toNat / 3600000) * Scalar.sum ((p.entriesIn start stop).map fun i =>
    signals.charge penalty (p.tickAt i) fun q => p.powerAtIndex q i)

/-! ### Profiles of finite powers -/

def MeterState.exact (s : MeterState ℚ) : MeterState Extended :=
  ⟨s.values.map finite⟩

def LoadProfile.exact (p : LoadProfile ℚ) : LoadProfile Extended :=
  { start := p.start, step := p.step, entries := p.entries.map MeterState.exact, stop? := p.stop? }

namespace LoadProfile

variable (p : LoadProfile ℚ)

@[simp] theorem exact_size : p.exact.size = p.size := by
  simp [size, exact]

@[simp] theorem exact_tickAt (i : Nat) : p.exact.tickAt i = p.tickAt i := rfl

@[simp] theorem exact_entriesIn (start stop : UInt64) : p.exact.entriesIn start stop = p.entriesIn start stop := by
  rw [entriesIn, exact_size]
  rfl

@[simp] theorem exact_powerAtIndex (q : MeterQuantity) (i : Nat) :
    p.exact.powerAtIndex q i = finite (p.powerAtIndex q i) := by
  unfold powerAtIndex
  rw [exact, Array.getElem?_map]
  cases p.entries[i]? with
  | none => rfl
  | some s => simp [MeterState.exact, MeterState.power]

end LoadProfile

/-! ### Prices and limits -/

theorem find?_reverse_eq {β : Type} (p : β → Bool) (xs : List β) :
    xs.reverse.find? p = (xs.filter p).getLast? := by
  rw [← List.head?_filter, List.filter_reverse, List.head?_reverse]

theorem PriceSignal.priceAt_eq (s : PriceSignal Extended) (tick : UInt64) : s.priceAt tick = s.lastPrice tick := by
  unfold priceAt lastPrice
  rw [find?_reverse_eq]
  simp only [inWindow, Bool.decide_and]
  cases (s.windows.filter fun w => decide (w.start ≤ tick) && decide (tick < w.stop)).getLast? <;> rfl

/-- Of a range, at most one bound is exceeded. -/
theorem LimitWindow.distance_eq {w : LimitWindow Extended} (h : w.lower ≤ w.upper) (power : ℚ) :
    w.distance power = if w.upper < finite power then finite power - w.upper
      else if finite power < w.lower then w.lower - finite power else 0 := by
  unfold distance
  generalize w.lower = lower at h ⊢
  generalize w.upper = upper at h ⊢
  cases lower <;> cases upper
  case finite.finite lower upper =>
    have hle : lower ≤ upper := by simpa [le_iff, le_iff_lt_or_eq] using h
    simp only [finite_sub, max_finite, zero_eq, finite_lt_finite]
    by_cases hupper : upper < power
    · rw [if_pos hupper, max_eq_right (by linarith : lower - power ≤ power - upper),
        max_eq_right (by linarith)]
    · by_cases hlower : power < lower
      · rw [if_neg hupper, if_pos hlower, max_eq_left (by linarith : power - upper ≤ lower - power),
          max_eq_right (by linarith)]
      · rw [if_neg hupper, if_neg hlower, max_eq_left (max_le (by linarith) (by linarith))]
  case finite.infinite lower s =>
    obtain rfl : s = false := by simpa [le_iff] using h
    by_cases hlower : power < lower
    · simp [max_eq, hlower, hlower.not_gt]
    · simpa [max_eq, hlower] using fun hle => sub_eq_zero.mpr (le_antisymm (not_lt.mp hlower) hle)
  case infinite.finite s upper =>
    obtain rfl : s = true := by simpa [le_iff] using h
    by_cases hupper : upper < power
    · simp [max_eq, hupper, hupper.not_gt]
    · simpa [max_eq, hupper] using fun hle => sub_eq_zero.mpr (le_antisymm (not_lt.mp hupper) hle)
  case infinite.infinite s t => cases s <;> cases t <;> simp [max_eq, le_iff] at h ⊢
  all_goals simp [le_iff] at h

theorem LimitSignal.violationAt_eq {s : LimitSignal Extended} (h : s.Ordered) (tick : UInt64) (power : ℚ) :
    s.violationAt tick (finite power) = s.excess tick power := by
  unfold violationAt limitsAt excess
  rw [find?_reverse_eq]
  simp only [inWindow, Bool.decide_and]
  cases hw : (s.windows.filter fun w => decide (w.start ≤ tick) && decide (tick < w.stop)).getLast? with
  | none => rfl
  | some w =>
    have hmem : w ∈ s.windows := List.mem_of_mem_filter (List.mem_of_getLast? hw)
    rw [Option.elim_some, LimitWindow.distance_eq (h w hmem)]
    obtain ⟨start, stop, lower?, upper?⟩ := w
    cases lower? <;> cases upper? <;> simp [LimitWindow.lower, LimitWindow.upper]

theorem billedPower_eq (q : MeterQuantity) (power : ℚ) :
    billedPower q (finite power) = finite (q.paid power) := by
  have hpositive : Scalar.positivePart (finite power) = finite (max 0 power) := by
    unfold Scalar.positivePart
    rw [zero_eq, ← max_finite, max_eq (by simp)]
    by_cases hpower : 0 < power
    · simp [hpower, hpower.not_gt]
    · simpa [hpower] using fun hle => (le_antisymm (not_lt.mp hpower) hle).symm
  cases q <;> simp [billedPower, MeterQuantity.isExternal, MeterQuantity.paid, hpositive]

/-! ### Running totals -/

section Exact

variable {α : Type} [Scalar α]

def LoadProfile.entryCost (p : LoadProfile α) (prices : ByQuantity (PriceSignal α)) (i : Nat) : α :=
  Scalar.sum (prices.toList.map fun e =>
    e.2.priceAt (p.tickAt i) * billedPower e.1 (p.powerAtIndex e.1 i) * kwhPerWatt p.step)

def LoadProfile.entryViolation (p : LoadProfile α) (limits : ByQuantity (LimitSignal α)) (i : Nat) : α :=
  Scalar.sum (limits.toList.map fun e =>
    e.2.violationAt (p.tickAt i) (p.powerAtIndex e.1 i) * kwhPerWatt p.step)

variable [Scalar.Exact α]

theorem addEnergyCost_eq (p : LoadProfile α) (prices : ByQuantity (PriceSignal α)) (i : Nat) (total : α) :
    addEnergyCost prices.toList (kwhPerWatt p.step) (p.tickAt i) (fun q => p.powerAtIndex q i) total
      = total + p.entryCost prices i := by
  unfold addEnergyCost LoadProfile.entryCost
  rw [← Scalar.foldl_add, List.foldl_map]

theorem addViolation_eq (p : LoadProfile α) (limits : ByQuantity (LimitSignal α)) (i : Nat) (total : α) :
    addViolation limits.toList (kwhPerWatt p.step) (p.tickAt i) (fun q => p.powerAtIndex q i) total
      = total + p.entryViolation limits i := by
  unfold addViolation LoadProfile.entryViolation
  rw [← Scalar.foldl_add, List.foldl_map]

/-- Two totals that run together are two sums. -/
theorem foldl_add_add {ι : Type} (f g : ι → α) (xs : List ι) (x y : α) :
    xs.foldl (fun totals i => (totals.1 + f i, totals.2 + g i)) (x, y)
      = (x + Scalar.sum (xs.map f), y + Scalar.sum (xs.map g)) := by
  induction xs generalizing x y with
  | nil => simp [Scalar.add_zero]
  | cons i xs ih => simp [ih, Scalar.Exact.add_assoc]

/-- **The cost of a profile is a sum over the entries of the window.** -/
theorem fitness_eq (penalty : α) (start stop : UInt64) (p : LoadProfile α) (signals : Signals α) :
    fitness penalty start stop p signals
      = Scalar.sum ((p.entriesIn start stop).map (p.entryCost signals.prices))
        + Scalar.sum ((p.entriesIn start stop).map (p.entryViolation signals.limits)) * penalty := by
  have htotals := foldl_add_add (p.entryCost signals.prices) (p.entryViolation signals.limits)
    (p.entriesIn start stop) 0 0
  rw [Scalar.Exact.zero_add, Scalar.Exact.zero_add] at htotals
  have hstep : (List.range p.size).foldl (fun (totals : α × α) i =>
      if inWindow start stop (p.tickAt i) then
        (addEnergyCost signals.prices.toList (kwhPerWatt p.step) (p.tickAt i) (fun q => p.powerAtIndex q i) totals.1,
          addViolation signals.limits.toList (kwhPerWatt p.step) (p.tickAt i) (fun q => p.powerAtIndex q i) totals.2)
      else totals) (0, 0) = (Scalar.sum ((p.entriesIn start stop).map (p.entryCost signals.prices)),
        Scalar.sum ((p.entriesIn start stop).map (p.entryViolation signals.limits))) := by
    rw [← htotals, LoadProfile.entriesIn, List.foldl_filter]
    simp only [addEnergyCost_eq, addViolation_eq, inWindow, Bool.and_eq_true, decide_eq_true_eq]
  exact congrArg (fun totals : α × α => totals.1 + totals.2 * penalty) hstep

/-- **The energy cost of the key figures is a sum over all entries.** -/
theorem Kpi.energyCost_ofProfile (p : LoadProfile α) (prices : ByQuantity (PriceSignal α)) :
    (Kpi.ofProfile p prices).energyCost = Scalar.sum ((List.range p.size).map (p.entryCost prices)) := by
  have htotals : ∀ (xs : List Nat) (t : Totals α),
      (xs.foldl (fun t i => t.add prices.toList (kwhPerWatt p.step) (p.tickAt i) fun q => p.powerAtIndex q i)
        t).energyCost = t.energyCost + Scalar.sum (xs.map (p.entryCost prices)) := by
    intro xs
    induction xs with
    | nil => intro t; simp [Scalar.add_zero]
    | cons i xs ih =>
      intro t
      rw [List.foldl_cons, ih, List.map_cons, Scalar.sum_cons, ← Scalar.Exact.add_assoc]
      exact congrArg (· + _) (addEnergyCost_eq p prices i t.energyCost)
  exact (htotals _ _).trans (Scalar.Exact.zero_add _)

end Exact

/-! ### The bill of a profile -/

section Bill

variable (p : LoadProfile ℚ)

theorem kwhPerWatt_eq (step : UInt64) : (kwhPerWatt step : Extended) = finite (step.toNat / 3600000) :=
  finite_div (step.toNat : ℚ) (l := ((3600000 : ℕ) : ℚ)) (by norm_num)

/-- A sum over the entries of a table is one over all quantities. -/
theorem ByQuantity.sum_toList {α β : Type} [Scalar α] [Scalar.Exact α] (m : ByQuantity β) (f : MeterQuantity × β → α) :
    Scalar.sum (m.toList.map f) = Scalar.sum (MeterQuantity.all.map fun q => (m.get? q).elim 0 fun x => f (q, x)) := by
  rw [toList, Scalar.sum_filterMap]
  refine congrArg Scalar.sum (List.map_congr_left fun q _ => ?_)
  cases m.get? q <;> rfl

/-- What powers at the entries of a table add up to over a step. -/
theorem ByQuantity.sum_energy {β : Type} (m : ByQuantity β) (step : UInt64) (f : MeterQuantity × β → Extended) :
    Scalar.sum (m.toList.map fun e => f e * kwhPerWatt step)
      = finite (step.toNat / 3600000) *
        Scalar.sum (MeterQuantity.all.map fun q => (m.get? q).elim 0 fun x => f (q, x)) := by
  have hterm : (fun e => f e * kwhPerWatt step) = fun e => finite (step.toNat / 3600000) * f e :=
    funext fun e => by rw [kwhPerWatt_eq, mul_comm]
  rw [hterm, ← finite_mul_sum, sum_toList]

theorem entryCost_exact (prices : ByQuantity (PriceSignal Extended)) (i : Nat) :
    p.exact.entryCost prices i = finite (p.step.toNat / 3600000) * Scalar.sum (MeterQuantity.all.map fun q =>
      (prices.get? q).elim 0 fun s => s.lastPrice (p.tickAt i) * finite (q.paid (p.powerAtIndex q i))) := by
  simp only [LoadProfile.entryCost, LoadProfile.exact_tickAt, LoadProfile.exact_powerAtIndex, billedPower_eq,
    PriceSignal.priceAt_eq]
  exact prices.sum_energy p.step _

theorem entryViolation_exact {limits : ByQuantity (LimitSignal Extended)}
    (h : ∀ q s, limits.get? q = some s → s.Ordered) (i : Nat) :
    p.exact.entryViolation limits i = finite (p.step.toNat / 3600000) * Scalar.sum (MeterQuantity.all.map fun q =>
      (limits.get? q).elim 0 fun s => s.excess (p.tickAt i) (p.powerAtIndex q i)) := by
  rw [LoadProfile.entryViolation]
  refine (limits.sum_energy p.step _).trans (congrArg (fun xs => _ * Scalar.sum xs) ?_)
  refine List.map_congr_left fun q _ => ?_
  cases hs : limits.get? q with
  | none => rfl
  | some s => simp only [Option.elim_some, LoadProfile.exact_tickAt, LoadProfile.exact_powerAtIndex,
      LimitSignal.violationAt_eq (h q s hs)]

/-- **The cost of a profile is its bill.** -/
theorem fitness_exact {signals : Signals Extended} (h : ∀ q s, signals.limits.get? q = some s → s.Ordered)
    (penalty : ℚ) (start stop : UInt64) :
    fitness (finite penalty) start stop p.exact signals = p.bill signals penalty start stop := by
  have hcost := funext fun i => entryCost_exact p signals.prices i
  have hviolation := funext fun i => entryViolation_exact p h i
  rw [fitness_eq, LoadProfile.bill, LoadProfile.exact_entriesIn, hcost, hviolation]
  unfold Signals.charge
  -- The length of an entry is a factor of both sums, and the penalty one of the second sum.
  rw [← finite_mul_sum, ← finite_mul_sum, Scalar.sum_map_add, ← finite_mul_sum, finite_mul_add,
    mul_comm _ (finite penalty), finite_mul_finite_mul, finite_mul_finite_mul, Rat.mul_comm penalty]

/-- Bills of adjoining windows add up. -/
theorem LoadProfile.bill_add_bill (signals : Signals Extended) (penalty : ℚ) {a b c : UInt64} (hab : a ≤ b)
    (hbc : b ≤ c) : p.bill signals penalty a b + p.bill signals penalty b c = p.bill signals penalty a c := by
  simp only [bill, ← finite_mul_add, entriesIn, Scalar.sum_filter, ← Scalar.sum_map_add]
  refine congrArg (fun xs => _ * Scalar.sum xs) (List.map_congr_left fun i _ => ?_)
  simp only [decide_eq_true_eq]
  by_cases hb : p.tickAt i < b
  · have hc : p.tickAt i < c := UInt64.lt_of_lt_of_le hb hbc
    simp only [hb, hc, UInt64.not_le.mpr hb, and_true, if_false, Scalar.add_zero]
  · have ha : a ≤ p.tickAt i := UInt64.le_trans hab (UInt64.not_lt.mp hb)
    simp only [hb, ha, UInt64.not_lt.mp hb, true_and, and_false, if_false, Scalar.Exact.zero_add]

/-- Without limits, a window with all entries costs what the key figures say. -/
theorem fitness_without_limits (prices : ByQuantity (PriceSignal Extended)) (penalty : ℚ) {start stop : UInt64}
    (hall : ∀ i < p.size, start ≤ p.tickAt i ∧ p.tickAt i < stop) :
    fitness (finite penalty) start stop p.exact { prices, limits := .empty }
      = (Kpi.ofProfile p.exact prices).energyCost := by
  have hentries : p.entriesIn start stop = List.range p.size := by
    refine List.filter_eq_self.mpr fun i hi => ?_
    simpa using hall i (List.mem_range.mp hi)
  have hunlimited (xs : List Nat) : Scalar.sum (xs.map (p.exact.entryViolation .empty)) = 0 :=
    Scalar.sum_map_zero fun _ _ => Scalar.sum_nil
  rw [fitness_eq, LoadProfile.exact_entriesIn, hentries, hunlimited, Kpi.energyCost_ofProfile,
    LoadProfile.exact_size, zero_eq, finite_mul_finite, zero_mul, ← zero_eq, Scalar.add_zero]

end Bill

/-- **The cost of a profile is its bill**: for every price and limit, every penalty and every window. It is additive,
and without limits it is the energy cost of the key figures. -/
theorem fitness_is_bill (p : LoadProfile ℚ) (signals : Signals Extended) (penalty : ℚ)
    (hordered : ∀ q s, signals.limits.get? q = some s → s.Ordered) :
    (∀ a b, fitness (finite penalty) a b p.exact signals = p.bill signals penalty a b) ∧
    (∀ a b c, a ≤ b → b ≤ c →
      fitness (finite penalty) a b p.exact signals + fitness (finite penalty) b c p.exact signals
        = fitness (finite penalty) a c p.exact signals) ∧
    ∀ a b, (∀ i < p.size, a ≤ p.tickAt i ∧ p.tickAt i < b) →
      fitness (finite penalty) a b p.exact { signals with limits := .empty }
        = (Kpi.ofProfile p.exact signals.prices).energyCost := by
  refine ⟨fitness_exact p hordered penalty, fun a b c hab hbc => ?_,
    fun a b hall => fitness_without_limits p signals.prices penalty hall⟩
  simp only [fitness_exact p hordered]
  exact p.bill_add_bill signals penalty hab hbc

def LoadProfile.evening : LoadProfile ℚ :=
  { start := 0, step := 900, stop? := some 2700
    entries := #[MeterState.zero.set .activeExternal 6000, MeterState.zero.set .activeExternal 8000,
      (MeterState.zero.set .activeExternal (-2000)).set .pvFeedIn (-2000)] }

/-- A price with a peak in the second quarter, a reward, and a limit that is lifted in the first quarter. -/
def Signals.evening : Signals Extended :=
  { prices := .ofList
      [(.activeExternal,
          { default := finite (1 / 4), windows := [⟨0, 1800, finite (1 / 5)⟩, ⟨900, 1800, finite (1 / 2)⟩] }),
        (.pvFeedIn, { default := finite (1 / 10), windows := [] })]
    limits := .ofList
      [(.activeExternal,
          { windows := [⟨0, 2700, none, some (finite 5000)⟩, ⟨0, 900, none, some (infinite false)⟩] })] }

theorem Signals.evening_ordered : ∀ q s, Signals.evening.limits.get? q = some s → s.Ordered := by
  intro q s hs w hw
  have hall : (Signals.evening.limits.get? q).all fun s => s.windows.all fun w => w.lower ≤ w.upper := by
    cases q <;> decide +kernel
  rw [hs] at hall
  simpa using List.all_eq_true.mp hall w hw

/-- The bill of an evening: the peak, three kilowatts for a quarter of an hour outside the limit, and the reward. -/
theorem fitness_is_bill_evening :
    fitness (finite 2) 0 2700 LoadProfile.evening.exact .evening = finite (1 * 3 / 10 + 1 + 2 * 3 / 4 - 1 / 20) ∧
      fitness (finite 2) 0 900 LoadProfile.evening.exact .evening +
          fitness (finite 2) 900 2700 LoadProfile.evening.exact .evening
        = fitness (finite 2) 0 2700 LoadProfile.evening.exact .evening ∧
      fitness (finite 2) 0 2700 LoadProfile.evening.exact { Signals.evening with limits := .empty }
        = (Kpi.ofProfile LoadProfile.evening.exact Signals.evening.prices).energyCost := by
  obtain ⟨hbill, hadds, hkpi⟩ := fitness_is_bill .evening .evening 2 Signals.evening_ordered
  refine ⟨?_, hadds 0 900 2700 (by decide) (by decide), hkpi 0 2700 (by decide)⟩
  rw [hbill]
  decide +kernel

end HomeEnergy

import HomeEnergy.Proofs.Acceptance
import HomeEnergy.Proofs.Identity
import HomeEnergy.Proofs.Ticks
import HomeEnergy.Proofs.WholeNumbers
import Mathlib.Data.Nat.ModEq
import Mathlib.Data.Nat.Prime.Basic
import Mathlib.Tactic.Ring

/-!
# Clocks that stop

A clock moves on by adding words, and a move that goes beyond the last word comes back in below the end. Whether a
clock keeps to the ticks that it counts is a matter of its last move, and whether it stops at all is a matter of the
ticks that it can reach.

* `exists_le_add_mul_mod_iff` — which numbers can be reached by adding one again and again.
* `Clock.KeepsTime` — what is promised of a clock; `Clock.keepsTime_iff` — **a clock keeps time if its last move is not
  carried**, and hands out too many ticks otherwise.
* `Clock.stops_iff` — when a clock stops.
* `simulate_runsTo` — **a simulation that is not refused runs the clock to its end.**
* `Window.stops_of_lt`, `Scenario.window_stops` — **the clock of a scenario file stops.**
* `clock_keepsTime_iff` — what this says about every clock.
-/

namespace HomeEnergy

/-! ### Numbers that are reached -/

/-- What can be reached from `a` in steps of `s`, modulo `N`, are the numbers that leave the remainder of `a` modulo the
greatest common divisor of `N` and `s`. The greatest of them is as far below `N` as this divisor and the
remainder say. -/
theorem exists_le_add_mul_mod_iff {a b s N : ℕ} (hs : 0 < s) (hsN : s < N) (ha : a < N) :
    (∃ n, b ≤ (a + n * s) % N) ↔ b + s.gcd N ≤ N + a % s.gcd N := by
  have hpos : 0 < s.gcd N := Nat.gcd_pos_of_pos_left N hs
  have hless : s.gcd N < N := Nat.lt_of_le_of_lt (Nat.gcd_le_left N hs) hsN
  obtain ⟨q, hq⟩ := Nat.gcd_dvd_right s N
  have hbelow : ∀ x < N, s.gcd N * (x / s.gcd N) + s.gcd N ≤ N := by
    intro x hx
    have hquot : x / s.gcd N < q := Nat.div_lt_of_lt_mul (by rwa [← hq])
    calc s.gcd N * (x / s.gcd N) + s.gcd N = s.gcd N * (x / s.gcd N + 1) := by ring
      _ ≤ s.gcd N * q := Nat.mul_le_mul_left _ hquot
      _ = N := hq.symm
  constructor
  · rintro ⟨n, hn⟩
    have hrest : (a + n * s) % N % s.gcd N = a % s.gcd N := by
      rw [Nat.mod_mod_of_dvd _ (Nat.gcd_dvd_right s N), Nat.add_mod,
        Nat.mod_eq_zero_of_dvd (Dvd.dvd.mul_left (Nat.gcd_dvd_left s N) n), Nat.add_zero, Nat.mod_mod]
    have hle := hbelow _ (Nat.mod_lt (a + n * s) (by omega))
    have hsplit := Nat.div_add_mod ((a + n * s) % N) (s.gcd N)
    omega
  · intro h
    obtain ⟨m, -, hm⟩ := Nat.exists_mul_mod_eq_gcd hless
    have hle := hbelow a ha
    have hsplit := Nat.div_add_mod a (s.gcd N)
    -- the greatest number that is reached lies `j` divisors above `a`
    obtain ⟨j, hj⟩ : s.gcd N ∣ N - s.gcd N - s.gcd N * (a / s.gcd N) :=
      Nat.dvd_sub (Nat.dvd_sub (Nat.gcd_dvd_right s N) (Nat.dvd_refl _)) (Nat.dvd_mul_right _ _)
    have htop : a + j * s.gcd N = N - s.gcd N + a % s.gcd N := by
      rw [Nat.mul_comm j, ← hj]
      omega
    refine ⟨j * m, ?_⟩
    have hreach : (a + j * m * s) % N = (a + j * s.gcd N) % N := by
      refine Nat.ModEq.add_left a ?_
      have hmod : s * m ≡ s.gcd N [MOD N] := by
        rw [Nat.ModEq, hm, Nat.mod_eq_of_lt hless]
      calc j * m * s = j * (s * m) := by ring
        _ ≡ j * s.gcd N [MOD N] := hmod.mul_left j
    rw [hreach, htop, Nat.mod_eq_of_lt (by have := Nat.mod_lt a hpos; omega)]
    omega

/-! ### Clocks that keep time -/

namespace Clock

def counted (c : Clock) : List UInt64 :=
  (List.range c.remaining).map c.tickAt

/-- The ticks up to and including the first rejected one. -/
def countedUntil (c : Clock) (reject : UInt64 → Bool) : List UInt64 :=
  c.counted.take (c.counted.findIdx reject + 1)

/-- What is promised of a clock: a run makes as many moves as ticks were counted, hands out numbers one step apart
below the end, and leaves nothing. A run that stops at a rejected tick hands out the ticks up to this one, and these
are no longer counted. -/
structure KeepsTime (c : Clock) : Prop where
  numbers : ∀ k < c.remaining, (c.tickAt k).toNat = c.current.toNat + k * c.step.toNat ∧ c.tickAt k < c.stop
  run : ∀ fuel, c.remaining ≤ fuel → run fuel c = (c.counted, c.after c.remaining)
  ended : (c.after c.remaining).next? = none ∧ (c.after c.remaining).remaining = 0
  runUntil : ∀ reject fuel, c.remaining ≤ fuel →
    runUntil reject fuel c
        = (c.countedUntil reject, c.after (c.countedUntil reject).length, c.counted.find? reject) ∧
      (c.after (c.countedUntil reject).length).remaining + (c.countedUntil reject).length = c.remaining

variable {c : Clock}

theorem length_countedUntil_le (reject : UInt64 → Bool) : (c.countedUntil reject).length ≤ c.remaining := by
  rw [countedUntil, counted]
  simp

/-- A clock whose last move is not carried beyond the last word keeps time. -/
theorem keepsTime_of_lt (hstep : c.step ≠ 0)
    (hword : c.current.toNat + c.remaining * c.step.toNat < UInt64.size) : c.KeepsTime := by
  have hpos := toNat_pos_of_ne_zero hstep
  have hrun : ∀ fuel, c.remaining ≤ fuel → run fuel c = (c.counted, c.after c.remaining) :=
    fun _ hfuel => run_eq_of_remaining_le hpos hword hfuel
  have hlater : ∀ k ≤ c.remaining, (c.after k).remaining + k = c.remaining := by
    intro k hk
    have hle := Nat.mul_le_mul_right c.step.toNat hk
    rw [remaining_after hpos (by omega), Nat.sub_add_cancel hk]
  refine ⟨fun k hk => ⟨?_, ?_⟩, hrun, ⟨?_, ?_⟩, fun reject fuel hfuel => ⟨?_, ?_⟩⟩
  · exact toNat_tickAt_of_le hword (Nat.le_of_lt hk)
  · exact (tickAt_lt_stop_iff hpos hword (Nat.le_of_lt hk)).mpr hk
  · rw [next?_eq_none_iff]
    exact fun h => Nat.lt_irrefl _ ((tickAt_lt_stop_iff hpos hword (Nat.le_refl _)).mp h)
  · have := hlater _ (Nat.le_refl _)
    omega
  · rw [runUntil_eq, hrun fuel hfuel]
    rfl
  · exact hlater _ (length_countedUntil_le reject)

/-- A last move that is carried beyond the last word ends below the end. -/
theorem tickAt_remaining_lt (hstep : c.step ≠ 0)
    (hword : UInt64.size ≤ c.current.toNat + c.remaining * c.step.toNat) : c.tickAt c.remaining < c.stop := by
  have hpos := toNat_pos_of_ne_zero hstep
  have hcurrent := c.current.toNat_lt_size
  have hstop := c.stop.toNat_lt_size
  have hsize := c.step.toNat_lt_size
  obtain ⟨m, hm⟩ : ∃ m, c.remaining = m + 1 := by
    refine Nat.exists_eq_succ_of_ne_zero fun hzero => ?_
    rw [hzero, Nat.zero_mul] at hword
    omega
  -- the move before the last one does not reach the end
  have hlast : c.current.toNat + m * c.step.toNat < c.stop.toNat := (lt_remaining_iff hpos).mp (by omega)
  rw [UInt64.lt_iff_toNat_lt, toNat_tickAt]
  rw [hm, Nat.succ_mul] at hword ⊢
  rw [Nat.mod_eq_sub_mod hword, Nat.mod_eq_of_lt (by omega)]
  omega

/-- A clock that does not keep time hands out more ticks than it counts. -/
theorem remaining_lt_of_runsTo (hstep : c.step ≠ 0)
    (hword : UInt64.size ≤ c.current.toNat + c.remaining * c.step.toNat) {ts : List UInt64} {last : Clock}
    (h : c.RunsTo ts last) : c.remaining < ts.length := by
  have hpos := toNat_pos_of_ne_zero hstep
  obtain ⟨n, -, hend, rfl, -⟩ := runsTo_iff.mp h
  rw [List.length_map, List.length_range]
  by_contra hle
  have hle := Nat.not_lt.mp hle
  rcases Nat.lt_or_ge n c.remaining with hn | hn
  · -- a counted tick is below the end, carried or not
    have hlt := (lt_remaining_iff hpos).mp hn
    have hstop := c.stop.toNat_lt_size
    refine hend ?_
    rw [UInt64.lt_iff_toNat_lt, toNat_tickAt_of_lt (by omega)]
    exact hlt
  · obtain rfl : n = c.remaining := Nat.le_antisymm hle hn
    exact hend (tickAt_remaining_lt hstep hword)

/-- **A clock keeps time if its last move is not carried beyond the last word.** -/
theorem keepsTime_iff (hstep : c.step ≠ 0) :
    c.KeepsTime ↔ c.current.toNat + c.remaining * c.step.toNat < UInt64.size := by
  refine ⟨fun h => ?_, keepsTime_of_lt hstep⟩
  by_contra hword
  exact next?_eq_none_iff.mp h.ended.1 (tickAt_remaining_lt hstep (Nat.not_lt.mp hword))

/-! ### Clocks that stop -/

/-- **When a clock stops**: the greatest tick that it can reach is not below its end. -/
theorem stops_iff (hstep : c.step ≠ 0) :
    c.Stops ↔ c.stop.toNat + c.step.toNat.gcd UInt64.size
      ≤ UInt64.size + c.current.toNat % c.step.toNat.gcd UInt64.size := by
  rw [stops_iff_exists, ← exists_le_add_mul_mod_iff (toNat_pos_of_ne_zero hstep) c.step.toNat_lt_size
    c.current.toNat_lt_size]
  simp only [UInt64.not_lt, UInt64.le_iff_toNat_le, toNat_tickAt]

end Clock

/-! ### Windows -/

/-- **The clock of a window of numbers below `2 ^ 63` stops.** -/
theorem Window.stops_of_lt {r h s start : UInt64} (hh : h.toNat < 2 ^ 63) (hs : s.toNat < 2 ^ 63) :
    (Window.new r h s start).clock.Stops := by
  have hstep : (Timing.atLeastOne s) ≠ 0 := Timing.atLeastOne_ne_zero s
  have hless : (Timing.atLeastOne s).toNat < 2 ^ 63 := by
    unfold Timing.atLeastOne
    split
    · decide
    · exact hs
  have hpos := toNat_pos_of_ne_zero hstep
  rw [Clock.stops_iff hstep]
  show (h + Timing.atLeastOne s).toNat + (Timing.atLeastOne s).toNat.gcd UInt64.size
    ≤ UInt64.size + r.toNat % (Timing.atLeastOne s).toNat.gcd UInt64.size
  generalize Timing.atLeastOne s = s at hless hpos
  have hend : (h + s).toNat = h.toNat + s.toNat := by
    rw [UInt64.toNat_add]
    exact Nat.mod_eq_of_lt (by omega)
  -- the divisor is a power of two below `2 ^ 63`, and leaves room for one more step
  obtain ⟨j, -, hj⟩ := (Nat.dvd_prime_pow Nat.prime_two).mp
    (show s.toNat.gcd UInt64.size ∣ 2 ^ 64 from Nat.gcd_dvd_right _ _)
  have hle : s.toNat.gcd UInt64.size ≤ s.toNat := Nat.gcd_le_left _ hpos
  have hj63 : j < 63 := (Nat.pow_lt_pow_iff_right (by decide)).mp (hj ▸ Nat.lt_of_le_of_lt hle hless)
  have hroom : s.toNat.gcd UInt64.size ≤ 2 ^ 63 - s.toNat := by
    refine Nat.le_of_dvd (by omega) (Nat.dvd_sub ?_ (Nat.gcd_dvd_left _ _))
    rw [hj]
    exact Nat.pow_dvd_pow 2 (by omega)
  have hsize : UInt64.size = 2 ^ 63 + 2 ^ 63 := rfl
  omega

theorem Window.runsTo_ticks {w : Window} (hroom : w.overflows = false) :
    ∃ last, w.clock.RunsTo w.clock.ticks last := by
  rw [overflows, Bool.or_eq_false_iff, decide_eq_false_iff_not, decide_eq_false_iff_not] at hroom
  refine Clock.runsTo_ticks ?_
  show w.clock.ticks.length < 18446744073709551616
  unfold maxTableBytes at hroom
  omega

/-- **A simulation that is not refused runs the clock to its end.** -/
theorem simulate_runsTo {P α : Type} [Scalar α] [Part P α] {w : Window} {problem : Problem P α}
    {recording? : Option (Recording α)} {run : Run P α} (h : simulate w problem recording? = .ok run) :
    ∃ last, w.clock.RunsTo w.clock.ticks last := by
  refine Window.runsTo_ticks ?_
  unfold simulate at h
  split at h
  · exact nomatch h
  · split at h
    · exact nomatch h
    · split at h
      · exact nomatch h
      · rename_i hroom
        exact Bool.not_eq_true _ ▸ hroom

/-! ### Scenarios -/

namespace Problem

variable {P α : Type} [Scalar α] [Part P α] {parts : List P} {grids : List (Grid α)} {problem : Problem P α}

theorem mem_of_mem_takingParts (hnew : Problem.new parts grids = .ok problem) {p : P}
    (hp : p ∈ problem.takingParts) : p ∈ parts := by
  obtain ⟨i, -, hi⟩ := List.mem_filterMap.mp hp
  rw [new_eq_ok hnew] at hi
  exact List.mem_of_getElem? (by simpa using hi)

/-- What holds of the horizons of all parts, and of zero, holds of the horizon of the problem. -/
theorem horizon_keeps (hnew : Problem.new parts grids = .ok problem) {Q : UInt64 → Prop} (hzero : Q 0)
    (hparts : ∀ p ∈ parts, Q (Part.horizon p)) : Q problem.horizon := by
  have hall : ∀ t ∈ problem.takingParts.map Part.horizon, Q t :=
    List.forall_mem_map.mpr fun p hp => hparts p (mem_of_mem_takingParts hnew hp)
  unfold horizon
  split
  · exact hzero
  · rename_i t ts heq
    obtain ⟨ht, hts⟩ := List.forall_mem_cons.mp (heq ▸ hall)
    refine List.foldlRecOn ts _ ht fun a ha b hb => ?_
    split
    · exact hts b hb
    · exact ha

end Problem

/-- The clock of a scenario file stops. -/
theorem Scenario.window_stops {text : String} {c : Config Double} {s : Scenario Double}
    {problem : Problem (Device Double) Double} {e : Evaluator (Device Double) Double}
    (hread : Config.ofString? text = some c) (hbuilt : Scenario.ofConfig c = .ok s)
    (he : s.plan.evaluator = .ok (problem, e)) : e.window.clock.Stops := by
  obtain ⟨hnew, rfl⟩ := Plan.evaluator_eq_ok he
  obtain ⟨-, hdevices, -, -, hstep⟩ := Scenario.ofConfig_eq_ok hbuilt
  have hfits := Config.fits_of_ofString? hread
  have hhorizon : problem.horizon.toNat < 2 ^ 63 := by
    refine Problem.horizon_keeps hnew (Q := fun t => t.toNat < 2 ^ 63) (by decide) fun d hd => ?_
    show d.timing.horizon.toNat < 2 ^ 63
    rw [(Scenario.timing_of_devices hdevices d hd).2]
    exact hfits.horizon
  exact Window.stops_of_lt hhorizon (hstep ▸ hfits.stepSize)

/-! ### Clocks -/

/-- **What a clock makes of its ticks**, as long as its step is not zero. It hands out exactly the ticks that it counts
if its last move is not carried beyond the last word, and more than it counts otherwise. A run that comes to an end
hands out the first ticks, up to the first one that is not below the end, and a run that stops at a rejected tick a
part of them. Whether a run comes to an end is a matter of the greatest common divisor of the step and the number of
words. The clock of a scenario file always stops. -/
theorem clock_keepsTime_iff {c : Clock} (hstep : c.step ≠ 0) :
    (c.KeepsTime ↔ c.current.toNat + c.remaining * c.step.toNat < UInt64.size) ∧
    (¬ c.KeepsTime → ∀ ts last, c.RunsTo ts last → c.remaining < ts.length) ∧
    (∀ ts last, c.RunsTo ts last →
      ts = c.ticks ∧ ts = (List.range ts.length).map c.tickAt ∧ (∀ t ∈ ts, t < c.stop) ∧
      last = c.after ts.length ∧ last.remaining = 0) ∧
    (∀ reject fuel,
      let ts := (Clock.run fuel c).1
      let visited := ts.take (ts.findIdx reject + 1)
      Clock.runUntil reject fuel c = (visited, c.after visited.length, ts.find? reject)) ∧
    (c.Stops ↔ c.stop.toNat + c.step.toNat.gcd UInt64.size
      ≤ UInt64.size + c.current.toNat % c.step.toNat.gcd UInt64.size) ∧
    ∀ (text : String) (config : Config Double) (s : Scenario Double)
      (problem : Problem (Device Double) Double) (e : Evaluator (Device Double) Double),
      Config.ofString? text = some config → Scenario.ofConfig config = .ok s →
      s.plan.evaluator = .ok (problem, e) → e.window.clock.Stops := by
  refine ⟨Clock.keepsTime_iff hstep, ?_, ?_, ?_, Clock.stops_iff hstep, ?_⟩
  · intro hnot ts last hrun
    rw [Clock.keepsTime_iff hstep, Nat.not_lt] at hnot
    exact Clock.remaining_lt_of_runsTo hstep hnot hrun
  · intro ts last hrun
    obtain ⟨hticks, hbelow, hlast⟩ := hrun.shape
    exact ⟨(Clock.ticks_of_runsTo hrun).symm, hticks, hbelow, hlast, hrun.remaining_last⟩
  · exact fun reject fuel => Clock.runUntil_eq reject fuel c
  · intro text config s problem e hread hbuilt he
    exact Scenario.window_stops hread hbuilt he

/-- A clock over a day and a second in quarters of an hour counts one tick more for the second, and keeps time. -/
theorem clock_keepsTime_iff_quarters :
    let c : Clock := { current := 0, stop := 86401, step := 900 }
    c.step ≠ 0 ∧ c.remaining = 97 ∧ c.KeepsTime ∧ c.Stops := by
  intro c
  have hstep : c.step ≠ 0 := by decide
  obtain ⟨hkeeps, -, -, -, hstops, -⟩ := clock_keepsTime_iff hstep
  exact ⟨hstep, by decide, hkeeps.mpr (by decide), hstops.mpr (by decide)⟩

/-- A clock whose first move is carried beyond the last word. -/
def Clock.overlong : Clock :=
  { current := 5, stop := 10, step := 18446744073709551611 }

/-- An optimized time that breaks no constraint, in steps of two ticks that miss the last word. -/
def OptimizationConfig.endless : OptimizationConfig :=
  { OptimizationConfig.default with horizon := 18446744073709551613, stepSize := 2 }

/-- The clock counts one tick and hands out two, the second one before the first. A clock over an optimized time that
breaks no constraint never stops. -/
theorem overlong_walks_back :
    Clock.overlong.step ≠ 0 ∧ Clock.overlong.remaining = 1 ∧ Clock.overlong.ticks = [5, 0] ∧
    ¬ Clock.overlong.KeepsTime ∧
    Config.optimizationIssues .endless = [] ∧
    ¬ (Window.new OptimizationConfig.endless.referenceTime OptimizationConfig.endless.horizon
        OptimizationConfig.endless.stepSize OptimizationConfig.endless.optimizationStart).clock.Stops := by
  refine ⟨by decide, by decide, by decide, ?_, by decide, ?_⟩
  · rw [Clock.keepsTime_iff (by decide)]
    decide
  · rw [Clock.stops_iff (by decide)]
    decide

end HomeEnergy

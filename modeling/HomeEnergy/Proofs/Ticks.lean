import HomeEnergy.Clock
import Mathlib.Data.Nat.Find
import Mathlib.Order.Nat

/-!
# The ticks of a clock

A clock is a number of moves away from where it started, and each move adds the step to a word. This module says where
a clock stands after some moves, how many moves a run makes, and how many the clock counts beforehand.

* `Clock.toNat_tickAt` — where a clock stands, as a number: moves that are carried beyond the last word come back in.
* `Clock.run_eq`, `Clock.runUntil_eq` — **a run hands out the first ticks below the end**, and one that is stopped hands
  out a part of them.
* `Clock.stops_iff_exists`, `Clock.ticks_of_runsTo` — a run comes to an end if some tick is not below the end, and `maxMoves`
  moves are enough.
* `Clock.lt_remaining_iff`, `Clock.remaining_after` — what the clock counts.
* `Clock.length_ticks` — a clock that is not carried beyond the last word hands out as many ticks as it has left.
-/

namespace HomeEnergy

theorem toNat_pos_of_ne_zero {x : UInt64} (h : x ≠ 0) : 0 < x.toNat :=
  Nat.pos_of_ne_zero fun hzero => h (UInt64.toNat_inj.mp hzero)

/-- A word with a multiple of another one added, as a number. -/
theorem toNat_add_ofNat_mul (start step : UInt64) (k : Nat) :
    (start + UInt64.ofNat k * step).toNat = (start.toNat + k * step.toNat) % UInt64.size := by
  rw [UInt64.toNat_add, UInt64.toNat_mul, UInt64.toNat_ofNat']
  show (_ + k % UInt64.size * _ % UInt64.size) % UInt64.size = _
  rw [Nat.add_mod_mod, Nat.add_mod, Nat.mod_mul_mod, ← Nat.add_mod]

namespace Clock

/-! ### Where a clock stands -/

/-- The tick with a number, handed out or not. -/
def tickAt (c : Clock) (k : Nat) : UInt64 :=
  c.current + UInt64.ofNat k * c.step

def after (c : Clock) (k : Nat) : Clock :=
  { c with current := c.tickAt k }

variable {c : Clock}

@[simp] theorem tickAt_zero : c.tickAt 0 = c.current := by
  simp [tickAt]

@[simp] theorem after_zero : c.after 0 = c := by
  simp [after]

theorem after_one : c.after 1 = { c with current := c.current + c.step } := by
  simp [after, tickAt]

theorem tickAt_after (j k : Nat) : (c.after j).tickAt k = c.tickAt (k + j) := by
  simp only [tickAt, after, UInt64.ofNat_add, UInt64.add_mul, UInt64.add_assoc,
    UInt64.add_comm (UInt64.ofNat k * c.step)]

theorem after_after (j k : Nat) : (c.after j).after k = c.after (k + j) := by
  simp only [after, ← tickAt_after]

theorem toNat_tickAt (k : Nat) :
    (c.tickAt k).toNat = (c.current.toNat + k * c.step.toNat) % UInt64.size :=
  toNat_add_ofNat_mul c.current c.step k

theorem toNat_tickAt_of_lt {k : Nat} (h : c.current.toNat + k * c.step.toNat < UInt64.size) :
    (c.tickAt k).toNat = c.current.toNat + k * c.step.toNat := by
  rw [toNat_tickAt, Nat.mod_eq_of_lt h]

/-- After as many moves as there are words, everything repeats itself. -/
theorem tickAt_mod (k : Nat) : c.tickAt (k % UInt64.size) = c.tickAt k := by
  rw [← UInt64.toNat_inj, toNat_tickAt, toNat_tickAt, Nat.add_mod, Nat.mod_mul_mod, ← Nat.add_mod]

/-! ### Runs -/

theorem next?_of_lt (h : c.current < c.stop) : c.next? = some (c.current, c.after 1) := by
  rw [next?, if_pos h, after_one]

theorem next?_eq_none_iff : c.next? = none ↔ ¬ c.current < c.stop := by
  unfold next?
  split <;> simp_all

/-- **A run hands out the first ticks**, if these are below the end and the run has no more moves or the next tick is
not below the end. -/
theorem run_eq {fuel n : Nat} (hle : n ≤ fuel) (hlt : ∀ k < n, c.tickAt k < c.stop)
    (hend : n < fuel → ¬ c.tickAt n < c.stop) :
    run fuel c = ((List.range n).map c.tickAt, c.after n) := by
  induction fuel generalizing c n with
  | zero =>
    obtain rfl : n = 0 := by omega
    simp [run]
  | succ fuel ih =>
    unfold run
    cases n with
    | zero =>
      have hnone : c.next? = none := next?_eq_none_iff.mpr (by simpa using hend (by omega))
      simp [hnone]
    | succ n =>
      have hrest : run fuel (c.after 1) = ((List.range n).map (c.after 1).tickAt, (c.after 1).after n) := by
        refine ih (by omega) (fun k hk => ?_) (fun hn => ?_)
        · rw [tickAt_after]
          exact hlt (k + 1) (by omega)
        · rw [tickAt_after]
          exact hend (by omega)
      have hshift : (c.after 1).tickAt = c.tickAt ∘ Nat.succ := by
        funext k
        exact tickAt_after 1 k
      rw [next?_of_lt (by simpa using hlt 0 (by omega))]
      simp only [hrest, List.range_succ_eq_map, List.map_cons, List.map_map, tickAt_zero, after_after,
        hshift]

/-- There are such ticks, however many moves a run has. -/
theorem exists_moves (c : Clock) (fuel : Nat) :
    ∃ n ≤ fuel, (∀ k < n, c.tickAt k < c.stop) ∧ (n < fuel → ¬ c.tickAt n < c.stop) := by
  induction fuel with
  | zero => exact ⟨0, Nat.le_refl 0, fun k hk => absurd hk (Nat.not_lt_zero k), fun h => absurd h (Nat.lt_irrefl 0)⟩
  | succ fuel ih =>
    obtain ⟨n, hle, hlt, hend⟩ := ih
    by_cases hn : n < fuel ∨ ¬ c.tickAt n < c.stop
    · exact ⟨n, by omega, hlt, fun _ => hn.elim hend id⟩
    · -- the run was out of moves, and one more hands out one more tick
      obtain ⟨hfuel, hnext⟩ := not_or.mp hn
      obtain rfl : n = fuel := by omega
      refine ⟨n + 1, Nat.le_refl _, fun k hk => ?_, fun h => absurd h (Nat.lt_irrefl _)⟩
      rcases Nat.lt_succ_iff_lt_or_eq.mp hk with hk | rfl
      · exact hlt k hk
      · exact not_not.mp hnext

/-- **A run that is stopped at a rejected tick** hands out the ticks of the other run up to this one. -/
theorem runUntil_eq (reject : UInt64 → Bool) (fuel : Nat) (c : Clock) :
    runUntil reject fuel c =
      let ts := (run fuel c).1
      let visited := ts.take (ts.findIdx reject + 1)
      (visited, c.after visited.length, ts.find? reject) := by
  induction fuel generalizing c with
  | zero => simp [run, runUntil]
  | succ fuel ih =>
    unfold run runUntil
    cases hnext : c.next? with
    | none => simp
    | some m =>
      have hlt : c.current < c.stop := by
        by_contra hnot
        exact nomatch hnext.symm.trans (next?_eq_none_iff.mpr hnot)
      obtain rfl : (c.current, c.after 1) = m := Option.some.inj ((next?_of_lt hlt).symm.trans hnext)
      by_cases hreject : reject c.current = true
      · simp [hreject, List.findIdx_cons]
      · simp [hreject, List.findIdx_cons, ih, after_after]

/-- A run of a clock that goes on until the clock stands at its end. -/
def RunsTo (c : Clock) (ts : List UInt64) (last : Clock) : Prop :=
  ∃ fuel, run fuel c = (ts, last) ∧ last.next? = none

/-- Every run of a clock comes to an end. -/
def Stops (c : Clock) : Prop :=
  ∃ ts last, c.RunsTo ts last

/-- A run to the end hands out the ticks before the first one that is not below the end. -/
theorem runsTo_iff {ts : List UInt64} {last : Clock} :
    c.RunsTo ts last ↔ ∃ n, (∀ k < n, c.tickAt k < c.stop) ∧ ¬ c.tickAt n < c.stop ∧
      ts = (List.range n).map c.tickAt ∧ last = c.after n := by
  constructor
  · rintro ⟨fuel, hrun, hlast⟩
    obtain ⟨n, hle, hlt, hend⟩ := exists_moves c fuel
    rw [run_eq hle hlt hend, Prod.mk.injEq] at hrun
    obtain ⟨rfl, rfl⟩ := hrun
    exact ⟨n, hlt, next?_eq_none_iff.mp hlast, rfl, rfl⟩
  · rintro ⟨n, hlt, hend, rfl, rfl⟩
    exact ⟨n, run_eq (Nat.le_refl n) hlt fun h => absurd h (Nat.lt_irrefl n), next?_eq_none_iff.mpr hend⟩

/-- A run to the end hands out ticks one step apart below the end, and stands where the next one would be. -/
theorem RunsTo.shape {ts : List UInt64} {last : Clock} (h : c.RunsTo ts last) :
    ts = (List.range ts.length).map c.tickAt ∧ (∀ t ∈ ts, t < c.stop) ∧ last = c.after ts.length := by
  obtain ⟨n, hlt, -, rfl, rfl⟩ := runsTo_iff.mp h
  simp only [List.length_map, List.length_range, true_and, and_true]
  exact List.forall_mem_map.mpr fun k hk => hlt k (List.mem_range.mp hk)

theorem RunsTo.remaining_last {ts : List UInt64} {last : Clock} (h : c.RunsTo ts last) : last.remaining = 0 := by
  obtain ⟨_, -, hnone⟩ := h
  exact if_pos (UInt64.not_lt.mp (next?_eq_none_iff.mp hnone))

/-- A run comes to an end if some tick is not below the end. -/
theorem stops_iff_exists : c.Stops ↔ ∃ n, ¬ c.tickAt n < c.stop := by
  constructor
  · rintro ⟨ts, last, h⟩
    obtain ⟨n, -, hend, -⟩ := runsTo_iff.mp h
    exact ⟨n, hend⟩
  · intro h
    exact ⟨_, _, runsTo_iff.mpr
      ⟨Nat.find h, fun k hk => not_not.mp (Nat.find_min h hk), Nat.find_spec h, rfl, rfl⟩⟩

/-- The ticks of a run to the end are the ticks of the clock. -/
theorem ticks_of_runsTo {ts : List UInt64} {last : Clock} (h : c.RunsTo ts last) : c.ticks = ts := by
  obtain ⟨n, hlt, hend, rfl, -⟩ := runsTo_iff.mp h
  have hn : n ≤ maxMoves := by
    by_contra hmore
    have hword : n % UInt64.size < n :=
      Nat.lt_trans (Nat.mod_lt n (by decide)) (Nat.not_le.mp hmore)
    exact hend (by rw [← tickAt_mod]; exact hlt _ hword)
  rw [ticks, run_eq hn hlt fun _ => hend]

/-- A clock that is not out of moves has come to its end. -/
theorem runsTo_ticks (h : c.ticks.length < maxMoves) : ∃ last, c.RunsTo c.ticks last := by
  obtain ⟨n, hle, hlt, hend⟩ := exists_moves c maxMoves
  have hrun := run_eq hle hlt hend
  have hticks : c.ticks = (List.range n).map c.tickAt := congrArg Prod.fst hrun
  rw [hticks, List.length_map, List.length_range] at h
  exact ⟨c.after n, maxMoves, hticks ▸ hrun, next?_eq_none_iff.mpr (hend h)⟩

theorem getElem?_run {fuel i : Nat} {t : UInt64} (h : (run fuel c).1[i]? = some t) : t = c.tickAt i := by
  obtain ⟨n, hle, hlt, hend⟩ := exists_moves c fuel
  rw [run_eq hle hlt hend] at h
  obtain ⟨hi, rfl⟩ := List.getElem?_eq_some_iff.mp h
  simp

theorem getElem?_ticks {i : Nat} {t : UInt64} (h : c.ticks[i]? = some t) : t = c.tickAt i :=
  getElem?_run h

/-! ### What a clock counts -/

/-- The ticks left, as a division of numbers that rounds up. -/
theorem remaining_eq (hstep : 0 < c.step.toNat) :
    c.remaining = (c.stop.toNat - c.current.toNat + (c.step.toNat - 1)) / c.step.toNat := by
  unfold remaining
  split
  · rename_i hend
    have hend' := UInt64.le_iff_toNat_le.mp hend
    exact (Nat.div_eq_of_lt (by omega)).symm
  · rename_i hend
    have hle : c.current ≤ c.stop := by
      rw [UInt64.le_iff_toNat_le] at hend ⊢
      omega
    rw [UInt64.toNat_sub_of_le _ _ hle, Nat.add_sub_assoc hstep]

theorem lt_remaining_iff (hstep : 0 < c.step.toNat) {k : Nat} :
    k < c.remaining ↔ c.current.toNat + k * c.step.toNat < c.stop.toNat := by
  rw [remaining_eq hstep, Nat.lt_iff_add_one_le, Nat.le_div_iff_mul_le hstep, Nat.succ_mul]
  omega

theorem remaining_after (hstep : 0 < c.step.toNat) {k : Nat}
    (hword : c.current.toNat + k * c.step.toNat < UInt64.size) :
    (c.after k).remaining = c.remaining - k := by
  refine eq_of_forall_lt_iff fun j => ?_
  rw [lt_remaining_iff (c := c.after k) hstep, Nat.lt_sub_iff_add_lt, lt_remaining_iff hstep, Nat.add_mul]
  show (c.tickAt k).toNat + j * c.step.toNat < c.stop.toNat ↔ _
  rw [toNat_tickAt_of_lt hword]
  omega

/-- At least the counted ticks are handed out. -/
theorem remaining_le_length_ticks (hstep : 0 < c.step.toNat) : c.remaining ≤ c.ticks.length := by
  obtain ⟨n, hle, hlt, hend⟩ := exists_moves c maxMoves
  rw [ticks, run_eq hle hlt hend, List.length_map, List.length_range]
  by_contra hless
  have hbelow := (lt_remaining_iff hstep).mp (Nat.not_le.mp hless)
  have hstop := c.stop.toNat_lt_size
  have hword : n ≤ n * c.step.toNat := Nat.le_mul_of_pos_right n hstep
  refine hend (show n < UInt64.size by omega) ?_
  rw [UInt64.lt_iff_toNat_lt, toNat_tickAt_of_lt (by omega)]
  exact hbelow

/-! ### Clocks that are not carried beyond the last word -/

section Regular

theorem toNat_tickAt_of_le (hword : c.current.toNat + c.remaining * c.step.toNat < UInt64.size) {k : Nat}
    (hk : k ≤ c.remaining) : (c.tickAt k).toNat = c.current.toNat + k * c.step.toNat := by
  have hle := Nat.mul_le_mul_right c.step.toNat hk
  exact toNat_tickAt_of_lt (by omega)

variable (hstep : 0 < c.step.toNat) (hword : c.current.toNat + c.remaining * c.step.toNat < UInt64.size)

include hstep hword

theorem tickAt_lt_stop_iff {k : Nat} (hk : k ≤ c.remaining) : c.tickAt k < c.stop ↔ k < c.remaining := by
  rw [UInt64.lt_iff_toNat_lt, toNat_tickAt_of_le hword hk, lt_remaining_iff hstep]

/-- A clock that has as many moves as ticks left hands all of them out. -/
theorem run_eq_of_remaining_le {fuel : Nat} (hfuel : c.remaining ≤ fuel) :
    run fuel c = ((List.range c.remaining).map c.tickAt, c.after c.remaining) := by
  refine run_eq hfuel (fun k hk => ?_) fun _ h => ?_
  · exact (tickAt_lt_stop_iff hstep hword (Nat.le_of_lt hk)).mpr hk
  · exact absurd ((tickAt_lt_stop_iff hstep hword (Nat.le_refl _)).mp h) (Nat.lt_irrefl _)

theorem ticks_eq : c.ticks = (List.range c.remaining).map c.tickAt := by
  have hle : c.remaining ≤ c.remaining * c.step.toNat := Nat.le_mul_of_pos_right _ hstep
  have hfuel : c.remaining ≤ maxMoves := by
    rw [maxMoves]
    omega
  rw [ticks, run_eq_of_remaining_le hstep hword hfuel]

/-- **A clock that is not carried beyond the last word hands out as many ticks as it has left.** -/
theorem length_ticks : c.ticks.length = c.remaining := by
  rw [ticks_eq hstep hword, List.length_map, List.length_range]

theorem toNat_tick {k : Nat} {tick : UInt64} (h : c.ticks[k]? = some tick) :
    tick.toNat = c.current.toNat + k * c.step.toNat := by
  have hk : k < c.remaining := by
    rw [← length_ticks hstep hword]
    exact (List.getElem?_eq_some_iff.mp h).1
  obtain rfl : tick = c.tickAt k := getElem?_ticks h
  exact toNat_tickAt_of_le hword (Nat.le_of_lt hk)

end Regular

end Clock

end HomeEnergy

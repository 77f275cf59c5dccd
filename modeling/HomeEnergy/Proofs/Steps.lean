import HomeEnergy.Device
import HomeEnergy.Window
import HomeEnergy.Scalar.Rational
import HomeEnergy.Proofs.Ticks
import Mathlib.Logic.ExistsUnique

/-!
# Ticks and steps

A run simulates the ticks of a window, and a schedule has one entry per step from the reference time to the horizon.
The number of ticks is rounded up and the number of steps is rounded down. This module says where the two meet.

* `Window.tickCount_eq` — **there is one tick more than there are steps, unless the horizon is a whole number of steps
  away.**
* `Timing.existsUnique_tick` — there is one tick for each step.
* `Battery.setpointAt_afterSteps`, `Chp.afterSteps_reads` — what a device has gone through does not matter to
  where it reads its schedule.
* `schedule_followed` — what this makes of the variables of a solution.
-/

namespace HomeEnergy

/-! ### Ticks beside steps -/

/-- Rounding up and rounding down differ by one, unless there is nothing to round. -/
theorem div_up_eq {n s : Nat} (hs : 0 < s) :
    (n + (s - 1)) / s = n / s + if s ∣ n then 0 else 1 := by
  have hsplit := Nat.div_add_mod n s
  have hrest := Nat.mod_lt n hs
  split
  · rename_i hdvd
    have hzero := Nat.mod_eq_zero_of_dvd hdvd
    rw [Nat.div_eq_iff hs, Nat.add_zero, Nat.mul_comm]
    omega
  · rename_i hdvd
    have hpos : 0 < n % s := Nat.pos_of_ne_zero fun h => hdvd (Nat.dvd_of_mod_eq_zero h)
    rw [Nat.div_eq_iff hs, Nat.add_mul, Nat.mul_comm (n / s)]
    omega

/-- A window in which nothing is carried beyond the last word: neither its end nor the last move of its clock. -/
structure Window.Regular (w : Window) : Prop where
  ordered : w.referenceTime ≤ w.horizon
  step_pos : 0 < w.step.toNat
  stop_lt : w.horizon.toNat + w.step.toNat < UInt64.size
  last_lt : w.referenceTime.toNat + w.tickCount * w.step.toNat < UInt64.size

theorem Window.Regular.step_ne_zero {w : Window} (hw : w.Regular) : w.step ≠ 0 := by
  intro h
  exact absurd hw.step_pos (by rw [h]; decide)

/-- The timing of a device over a window. -/
structure Timing.Spans (t : Timing) (w : Window) : Prop where
  referenceTime : t.referenceTime = w.referenceTime
  horizon : t.horizon = w.horizon
  step : t.step = w.step

/-- The horizon is a whole number of steps away from the reference time. -/
def Window.Aligned (w : Window) : Prop :=
  w.step.toNat ∣ w.horizon.toNat - w.referenceTime.toNat

instance (w : Window) : Decidable w.Aligned :=
  inferInstanceAs (Decidable (_ ∣ _))

section Counts

variable {w : Window} {t : Timing}

/-- The number of steps, as a number. -/
theorem Timing.toNat_steps (hw : w.Regular) (ht : t.Spans w) :
    t.steps.toNat = (w.horizon.toNat - w.referenceTime.toNat) / w.step.toNat + 1 := by
  have hle := UInt64.le_iff_toNat_le.mp hw.ordered
  have hquot := Nat.div_le_self (w.horizon.toNat - w.referenceTime.toNat) w.step.toNat
  have hstop := hw.stop_lt
  have hpos := hw.step_pos
  rw [steps, stepsInHorizon, ht.referenceTime, ht.horizon, ht.step,
    if_neg (by rw [UInt64.lt_iff_toNat_lt]; omega), atLeastOne, if_neg hw.step_ne_zero, UInt64.toNat_add,
    UInt64.toNat_div, UInt64.toNat_sub_of_le _ _ hw.ordered]
  exact Nat.mod_eq_of_lt (show _ + 1 < UInt64.size by omega)

/-- **There is one tick more than there are steps, unless the horizon is a whole number of steps away.** -/
theorem Window.tickCount_eq (hw : w.Regular) (ht : t.Spans w) :
    w.tickCount = t.steps.toNat + if w.Aligned then 0 else 1 := by
  have hle := UInt64.le_iff_toNat_le.mp hw.ordered
  have hpos := hw.step_pos
  have hstop : w.stop.toNat = w.horizon.toNat + w.step.toNat := by
    rw [stop, UInt64.toNat_add]
    exact Nat.mod_eq_of_lt hw.stop_lt
  have hsplit : w.stop.toNat - w.referenceTime.toNat + (w.step.toNat - 1)
      = w.horizon.toNat - w.referenceTime.toNat + (w.step.toNat - 1) + w.step.toNat := by omega
  rw [tickCount, Clock.remaining_eq (c := w.clock) hpos]
  show (w.stop.toNat - w.referenceTime.toNat + (w.step.toNat - 1)) / w.step.toNat = _
  rw [hsplit, Nat.add_div_right _ hpos, div_up_eq hpos, Timing.toNat_steps hw ht, Nat.add_right_comm]
  rfl

theorem Window.length_ticks (hw : w.Regular) : w.clock.ticks.length = w.tickCount :=
  Clock.length_ticks (c := w.clock) hw.step_pos hw.last_lt

/-- A tick is counted as the step of its number. -/
theorem Timing.stepIndex?_tick (hw : w.Regular) (ht : t.Spans w) {k : Nat} {tick : UInt64}
    (h : w.clock.ticks[k]? = some tick) : t.stepIndex? tick = some k := by
  have hvalue : tick.toNat = w.referenceTime.toNat + k * w.step.toNat :=
    Clock.toNat_tick (c := w.clock) hw.step_pos hw.last_lt h
  have hle : w.referenceTime ≤ tick := by
    rw [UInt64.le_iff_toNat_le]
    omega
  rw [stepIndex?, ht.referenceTime, ht.step, if_pos hle, UInt64.toNat_div,
    UInt64.toNat_sub_of_le _ _ hle, hvalue, Nat.add_sub_cancel_left, Nat.mul_div_cancel _ hw.step_pos]

/-- The ticks up to the horizon are those that are counted as steps of the horizon. -/
theorem Timing.tick_le_horizon_iff (hw : w.Regular) (ht : t.Spans w) {k : Nat} {tick : UInt64}
    (h : w.clock.ticks[k]? = some tick) : tick ≤ w.horizon ↔ k < t.steps.toNat := by
  have hvalue : tick.toNat = w.referenceTime.toNat + k * w.step.toNat :=
    Clock.toNat_tick (c := w.clock) hw.step_pos hw.last_lt h
  have hle := UInt64.le_iff_toNat_le.mp hw.ordered
  rw [Timing.toNat_steps hw ht, Nat.lt_succ_iff, Nat.le_div_iff_mul_le hw.step_pos,
    UInt64.le_iff_toNat_le, hvalue]
  omega

/-- There is one tick for each step. -/
theorem Timing.existsUnique_tick (hw : w.Regular) (ht : t.Spans w) {k : Nat}
    (hk : k < t.steps.toNat) :
    ∃! i : Nat, ∃ tick, w.clock.ticks[i]? = some tick ∧ t.stepIndex? tick = some k := by
  have hlt : k < w.clock.ticks.length := by
    rw [Window.length_ticks hw, Window.tickCount_eq hw ht]
    omega
  have hget : w.clock.ticks[k]? = some w.clock.ticks[k] := List.getElem?_eq_getElem hlt
  refine ⟨k, ⟨_, hget, Timing.stepIndex?_tick hw ht hget⟩, ?_⟩
  rintro i ⟨tick, htick, hindex⟩
  exact Option.some.inj ((Timing.stepIndex?_tick hw ht htick).symm.trans hindex)

end Counts

/-! ### What a device reads of its schedule -/

section Reading

variable {α : Type} [Scalar α]

def Battery.afterSteps (d : Battery α) (past : List (StepInput α × FlowMap α)) : Battery α :=
  past.foldl (fun d x => (d.step x.1 x.2).2) d

def Chp.afterSteps (d : Chp α) (past : List (StepInput α × FlowMap α)) : Chp α :=
  past.foldl (fun d x => (d.step x.1 x.2).2) d

/-- Batteries that read a schedule alike. -/
structure Battery.ReadsAlike (d e : Battery α) : Prop where
  mode : d.mode = e.mode
  setpoints : d.setpoints = e.setpoints
  stepIndex : d.timing.stepIndex? = e.timing.stepIndex?

/-- A tick does not touch the schedule of a battery or the ticks it is counted in. -/
theorem Battery.step_readsAlike (d : Battery α) (i : StepInput α) (out : FlowMap α) :
    (d.step i out).2.ReadsAlike d := by
  have hfollow : ∀ w : α, (d.applySetpoint w).2.ReadsAlike d := by
    intro w
    unfold applySetpoint
    dsimp only
    split
    · exact ⟨rfl, rfl, rfl⟩
    · split <;> exact ⟨rfl, rfl, rfl⟩
  obtain ⟨hmode, hsetpoints, hindex⟩ := hfollow (d.setpointAt i)
  exact ⟨hmode, hsetpoints, hindex⟩

/-- **What a battery has gone through does not matter to where it reads its schedule.** -/
theorem Battery.afterSteps_readsAlike (d : Battery α) (past : List (StepInput α × FlowMap α)) :
    (d.afterSteps past).ReadsAlike d := by
  induction past generalizing d with
  | nil => exact ⟨rfl, rfl, rfl⟩
  | cons x past ih =>
    obtain ⟨hmode, hsetpoints, hindex⟩ := ih (d.step x.1 x.2).2
    obtain ⟨hmode', hsetpoints', hindex'⟩ := d.step_readsAlike x.1 x.2
    exact ⟨hmode.trans hmode', hsetpoints.trans hsetpoints', hindex.trans hindex'⟩

theorem Chp.afterSteps_reads (d : Chp α) (past : List (StepInput α × FlowMap α)) :
    (d.afterSteps past).forced = d.forced ∧
      (d.afterSteps past).timing.stepIndex? = d.timing.stepIndex? := by
  induction past generalizing d with
  | nil => exact ⟨rfl, rfl⟩
  | cons x past ih => exact ih (d.step x.1 x.2).2

/-- The setpoint of a step in a series of bits. -/
theorem Battery.getElem?_bitSetpoints (d : Battery α) (k : Nat) (bits : List Bool)
    (h : 2 * k + 1 < bits.length) :
    (d.bitSetpoints bits)[k]? = some (d.bitsSetpoint bits[2 * k] bits[2 * k + 1]) := by
  induction k generalizing bits with
  | zero =>
    match bits, h with
    | a :: b :: rest, _ => rfl
  | succ k ih =>
    match bits, h with
    | a :: b :: rest, h =>
      have hrest := ih rest (by simp only [List.length_cons] at h; omega)
      simpa [bitSetpoints, Nat.mul_succ] using hrest

/-- A series of bits holds one setpoint for each pair. -/
theorem Battery.length_bitSetpoints (d : Battery α) (n : Nat) (bits : List Bool)
    (h : bits.length = 2 * n) : (d.bitSetpoints bits).length = n := by
  induction n generalizing bits with
  | zero =>
    obtain rfl : bits = [] := List.length_eq_zero_iff.mp h
    rfl
  | succ n ih =>
    match bits, h with
    | a :: b :: rest, h =>
      have hrest := ih rest (by simpa [Nat.mul_succ] using h)
      simp [bitSetpoints, hrest]

/-- A battery that reads each variable of its share at one tick of a window, and at a tick beyond the horizon reads
nothing and idles. -/
structure Battery.Follows (d : Battery α) (w : Window) (settings : RunSettings) : Prop where
  bits_count : 2 * d.timing.steps.toNat < UInt64.size →
    (d.variableCount .binary).toNat = 2 * d.timing.steps.toNat
  values_count : (d.variableCount .real).toNat = d.timing.steps.toNat
  bits : ∀ (bits : Array Bool) (hsize : bits.size = 2 * d.timing.steps.toNat)
    (past : List (StepInput α × FlowMap α)) (k : Nat) (i : StepInput α),
    w.clock.ticks[k]? = some i.tick →
      (((d.withSolution (.binary bits)).start settings).afterSteps past).setpointAt i
        = if h : k < d.timing.steps.toNat then d.bitsSetpoint bits[2 * k] bits[2 * k + 1] else 0
  values : ∀ (values : Array α) (hsize : values.size = d.timing.steps.toNat)
    (past : List (StepInput α × FlowMap α)) (k : Nat) (i : StepInput α),
    w.clock.ticks[k]? = some i.tick →
      (((d.withSolution (.real values)).start settings).afterSteps past).setpointAt i
        = if h : k < d.timing.steps.toNat then d.realSetpoint values[k] else 0

/-- A unit that reads each variable of its share at one tick of a window, and at a tick beyond the horizon reads
nothing and is not forced. -/
structure Chp.Follows (d : Chp α) (w : Window) (settings : RunSettings) : Prop where
  count : ∀ e, ((Device.chp d).variableCount e).toNat = d.timing.steps.toNat
  flags : ∀ (s : Solution α), s.size = d.timing.steps.toNat →
    ∀ (past : List (StepInput α × FlowMap α)) (k : Nat) (tick : UInt64),
    w.clock.ticks[k]? = some tick →
      let unit := ((d.withSolution s).start settings).afterSteps past
      unit.isForced (unit.timing.stepIndex? tick)
        = if k < d.timing.steps.toNat then s.flag k else false

variable {w : Window} {settings : RunSettings}

theorem Timing.restart_spans (hw : w.Regular) {t : Timing} (ht : t.Spans w)
    (hs : settings.step = w.step) : (t.restart settings).Spans w := by
  refine ⟨ht.referenceTime, ht.horizon, ?_⟩
  simp only [restart, atLeastOne, hs, if_neg hw.step_ne_zero]

/-- A scheduled battery looks a tick up in its schedule under the number of the tick. -/
theorem Battery.setpointAt_afterSteps (hw : w.Regular) (hs : settings.step = w.step) {d : Battery α}
    (ht : d.timing.Spans w) (hmode : d.mode = .scheduled) (past : List (StepInput α × FlowMap α))
    {k : Nat} {i : StepInput α} (hi : w.clock.ticks[k]? = some i.tick) :
    ((d.start settings).afterSteps past).setpointAt i = d.setpoints[k]?.getD 0 := by
  obtain ⟨hmode', hsetpoints, hindex⟩ := (d.start settings).afterSteps_readsAlike past
  have hread : (d.start settings).timing.stepIndex? i.tick = some k :=
    Timing.stepIndex?_tick hw (Timing.restart_spans hw ht hs) hi
  rw [setpointAt, hmode'.trans hmode, hindex, hsetpoints]
  dsimp only
  rw [hread]
  rfl

/-- A scheduled battery follows its schedule. -/
theorem Battery.follows (hw : w.Regular) (hs : settings.step = w.step) {d : Battery α}
    (ht : d.timing.Spans w) (hmode : d.mode = .scheduled) : d.Follows w settings where
  bits_count hfits := by
    rw [variableCount, if_pos hmode, UInt64.toNat_mul]
    exact Nat.mod_eq_of_lt hfits
  values_count := by rw [variableCount, if_pos hmode]
  bits bits hsize past k i hi := by
    rw [setpointAt_afterSteps hw hs (d := d.withSolution (.binary bits)) ht hmode past hi]
    show (d.bitSetpoints bits.toList).toArray[k]?.getD 0 = _
    rw [List.getElem?_toArray]
    split
    · rw [getElem?_bitSetpoints d k bits.toList (by simp only [Array.length_toList]; omega)]
      simp
    · rw [List.getElem?_eq_none (by
        rw [length_bitSetpoints d _ bits.toList (by simpa using hsize)]
        omega)]
      rfl
  values values hsize past k i hi := by
    rw [setpointAt_afterSteps hw hs (d := d.withSolution (.real values)) ht hmode past hi]
    show (values.map d.realSetpoint)[k]?.getD 0 = _
    split
    · rw [Array.getElem?_eq_getElem (by simp only [Array.size_map]; omega)]
      simp
    · rw [Array.getElem?_eq_none (by simp only [Array.size_map]; omega)]
      rfl

/-- A unit follows its schedule. -/
theorem Chp.follows (hw : w.Regular) (hs : settings.step = w.step) {d : Chp α}
    (ht : d.timing.Spans w) : d.Follows w settings where
  count e := rfl
  flags s hsize past k tick htick := by
    obtain ⟨hforced, hindex⟩ := ((d.withSolution s).start settings).afterSteps_reads past
    have hstep := Timing.stepIndex?_tick hw (Timing.restart_spans hw ht hs) htick
    have hread : ((d.withSolution s).start settings).timing.stepIndex? tick = some k := hstep
    dsimp only
    rw [hindex, hread, isForced, hforced]
    show s.flags[k]?.getD false = _
    have hflag : s.flags[k]?.getD false = s.flag k := by
      cases s with
      | binary bits => rfl
      | real values =>
        simp only [Solution.flags, Solution.flag, Array.getElem?_map]
        cases values[k]? <;> rfl
    rw [hflag]
    split
    · rfl
    · have hnone : s.size ≤ k := by omega
      cases s with
      | binary bits => simp [Solution.flag, Array.getElem?_eq_none hnone]
      | real values => simp [Solution.flag, Array.getElem?_eq_none hnone]

/-- **Where the ticks of a run and the variables of a schedule meet.** Over a window in which nothing is carried beyond
the last word, there is exactly one tick for each step, and it is counted as this step. A scheduled battery and a unit
have variables for the steps and read those of a step at its tick only. If the horizon is a whole number of steps
away, these are all ticks. Otherwise there is one more tick. It lies beyond the horizon, is counted as a step that has
no variables, and finds the battery idle and the unit not forced, whatever the solution. -/
theorem schedule_followed (hw : w.Regular) {t : Timing} (ht : t.Spans w)
    (hs : settings.step = w.step) :
    w.clock.ticks.length = w.tickCount ∧
    w.tickCount = t.steps.toNat + (if w.Aligned then 0 else 1) ∧
    (∀ (k : Nat) (tick : UInt64), w.clock.ticks[k]? = some tick →
      t.stepIndex? tick = some k ∧ (tick ≤ w.horizon ↔ k < t.steps.toNat)) ∧
    (∀ k < t.steps.toNat,
      ∃! i : Nat, ∃ tick, w.clock.ticks[i]? = some tick ∧ t.stepIndex? tick = some k) ∧
    (∀ d : Battery α, d.timing = t → d.mode = .scheduled → d.Follows w settings) ∧
    ∀ d : Chp α, d.timing = t → d.Follows w settings := by
  refine ⟨Window.length_ticks hw, Window.tickCount_eq hw ht, ?_, ?_, ?_, ?_⟩
  · intro k tick htick
    exact ⟨Timing.stepIndex?_tick hw ht htick, Timing.tick_le_horizon_iff hw ht htick⟩
  · intro k hk
    exact Timing.existsUnique_tick hw ht hk
  · rintro d rfl hmode
    exact Battery.follows hw hs ht hmode
  · rintro d rfl
    exact Chp.follows hw hs ht

end Reading

/-! ### A horizon between two steps -/

/-- A window whose horizon lies between two steps of a quarter of an hour. -/
def Window.ragged : Window :=
  .new 0 1000 900 0

def Timing.ragged : Timing :=
  (Timing.new ⟨1⟩ 0 1000).withStep 900

def RunSettings.ragged : RunSettings :=
  { referenceTime := 0, step := 900, log := false, keepPrediction := false }

theorem Window.ragged_regular : Window.ragged.Regular where
  ordered := by decide
  step_pos := by decide
  stop_lt := by decide
  last_lt := by decide

/-- A battery built over this window idles at its third tick, whatever the solution. -/
theorem schedule_followed_ragged :
    ∃ d : Battery Rat, Battery.new ⟨1⟩ 0 1000 900 2000 1 500 500 = .ok d ∧
      (d.variableCount .binary).toNat = 4 ∧
      ∀ (bits : Array Bool), bits.size = 4 →
        ∀ (past : List (StepInput Rat × FlowMap Rat)) (i : StepInput Rat), i.tick = 1800 →
          (((d.withSolution (.binary bits)).start .ragged).afterSteps past).setpointAt i = 0 := by
  have hspans : Timing.ragged.Spans .ragged := ⟨rfl, rfl, rfl⟩
  obtain ⟨-, -, -, -, hbattery, -⟩ :=
    schedule_followed (α := Rat) Window.ragged_regular hspans
      (show RunSettings.ragged.step = Window.ragged.step from rfl)
  have hbuilt : ∃ d : Battery Rat, Battery.new ⟨1⟩ 0 1000 900 2000 1 500 500 = .ok d ∧
      d.timing = .ragged ∧ d.mode = .scheduled :=
    ⟨_, if_pos (by decide), rfl, rfl⟩
  obtain ⟨d, hd, htiming, hmode⟩ := hbuilt
  have hfollows := hbattery d htiming hmode
  have hsteps : d.timing.steps.toNat = 2 := by
    rw [htiming]
    decide
  refine ⟨d, hd, ?_, ?_⟩
  · rw [hfollows.bits_count (by rw [hsteps]; decide), hsteps]
  · intro bits hsize past i hi
    rw [hfollows.bits bits (by rw [hsteps, hsize]) past 2 i (by rw [hi]; decide)]
    exact dif_neg (by rw [hsteps]; decide)

/-- The third tick of the window lies beyond the horizon and belongs to a step that no battery has a variable for. -/
theorem ragged_schedule :
    Window.ragged.tickCount = 3 ∧ Timing.ragged.steps.toNat = 2 ∧
    Window.ragged.tickCount ≠ (Timing.ragged.stepsInHorizon 900).toNat ∧
    Window.ragged.clock.ticks[2]? = some 1800 ∧ ¬ (1800 : UInt64) ≤ Window.ragged.horizon ∧
    Timing.ragged.stepIndex? 1800 = some 2 := by
  decide

end HomeEnergy

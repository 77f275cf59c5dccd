import HomeEnergy.Proofs.Balance
import HomeEnergy.Proofs.Construction
import HomeEnergy.Proofs.Rational
import HomeEnergy.Proofs.Series
import HomeEnergy.Proofs.Ticks
import Mathlib.Tactic.Positivity
import Mathlib.Tactic.Ring

/-!
# The energy of a charging session

A session is drawn or given, and in both cases it fits the horizon and the greatest power. In exact numbers the energy
that a solution delivers then depends on the number of its switches that are on, and on nothing else.

* `EvCharger.Feasible` — sessions within the horizon, with a need that can be met.
* `EvCharger.Built` — the chargers that there are; `EvCharger.Built.sound` — **every session is feasible**.
* `EvCharger.deliveredWh` — the energy that a number of switches delivers; `EvCharger.charge_delivers` — one step.
* `EvCharger.run_delivers` — a part of a run, by the number of switches so far.
* `session_delivered` — what this makes of a whole run.
-/

namespace HomeEnergy

/-! ### Ticks -/

/-- The tick of a step of the horizon is counted as this step. -/
theorem Timing.stepIndex?_ofNat {t : Timing} (hstep : t.step ≠ 0) {k : ℕ} (hk : k < t.steps.toNat) :
    t.stepIndex? (t.referenceTime + UInt64.ofNat k * t.step) = some k := by
  have hpos := toNat_step_pos hstep
  have hreference := t.referenceTime.toNat_lt_size
  have hend := t.horizon.toNat_lt_size
  have hsteps : t.referenceTime ≤ t.horizon ∧
      k ≤ (t.horizon.toNat - t.referenceTime.toNat) / t.step.toNat := by
    unfold steps stepsInHorizon at hk
    split at hk
    · exact absurd hk (Nat.not_lt_zero k)
    · rename_i hle
      have hle : t.referenceTime ≤ t.horizon := UInt64.not_lt.mp hle
      rw [atLeastOne, if_neg hstep, UInt64.toNat_add, UInt64.toNat_div, UInt64.toNat_sub_of_le _ _ hle] at hk
      exact ⟨hle, Nat.lt_succ_iff.mp (lt_of_lt_of_le hk (Nat.mod_le _ _))⟩
  obtain ⟨hle, hk⟩ := hsteps
  rw [UInt64.le_iff_toNat_le] at hle
  -- the ticks do not wrap around, as they do not pass the horizon
  have hspan : k * t.step.toNat ≤ t.horizon.toNat - t.referenceTime.toNat :=
    (Nat.le_div_iff_mul_le hpos).mp hk
  have htick : (t.referenceTime + UInt64.ofNat k * t.step).toNat
      = t.referenceTime.toNat + k * t.step.toNat := by
    rw [toNat_add_ofNat_mul]
    exact Nat.mod_eq_of_lt (show _ < UInt64.size by omega)
  have hle' : t.referenceTime ≤ t.referenceTime + UInt64.ofNat k * t.step := by
    rw [UInt64.le_iff_toNat_le, htick]
    omega
  rw [stepIndex?, if_pos hle', UInt64.toNat_div, UInt64.toNat_sub_of_le _ _ hle', htick, Nat.add_sub_cancel_left,
    Nat.mul_div_cancel _ hpos]

namespace EvCharger

/-! ### Sessions that fit -/

def stepWh (d : EvCharger ℚ) : ℚ :=
  d.maxChargeW * d.timing.stepHours

/-- A session within the horizon, with a need that can be met before the vehicle leaves. -/
structure Feasible (d : EvCharger ℚ) : Prop where
  arrival_le : d.session.arrivalStep ≤ d.session.deadlineStep
  deadline_le : d.session.deadlineStep ≤ d.timing.steps
  energy_nonneg : 0 ≤ d.session.energyWh
  energy_le : d.session.energyWh ≤ d.stepWh * (d.session.dwellSteps.toNat : ℚ)

/-- A charger with a feasible session that can charge, in steps that take time. -/
structure Sound (d : EvCharger ℚ) : Prop extends Feasible d where
  power_pos : 0 < d.maxChargeW
  step_ne_zero : d.timing.step ≠ 0

variable {d e : EvCharger ℚ} {ranges : EvRanges ℚ} {maxChargeW : ℚ}

theorem Sound.stepWh_pos (h : d.Sound) : 0 < d.stepWh :=
  mul_pos h.power_pos (Timing.stepHours_pos h.step_ne_zero)

theorem deliverableWh_eq (timing : Timing) (maxChargeW : ℚ) (dwell : UInt64) :
    deliverableWh timing maxChargeW dwell = maxChargeW * timing.stepHours * (dwell.toNat : ℚ) :=
  rfl

theorem deliverableWh_nonneg {timing : Timing} (hpower : 0 ≤ maxChargeW) (hstep : timing.step ≠ 0) (dwell : UInt64) :
    0 ≤ deliverableWh timing maxChargeW dwell := by
  have hhours : 0 < (timing.stepHours : ℚ) := Timing.stepHours_pos hstep
  rw [deliverableWh_eq]
  positivity

/-- The need of a session that is drawn can be met. -/
theorem drawSession_deliverable {timing : Timing} (hpower : 0 ≤ maxChargeW) (hstep : timing.step ≠ 0) :
    Draw.Always (fun r => ∀ s, r = .ok s →
        0 ≤ s.energyWh ∧ s.energyWh ≤ deliverableWh timing maxChargeW s.dwellSteps)
      (drawSession timing maxChargeW ranges) := by
  unfold drawSession
  by_cases hsteps : timing.steps = 0
  · rw [if_pos hsteps]
    refine Draw.always_pure fun s hs => ?_
    obtain rfl := Except.ok.inj hs
    exact ⟨le_of_eq Scalar.rat_zero.symm, le_of_eq_of_le Scalar.rat_zero (deliverableWh_nonneg hpower hstep _)⟩
  rw [if_neg hsteps]
  refine Draw.always_bind (Draw.always_true _) fun dwell? _ => ?_
  cases dwell? with
  | error f => exact Draw.always_pure fun s hs => nomatch hs
  | ok dwell =>
    refine Draw.always_bind (Draw.always_true _) fun arrival? _ => ?_
    cases arrival? with
    | error f => exact Draw.always_pure fun s hs => nomatch hs
    | ok arrival =>
      refine Draw.always_bind (Draw.always_true _) fun demand? _ => ?_
      cases demand? with
      | error f => exact Draw.always_pure fun s hs => nomatch hs
      | ok demand =>
        refine Draw.always_pure fun s hs => ?_
        obtain rfl := Except.ok.inj hs
        have hdwell : UInt64.ofNat arrival + UInt64.ofNat dwell - UInt64.ofNat arrival = UInt64.ofNat dwell := by
          rw [UInt64.add_comm, UInt64.add_sub_cancel]
        have hdeliverable := deliverableWh_nonneg hpower hstep (UInt64.ofNat dwell)
        simp only [EvSession.dwellSteps, hdwell, Scalar.positivePart_rat, Scalar.min_rat]
        exact ⟨le_max_right _ _, max_le (min_le_right _ _) hdeliverable⟩

/-- A power and ranges that are accepted. -/
structure Accepts (maxChargeW : ℚ) (ranges : EvRanges ℚ) : Prop where
  power_pos : 0 < maxChargeW
  demand_nonneg : 0 ≤ ranges.demandWhMin
  demand_le : ranges.demandWhMin ≤ ranges.demandWhMax
  dwell_pos : 0 < ranges.dwellStepsMin
  dwell_le : ranges.dwellStepsMin ≤ ranges.dwellStepsMax

/-- A charger is built from everything that is accepted, whatever the seed. -/
theorem Accepts.exists_new (h : Accepts maxChargeW ranges) (device : DeviceId)
    (referenceTime horizon step seed : UInt64) :
    ∃ d, new device referenceTime horizon step maxChargeW ranges seed = .ok d := by
  cases hnew : new device referenceTime horizon step maxChargeW ranges seed with
  | ok d => exact ⟨d, rfl⟩
  | error f =>
    have hpower := h.power_pos
    have hdemand := h.demand_nonneg
    rw [← Scalar.rat_zero] at hpower hdemand
    obtain ⟨-, -, hendless⟩ := (new_eq_error_iff device referenceTime horizon step hpower hdemand h.demand_le
      ⟨h.dwell_pos, h.dwell_le⟩ f).mp hnew
    exact absurd ⟨h.demand_le, rfl⟩ hendless

/-- A charger with a drawn session is sound. -/
theorem new_sound {device : DeviceId} {referenceTime horizon step seed : UInt64}
    (h : new device referenceTime horizon step maxChargeW ranges seed = .ok d) : d.Sound := by
  unfold new at h
  split at h
  · rename_i hparams
    rw [Scalar.rat_zero] at hparams
    obtain ⟨session, hsession, h⟩ := exists_of_bind_eq_ok h
    obtain rfl := Except.ok.inj h
    have hstep := Timing.atLeastOne_ne_zero step
    have hdrawn := drawSession_drawn ((Timing.new device referenceTime horizon).withStep step) maxChargeW ranges
      (.ofSeed seed)
    have hneed := drawSession_deliverable hparams.1.le hstep (.ofSeed seed) session hsession
    rw [hsession] at hdrawn
    obtain ⟨-, harrival, hdeadline⟩ := hdrawn
    exact
      { arrival_le := harrival
        deadline_le := hdeadline
        energy_nonneg := hneed.1
        energy_le := hneed.2
        power_pos := hparams.1
        step_ne_zero := hstep }
  · exact nomatch h

theorem lesser_le_left (a b : UInt64) : lesser a b ≤ a := by
  unfold lesser
  split
  · rename_i h
    exact UInt64.le_of_lt h
  · exact UInt64.le_refl a

theorem le_lesser {a b c : UInt64} (hb : a ≤ b) (hc : a ≤ c) : a ≤ lesser b c := by
  unfold lesser
  split
  · exact hc
  · exact hb

/-- A session can be given to every charger that can charge. -/
theorem Sound.exists_withSession (h : d.Sound) (arrivalStep dwellSteps : UInt64) (energyWh : ℚ) :
    ∃ e, d.withSession arrivalStep dwellSteps energyWh = .ok e := by
  have hdeliverable := deliverableWh_nonneg h.power_pos.le h.step_ne_zero
    (lesser (lesser arrivalStep d.timing.steps + dwellSteps) d.timing.steps - lesser arrivalStep d.timing.steps)
  rw [← Scalar.rat_zero] at hdeliverable
  unfold withSession
  dsimp only
  rw [if_pos hdeliverable]
  exact ⟨_, rfl⟩

/-- A charger with a given session is sound. -/
theorem Sound.withSession (h : d.Sound) {arrivalStep dwellSteps : UInt64} {energyWh : ℚ}
    (hsize : (lesser arrivalStep d.timing.steps).toNat + dwellSteps.toNat < UInt64.size)
    (he : d.withSession arrivalStep dwellSteps energyWh = .ok e) : e.Sound := by
  have harrival := lesser_le_right arrivalStep d.timing.steps
  have hdwell : lesser arrivalStep d.timing.steps ≤ lesser arrivalStep d.timing.steps + dwellSteps := by
    rw [UInt64.le_iff_toNat_le, UInt64.toNat_add, Nat.mod_eq_of_lt hsize]
    exact Nat.le_add_right _ _
  unfold EvCharger.withSession at he
  dsimp only at he
  split at he
  · rename_i hdeliverable
    rw [Scalar.rat_zero] at hdeliverable
    obtain rfl := Except.ok.inj he
    obtain ⟨hlo, hhi⟩ := Scalar.clamp_mem hdeliverable energyWh
    exact
      { arrival_le := le_lesser hdwell harrival
        deadline_le := lesser_le_right _ _
        energy_nonneg := by
          rw [← Scalar.rat_zero] at hlo
          exact hlo
        energy_le := hhi
        power_pos := h.power_pos
        step_ne_zero := h.step_ne_zero }
  · exact nomatch he

/-- The chargers that there are: with a session drawn from a seed or given, and with any penalty. -/
inductive Built : EvCharger ℚ → Prop
  | drawn {device : DeviceId} {referenceTime horizon step seed : UInt64} {maxChargeW : ℚ} {ranges : EvRanges ℚ}
      {d : EvCharger ℚ} (h : new device referenceTime horizon step maxChargeW ranges seed = .ok d) : Built d
  | given {arrivalStep dwellSteps : UInt64} {energyWh : ℚ} {d e : EvCharger ℚ} (hd : Built d)
      (hsize : (lesser arrivalStep d.timing.steps).toNat + dwellSteps.toNat < UInt64.size)
      (h : d.withSession arrivalStep dwellSteps energyWh = .ok e) : Built e
  | penalized {d : EvCharger ℚ} (hd : Built d) (penaltyPerKwh : ℚ) : Built (d.withPenalty penaltyPerKwh)

/-- **Every session is feasible**, drawn or given. -/
theorem Built.sound (h : d.Built) : d.Sound := by
  induction h with
  | drawn h => exact new_sound h
  | given _ hsize h ih => exact ih.withSession hsize h
  | penalized _ penaltyPerKwh ih => exact { ih with }

/-! ### Switches -/

def onBefore (d : EvCharger ℚ) (step : ℕ) : ℕ :=
  (List.range step).countP d.isOn

theorem onBefore_succ (d : EvCharger ℚ) (k : ℕ) : d.onBefore (k + 1) = d.onBefore k + (d.isOn k).toNat := by
  rw [onBefore, List.range_succ, List.countP_append, List.countP_singleton]
  cases d.isOn k <;> rfl

/-- The number of switches of a solution that are on, one per step of the session. -/
def switchedOn (d : EvCharger ℚ) (s : Solution ℚ) : ℕ :=
  (s.flags.toList.take d.session.dwellSteps.toNat).count true

/-- Counting by places is counting in a list, which has nothing beyond its end. -/
theorem countP_range_getD (flags : List Bool) (n : ℕ) :
    (List.range n).countP (fun i => flags[i]?.getD false) = (flags.take n).count true := by
  induction n with
  | zero => rfl
  | succ n ih =>
    rw [List.range_succ, List.countP_append, List.countP_singleton, ih, List.take_add_one, List.count_append]
    cases flags[n]? with
    | none => rfl
    | some b => cases b <;> rfl

/-- All switches are before the last step. -/
theorem onBefore_steps (h : d.Feasible) {s : Solution ℚ} (hs : d.enabled = s.flags) :
    d.onBefore d.timing.steps.toNat = d.switchedOn s := by
  have harrival := UInt64.le_iff_toNat_le.mp h.arrival_le
  have hdeadline := UInt64.le_iff_toNat_le.mp h.deadline_le
  have hdwell : d.session.dwellSteps.toNat = d.session.deadlineStep.toNat - d.session.arrivalStep.toNat :=
    UInt64.toNat_sub_of_le _ _ h.arrival_le
  -- the steps before the arrival, during the session and from the deadline on
  obtain ⟨rest, hrest⟩ : ∃ rest, d.timing.steps.toNat
      = d.session.arrivalStep.toNat + (d.session.dwellSteps.toNat + rest) :=
    ⟨d.timing.steps.toNat - d.session.deadlineStep.toNat, by omega⟩
  have hbefore : (List.range d.session.arrivalStep.toNat).countP d.isOn = 0 := by
    refine List.countP_eq_zero.mpr fun k hk => ?_
    have hk := List.mem_range.mp hk
    simp [isOn, show ¬ d.session.arrivalStep.toNat ≤ k by omega]
  have hduring : (List.range d.session.dwellSteps.toNat).countP (fun i => d.isOn (d.session.arrivalStep.toNat + i))
      = d.switchedOn s := by
    rw [switchedOn, ← countP_range_getD]
    refine List.countP_congr fun i hi => ?_
    have hi := List.mem_range.mp hi
    simp [isOn, show d.session.arrivalStep.toNat + i < d.session.deadlineStep.toNat by omega, hs]
  have hafter : (List.range rest).countP
      (fun i => d.isOn (d.session.arrivalStep.toNat + (d.session.dwellSteps.toNat + i))) = 0 := by
    refine List.countP_eq_zero.mpr fun i _ => ?_
    simp [isOn, show ¬ d.session.arrivalStep.toNat + (d.session.dwellSteps.toNat + i)
      < d.session.deadlineStep.toNat by omega]
  rw [onBefore, hrest, List.range_add, List.countP_append, hbefore, List.countP_map, List.range_add,
    List.countP_append, List.countP_map]
  show 0 + (List.countP (fun i => d.isOn (d.session.arrivalStep.toNat + i)) _
    + List.countP (fun i => d.isOn (d.session.arrivalStep.toNat + (d.session.dwellSteps.toNat + i))) _) = _
  rw [hduring, hafter, Nat.zero_add, Nat.add_zero]

/-! ### Energies -/

/-- The energy that a number of switches delivers, in Wh: a whole step each, until the need is met. -/
def deliveredWh (d : EvCharger ℚ) (switches : ℕ) : ℚ :=
  min d.session.energyWh (switches * d.stepWh)

theorem deliveredWh_zero (h : d.Feasible) : d.deliveredWh 0 = 0 := by
  rw [deliveredWh, Nat.cast_zero, zero_mul, min_eq_right h.energy_nonneg]

theorem deliveredWh_le (d : EvCharger ℚ) (n : ℕ) : d.deliveredWh n ≤ d.session.energyWh :=
  min_le_left _ _

/-- One switch more delivers a step more, or what is left of the need. -/
theorem deliveredWh_succ (h : d.Sound) (n : ℕ) :
    d.deliveredWh (n + 1) = d.deliveredWh n + min d.stepWh (d.session.energyWh - d.deliveredWh n) := by
  have hstep := h.stepWh_pos.le
  have hnext : ((n + 1 : ℕ) : ℚ) * d.stepWh = n * d.stepWh + d.stepWh := by
    push_cast
    ring
  unfold deliveredWh
  rw [hnext]
  rcases le_total d.session.energyWh (n * d.stepWh) with hmet | hleft
  · rw [min_eq_left hmet, min_eq_left (by linarith), sub_self, min_eq_right hstep, add_zero]
  · rw [min_eq_right hleft, ← min_add_add_left, add_sub_cancel, min_comm]

theorem deliveredWh_dwell (h : d.Feasible) : d.deliveredWh d.session.dwellSteps.toNat = d.session.energyWh := by
  have hle := h.energy_le
  rw [mul_comm] at hle
  exact min_eq_left hle

/-! ### Steps -/

theorem charge_of_off {k : ℕ} (hoff : e.isOn k = false) : e.charge (some k) = (0, e) := by
  unfold charge
  dsimp only
  rw [if_neg (by simp [hoff]), Scalar.rat_zero]

theorem charge_of_on (hpower : 0 ≤ e.maxChargeW) (hhours : 0 < (e.timing.stepHours : ℚ))
    (hremaining : 0 ≤ e.remainingWh) {k : ℕ} (hon : e.isOn k = true) :
    e.charge (some k) = (min e.maxChargeW (e.remainingWh / e.timing.stepHours),
      { e with remainingWh := e.remainingWh - min e.stepWh e.remainingWh }) := by
  have henergy : min e.maxChargeW (e.remainingWh / e.timing.stepHours) * e.timing.stepHours
      = min e.stepWh e.remainingWh := by
    rw [min_mul_of_nonneg _ _ hhours.le, div_mul_cancel₀ _ hhours.ne', stepWh]
  unfold charge
  dsimp only
  rw [Scalar.rat_zero]
  rcases hremaining.lt_or_eq with hpos | hzero
  · rw [if_pos ⟨hon, hpos⟩, Scalar.min_rat, Scalar.positivePart_rat, henergy,
      max_eq_left (sub_nonneg.mpr (min_le_right _ _))]
  · have hstep : 0 ≤ e.stepWh := mul_nonneg hpower hhours.le
    rw [if_neg (by simp [← hzero]), ← hzero, zero_div, min_eq_right hpower, min_eq_right hstep, sub_zero, hzero]

/-- A charger in a run after a number of switches that are on: nothing has changed but what is left of the need. -/
structure After (d : EvCharger ℚ) (switches : ℕ) (e : EvCharger ℚ) : Prop where
  session : e.session = d.session
  enabled : e.enabled = d.enabled
  maxChargeW : e.maxChargeW = d.maxChargeW
  penaltyPerKwh : e.penaltyPerKwh = d.penaltyPerKwh
  referenceTime : e.timing.referenceTime = d.timing.referenceTime
  step : e.timing.step = d.timing.step
  remainingWh : e.remainingWh = d.session.energyWh - d.deliveredWh switches

theorem After.stepHours {n : ℕ} (h : d.After n e) : (e.timing.stepHours : ℚ) = d.timing.stepHours := by
  rw [Timing.stepHours_rat, h.step, Timing.stepHours_rat]

/-- What a charger publishes at a step: a power within its limit, and none if the step is not switched on. -/
structure Publishes (d : EvCharger ℚ) (k : ℕ) (power : ℚ) : Prop where
  nonneg : 0 ≤ power
  le : power ≤ d.maxChargeW
  off : d.isOn k = false → power = 0

/-- **A step delivers what its switch adds.** -/
theorem charge_delivers (h : d.Sound) {n : ℕ} (he : d.After n e) (k : ℕ) :
    d.Publishes k (e.charge (some k)).1 ∧
      (e.charge (some k)).1 * d.timing.stepHours = d.deliveredWh (n + (d.isOn k).toNat) - d.deliveredWh n ∧
      d.After (n + (d.isOn k).toNat) (e.charge (some k)).2 := by
  have hhours := Timing.stepHours_pos h.step_ne_zero
  have hisOn : e.isOn k = d.isOn k := by rw [isOn, isOn, he.session, he.enabled]
  cases hon : d.isOn k with
  | false =>
    rw [charge_of_off (hisOn.trans hon)]
    refine ⟨⟨le_refl 0, h.power_pos.le, fun _ => rfl⟩, ?_, he⟩
    rw [zero_mul]
    exact (sub_self _).symm
  | true =>
    have hleft : 0 ≤ d.session.energyWh - d.deliveredWh n := sub_nonneg.mpr (d.deliveredWh_le n)
    rw [charge_of_on (by rw [he.maxChargeW]; exact h.power_pos.le) (by rw [he.stepHours]; exact hhours)
      (by rw [he.remainingWh]; exact hleft) (hisOn.trans hon), stepWh, he.maxChargeW, he.stepHours, he.remainingWh]
    show _ ∧ _ = d.deliveredWh (n + 1) - _ ∧ d.After (n + 1) _
    refine ⟨⟨le_min h.power_pos.le (div_nonneg hleft hhours.le), min_le_left _ _, fun hoff => ?_⟩, ?_, ?_⟩
    · exact absurd (hon.symm.trans hoff) (by decide)
    · rw [deliveredWh_succ h, min_mul_of_nonneg _ _ hhours.le, div_mul_cancel₀ _ hhours.ne', stepWh]
      ring
    · refine ⟨he.session, he.enabled, rfl, he.penaltyPerKwh, he.referenceTime, he.step, ?_⟩
      show _ - min (d.maxChargeW * d.timing.stepHours) _ = _
      rw [deliveredWh_succ h, stepWh]
      ring

/-- Inputs at the ticks of the first steps of a horizon, with maps that the power can be published in. -/
structure Ticks (t : Timing) (xs : List (StepInput ℚ × FlowMap ℚ)) : Prop where
  tick : ∀ k x, xs[k]? = some x → x.1.tick = t.referenceTime + UInt64.ofNat k * t.step
  allows : ∀ x ∈ xs, x.2.allows .activePower = true
  length_le : xs.length ≤ t.steps.toNat

theorem Ticks.init {t : Timing} {xs : List (StepInput ℚ × FlowMap ℚ)} {x : StepInput ℚ × FlowMap ℚ}
    (h : Ticks t (xs ++ [x])) : Ticks t xs where
  tick k y hy := h.tick k y (by rw [List.getElem?_append_left (List.getElem?_eq_some_iff.mp hy).1, hy])
  allows y hy := h.allows y (List.mem_append_left _ hy)
  length_le := by
    have hle := h.length_le
    rw [List.length_append] at hle
    omega

theorem Ticks.stepIndex? {t : Timing} (hstep : t.step ≠ 0) {xs : List (StepInput ℚ × FlowMap ℚ)}
    {x : StepInput ℚ × FlowMap ℚ} (h : Ticks t (xs ++ [x])) : t.stepIndex? x.1.tick = some xs.length := by
  have hle := h.length_le
  rw [List.length_append, List.length_singleton] at hle
  rw [h.tick xs.length x List.getElem?_concat_length]
  exact Timing.stepIndex?_ofNat hstep hle

/-- A tick publishes what the step charges. -/
theorem step_publishes {k : ℕ} {x : StepInput ℚ × FlowMap ℚ} (hx : x.2.allows .activePower = true)
    (hk : e.timing.stepIndex? x.1.tick = some k) :
    (Series.ticks step e x).1.power .activePower = (e.charge (some k)).1 ∧
      ∀ n, d.After n (e.charge (some k)).2 → d.After n (Series.ticks step e x).2 := by
  have hstep : Series.ticks step e x = (x.2.setPower .activePower (e.charge (some k)).1,
      { (e.charge (some k)).2 with timing := (e.charge (some k)).2.timing.advance x.1.tick }) := by
    rw [← hk]
    rfl
  rw [hstep]
  refine ⟨(FlowMap.power_setPower hx _ _).trans (if_pos rfl), fun n h => ?_⟩
  exact ⟨h.session, h.enabled, h.maxChargeW, h.penaltyPerKwh, h.referenceTime, h.step, h.remainingWh⟩

/-- **A part of a run delivers what the switches so far add up to.** -/
theorem run_delivers (h : d.Sound) (hd : d.After 0 d) {xs : List (StepInput ℚ × FlowMap ℚ)}
    (hxs : Ticks d.timing xs) :
    let course := Series.run (Series.ticks step) d xs
    let powers := course.1.map fun m => m.power .activePower
    (∀ k p, powers[k]? = some p → d.Publishes k p) ∧
      powers.sum * d.timing.stepHours = d.deliveredWh (d.onBefore xs.length) ∧
      d.After (d.onBefore xs.length) course.2 := by
  -- the induction is on the run, as the invariant is about what comes before a step
  induction xs using List.reverseRecOn with
  | nil =>
    refine ⟨by simp, ?_, hd⟩
    show (0 : ℚ) * _ = d.deliveredWh 0
    rw [zero_mul, deliveredWh_zero h.toFeasible]
  | append_singleton xs x ih =>
    obtain ⟨hpublishes, hsum, hafter⟩ := ih hxs.init
    have hindex : (Series.run (Series.ticks step) d xs).2.timing.stepIndex? x.1.tick = some xs.length := by
      rw [← hxs.stepIndex? h.step_ne_zero, Timing.stepIndex?, Timing.stepIndex?, hafter.referenceTime, hafter.step]
    obtain ⟨hpower, hnext⟩ := step_publishes (d := d) (hxs.allows x (by simp)) hindex
    obtain ⟨hpublish, henergy, hafter'⟩ := charge_delivers h hafter xs.length
    rw [← hpower] at hpublish henergy
    have hlength : (Series.run (Series.ticks step) d xs).1.length = xs.length := Series.length_run
    rw [Series.run_concat, List.length_append, List.length_singleton, onBefore_succ]
    dsimp only
    rw [List.map_append, List.map_singleton, List.sum_append, List.sum_singleton, add_mul, hsum, henergy]
    refine ⟨fun k p hp => ?_, add_sub_cancel _ _, hnext _ hafter'⟩
    rcases lt_or_ge k xs.length with hk | hk
    · rw [List.getElem?_append_left (by rwa [List.length_map, hlength])] at hp
      exact hpublishes k p hp
    · obtain ⟨hlt, -⟩ := List.getElem?_eq_some_iff.mp hp
      rw [List.length_append, List.length_map, List.length_singleton, hlength] at hlt
      obtain rfl : k = xs.length := by omega
      rw [List.getElem?_append_right (by rw [List.length_map, hlength]), List.length_map, hlength, Nat.sub_self] at hp
      obtain rfl := Option.some.inj hp
      exact hpublish

/-! ### Whole runs -/

/-- What a run with a solution comes to: the powers of its steps, and the charger after it. -/
structure Delivers (d : EvCharger ℚ) (s : Solution ℚ) (powers : List ℚ) (e : EvCharger ℚ) : Prop where
  length_eq : powers.length = d.timing.steps.toNat
  power_mem : ∀ p ∈ powers, 0 ≤ p ∧ p ≤ d.maxChargeW
  off : ∀ k p, powers[k]? = some p →
    (k < d.session.arrivalStep.toNat ∨ d.session.deadlineStep.toNat ≤ k ∨
      s.flags[k - d.session.arrivalStep.toNat]? ≠ some true) → p = 0
  delivered : powers.sum * d.timing.stepHours
    = min d.session.energyWh (d.switchedOn s * (d.maxChargeW * d.timing.stepHours))
  remaining : e.remainingWh = d.session.energyWh
    - min d.session.energyWh (d.switchedOn s * (d.maxChargeW * d.timing.stepHours))
  all_on : d.switchedOn s = d.session.dwellSteps.toNat → e.remainingWh = 0 ∧ e.settle.terminalCost = 0

/-- There is no charging outside the session, and none where the switch is off. -/
theorem isOn_eq_false {k : ℕ} (h : k < d.session.arrivalStep.toNat ∨ d.session.deadlineStep.toNat ≤ k ∨
    d.enabled[k - d.session.arrivalStep.toNat]? ≠ some true) : d.isOn k = false := by
  rw [isOn, Bool.and_eq_false_iff, Bool.and_eq_false_iff, decide_eq_false_iff_not, decide_eq_false_iff_not]
  rcases h with hearly | hlate | hoff
  · exact Or.inl (Or.inl (not_le.mpr hearly))
  · exact Or.inl (Or.inr (not_lt.mpr hlate))
  · right
    cases hswitch : d.enabled[k - d.session.arrivalStep.toNat]? with
    | none => rfl
    | some b =>
      rw [hswitch] at hoff
      cases b with
      | false => rfl
      | true => exact absurd rfl hoff

/-- The charger with the switches of a solution, at the start of a run in its own steps. -/
def begun (d : EvCharger ℚ) (s : Solution ℚ) (r : RunSettings) : EvCharger ℚ :=
  { d with
    timing := { d.timing with nextTick := r.referenceTime, log := r.log, keepPrediction := r.keepPrediction }
    enabled := s.flags
    remainingWh := d.session.energyWh
    terminalCost := 0 }

theorem start_withSolution (h : d.Sound) (s : Solution ℚ) {r : RunSettings} (hr : r.step = d.timing.step) :
    (d.withSolution s).start r = d.begun s r := by
  have hstep : Timing.atLeastOne r.step = d.timing.step := by
    rw [Timing.atLeastOne, hr, if_neg h.step_ne_zero]
  simp only [start, withSolution, Timing.restart, hstep, Scalar.rat_zero, begun]

theorem Sound.begun (h : d.Sound) (s : Solution ℚ) (r : RunSettings) : (d.begun s r).Sound :=
  { h with }

theorem begun_after (h : d.Sound) (s : Solution ℚ) (r : RunSettings) : (d.begun s r).After 0 (d.begun s r) := by
  refine ⟨rfl, rfl, rfl, rfl, rfl, rfl, ?_⟩
  rw [deliveredWh_zero (h.begun s r).toFeasible]
  exact (sub_zero _).symm

/-- **A run over all steps delivers what the switches that are on add up to.** -/
theorem Sound.delivers (h : d.Sound) (s : Solution ℚ) {r : RunSettings} (hr : r.step = d.timing.step)
    {xs : List (StepInput ℚ × FlowMap ℚ)} (hxs : Ticks d.timing xs) (hall : xs.length = d.timing.steps.toNat) :
    let course := Series.run (Series.ticks step) ((d.withSolution s).start r) xs
    d.Delivers s (course.1.map fun m => m.power .activePower) course.2 := by
  have hxs : Ticks (d.begun s r).timing xs := ⟨hxs.tick, hxs.allows, hxs.length_le⟩
  obtain ⟨hpublishes, hsum, hafter⟩ := run_delivers (h.begun s r) (begun_after h s r) hxs
  have hon : (d.begun s r).onBefore xs.length = d.switchedOn s := by
    rw [hall]
    exact onBefore_steps (h.begun s r).toFeasible rfl
  rw [hon] at hsum hafter
  rw [start_withSolution h s hr]
  constructor
  case length_eq => rw [List.length_map, Series.length_run, hall]
  case power_mem =>
    intro p hp
    obtain ⟨k, hk⟩ := List.mem_iff_getElem?.mp hp
    exact ⟨(hpublishes k p hk).nonneg, (hpublishes k p hk).le⟩
  case off => exact fun k p hk hoff => (hpublishes k p hk).off (isOn_eq_false hoff)
  case delivered => exact hsum
  case remaining => exact hafter.remainingWh
  case all_on =>
    intro hdwell
    rw [hdwell] at hafter
    have hnothing : (Series.run (Series.ticks step) (d.begun s r) xs).2.remainingWh = 0 := by
      rw [hafter.remainingWh]
      exact sub_eq_zero.mpr (deliveredWh_dwell h.toFeasible).symm
    refine ⟨hnothing, ?_⟩
    show _ / _ * _ = (0 : ℚ)
    rw [hnothing, zero_div, zero_mul]

end EvCharger

/-- **Every session can be met, and the switches that are on decide what is delivered.** A charger is built from all
parameters that are accepted, whatever the seed, and any session can be given to it. The session of every charger lies
within the horizon and needs no more than the greatest power delivers. A run with any solution, over all steps of the
horizon, publishes powers within the limit, and none outside the session or where the switch is off. It delivers a
whole step for each switch that is on until the need is met, what is left is the rest of the need, and with all
switches on nothing is left and nothing is missing in the end. -/
theorem session_delivered :
    (∀ (device : DeviceId) (referenceTime horizon step seed : UInt64) (maxChargeW : ℚ) (ranges : EvRanges ℚ),
      EvCharger.Accepts maxChargeW ranges →
      ∃ d, EvCharger.new device referenceTime horizon step maxChargeW ranges seed = .ok d) ∧
    ∀ d : EvCharger ℚ, d.Built →
      d.Feasible ∧
      (∀ (arrivalStep dwellSteps : UInt64) (energyWh : ℚ),
        ∃ e, d.withSession arrivalStep dwellSteps energyWh = .ok e) ∧
      ∀ (s : Solution ℚ) (r : RunSettings) (xs : List (StepInput ℚ × FlowMap ℚ)),
        r.step = d.timing.step → EvCharger.Ticks d.timing xs → xs.length = d.timing.steps.toNat →
        let course := Series.run (Series.ticks EvCharger.step) ((d.withSolution s).start r) xs
        d.Delivers s (course.1.map fun m => m.power .activePower) course.2 := by
  refine ⟨fun device referenceTime horizon step seed _ _ h => h.exists_new device referenceTime horizon step seed, ?_⟩
  intro d hd
  have h := hd.sound
  exact ⟨h.toFeasible, h.exists_withSession, fun s r xs hr hxs hall => h.delivers s hr hxs hall⟩

def EvCharger.hourly : Except Defect (EvCharger ℚ) := do
  let d ← EvCharger.new .nil 0 2700 900 7000 .default 1
  d.withSession 0 4 2000

theorem EvCharger.quarters_ticks {t : Timing} (hreference : t.referenceTime = 0) (hstep : t.step = 900)
    (hsteps : t.steps.toNat = 4) : Ticks t Series.quarters where
  tick k x hx := by
    rw [Series.quarters, List.getElem?_map] at hx
    obtain ⟨i, hi, rfl⟩ := Option.map_eq_some_iff.mp hx
    obtain ⟨hlt, rfl⟩ := List.getElem?_eq_some_iff.mp hi
    rw [List.getElem_range, hreference, hstep, UInt64.zero_add]
  allows := Series.quarters_allow
  length_le := le_of_eq hsteps.symm

/-- With the second switch off the need is met in the third step, at less than the greatest power. -/
theorem session_delivered_hourly :
    EvCharger.Accepts 7000 (.default : EvRanges ℚ) ∧
    ∃ d, EvCharger.hourly = .ok d ∧ d.Built ∧
      let s : Solution ℚ := .real #[9 / 10, 1 / 10, 8 / 10, 7 / 10]
      let course := Series.run (Series.ticks EvCharger.step) ((d.withSolution s).start .quarterHours) Series.quarters
      let powers := course.1.map fun m => m.power .activePower
      d.Delivers s powers course.2 ∧ powers = [7000, 0, 1000, 0] := by
  have haccepts : EvCharger.Accepts 7000 (.default : EvRanges ℚ) := by
    constructor <;> decide +kernel
  obtain ⟨hnew, hchargers⟩ := session_delivered
  obtain ⟨b, hb⟩ := hnew .nil 0 2700 900 1 7000 .default haccepts
  obtain ⟨-, hgiven, -⟩ := hchargers b (.drawn hb)
  obtain ⟨d, hd⟩ := hgiven 0 4 2000
  have hhourly : EvCharger.hourly = .ok d := by
    rw [EvCharger.hourly, hb]
    exact hd
  -- the charger of the seed is evaluated once
  have hvalues : (match EvCharger.hourly with
    | .ok d => decide (d.timing.referenceTime = 0 ∧ d.timing.step = 900 ∧ d.timing.steps.toNat = 4 ∧
        ((Series.run (Series.ticks EvCharger.step)
            ((d.withSolution (.real #[9 / 10, 1 / 10, 8 / 10, 7 / 10])).start .quarterHours) Series.quarters).1.map
          fun m => m.power .activePower) = [7000, 0, 1000, 0])
    | .error _ => false) = true := by decide +kernel
  rw [hhourly] at hvalues
  obtain ⟨hreference, hstep, hsteps, hpowers⟩ := of_decide_eq_true hvalues
  have harrival := UInt64.le_iff_toNat_le.mp (EvCharger.lesser_le_left 0 b.timing.steps)
  have hbuilt : d.Built := by
    refine .given (.drawn hb) (lt_of_le_of_lt (Nat.add_le_add_right harrival _) ?_) hd
    decide
  obtain ⟨-, -, hruns⟩ := hchargers d hbuilt
  refine ⟨haccepts, d, hhourly, hbuilt, ?_, hpowers⟩
  exact hruns _ _ _ hstep.symm (EvCharger.quarters_ticks hreference hstep hsteps) hsteps.symm

end HomeEnergy

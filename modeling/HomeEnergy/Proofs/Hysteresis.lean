import HomeEnergy.Proofs.Permutation
import HomeEnergy.Proofs.Series
import HomeEnergy.Proofs.Steps

/-!
# Decisions of a combined heat and power unit

A unit carries two switches from step to step, the hysteresis and whether it runs. Steps may be forced, the tank may be
too hot, and some steps come without a temperature. What the unit does can be said of the temperatures alone.

* `Chp.Armed` — a series of temperatures whose last one outside the band was below it.
* `Chp.hysteresisOn_iff` — **the hysteresis is what the temperatures so far say.**
* `Chp.Decides` — the decision of a step; `Chp.starts_eq` — **a start is counted at each step that runs after one that
  does not.**
* `unit_follows_history` — what this makes of a run.
-/

namespace HomeEnergy

namespace Chp

variable {α : Type} [Scalar α] {d e : Chp α} {temps : List (Option α)} {t : α}

/-! ### Temperatures -/

/-- A temperature outside the band of the hysteresis. -/
def Outside (d : Chp α) (t : α) : Prop :=
  t < d.onBelowC ∨ d.offAboveC < t

/-- The last temperature outside the band was below it. -/
def Armed (d : Chp α) (temps : List (Option α)) : Prop :=
  ∃ before t after, temps = before ++ some t :: after ∧ t < d.onBelowC ∧ ∀ u, some u ∈ after → ¬ d.Outside u

theorem not_armed_nil : ¬ d.Armed [] := by
  rintro ⟨before, t, after, h, -⟩
  exact absurd h (by simp)

theorem armed_concat_of_lt (h : t < d.onBelowC) : d.Armed (temps ++ [some t]) :=
  ⟨temps, t, [], rfl, h, fun _ hu => nomatch hu⟩

/-- What is not below the band leaves the hysteresis armed, unless it is above. -/
theorem armed_concat_iff {last : Option α} (h : ∀ t, last = some t → ¬ t < d.onBelowC) :
    d.Armed (temps ++ [last]) ↔ d.Armed temps ∧ ∀ t, last = some t → ¬ d.offAboveC < t := by
  constructor
  · rintro ⟨before, t, after, heq, ht, hafter⟩
    rcases List.eq_nil_or_concat after with rfl | ⟨rest, u, rfl⟩
    · obtain ⟨-, hlast⟩ := List.append_inj' heq rfl
      exact absurd ht (h t (List.head_eq_of_cons_eq hlast))
    · rw [List.concat_eq_append, ← List.cons_append, ← List.append_assoc] at heq
      obtain ⟨htemps, hlast⟩ := List.append_inj' heq rfl
      obtain rfl := List.head_eq_of_cons_eq hlast
      refine ⟨⟨before, t, rest, htemps, ht, fun u hu => hafter u (by simp [hu])⟩, fun u hu habove => ?_⟩
      exact hafter u (by simp [hu]) (Or.inr habove)
  · rintro ⟨⟨before, t, after, rfl, ht, hafter⟩, hlast⟩
    refine ⟨before, t, after ++ [last], by simp, ht, fun u hu => ?_⟩
    rcases List.mem_append.mp hu with hu | hu
    · exact hafter u hu
    · have hu := (List.mem_singleton.mp hu).symm
      exact not_or.mpr ⟨h u hu, hlast u hu⟩

theorem armed_concat_none : d.Armed (temps ++ [none]) ↔ d.Armed temps := by
  have hnothing : ∀ {p : α → Prop} (t : α), none = some t → p t := fun _ h => nomatch h
  rw [armed_concat_iff hnothing]
  exact and_iff_left hnothing

/-- **A temperature moves the hysteresis as the band says.** -/
theorem hysteresisAfter_iff (he : e.hysteresisOn = true ↔ d.Armed temps) (hon : e.onBelowC = d.onBelowC)
    (hoff : e.offAboveC = d.offAboveC) : e.hysteresisAfter t = true ↔ d.Armed (temps ++ [some t]) := by
  unfold hysteresisAfter
  rw [hon, hoff]
  by_cases hbelow : t < d.onBelowC
  · rw [if_pos hbelow]
    exact ⟨fun _ => armed_concat_of_lt hbelow, fun _ => rfl⟩
  · rw [if_neg hbelow, armed_concat_iff fun u hu => Option.some.inj hu ▸ hbelow]
    by_cases habove : d.offAboveC < t
    · rw [if_pos habove]
      exact ⟨fun h => absurd h Bool.false_ne_true, fun h => absurd habove (h.2 t rfl)⟩
    · rw [if_neg habove, he]
      exact ⟨fun h => ⟨h, fun u hu => Option.some.inj hu ▸ habove⟩, fun h => h.1⟩

/-! ### Steps -/

def tankC? (x : StepInput α × FlowMap α) : Option α :=
  x.1.flows.temperature? .heatingHotWater

/-- A unit in a run, with its ratings and its limits. -/
structure Rated (d e : Chp α) : Prop where
  electricalW : e.electricalW = d.electricalW
  thermalW : e.thermalW = d.thermalW
  gasW : e.gasW = d.gasW
  onBelowC : e.onBelowC = d.onBelowC
  offAboveC : e.offAboveC = d.offAboveC
  maxTempC : e.maxTempC = d.maxTempC
  startCost : e.startCost = d.startCost

theorem afterSteps_concat (d : Chp α) (past : List (StepInput α × FlowMap α)) (x : StepInput α × FlowMap α) :
    d.afterSteps (past ++ [x]) = ((d.afterSteps past).step x.1 x.2).2 := by
  rw [afterSteps, List.foldl_append]
  rfl

theorem afterSteps_rated (d : Chp α) (r : RunSettings) (past : List (StepInput α × FlowMap α)) :
    d.Rated ((d.start r).afterSteps past) := by
  induction past using List.reverseRecOn with
  | nil => exact ⟨rfl, rfl, rfl, rfl, rfl, rfl, rfl⟩
  | append_singleton past x ih =>
    rw [afterSteps_concat]
    exact ⟨ih.electricalW, ih.thermalW, ih.gasW, ih.onBelowC, ih.offAboveC, ih.maxTempC, ih.startCost⟩

/-- **The hysteresis is what the temperatures so far say.** -/
theorem hysteresisOn_iff (d : Chp α) (r : RunSettings) (past : List (StepInput α × FlowMap α)) :
    ((d.start r).afterSteps past).hysteresisOn = true ↔ d.Armed (past.map tankC?) := by
  induction past using List.reverseRecOn with
  | nil => exact ⟨fun h => absurd h Bool.false_ne_true, fun h => absurd h not_armed_nil⟩
  | append_singleton past x ih =>
    have hrated := d.afterSteps_rated r past
    rw [afterSteps_concat, List.map_append, List.map_singleton]
    show (decide _ _ (tankC? x)).2 = true ↔ _
    cases tankC? x with
    | none => exact ih.trans armed_concat_none.symm
    | some t => exact hysteresisAfter_iff ih hrated.onBelowC hrated.offAboveC

def ForcedAt (d : Chp α) (t : Timing) (tick : UInt64) : Prop :=
  ∃ step, t.stepIndex? tick = some step ∧ d.forced[step]? = some true

omit [Scalar α] in
theorem isForced_iff (d : Chp α) (t : Timing) (tick : UInt64) :
    d.isForced (t.stepIndex? tick) = true ↔ d.ForcedAt t tick := by
  unfold isForced ForcedAt
  cases t.stepIndex? tick with
  | none => exact ⟨fun h => absurd h Bool.false_ne_true, fun ⟨_, h, _⟩ => nomatch h⟩
  | some step =>
    cases hforced : d.forced[step]? with
    | none => simp [hforced]
    | some b => simp [hforced]

/-- What a step decides, after other ones: with a temperature by the temperatures and the schedule, and without one as
before. -/
structure Decides (d : Chp α) (t : Timing) (temps : List (Option α)) (tick : UInt64) (tank? : Option α)
    (before after : Chp α) : Prop where
  hysteresis : after.hysteresisOn = true ↔ d.Armed (temps ++ [tank?])
  runs : ∀ u, tank? = some u →
    (after.running = true ↔ u < d.maxTempC ∧ (d.ForcedAt t tick ∨ d.Armed (temps ++ [tank?])))
  repeats : tank? = none → after.running = before.running ∧ after.hysteresisOn = before.hysteresisOn

/-- **A step decides by the temperatures so far and by the schedule.** -/
theorem step_decides (d : Chp α) (r : RunSettings) (past : List (StepInput α × FlowMap α))
    (x : StepInput α × FlowMap α) :
    let before := (d.start r).afterSteps past
    d.Decides (d.timing.restart r) (past.map tankC?) x.1.tick (tankC? x) before (before.step x.1 x.2).2 := by
  obtain ⟨hforced, hindex⟩ := (d.start r).afterSteps_reads past
  have hrated := d.afterSteps_rated r past
  have hhysteresis := d.hysteresisOn_iff r (past ++ [x])
  rw [afterSteps_concat, List.map_append, List.map_singleton] at hhysteresis
  intro before
  constructor
  case hysteresis => exact hhysteresis
  case runs =>
    intro u hu
    have hflag : before.isForced (before.timing.stepIndex? x.1.tick)
        = d.isForced ((d.timing.restart r).stepIndex? x.1.tick) := by
      have hread : before.timing.stepIndex? x.1.tick = (d.timing.restart r).stepIndex? x.1.tick :=
        congrFun hindex x.1.tick
      have hschedule : before.forced = d.forced := hforced
      rw [hread]
      unfold isForced
      rw [hschedule]
    have hon : (before.step x.1 x.2).2.hysteresisOn = before.hysteresisAfter u := by
      show (before.decide _ (tankC? x)).2 = _
      rw [hu]
      rfl
    have hrunning : (before.step x.1 x.2).2.running
        = ((before.hysteresisAfter u || before.isForced (before.timing.stepIndex? x.1.tick))
          && Decidable.decide (u < d.maxTempC)) := by
      show (before.decide _ (tankC? x)).1 = _
      rw [hu, ← hrated.maxTempC]
      rfl
    rw [hrunning, Bool.and_eq_true, Bool.or_eq_true, decide_eq_true_eq, ← hon, hhysteresis, hflag, isForced_iff,
      and_comm, or_comm]
  case repeats =>
    intro hnone
    have hdecide : before.decide (before.timing.stepIndex? x.1.tick) (tankC? x)
        = (before.running, before.hysteresisOn) := by
      rw [hnone]
      rfl
    exact ⟨congrArg Prod.fst hdecide, congrArg Prod.snd hdecide⟩

/-! ### Powers -/

structure Publishes (d : Chp α) (on : Bool) (out : FlowMap α) : Prop where
  activePower : out.power .activePower = if on then -d.electricalW else 0
  heatingHotWater : out.power .heatingHotWater = if on then -d.thermalW else 0
  naturalGas : out.power .naturalGas = if on then d.gasW else 0

/-- **A step publishes what it decides.** -/
theorem step_publishes (d : Chp α) (i : StepInput α) {out : FlowMap α}
    (hout : ∀ c ∈ outputs, out.allows c = true) : d.Publishes (d.step i out).2.running (d.step i out).1 := by
  have hactive := hout .activePower (by decide)
  have hheating := hout .heatingHotWater (by decide)
  have hgas := hout .naturalGas (by decide)
  have hpowers : ∀ a h g : α,
      let m := ((out.setPower .activePower a).setPower .heatingHotWater h).setPower .naturalGas g
      m.power .activePower = a ∧ m.power .heatingHotWater = h ∧ m.power .naturalGas = g := by
    intro a h g
    simp [FlowMap.power_setPower, hactive, hheating, hgas]
  show d.Publishes (d.decide _ _).1 (if (d.decide _ _).1 = true then _ else _)
  cases (d.decide (d.timing.stepIndex? i.tick) (i.flows.temperature? .heatingHotWater)).1 with
  | true =>
    obtain ⟨ha, hh, hg⟩ := hpowers (-d.electricalW) (-d.thermalW) d.gasW
    exact ⟨ha, hh, hg⟩
  | false =>
    obtain ⟨ha, hh, hg⟩ := hpowers 0 0 0
    exact ⟨ha, hh, hg⟩

/-! ### Starts -/

def ran (d : Chp α) (r : RunSettings) (xs : List (StepInput α × FlowMap α)) (k : ℕ) : Bool :=
  ((d.start r).afterSteps (xs.take (k + 1))).running

/-- True of a step that runs, as the first one or after one that does not. -/
def startsAt (d : Chp α) (r : RunSettings) (xs : List (StepInput α × FlowMap α)) (k : ℕ) : Bool :=
  d.ran r xs k && (k == 0 || !d.ran r xs (k - 1))

theorem startsAt_append (d : Chp α) (r : RunSettings) {xs : List (StepInput α × FlowMap α)}
    (ys : List (StepInput α × FlowMap α)) {k : ℕ} (hk : k < xs.length) :
    d.startsAt r (xs ++ ys) k = d.startsAt r xs k := by
  have hran : ∀ j ≤ k, d.ran r (xs ++ ys) j = d.ran r xs j := fun j hj => by
    rw [ran, ran, List.take_append_of_le_length (by omega)]
  rw [startsAt, startsAt, hran k (le_refl k), hran (k - 1) (Nat.sub_le k 1)]

/-- The last step of a run is a start if the unit runs after it and did not run before it. -/
theorem startsAt_length (d : Chp α) (r : RunSettings) (xs : List (StepInput α × FlowMap α))
    (x : StepInput α × FlowMap α) : d.startsAt r (xs ++ [x]) xs.length
      = (((d.start r).afterSteps (xs ++ [x])).running && !((d.start r).afterSteps xs).running) := by
  have hlast : d.ran r (xs ++ [x]) xs.length = ((d.start r).afterSteps (xs ++ [x])).running := by
    rw [ran, List.take_of_length_le (by simp)]
  rw [startsAt, hlast]
  congr 1
  rcases Nat.eq_zero_or_pos xs.length with hzero | hpos
  · obtain rfl := List.length_eq_zero_iff.mp hzero
    rfl
  · have hbefore : d.ran r (xs ++ [x]) (xs.length - 1) = ((d.start r).afterSteps xs).running := by
      rw [ran, Nat.sub_add_cancel hpos, List.take_left]
    rw [hbefore, beq_false_of_ne hpos.ne', Bool.false_or]

/-- **A start is counted at each step that runs after one that does not.** -/
theorem starts_eq (d : Chp α) (r : RunSettings) (xs : List (StepInput α × FlowMap α)) :
    ((d.start r).afterSteps xs).starts = (List.range xs.length).countP (d.startsAt r xs) := by
  induction xs using List.reverseRecOn with
  | nil => rfl
  | append_singleton xs x ih =>
    have hearlier : (List.range xs.length).countP (d.startsAt r (xs ++ [x]))
        = (List.range xs.length).countP (d.startsAt r xs) :=
      List.countP_congr fun k hk => by rw [d.startsAt_append r [x] (List.mem_range.mp hk)]
    rw [List.length_append, List.length_singleton, List.range_succ, List.countP_append, List.countP_singleton,
      hearlier, ← ih, startsAt_length, afterSteps_concat]
    rw [add_ite]
    rfl

theorem Rated.publishes {on : Bool} {out : FlowMap α} (h : d.Rated e) (hout : e.Publishes on out) :
    d.Publishes on out := by
  obtain ⟨ha, hh, hg⟩ := hout
  rw [h.electricalW] at ha
  rw [h.thermalW] at hh
  rw [h.gasW] at hg
  exact ⟨ha, hh, hg⟩

end Chp

/-- **What a unit does follows from the temperatures since the start of the run and from its schedule.** A run starts
with the unit off. At a step with a temperature the unit runs exactly if the tank is not too hot and either the step is
forced or the last temperature outside the band was below it. A step without a temperature repeats the decision before
it and leaves the hysteresis alone. Each step publishes the ratings or zeros, and each step that runs as the first one
or after one that does not is a start to be paid for. -/
theorem unit_follows_history {α : Type} [Scalar α] (d : Chp α) (r : RunSettings) :
    (d.start r).running = false ∧
    (∀ (past : List (StepInput α × FlowMap α)) (x : StepInput α × FlowMap α),
      let before := (d.start r).afterSteps past
      let result := before.step x.1 x.2
      d.Decides (d.timing.restart r) (past.map Chp.tankC?) x.1.tick (Chp.tankC? x) before result.2 ∧
      ((∀ c ∈ Chp.outputs, x.2.allows c = true) → d.Publishes result.2.running result.1)) ∧
    ∀ xs : List (StepInput α × FlowMap α),
      let unit := (d.start r).afterSteps xs
      let starts := (List.range xs.length).countP (d.startsAt r xs)
      unit.starts = starts ∧ unit.settle.terminalCost = Scalar.ofNat starts * d.startCost := by
  refine ⟨rfl, fun past x => ⟨d.step_decides r past x, fun hout => ?_⟩, fun xs => ⟨d.starts_eq r xs, ?_⟩⟩
  · exact (d.afterSteps_rated r past).publishes (Chp.step_publishes _ x.1 hout)
  · show Scalar.ofNat ((d.start r).afterSteps xs).starts * ((d.start r).afterSteps xs).startCost = _
    rw [d.starts_eq r xs, (d.afterSteps_rated r xs).startCost]

def Chp.heated (tick : UInt64) (tankC : ℚ) : StepInput ℚ × FlowMap ℚ :=
  ({ tick, flows := FlowMap.unrestricted.setTemperature .heatingHotWater tankC, meter := .zero },
    .limitedTo Chp.outputs)

/-- Switched on at 50 °C, a unit with a band from 55 to 70 °C still runs at 60 °C. -/
theorem unit_follows_history_heated :
    let d : Chp ℚ := .new .nil 0 2700 900
    let before := (d.start .quarterHours).afterSteps [Chp.heated 0 50]
    let result := before.step (Chp.heated 900 60).1 (Chp.heated 900 60).2
    result.2.running = true ∧ d.Publishes true result.1 := by
  intro d before result
  obtain ⟨-, hsteps, -⟩ := unit_follows_history d .quarterHours
  obtain ⟨hdecides, hpublishes⟩ := hsteps [Chp.heated 0 50] (Chp.heated 900 60)
  have hin : ([Chp.heated 0 50].map Chp.tankC?) = [some 50] := by decide +kernel
  have hnow : Chp.tankC? (Chp.heated 900 60) = some 60 := by decide +kernel
  have hrunning : result.2.running = true := by
    refine (hdecides.runs 60 hnow).mpr ⟨by decide +kernel, Or.inr ?_⟩
    rw [hin, hnow]
    refine ⟨[], 50, [some 60], rfl, by decide +kernel, fun u hu => ?_⟩
    obtain rfl := Option.some.inj (List.mem_singleton.mp hu)
    exact not_or.mpr ⟨by decide +kernel, by decide +kernel⟩
  have hallows : ∀ c ∈ Chp.outputs, (Chp.heated 900 60).2.allows c = true := by decide +kernel
  have hresult := hpublishes hallows
  rw [hrunning] at hresult
  exact ⟨hrunning, hresult⟩

end HomeEnergy

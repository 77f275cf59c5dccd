import HomeEnergy.Proofs.HouseLoad
import HomeEnergy.Proofs.Ticks

/-!
# Where a load profile has values

A load profile is read by a division: a tick belongs to the entry whose interval of one step it is in. The end that a
profile is closed at is kept beside the entries and is not read. This module says where the two agree.

* `LoadProfile.Over` — a profile with one entry for each tick of a clock.
* `LoadProfile.Over.exists_latest` — **before the end, the value of a tick is that of the latest entry not after it**.
* `LoadProfile.Over.power_of_stop_le` — from the end on, the last value stays until the last interval is over.
* `LoadProfile.Over.power_eq_zero_iff` — **a profile is zero from its end on exactly if the last interval ends there, or the
  last value is zero.**
* `profile_extent` — what this says about the load profile of a detailed evaluation.
* `Wiring.FlatAt` — a load that is always the same, as an invariant of frames; `flatHouse_outlasts_end` — such a load is
  still shown after the end.
-/

namespace HomeEnergy

/-! ### Intervals of a clock -/

namespace Clock

variable {c : Clock} {t : UInt64}

/-- The number of the interval that a tick is in, one step long. -/
def interval (c : Clock) (t : UInt64) : Nat :=
  (t.toNat - c.current.toNat) / c.step.toNat

/-- A tick is in the interval that begins at or before it and does not end before it. -/
theorem interval_spec (hstep : 0 < c.step.toNat) (hle : c.current ≤ t) :
    c.current.toNat + c.interval t * c.step.toNat ≤ t.toNat ∧
      t.toNat < c.current.toNat + (c.interval t + 1) * c.step.toNat := by
  have hle := UInt64.le_iff_toNat_le.mp hle
  have hsplit := Nat.div_add_mod' (t.toNat - c.current.toNat) c.step.toNat
  have hrest := Nat.mod_lt (t.toNat - c.current.toNat) hstep
  rw [Nat.add_mul, Nat.one_mul]
  unfold interval
  omega

theorem interval_lt_iff (hstep : 0 < c.step.toNat) (hle : c.current ≤ t) {k : Nat} :
    c.interval t < k ↔ t.toNat < c.current.toNat + k * c.step.toNat := by
  have hle := UInt64.le_iff_toNat_le.mp hle
  rw [interval, Nat.div_lt_iff_lt_mul hstep]
  omega

/-- The end is a whole number of steps away exactly if the last counted interval ends there. -/
theorem dvd_iff (hstep : 0 < c.step.toNat) (hlt : c.current < c.stop) :
    c.step.toNat ∣ c.stop.toNat - c.current.toNat ↔
      c.stop.toNat = c.current.toNat + c.remaining * c.step.toNat := by
  have hlt := UInt64.lt_iff_toNat_lt.mp hlt
  constructor
  · rintro ⟨m, hm⟩
    have hcount : c.remaining = m := by
      refine eq_of_forall_lt_iff fun k => ?_
      rw [lt_remaining_iff hstep, ← Nat.lt_sub_iff_add_lt', hm, Nat.mul_comm, Nat.mul_lt_mul_left hstep]
    rw [hcount, Nat.mul_comm, ← hm]
    omega
  · intro h
    exact ⟨c.remaining, by rw [Nat.mul_comm]; omega⟩

end Clock

/-! ### Profiles over a clock -/

namespace LoadProfile

variable {α : Type} [Scalar α] {p : LoadProfile α} {c : Clock} {q : MeterQuantity} {t : UInt64}

theorem power_of_lt (h : t < p.start) : p.power q t = 0 :=
  if_pos h

theorem getElem?_series (q : MeterQuantity) {k : Nat} {s : MeterState α} (h : p.entries[k]? = some s) :
    p.powerAtIndex q k = s.power q ∧ (p.series q)[k]? = some (s.power q) := by
  refine ⟨by rw [powerAtIndex, h], ?_⟩
  rw [series, List.getElem?_map, Array.getElem?_toList, h]
  rfl

theorem powerAtIndex_of_size_le {k : Nat} (h : p.size ≤ k) : p.powerAtIndex q k = 0 := by
  rw [powerAtIndex, Array.getElem?_eq_none h]

/-- An entry of a record, with its place, that is the latest one not after a tick. -/
structure IsLatest (record : List (UInt64 × MeterState α)) (t : UInt64) (k : Nat) (x : UInt64 × MeterState α) :
    Prop where
  at_place : record[k]? = some x
  le : x.1 ≤ t
  latest : ∀ y ∈ record, y.1 ≤ t → y.1 ≤ x.1

/-- A profile with one entry for each tick that a clock counts. -/
structure Over (p : LoadProfile α) (c : Clock) : Prop where
  start : p.start = c.current
  step : p.step = c.step
  size : p.size = c.remaining

namespace Over

theorem power_of_le (hp : p.Over c) (hle : c.current ≤ t) : p.power q t = p.powerAtIndex q (c.interval t) := by
  have hnot : ¬ t < p.start := by rw [hp.start]; exact UInt64.not_lt.mpr hle
  rw [power, if_neg hnot, hp.start, hp.step, UInt64.toNat_div, UInt64.toNat_sub_of_le _ _ hle]
  rfl

variable (hp : p.Over c) (hstep : 0 < c.step.toNat)

include hp hstep

/-- From the end on, a profile shows its last value as long as the last interval lasts, and zero afterwards. -/
theorem power_of_stop_le (h : c.stop ≤ t) :
    p.power q t
      = if t.toNat < c.current.toNat + p.size * c.step.toNat then p.powerAtIndex q (p.size - 1) else 0 := by
  have hstop := UInt64.le_iff_toNat_le.mp h
  by_cases hle : c.current ≤ t
  · rw [power_of_le hp hle, hp.size]
    split
    · rename_i hlast
      have hk := (Clock.interval_lt_iff hstep hle).mpr hlast
      have hmore : ¬ c.interval t + 1 < c.remaining := by
        rw [Clock.lt_remaining_iff hstep]
        have := (Clock.interval_spec hstep hle).2
        omega
      congr 1
      omega
    · rename_i hover
      refine powerAtIndex_of_size_le ?_
      rw [hp.size]
      exact Nat.not_lt.mp fun h => hover ((Clock.interval_lt_iff hstep hle).mp h)
  · have hlt : t < c.current := UInt64.not_le.mp hle
    have hnone : p.size = 0 := by
      rw [hp.size]
      refine Nat.eq_zero_of_not_pos fun hpos => ?_
      have := (Clock.lt_remaining_iff hstep).mp hpos
      have := UInt64.lt_iff_toNat_lt.mp hlt
      omega
    rw [power_of_lt (by rw [hp.start]; exact hlt), powerAtIndex_of_size_le (by omega), ite_self]

/-- **A profile is zero from the end on exactly if the last interval ends there, or the last value is zero.** -/
theorem power_eq_zero_iff :
    (∀ t, c.stop ≤ t → p.power q t = 0) ↔
      c.step.toNat ∣ c.stop.toNat - c.current.toNat ∨ p.powerAtIndex q (p.size - 1) = 0 := by
  by_cases hlt : c.current < c.stop
  · rw [Clock.dvd_iff hstep hlt]
    constructor
    · intro h
      have hend := h c.stop (UInt64.le_refl _)
      rw [power_of_stop_le hp hstep (UInt64.le_refl _)] at hend
      split at hend
      · exact Or.inr hend
      · rename_i hover
        have hlast : ¬ c.current.toNat + c.remaining * c.step.toNat < c.stop.toNat := by
          rw [← Clock.lt_remaining_iff hstep]
          exact Nat.lt_irrefl _
        rw [hp.size] at hover
        exact Or.inl (by omega)
    · intro h t ht
      rw [power_of_stop_le hp hstep ht]
      have := UInt64.le_iff_toNat_le.mp ht
      rcases h with hwhole | hzero
      · rw [hp.size, if_neg (by omega)]
      · rw [hzero, ite_self]
  · -- nothing is counted, and there is no value to be shown
    have hnone : p.size = 0 := hp.size.trans (if_pos (UInt64.not_lt.mp hlt))
    have hzero : p.powerAtIndex q (p.size - 1) = 0 := powerAtIndex_of_size_le (by omega)
    refine iff_of_true (fun t ht => ?_) (Or.inr hzero)
    rw [power_of_stop_le hp hstep ht, hzero, ite_self]

/-- **Before the end, a profile shows the latest value that is not after a tick**, in all three ways to read it. -/
theorem exists_latest (hword : c.current.toNat + c.remaining * c.step.toNat < UInt64.size)
    {record : List (UInt64 × MeterState α)} (hticks : record.map (fun x => x.1) = c.ticks)
    (hstates : record.map (fun x => x.2) = p.entries.toList) (hle : c.current ≤ t) (hlt : t < c.stop) :
    ∃ k x, IsLatest record t k x ∧
      ∀ q, p.power q t = x.2.power q ∧ p.powerAtIndex q k = x.2.power q ∧ (p.series q)[k]? = some (x.2.power q) := by
  obtain ⟨hbegun, hrunning⟩ := Clock.interval_spec hstep hle
  have hk : c.interval t < c.remaining := by
    rw [Clock.lt_remaining_iff hstep]
    exact Nat.lt_of_le_of_lt hbegun (UInt64.lt_iff_toNat_lt.mp hlt)
  have htick : ∀ {j : Nat} {y : UInt64 × MeterState α}, record[j]? = some y →
      y.1.toNat = c.current.toNat + j * c.step.toNat := by
    intro j y hj
    refine Clock.toNat_tick hstep hword ?_
    rw [← hticks, List.getElem?_map, hj]
    rfl
  have hlength : c.interval t < record.length := by
    rw [← List.length_map (fun x => x.1), hticks, Clock.length_ticks hstep hword]
    exact hk
  have hget : record[c.interval t]? = some record[c.interval t] := List.getElem?_eq_getElem hlength
  have hentry : p.entries[c.interval t]? = some record[c.interval t].2 := by
    rw [← Array.getElem?_toList, ← hstates, List.getElem?_map, hget]
    rfl
  refine ⟨c.interval t, record[c.interval t], ⟨hget, ?_, fun y hy hyt => ?_⟩, fun q => ?_⟩
  · rw [UInt64.le_iff_toNat_le, htick hget]
    exact hbegun
  · -- an entry that is not after the tick is in no later interval
    obtain ⟨j, hj⟩ := List.getElem?_of_mem hy
    have hyt := UInt64.le_iff_toNat_le.mp hyt
    rw [htick hj] at hyt
    have hjk : j ≤ c.interval t := by
      refine Nat.lt_succ_iff.mp (Nat.lt_of_mul_lt_mul_right (a := c.step.toNat) ?_)
      rw [Nat.succ_eq_add_one]
      omega
    rw [UInt64.le_iff_toNat_le, htick hj, htick hget]
    exact Nat.add_le_add_left (Nat.mul_le_mul_right _ hjk) _
  · obtain ⟨hindex, hseries⟩ := getElem?_series q hentry
    exact ⟨(power_of_le hp hle).trans hindex, hindex, hseries⟩

end Over

end LoadProfile

/-! ### Load profiles of evaluations -/

section Evaluations

variable {α : Type} [Transcendental α] {plan : Plan (Device α) α} {problem : Problem (Device α) α}
  {fresh : Evaluator (Device α) α}

/-- The load profile of an evaluation is one over the clock of its window. -/
theorem Evaluator.profileOf_over {P : Type} [Part P α] {e : Evaluator P α}
    (hstep : 0 < e.window.step.toNat)
    (hword : e.window.referenceTime.toNat + e.window.tickCount * e.window.step.toNat < UInt64.size)
    (w : Wiring α) (f : Frame P α) : (e.profileOf w f).Over e.window.clock where
  start := rfl
  step := rfl
  size := by
    have hlength := congrArg List.length (Wiring.map_fst_frames e.window.clock.ticks (e.begun w f) (w := w))
    rw [List.length_map, Clock.length_ticks (c := e.window.clock) hstep hword] at hlength
    rw [← hlength]
    simp [LoadProfile.size, profileOf, frames]

/-- **The load profile of a detailed evaluation**, as long as no tick is carried beyond the last word. Before its end it
shows the meter state of the latest simulated tick that is not after a tick, and it is zero before its start. From
its end on it goes on with the last value until the last interval is over, and is zero afterwards. So it is zero from
its end on exactly if the window is a whole number of steps long, or the last value is zero. -/
theorem profile_extent (hplan : plan.evaluator = .ok (problem, fresh)) {moves : List (Traffic.Move α)}
    (hmoves : ∀ move ∈ moves, move.Carries Solution.Storable) {s : Solution α} (hs : s.Storable)
    (flags : EvaluationFlags) (recording : Recording α)
    (hword : fresh.window.referenceTime.toNat + fresh.window.tickCount * fresh.window.step.toNat < UInt64.size)
    {outcome : Outcome α} :
    let t := Traffic.run { evaluator := fresh, held := [] } moves
    let answer := t.evaluator.evaluateDetailed s flags recording
    answer.1 = .ok outcome →
      let w := fresh.window
      let p := outcome.profile
      let record := answer.2.1.samples.toList
      p.start = w.referenceTime ∧ p.stop? = some w.stop ∧ record.map (fun x => x.1) = w.clock.ticks ∧
      (∀ t, p.start ≤ t → t < w.stop → ∃ k x, LoadProfile.IsLatest record t k x ∧
        ∀ q, p.power q t = x.2.power q ∧ p.powerAtIndex q k = x.2.power q ∧
          (p.series q)[k]? = some (x.2.power q)) ∧
      (∀ q t, t < p.start → p.power q t = 0) ∧
      (∀ q t, w.stop ≤ t →
        p.power q t = if t.toNat < w.referenceTime.toNat + p.size * w.step.toNat then p.powerAtIndex q (p.size - 1)
          else 0) ∧
      ∀ q, (∀ t, w.stop ≤ t → p.power q t = 0) ↔
        w.step.toNat ∣ w.stop.toNat - w.referenceTime.toNat ∨ p.powerAtIndex q (p.size - 1) = 0 := by
  intro t answer hok w p record
  have hserves := Plan.serves hplan
  have hstep : 0 < w.step.toNat := toNat_pos_of_ne_zero hserves.step
  obtain ⟨-, hanswer⟩ | ⟨-, hanswer⟩ | ⟨hanswer, hlog⟩ := Plan.answer_cases hplan hmoves hs flags recording
  · exact nomatch hok.symm.trans hanswer
  · exact nomatch hok.symm.trans hanswer
  obtain rfl := Except.ok.inj (hok.symm.trans hanswer)
  have hrecord : record = (fresh.frames problem.wiring (fresh.startOf problem s flags)).map
      fun x => (x.1, x.2.meter) := by
    have hsamples : answer.2.1.samples = _ := congrArg Recording.samples
      (hlog.trans (Evaluator.recordingOf_startOf hserves s flags recording))
    exact congrArg Array.toList hsamples
  have hover : p.Over w.clock := Evaluator.profileOf_over hstep hword _ _
  have hticks : record.map (fun x => x.1) = w.clock.ticks := by
    rw [hrecord, List.map_map]
    exact Wiring.map_fst_frames ..
  have hstates : record.map (fun x => x.2) = p.entries.toList := by
    rw [hrecord, List.map_map]
    rfl
  refine ⟨rfl, rfl, hticks, ?_, ?_, ?_, ?_⟩
  · exact fun t hle hlt => hover.exists_latest hstep hword hticks hstates hle hlt
  · exact fun q t hlt => LoadProfile.power_of_lt hlt
  · exact fun q t hle => hover.power_of_stop_le hstep hle
  · exact fun q => hover.power_eq_zero_iff hstep

end Evaluations

/-! ### A load that is always the same -/

namespace BaseLoad

structure Flat (d : BaseLoad ℝ) (watts : ℝ) : Prop where
  base : d.baseW = watts
  amp : d.ampW = 0
  noise : d.noiseStdW = 0

/-- A flat load is its base line at every tick. -/
theorem Flat.demandW {d : BaseLoad ℝ} {watts : ℝ} (h : d.Flat watts) (hwatts : 0 < watts) (tick : UInt64) :
    d.demandW tick = (watts, d) := by
  have hquiet : (Draw.normalNoise d.noiseStdW : StateM Keystream ℝ).run d.noise = (0, d.noise) := by
    have hspread : d.noiseStdW ≤ (@OfNat.ofNat ℝ 0 (Scalar.instOfNat 0)) := by
      rw [h.noise, Scalar.real_zero]
    rw [Draw.normalNoise, if_pos hspread, Scalar.real_zero]
    rfl
  have hpositive : Scalar.positivePart watts = watts :=
    if_pos (by rw [Scalar.real_zero]; exact hwatts)
  have hvalue : Scalar.positivePart (d.baseW + d.ampW
      * Transcendental.sin (2 * Transcendental.pi * dayFraction tick + d.phaseRad) + 0) = watts := by
    rw [h.base, h.amp, zero_mul, add_zero, add_zero, hpositive]
  simp only [BaseLoad.demandW, hquiet, hvalue]

theorem Flat.step {d : BaseLoad ℝ} {watts : ℝ} (h : d.Flat watts) (hwatts : 0 < watts) (i : StepInput ℝ)
    {out : FlowMap ℝ} (hout : out = .limitedTo outputs) :
    (d.step i out).1.power .activePower = watts ∧ (d.step i out).1.clear = out ∧ (d.step i out).2.Flat watts := by
  have hdemand := h.demandW hwatts i.tick
  have hallows : out.allows .activePower = true := by
    rw [hout]
    decide +kernel
  simp only [BaseLoad.step, hdemand]
  refine ⟨?_, ?_, h.base, h.amp, h.noise⟩
  · have hreactive : (out.setPower .activePower watts).allows .reactivePower = true := by
      rw [FlowMap.allows_setPower, hout]
      decide +kernel
    rw [FlowMap.power_setPower hreactive, if_neg (by decide), FlowMap.power_setPower hallows, if_pos rfl]
  · rw [FlowMap.clear_setPower, FlowMap.clear_setPower, hout]
    rfl

end BaseLoad

namespace Wiring

variable {w : Wiring ℝ} {f : Frame (Device ℝ) ℝ} {watts : ℝ}

/-- The invariant of a frame: the first part is a flat load with a map of its own to publish its power in. -/
structure FlatAt (f : Frame (Device ℝ) ℝ) (watts : ℝ) : Prop where
  part : ∃ d, f.parts[0]? = some (.baseLoad d) ∧ d.Flat watts
  output : ∃ out, f.activeOutputs[0]? = some out ∧ out.clear = .limitedTo BaseLoad.outputs

/-- Every tick keeps the invariant, and the load publishes its base line. -/
theorem next_flatAt (hactive : 0 ∈ w.active) (hpassive : 0 ∉ w.passive) (hwatts : 0 < watts) (h : FlatAt f watts)
    (tick : UInt64) :
    FlatAt (w.next f tick) watts ∧
      ((w.next f tick).activeOutputs.getD 0 .unrestricted).power .activePower = watts := by
  obtain ⟨d, hpart, hflat⟩ := h.part
  obtain ⟨out, hout, hclear⟩ := h.output
  obtain ⟨hstepped, houtput⟩ := getElem?_stepTogether hactive hpart hout tick f.meter (w.heard f.passiveOutputs)
  obtain ⟨hpower, hcleared, hstays⟩ :=
    hflat.step hwatts { tick, flows := w.heard f.passiveOutputs 0, meter := f.meter } hclear
  have houtput : (w.next f tick).activeOutputs[0]? = some _ := houtput
  refine ⟨⟨⟨_, (getElem?_stepTogether_of_not_mem hpassive ..).trans hstepped, hstays⟩,
    ⟨_, houtput, hcleared.trans hclear⟩⟩, ?_⟩
  rw [Array.getD_eq_getD_getElem?, houtput]
  exact hpower

/-- A flat load publishes its base line in every tick of a run. -/
theorem frames_flatAt (hactive : 0 ∈ w.active) (hpassive : 0 ∉ w.passive) (hwatts : 0 < watts) (ts : List UInt64)
    (h : FlatAt f watts) :
    ∀ x ∈ w.frames f ts, (x.2.activeOutputs.getD 0 .unrestricted).power .activePower = watts := by
  induction ts generalizing f with
  | nil => exact fun x hx => absurd hx (by simp [frames])
  | cons t ts ih =>
    obtain ⟨hnext, hpower⟩ := next_flatAt hactive hpassive hwatts h t
    exact List.forall_mem_cons.mpr ⟨hpower, ih hnext⟩

end Wiring

namespace FlatHouse

def topology : Topology :=
  { meters := [.ofNat 9]
    relations := [{ active := .ofNat 1, passive := .ofNat 9, forward := .activePower, back := .activePower }]
    meterDevices := [{ meter := .ofNat 9, pv := [], chp := [], battery := [] }] }

def load (α : Type) [Transcendental α] : BaseLoad α :=
  .new (.ofNat 1) 0 1000 400 1

theorem load_flat (r : RunSettings) : ((load ℝ).start r).Flat (400 : ℕ) where
  base := if_pos (by rw [Scalar.real_zero]; exact Nat.cast_pos.mpr (by decide))
  amp := Scalar.real_zero
  noise := Scalar.real_zero

end FlatHouse

/-- A household with a load of 400 W and nothing else, over a horizon between two steps of a quarter of an hour. -/
def flatHouse (α : Type) [Transcendental α] : Plan (Device α) α :=
  { household α .dominance with
    parts := [.baseLoad (FlatHouse.load α)]
    grids := [.electrical { topology := FlatHouse.topology, fastPath := true, run? := none }] }

namespace FlatHouse

variable {problem : Problem (Device ℝ) ℝ}

/-- The load is flat from the start. -/
theorem begun_flatAt (hnew : Problem.new (flatHouse ℝ).parts (flatHouse ℝ).grids = .ok problem)
    (fresh : Evaluator (Device ℝ) ℝ) (s : Solution ℝ) (flags : EvaluationFlags) :
    0 ∈ problem.wiring.active ∧ 0 ∉ problem.wiring.passive ∧
      Wiring.FlatAt (fresh.begun problem.wiring (fresh.startOf problem s flags)) (400 : ℕ) := by
  have hactive : 0 ∈ problem.wiring.active := by
    rw [Problem.new_eq_ok hnew]
    exact Problem.mem_indicesWhere.mpr ⟨_, rfl, rfl⟩
  have hpassive : 0 ∉ problem.wiring.passive := (Problem.new_sound hnew).disjoint 0 hactive
  have htaking : 0 ∈ problem.taking := (Problem.new_sound hnew).active_taking 0 hactive
  have hpart : problem.parts[0]? = some (.baseLoad (load ℝ)) := by
    rw [Problem.new_eq_ok hnew]
    rfl
  refine ⟨hactive, hpassive, ⟨⟨(load ℝ).start (fresh.settings flags), ?_, load_flat _⟩, .limitedTo BaseLoad.outputs,
    ?_, rfl⟩⟩
  · refine (getElem?_stepTogether_of_not_mem hpassive ..).trans ?_
    simp only [Evaluator.startOf, Problem.started, Layout.handOut, Array.getElem?_mapIdx, hpart, Option.map_some,
      if_pos htaking]
    cases (fresh.layout.shares s.encoding)[0]? with
    | none => rfl
    | some r =>
      have hhanded : Layout.handed s (Device.baseLoad (load ℝ)) r = .baseLoad (load ℝ) := ite_self _
      simp only [hhanded]
      rfl
  · show (problem.activeOutputs.map FlowMap.clear)[0]? = _
    rw [Problem.new_eq_ok hnew]
    simp only [Array.getElem?_map, List.getElem?_toArray, List.getElem?_map]
    rfl

/-- The meter shows the load in every tick. -/
theorem meter_frames (hnew : Problem.new (flatHouse ℝ).parts (flatHouse ℝ).grids = .ok problem)
    (fresh : Evaluator (Device ℝ) ℝ) (s : Solution ℝ) (flags : EvaluationFlags) :
    ∀ x ∈ fresh.frames problem.wiring (fresh.startOf problem s flags), x.2.meter.power .activeExternal = (400 : ℕ) := by
  intro x hx
  obtain ⟨hactive, hpassive, hflat⟩ := begun_flatAt hnew fresh s flags
  have hpower := Wiring.frames_flatAt hactive hpassive (Nat.cast_pos.mpr (by decide)) _ hflat x hx
  have hdeclared : declaredPower (Problem.participants (flatHouse ℝ).grids (flatHouse ℝ).parts) x.2.activeOutputs (.ofNat 1)
      = (x.2.activeOutputs.getD 0 .unrestricted).power .activePower := rfl
  rw [Problem.meter_of_mem_frames problem _ _ x hx, Problem.activeExternal_eq hnew,
    show meteredRelations (flatHouse ℝ).grids = topology.relations by decide +kernel]
  simp only [topology, List.map_cons, List.map_nil, Scalar.sum_cons, Scalar.sum_nil, Scalar.real_zero, add_zero,
    hdeclared, hpower]

end FlatHouse

/-- The evaluation of the household, which has no variables. -/
theorem flatHouse_answer :
    ∃ problem fresh, (flatHouse ℝ).evaluator = .ok (problem, fresh) ∧ fresh.window = .new 0 1000 900 0 ∧
      ∃ outcome, (fresh.evaluateDetailed (.binary #[]) .none .empty).1 = .ok outcome ∧
        outcome.profile.Over fresh.window.clock ∧ outcome.profile.stop? = some 1900 ∧
        outcome.profile.powerAtIndex .activeExternal 2 = (400 : ℕ) := by
  have hcollision : Problem.collision? (flatHouse ℝ).grids = none := by
    refine Problem.collision?_eq_none.mpr ?_
    simp only [flatHouse, List.forall_mem_cons, List.not_mem_nil, false_implies, implies_true, and_true,
      Grid.topology]
    decide
  obtain ⟨problem, fresh, hplan⟩ := Plan.exists_evaluator_iff.mpr ⟨by simp [flatHouse], hcollision⟩
  obtain ⟨hnew, hfresh⟩ := Plan.evaluator_eq_ok hplan
  have hwindow : fresh.window = .new 0 1000 900 0 := by
    rw [hfresh, Problem.new_eq_ok hnew]
    rfl
  have hs : (Solution.binary #[] : Solution ℝ).Storable := by
    unfold Solution.Storable
    decide
  have hwidth : (Solution.binary #[] : Solution ℝ).size = (fresh.layout.width .binary).toNat := by
    rw [show fresh.layout = .ofParts (flatHouse ℝ).parts by rw [hfresh], Layout.width_ofParts,
      show (flatHouse ℝ).parts.map (Layout.ownedCount .binary) = [0] from rfl]
    decide
  refine ⟨problem, fresh, hplan, hwindow, ?_⟩
  have hmoves : ∀ move ∈ ([] : List (Traffic.Move ℝ)), move.Carries Solution.Storable := by simp
  obtain ⟨hrefused, -⟩ | ⟨hoverflow, -⟩ | ⟨hanswer, -⟩ := Plan.answer_cases hplan hmoves hs .none .empty
  · have htotal : Layout.totalCount .binary (flatHouse ℝ).parts = 0 := rfl
    exact absurd (Plan.accepts_of_width hplan hwidth (htotal ▸ by decide)) hrefused
  · exact absurd hoverflow (by rw [hwindow]; decide)
  have hover := Evaluator.profileOf_over (e := fresh) (by rw [hwindow]; decide) (by rw [hwindow]; decide)
    problem.wiring (fresh.startOf problem (.binary #[]) .none)
  have hsize : (fresh.profileOf problem.wiring (fresh.startOf problem (.binary #[]) .none)).size = 3 := by
    rw [hover.size, hwindow]
    decide
  have hlast : 2 < (fresh.frames problem.wiring (fresh.startOf problem (.binary #[]) .none)).length := by
    have hlength : (fresh.frames problem.wiring (fresh.startOf problem (.binary #[]) .none)).length = 3 := by
      simpa [LoadProfile.size, Evaluator.profileOf] using hsize
    omega
  refine ⟨_, hanswer, hover, ?_, ?_⟩
  · show some fresh.window.stop = _
    rw [hwindow]
    rfl
  · simp only [LoadProfile.powerAtIndex, Evaluator.profileOf, List.getElem?_toArray, List.getElem?_map,
      List.getElem?_eq_getElem hlast, Option.map_some]
    exact FlatHouse.meter_frames hnew fresh _ _ _ (List.getElem_mem hlast)

/-- The load profile of the household shows the load at all three ticks. -/
theorem profile_extent_flatHouse :
    ∃ problem fresh, (flatHouse ℝ).evaluator = .ok (problem, fresh) ∧
      (∀ move ∈ ([] : List (Traffic.Move ℝ)), move.Carries Solution.Storable) ∧
      (Solution.binary #[] : Solution ℝ).Storable ∧
      fresh.window.referenceTime.toNat + fresh.window.tickCount * fresh.window.step.toNat < UInt64.size ∧
      ∃ outcome, (fresh.evaluateDetailed (.binary #[]) .none .empty).1 = .ok outcome ∧
        (∀ t, outcome.profile.start ≤ t → t < fresh.window.stop → ∃ k x,
          LoadProfile.IsLatest (fresh.evaluateDetailed (.binary #[]) .none .empty).2.1.samples.toList t k x ∧
          ∀ q, outcome.profile.power q t = x.2.power q ∧ outcome.profile.powerAtIndex q k = x.2.power q ∧
            (outcome.profile.series q)[k]? = some (x.2.power q)) ∧
        ∀ q t, t < outcome.profile.start → outcome.profile.power q t = 0 := by
  obtain ⟨problem, fresh, hplan, hwindow, outcome, hanswer, -⟩ := flatHouse_answer
  have hmoves : ∀ move ∈ ([] : List (Traffic.Move ℝ)), move.Carries Solution.Storable := by simp
  have hs : (Solution.binary #[] : Solution ℝ).Storable := by
    unfold Solution.Storable
    decide
  have hword : fresh.window.referenceTime.toNat + fresh.window.tickCount * fresh.window.step.toNat
      < UInt64.size := by
    rw [hwindow]
    decide
  obtain ⟨-, -, -, hwithin, hbefore, -⟩ := profile_extent hplan hmoves hs .none .empty hword hanswer
  exact ⟨problem, fresh, hplan, hmoves, hs, hword, outcome, hanswer, hwithin,
    fun q t ht => (hbefore q t ht).trans Scalar.real_zero⟩

/-- The load profile of the household is closed at 1900 and shows the load a hundred ticks later. -/
theorem flatHouse_outlasts_end :
    ∃ problem fresh outcome, (flatHouse ℝ).evaluator = .ok (problem, fresh) ∧
      (fresh.evaluateDetailed (.binary #[]) .none .empty).1 = .ok outcome ∧
      outcome.profile.stop? = some 1900 ∧ outcome.profile.power .activeExternal 2000 = (400 : ℕ) := by
  obtain ⟨problem, fresh, hplan, hwindow, outcome, hanswer, hover, hstop, hlast⟩ := flatHouse_answer
  refine ⟨problem, fresh, outcome, hplan, hanswer, hstop, ?_⟩
  have hinterval : fresh.window.clock.interval 2000 = 2 := by
    rw [hwindow]
    decide
  rw [hover.power_of_le (by rw [hwindow]; decide), hinterval]
  exact hlast

end HomeEnergy

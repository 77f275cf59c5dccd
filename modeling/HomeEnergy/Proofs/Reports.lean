import HomeEnergy.Proofs.Course

/-!
# What parts keep for reports

A detailed evaluation asks parts to report while stepping and to keep their internal states. This module shows
that they do so on the side: what they publish, what the grids measure and what everything costs is the same
whether they are asked or not.

* `Part.Discreet` — the laws: a part can be stripped of what it keeps for reports, and behaves as it does
  without.
* `Device.discreet` — **the seven models obey the laws**, over every number type.
* `Evaluator.runOn_flags` — **an evaluation comes to the same result under all flags**, with or without a
  recording.
-/

namespace HomeEnergy

/-- The laws of a part that keeps things for reports and never looks at them. -/
class Part.Discreet (P : Type) {α : outParam Type} [Scalar α] [Part P α] where
  bare : P → P
  bare_start : ∀ (p : P) {r r' : RunSettings}, r.referenceTime = r'.referenceTime → r.step = r'.step →
    bare (Part.start p r) = bare (Part.start p r')
  fst_step : ∀ (p : P) (i : StepInput α) (out : FlowMap α),
    (Part.step (bare p) i out).1 = (Part.step p i out).1
  bare_step : ∀ (p : P) (i : StepInput α) (out : FlowMap α),
    bare (Part.step (bare p) i out).2 = bare (Part.step p i out).2
  terminalCost_settle : ∀ p : P,
    (Part.terminalCost (Part.settle (bare p) : P) : α) = Part.terminalCost (Part.settle p : P)

/-! ### The models -/

def Timing.bare (t : Timing) : Timing :=
  { t with log := false, keepPrediction := false }

namespace Battery

variable {α : Type} [Scalar α]

omit [Scalar α] in
def bare (d : Battery α) : Battery α :=
  { d with timing := d.timing.bare, socTrace := #[] }

theorem applySetpoint_bare (d : Battery α) (x : α) :
    d.bare.applySetpoint x = ((d.applySetpoint x).1, (d.applySetpoint x).2.bare) := by
  simp only [applySetpoint]
  rw [show d.bare.limitedPower x = d.limitedPower x from rfl]
  split
  · rfl
  · split <;> rfl

theorem step_bare (d : Battery α) (i : StepInput α) (out : FlowMap α) :
    (d.bare.step i out).1 = (d.step i out).1 ∧ (d.bare.step i out).2.bare = (d.step i out).2.bare := by
  have hsetpoint : d.bare.setpointAt i = d.setpointAt i := rfl
  simp only [step, hsetpoint, applySetpoint_bare, true_and]
  rfl

end Battery

namespace EvCharger

variable {α : Type} [Scalar α]

omit [Scalar α] in
def bare (d : EvCharger α) : EvCharger α :=
  { d with timing := d.timing.bare }

theorem step_bare (d : EvCharger α) (i : StepInput α) (out : FlowMap α) :
    (d.bare.step i out).1 = (d.step i out).1 ∧ (d.bare.step i out).2.bare = (d.step i out).2.bare := by
  have hcharge : ∀ step?, d.bare.charge step? = ((d.charge step?).1, (d.charge step?).2.bare) := by
    intro step?
    cases step? with
    | none => rfl
    | some k =>
      by_cases h : d.isOn k ∧ 0 < d.remainingWh
      · have h' : d.bare.isOn k ∧ 0 < d.bare.remainingWh := h
        simp only [charge, if_pos h, if_pos h']
        rfl
      · have h' : ¬(d.bare.isOn k ∧ 0 < d.bare.remainingWh) := h
        simp only [charge, if_neg h, if_neg h']
  have hindex : d.bare.timing.stepIndex? i.tick = d.timing.stepIndex? i.tick := rfl
  simp only [step, hindex, hcharge, true_and]
  rfl

end EvCharger

namespace HotWaterTank

variable {α : Type} [Scalar α]

omit [Scalar α] in
def bare (d : HotWaterTank α) : HotWaterTank α :=
  { d with timing := d.timing.bare, trace := #[] }

theorem step_bare (d : HotWaterTank α) (i : StepInput α) (out : FlowMap α) :
    (d.bare.step i out).1 = (d.step i out).1 ∧ (d.bare.step i out).2.bare = (d.step i out).2.bare := by
  simp only [step, after]
  rw [show d.bare.initialPending = d.initialPending from rfl]
  split
  · exact ⟨rfl, rfl⟩
  · exact ⟨rfl, rfl⟩

end HotWaterTank

namespace PvSystem

variable {α : Type} [Transcendental α]

omit [Transcendental α] in
def bare (d : PvSystem α) : PvSystem α :=
  { d with timing := d.timing.bare }

theorem step_bare (d : PvSystem α) (i : StepInput α) (out : FlowMap α) :
    (d.bare.step i out).1 = (d.step i out).1 ∧ (d.bare.step i out).2.bare = (d.step i out).2.bare := by
  have hgeneration : d.bare.generationW i.tick
      = ((d.generationW i.tick).1, (d.generationW i.tick).2.bare) := by
    have hfraction : (daylightFraction i.tick d.bare.sunriseS d.bare.sunsetS : α)
        = daylightFraction i.tick d.sunriseS d.sunsetS := rfl
    simp only [generationW, hfraction]
    by_cases h : (daylightFraction i.tick d.sunriseS d.sunsetS : α) ≤ 0
    · simp only [if_pos h]
    · simp only [if_neg h]
      rfl
  simp only [step, hgeneration, true_and]
  rfl

end PvSystem

namespace Device

variable {α : Type} [Transcendental α]

omit [Transcendental α] in
/-- A device without what it keeps for reports. -/
def bare : Device α → Device α
  | baseLoad d => baseLoad { d with timing := d.timing.bare }
  | pvSystem d => pvSystem d.bare
  | battery d => battery d.bare
  | evCharger d => evCharger d.bare
  | chp d => chp { d with timing := d.timing.bare }
  | hotWaterTank d => hotWaterTank d.bare
  | hotWaterDemand d => hotWaterDemand { d with timing := d.timing.bare }

theorem step_bare (d : Device α) (i : StepInput α) (out : FlowMap α) :
    (d.bare.step i out).1 = (d.step i out).1 ∧ (d.bare.step i out).2.bare = (d.step i out).2.bare := by
  cases d with
  | baseLoad d => exact ⟨rfl, rfl⟩
  | pvSystem d =>
    obtain ⟨hout, hnext⟩ := PvSystem.step_bare d i out
    exact ⟨hout, congrArg pvSystem hnext⟩
  | battery d =>
    obtain ⟨hout, hnext⟩ := Battery.step_bare d i out
    exact ⟨hout, congrArg battery hnext⟩
  | evCharger d =>
    obtain ⟨hout, hnext⟩ := EvCharger.step_bare d i out
    exact ⟨hout, congrArg evCharger hnext⟩
  | chp d => exact ⟨rfl, rfl⟩
  | hotWaterTank d =>
    obtain ⟨hout, hnext⟩ := HotWaterTank.step_bare d i out
    exact ⟨hout, congrArg hotWaterTank hnext⟩
  | hotWaterDemand d => exact ⟨rfl, rfl⟩

/-- **The seven models keep for reports what they never look at.** -/
instance discreet : Part.Discreet (Device α) where
  bare := bare
  bare_start d r r' htime hstep := by
    cases d <;>
      simp [Part.start, start, BaseLoad.start, PvSystem.start, Battery.start, EvCharger.start, Chp.start,
        HotWaterTank.start, HotWaterDemand.start, bare, PvSystem.bare, Battery.bare, EvCharger.bare,
        HotWaterTank.bare, Timing.restart, Timing.bare, htime, hstep]
  fst_step d i out := (step_bare d i out).1
  bare_step d i out := (step_bare d i out).2
  terminalCost_settle d := by cases d <;> rfl

end Device

/-! ### Runs -/

section Runs

variable {P α : Type} [Scalar α] [Part P α] [Part.Discreet P]

open Part.Discreet (bare)

/-- Two frames that differ in what parts keep for reports. -/
structure Frame.Alike (f g : Frame P α) : Prop where
  parts : f.parts.map bare = g.parts.map bare
  activeOutputs : f.activeOutputs = g.activeOutputs
  passiveOutputs : f.passiveOutputs = g.passiveOutputs
  meter : f.meter = g.meter

/-- Parts that are alike are alike after a step, and publish the same. -/
theorem stepTogether_alike (indices : List Nat) (tick : UInt64) (meter : MeterState α)
    (received : Nat → FlowMap α) {ps qs : Array P} (h : ps.map bare = qs.map bare)
    (outputs : Array (FlowMap α)) :
    (stepTogether indices tick meter received ps outputs).1.map bare
        = (stepTogether indices tick meter received qs outputs).1.map bare ∧
      (stepTogether indices tick meter received ps outputs).2
        = (stepTogether indices tick meter received qs outputs).2 := by
  have hget : ∀ i : Nat, ps[i]?.map bare = qs[i]?.map bare := by
    intro i
    have hi := congrArg (fun parts => parts[i]?) h
    simpa using hi
  constructor
  · apply Array.ext_getElem?
    intro i
    simp only [stepTogether, Array.getElem?_map, Array.getElem?_mapIdx, Option.map_map]
    cases hp : ps[i]? <;> cases hq : qs[i]? <;> have hi := hget i <;> simp only [hp, hq] at hi ⊢
    · exact absurd hi (by simp)
    · exact absurd hi (by simp)
    · rename_i p q
      have hbare : bare p = bare q := Option.some.inj hi
      simp only [Option.map_some, Function.comp_apply, Option.some.injEq]
      by_cases hmem : i ∈ indices
      · simp only [if_pos hmem, stepAlone]
        rw [← Part.Discreet.bare_step p, hbare, Part.Discreet.bare_step]
      · simp only [if_neg hmem, hbare]
  · simp only [stepTogether]
    congr 1
    funext i out
    cases hp : ps[i]? <;> cases hq : qs[i]? <;> have hi := hget i <;> simp only [hp, hq] at hi ⊢
    · exact absurd hi (by simp)
    · exact absurd hi (by simp)
    · rename_i p q
      have hbare : bare p = bare q := Option.some.inj hi
      by_cases hmem : i ∈ indices
      · simp only [if_pos hmem, stepAlone]
        rw [← Part.Discreet.fst_step p, hbare, Part.Discreet.fst_step]
      · simp only [if_neg hmem]

namespace Wiring

variable {w : Wiring α} {f g : Frame P α}

theorem next_alike (h : f.Alike g) (t : UInt64) : (w.next f t).Alike (w.next g t) := by
  obtain ⟨hparts, hactive, hpassive, hmeter⟩ := h
  obtain ⟨hparts₁, hactive₁⟩ :=
    stepTogether_alike w.active t g.meter (w.heard g.passiveOutputs) hparts g.activeOutputs
  simp only [next, hactive, hpassive, hmeter]
  rw [hactive₁]
  obtain ⟨hparts₂, hpassive₂⟩ := stepTogether_alike w.passive t
    (w.measured (stepTogether w.active t g.meter (w.heard g.passiveOutputs) g.parts g.activeOutputs).2)
    (w.told (stepTogether w.active t g.meter (w.heard g.passiveOutputs) g.parts g.activeOutputs).2)
    hparts₁ g.passiveOutputs
  exact ⟨hparts₂, rfl, hpassive₂, rfl⟩

theorem first_alike (h : f.Alike g) (t : UInt64) : (w.first f t).Alike (w.first g t) := by
  obtain ⟨hparts, hpassive⟩ :=
    stepTogether_alike w.passive t .zero (fun _ => .unrestricted) h.parts g.passiveOutputs
  simp only [first, h.passiveOutputs]
  exact ⟨hparts, h.activeOutputs, hpassive, rfl⟩

theorem last_alike (ts : List UInt64) (h : f.Alike g) : (w.last f ts).Alike (w.last g ts) := by
  induction ts generalizing f g with
  | nil => exact h
  | cons t ts ih => exact ih (next_alike h t)

theorem meters_alike (ts : List UInt64) (h : f.Alike g) :
    (w.frames f ts).map (fun x => x.2.meter) = (w.frames g ts).map fun x => x.2.meter := by
  induction ts generalizing f g with
  | nil => rfl
  | cons t ts ih =>
    have hnext := next_alike (w := w) h t
    simp only [frames, List.map_cons, hnext.meter, ih hnext]

end Wiring

/-- Parts that are alike cost the same. -/
theorem Run.cost_alike {ps qs : Array P} (h : ps.map bare = qs.map bare) (i : Nat) :
    (Run.cost ps i : α) = Run.cost qs i := by
  have hi := congrArg (fun parts => parts[i]?) h
  simp only [Array.getElem?_map] at hi
  unfold Run.cost
  cases hp : ps[i]? <;> cases hq : qs[i]? <;> simp only [hp, hq] at hi ⊢
  · exact absurd hi (by simp)
  · exact absurd hi (by simp)
  · have hbare := Option.some.inj hi
    rw [← Part.Discreet.terminalCost_settle, hbare, Part.Discreet.terminalCost_settle]

namespace Evaluator

variable {e : Evaluator P α} {m c : Problem P α} {n : Nat}

/-- An evaluation starts alike under all flags. -/
theorem startOf_alike (e : Evaluator P α) (c : Problem P α) (s : Solution α)
    (flags flags' : EvaluationFlags) : (e.startOf c s flags).Alike (e.startOf c s flags') := by
  refine ⟨?_, rfl, rfl, rfl⟩
  apply Array.ext
  · simp [startOf, Problem.started]
  · intro i h₁ h₂
    simp only [startOf, Problem.started, Array.getElem_map, Array.getElem_mapIdx]
    split
    · exact Part.Discreet.bare_start _ rfl rfl
    · rfl

/-- **An evaluation comes to the same result under all flags**, with or without a recording. -/
theorem runOn_flags (he : e.Serves m n) (h : c.Like m n) (s : Solution α)
    (flags flags' : EvaluationFlags) (recording? recording?' : Option (Recording α)) :
    (e.runOn c s flags recording?).result = (e.runOn c s flags' recording?').result := by
  by_cases haccepts : e.layout.Accepts s
  · by_cases hfits : e.Fits
    · rw [(runOn_eq he h haccepts hfits flags recording?).1,
        (runOn_eq he h haccepts hfits flags' recording?').1]
      have hbegun : (e.begun m.wiring (e.startOf c s flags)).Alike
          (e.begun m.wiring (e.startOf c s flags')) :=
        Wiring.first_alike (startOf_alike e c s flags flags') _
      have hprofile : e.profileOf m.wiring (e.startOf c s flags)
          = e.profileOf m.wiring (e.startOf c s flags') := by
        simp only [profileOf, frames, Wiring.meters_alike _ hbegun]
      have hcost := Run.cost_alike (α := α)
        (Wiring.last_alike (w := m.wiring) e.window.clock.ticks hbegun).parts
      simp only [fitnessOf, hprofile, ended, hcost]
    · rw [(runOn_overflow he h haccepts hfits flags recording?).1,
        (runOn_overflow he h haccepts hfits flags' recording?').1]
  · rw [runOn_refused he h haccepts, runOn_refused he h haccepts]

end Evaluator

end Runs

end HomeEnergy

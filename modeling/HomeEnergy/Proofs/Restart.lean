import HomeEnergy.Device

/-!
# What a start forgets

A part goes through runs: it gets its share of a solution, is started, stepped and settled. This module
says which of that a later run can see: nothing but the solution, and of the solutions only the latest.

* `Part.Restartable` — the laws: a start overwrites whatever an earlier start, step or settlement left,
  and a solution overwrites an earlier solution; a step keeps the commodities that its output map allows.
* `Part.Twin` — two parts that every start makes equal; `Part.Kin` — two parts that every solution
  followed by a start makes equal.
* `Device.restartable` — **the seven models obey the laws**, over every number type.
-/

namespace HomeEnergy

/-- The laws of a part that carries nothing but its solution from one run into the next. -/
class Part.Restartable (P : Type) {α : outParam Type} [Scalar α] [Part P α] : Prop where
  start_start : ∀ (p : P) (r r' : RunSettings), Part.start (Part.start p r) r' = Part.start p r'
  start_step : ∀ (p : P) (i : StepInput α) (out : FlowMap α) (r : RunSettings),
    Part.start (Part.step p i out).2 r = Part.start p r
  start_settle : ∀ (p : P) (r : RunSettings), Part.start (Part.settle p) r = Part.start p r
  withSolution_start : ∀ (p : P) (r : RunSettings) (s : Solution α),
    Part.withSolution (Part.start p r) s = Part.start (Part.withSolution p s) r
  withSolution_withSolution : ∀ (p : P) (s s' : Solution α),
    Part.withSolution (Part.withSolution p s) s' = Part.withSolution p s'
  clear_step : ∀ (p : P) (i : StepInput α) (out : FlowMap α),
    (Part.step p i out).1.clear = out.clear
  variableCount_binary : ∀ p : P, Part.variableCount p .binary = Part.variableCount p .real ∨
    Part.variableCount p .binary = 2 * Part.variableCount p .real

/-! ### Parts that a start makes equal -/

namespace Part

variable {P α : Type} [Scalar α] [Part P α]

/-- Two parts that a start makes equal: they differ in run state only. -/
def Twin (p q : P) : Prop :=
  ∀ r, Part.start p r = Part.start q r

/-- Two parts that a solution followed by a start makes equal: they differ in run state and in the
solution they hold. -/
def Kin (p q : P) : Prop :=
  ∀ s r, Part.start (Part.withSolution p s) r = Part.start (Part.withSolution q s) r

omit [Scalar α] in
theorem Twin.refl (p : P) : Twin p p := fun _ => rfl

omit [Scalar α] in
theorem Kin.refl (p : P) : Kin p p := fun _ _ => rfl

omit [Scalar α] in
theorem Twin.trans {p q t : P} (h : Twin p q) (h' : Twin q t) : Twin p t :=
  fun r => (h r).trans (h' r)

omit [Scalar α] in
theorem Kin.trans {p q t : P} (h : Kin p q) (h' : Kin q t) : Kin p t :=
  fun s r => (h s r).trans (h' s r)

variable [Part.Restartable P]

theorem Twin.kin {p q : P} (h : Twin p q) : Kin p q := by
  intro s r
  rw [← Restartable.withSolution_start, ← Restartable.withSolution_start, h r]

theorem twin_start (p : P) (r : RunSettings) : Twin (Part.start p r) p :=
  fun r' => Restartable.start_start p r r'

theorem twin_step (p : P) (i : StepInput α) (out : FlowMap α) : Twin (Part.step p i out).2 p :=
  fun r => Restartable.start_step p i out r

theorem twin_settle (p : P) : Twin (Part.settle p) p :=
  fun r => Restartable.start_settle p r

theorem kin_withSolution (p : P) (s : Solution α) : Kin (Part.withSolution p s) p := by
  intro s' r
  rw [Restartable.withSolution_withSolution]

end Part

/-! ### The device models, one after the other -/

namespace Battery

variable {α : Type} [Scalar α]

/-- The setpoints of bits depend on the battery through its power limits alone. -/
theorem bitSetpoints_congr {d d' : Battery α} (hc : d.maxChargeW = d'.maxChargeW)
    (hd : d.maxDischargeW = d'.maxDischargeW) :
    ∀ bits : List Bool, d.bitSetpoints bits = d'.bitSetpoints bits
  | [] => rfl
  | [_] => rfl
  | a :: b :: rest => by
    have hpair : d.bitsSetpoint a b = d'.bitsSetpoint a b := by
      cases a <;> cases b <;> simp [bitsSetpoint, hc, hd]
    simp only [bitSetpoints, hpair, bitSetpoints_congr hc hd rest]

theorem withSolution_congr {d d' : Battery α} (hc : d.maxChargeW = d'.maxChargeW)
    (hd : d.maxDischargeW = d'.maxDischargeW) (s : Solution α) :
    (d.withSolution s).setpoints = (d'.withSolution s).setpoints := by
  cases s with
  | binary bits => simp only [withSolution, bitSetpoints_congr hc hd]
  | real values =>
    have hreal : d.realSetpoint = d'.realSetpoint := by
      funext x
      simp [realSetpoint, hc, hd]
    simp only [withSolution, hreal]

theorem withSolution_eq (d : Battery α) (s : Solution α) :
    d.withSolution s = { d with setpoints := (d.withSolution s).setpoints } := by
  cases s <;> rfl

theorem start_applySetpoint (d : Battery α) (x : α) (r : RunSettings) :
    (d.applySetpoint x).2.start r = d.start r := by
  simp only [applySetpoint]
  split
  · rfl
  · split <;> rfl

theorem start_step (d : Battery α) (i : StepInput α) (out : FlowMap α) (r : RunSettings) :
    (d.step i out).2.start r = d.start r := by
  rw [← start_applySetpoint d (d.setpointAt i) r]
  rfl

theorem withSolution_start (d : Battery α) (r : RunSettings) (s : Solution α) :
    (d.start r).withSolution s = (d.withSolution s).start r := by
  have hset : ((d.start r).withSolution s).setpoints = (d.withSolution s).setpoints :=
    @withSolution_congr _ _ (d.start r) d rfl rfl s
  rw [withSolution_eq (d.start r), hset, withSolution_eq d]
  rfl

theorem withSolution_withSolution (d : Battery α) (s s' : Solution α) :
    (d.withSolution s).withSolution s' = d.withSolution s' := by
  have hc : (d.withSolution s).maxChargeW = d.maxChargeW := by rw [withSolution_eq]
  have hd : (d.withSolution s).maxDischargeW = d.maxDischargeW := by rw [withSolution_eq]
  rw [withSolution_eq (d.withSolution s) s', withSolution_congr hc hd, withSolution_eq d s',
    withSolution_eq d s]

omit [Scalar α] in
theorem variableCount_binary (d : Battery α) :
    d.variableCount .binary = d.variableCount .real ∨
      d.variableCount .binary = 2 * d.variableCount .real := by
  unfold variableCount
  cases d.mode
  · exact Or.inr rfl
  · exact Or.inl rfl

end Battery

namespace EvCharger

variable {α : Type} [Scalar α]

theorem start_charge (d : EvCharger α) (step? : Option Nat) (r : RunSettings) :
    (d.charge step?).2.start r = d.start r := by
  unfold charge
  split
  · rfl
  · split <;> rfl

theorem start_step (d : EvCharger α) (i : StepInput α) (out : FlowMap α) (r : RunSettings) :
    (d.step i out).2.start r = d.start r := by
  rw [← start_charge d (d.timing.stepIndex? i.tick) r]
  rfl

end EvCharger

namespace HotWaterTank

variable {α : Type} [Scalar α]

theorem start_after (d : HotWaterTank α) (i : StepInput α) (r : RunSettings) :
    (d.after i).start r = d.start r := by
  unfold after
  split
  · rfl
  · rfl

end HotWaterTank

namespace PvSystem

variable {α : Type} [Transcendental α]

theorem start_generationW (d : PvSystem α) (tick : UInt64) (r : RunSettings) :
    (d.generationW tick).2.start r = d.start r := by
  simp only [generationW]
  split <;> rfl

theorem start_step (d : PvSystem α) (i : StepInput α) (out : FlowMap α) (r : RunSettings) :
    (d.step i out).2.start r = d.start r := by
  rw [← start_generationW d i.tick r]
  rfl

end PvSystem

namespace Device

variable {α : Type} [Transcendental α]

theorem start_step (d : Device α) (i : StepInput α) (out : FlowMap α) (r : RunSettings) :
    (d.step i out).2.start r = d.start r := by
  cases d with
  | baseLoad d => rfl
  | pvSystem d => exact congrArg pvSystem (PvSystem.start_step d i out r)
  | battery d => exact congrArg battery (Battery.start_step d i out r)
  | evCharger d => exact congrArg evCharger (EvCharger.start_step d i out r)
  | chp d => rfl
  | hotWaterTank d => exact congrArg hotWaterTank (HotWaterTank.start_after d i r)
  | hotWaterDemand d => rfl

/-- A device writes into its output map and does not replace it. -/
theorem clear_step (d : Device α) (i : StepInput α) (out : FlowMap α) :
    (d.step i out).1.clear = out.clear := by
  cases d with
  | baseLoad d => simp [step, BaseLoad.step]
  | pvSystem d => simp [step, PvSystem.step]
  | battery d => simp [step, Battery.step]
  | evCharger d => simp [step, EvCharger.step]
  | chp d =>
    simp only [step, Chp.step]
    split <;> simp
  | hotWaterTank d => simp [step, HotWaterTank.step]
  | hotWaterDemand d => simp [step, HotWaterDemand.step]

theorem withSolution_start (d : Device α) (r : RunSettings) (s : Solution α) :
    (d.start r).withSolution s = (d.withSolution s).start r := by
  cases d with
  | battery d => exact congrArg battery (Battery.withSolution_start d r s)
  | _ => rfl

theorem withSolution_withSolution (d : Device α) (s s' : Solution α) :
    (d.withSolution s).withSolution s' = d.withSolution s' := by
  cases d with
  | battery d => exact congrArg battery (Battery.withSolution_withSolution d s s')
  | _ => rfl

omit [Transcendental α] in
theorem variableCount_binary (d : Device α) : d.variableCount .binary = d.variableCount .real ∨
    d.variableCount .binary = 2 * d.variableCount .real := by
  cases d with
  | battery d => exact Battery.variableCount_binary d
  | _ => exact Or.inl rfl

/-- **The seven models carry nothing but their solution from one run into the next.** -/
instance restartable : Part.Restartable (Device α) where
  start_start d r r' := by cases d <;> rfl
  start_step := start_step
  start_settle d r := by cases d <;> rfl
  withSolution_start := withSolution_start
  withSolution_withSolution := withSolution_withSolution
  clear_step := clear_step
  variableCount_binary := variableCount_binary

end Device

end HomeEnergy

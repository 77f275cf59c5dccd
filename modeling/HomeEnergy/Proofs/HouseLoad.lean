import HomeEnergy.Proofs.Encodings
import HomeEnergy.Proofs.Faithfulness
import HomeEnergy.Proofs.Series

/-!
# A battery that offsets the house

A battery for self-consumption reads the net power of the tick before, which its own power is part of, and takes off
the power that it remembers. In exact numbers what is left is what all other devices have published, so that the
battery follows the house and never itself.

* `Battery.store` — a battery without what a setpoint neither reads nor changes; `Battery.run_congr` — batteries with the
  same store follow setpoints alike. `Battery.stepAlone_selfConsumption` — one step of a battery for self-consumption.
* `Problem.houseLoad` — what the relations of all other devices carry to the meters.
* `Problem.Offsets` — the invariant of a frame: the net power without the power that the battery remembers is the load of
  the house; `Problem.next_offsets` — **every tick keeps it, and the battery follows what it says**.
* `Problem.powers_frames` — the powers of the battery over a run; `Evaluator.recordingOf_offsets` — the same, as the
  recording has it.
* `Plan.detailed_answer` — what an evaluation answers, read off the frames of a fresh run.
* `battery_follows_house` — **in every evaluation the battery idles in the first tick, and then follows the load of the
  house in the tick before**.
-/

namespace HomeEnergy

/-! ### What a setpoint reads -/

namespace Battery

variable {α : Type} [Scalar α]

/-- A battery without what a setpoint neither reads nor changes. -/
def store (d : Battery α) : Battery α :=
  { d with
    timing := { d.timing with nextTick := 0 }
    setpoints := #[]
    lastPowerW := 0
    socTrace := #[]
    terminalCost := 0 }

theorem applySetpoint_store (d : Battery α) (w : α) :
    d.store.applySetpoint w = ((d.applySetpoint w).1, (d.applySetpoint w).2.store) := by
  have hlimited : d.store.limitedPower w = d.limitedPower w := rfl
  simp only [applySetpoint, hlimited]
  split
  · rfl
  · split <;> rfl

/-- Batteries with the same store follow setpoints alike. -/
theorem run_congr {d d' : Battery α} (h : d.store = d'.store) (ws : List α) :
    (Series.run applySetpoint d ws).1 = (Series.run applySetpoint d' ws).1 ∧
      (Series.run applySetpoint d ws).2.store = (Series.run applySetpoint d' ws).2.store := by
  induction ws generalizing d d' with
  | nil => exact ⟨rfl, h⟩
  | cons w ws ih =>
    have hstep := (applySetpoint_store d w).symm.trans ((congrArg (applySetpoint · w) h).trans
      (applySetpoint_store d' w))
    obtain ⟨hpower, hafter⟩ := Prod.mk.inj hstep
    obtain ⟨hpowers, hend⟩ := ih hafter
    rw [Series.run_cons, Series.run_cons, hpower, hpowers]
    exact ⟨rfl, hend⟩

theorem noted_store (d : Battery α) (power : α) (tick : UInt64) : (d.noted power tick).store = d.store := rfl

theorem applySetpoint_mode (d : Battery α) (w : α) : (d.applySetpoint w).2.mode = d.mode := by
  unfold applySetpoint
  dsimp only
  split
  · rfl
  · split <;> rfl

/-- A battery that is asked for nothing idles. -/
theorem applySetpoint_zero {d : Battery ℝ} (h : 0 ≤ d.maxChargeW) : (d.applySetpoint 0).1 = 0 := by
  have hlimited : d.limitedPower 0 = 0 := by
    simp only [limitedPower, Scalar.real_zero, le_refl, if_true]
    show (if (0 : ℝ) < d.maxChargeW then 0 else d.maxChargeW) = 0
    by_cases hpos : 0 < d.maxChargeW
    · rw [if_pos hpos]
    · rw [if_neg hpos, le_antisymm (not_lt.mp hpos) h]
  have hidle : ¬ (@OfNat.ofNat ℝ 0 (Scalar.instOfNat 0)) < d.limitedPower 0 ∧
      ¬ d.limitedPower 0 < (@OfNat.ofNat ℝ 0 (Scalar.instOfNat 0)) := by
    rw [hlimited, Scalar.real_zero]
    exact ⟨lt_irrefl 0, lt_irrefl 0⟩
  rw [applySetpoint_idle hidle.1 hidle.2, Scalar.real_zero]

/-- A battery for self-consumption offsets what the meters have measured without the power that it remembers. -/
theorem stepAlone_selfConsumption {d : Battery ℝ} (hmode : d.mode = .selfConsumption) (tick : UInt64)
    (meter : MeterState ℝ) (flows out : FlowMap ℝ) :
    let followed := d.applySetpoint (-(meter.power .activeExternal - d.lastPowerW))
    stepAlone tick meter flows (Device.battery d) out
      = (out.clear.setPower .activePower followed.1, .battery (followed.2.noted followed.1 tick)) := by
  intro followed
  have hsetpoint : d.setpointAt { tick, flows, meter } = -(meter.power .activeExternal - d.lastPowerW) := by
    simp only [setpointAt, hmode]
  show ((d.step _ out.clear).1, Device.battery (d.step _ out.clear).2) = _
  simp only [step, hsetpoint]
  rfl

end Battery

/-! ### The load of the house -/

/-- The relations along which the active power of other devices flows to a meter. -/
def othersMetered {α : Type} (grids : List (Grid α)) (d : DeviceId) : List Relation :=
  (meteredRelations grids).filter fun r => r.active != d

namespace Recording

variable {α : Type} [Scalar α]

/-- What the relations of other devices carried to the meters in a tick, counted from zero, by what a recording says
about the devices. -/
def houseLoad (r : Recording α) (grids : List (Grid α)) (d : DeviceId) (k : Nat) : α :=
  Scalar.sum ((othersMetered grids d).map fun relation => r.activePowerOf relation.active k)

/-- The setpoint that offsets the load of the house in the tick before, which is not known in the first tick. -/
def offset (r : Recording α) (grids : List (Grid α)) (d : DeviceId) : Nat → α
  | 0 => 0
  | k + 1 => -(r.houseLoad grids d k)

end Recording

/-- Emptied maps declare nothing. -/
theorem declaredPower_clear {α : Type} [Scalar α] (ps : Participants) (outputs : Array (FlowMap α))
    (device : DeviceId) : declaredPower ps (outputs.map FlowMap.clear) device = 0 := by
  have hempty : ∀ i, ((outputs.map FlowMap.clear).getD i .unrestricted).power .activePower = 0 := by
    intro i
    rw [Array.getD_eq_getD_getElem?, Array.getElem?_map]
    cases outputs[i]? <;>
      simp [FlowMap.power, FlowMap.containsPower, FlowMap.clear, FlowMap.unrestricted, FlowMap.withAllowed]
  unfold declaredPower
  split
  · split
    · exact hempty _
    · rfl
  · rfl

namespace Problem

variable {parts : List (Device ℝ)} {grids : List (Grid ℝ)} {problem : Problem (Device ℝ) ℝ} {b : Nat}
  {d : Battery ℝ} {device : DeviceId}

noncomputable def houseLoad (grids : List (Grid ℝ)) (ps : Participants) (d : DeviceId)
    (outputs : Array (FlowMap ℝ)) : ℝ :=
  Scalar.sum ((othersMetered grids d).map fun r => declaredPower ps outputs r.active)

/-- The one relation of a device to a meter. -/
theorem exists_metered (hone : ((meteredRelations grids).filter fun r => r.active == device).length = 1) :
    ∃ own ∈ meteredRelations grids, own.active = device ∧
      (meteredRelations grids).filter (fun r => r.active == device) = [own] := by
  obtain ⟨own, hown⟩ := List.length_eq_one_iff.mp hone
  have hmem : own ∈ (meteredRelations grids).filter fun r => r.active == device := by rw [hown]; simp
  obtain ⟨hmetered, hdevice⟩ := List.mem_filter.mp hmem
  exact ⟨own, hmetered, by simpa using hdevice, hown⟩

/-- The net power is the load of the house and the power of the device with the one relation left out. -/
theorem sum_metered (ps : Participants)
    (hone : ((meteredRelations grids).filter fun r => r.active == device).length = 1)
    (outputs : Array (FlowMap ℝ)) :
    Scalar.sum ((meteredRelations grids).map fun r => declaredPower ps outputs r.active)
      = declaredPower ps outputs device + houseLoad grids ps device outputs := by
  obtain ⟨own, -, hdevice, hown⟩ := exists_metered hone
  have hperm := List.filter_append_perm (fun r : Relation => r.active == device) (meteredRelations grids)
  rw [← Scalar.sum_perm (hperm.map _), hown, List.singleton_append, List.map_cons, Scalar.sum_cons, hdevice]
  rfl

/-- The part that the grids take for the device of an identity. -/
theorem activeIndex?_spec (hb : parts[b]? = some (.battery d))
    (hindex : (participants grids parts).activeIndex? device = some b) (outputs : Array (FlowMap ℝ)) :
    roleOf grids (Device.battery d) = .active ∧
      declaredPower (participants grids parts) outputs device
        = (outputs.getD b .unrestricted).power .activePower := by
  obtain ⟨q, hq, hqb⟩ := Option.map_eq_some_iff.mp hindex
  obtain ⟨hmem, hrole⟩ := ReducedRelations.inRole?_eq_some hq
  obtain ⟨p, i, hp, -, rfl⟩ := mem_participants hmem
  obtain rfl : i = b := hqb
  obtain rfl : Device.battery d = p := Option.some.inj (hb.symm.trans hp)
  refine ⟨hrole, ?_⟩
  rw [declaredPower, hq]
  rfl

theorem mem_active (hnew : Problem.new parts grids = .ok problem) (hb : parts[b]? = some (.battery d))
    (hindex : (participants grids parts).activeIndex? device = some b) : b ∈ problem.wiring.active := by
  obtain ⟨hrole, -⟩ := activeIndex?_spec hb hindex #[]
  rw [new_eq_ok hnew]
  exact mem_indicesWhere.mpr ⟨_, hb, by simp [hrole, Part.isStatic, Device.isStatic]⟩

/-- The invariant of a frame: the battery offsets the house, it has a map of its own to publish its power in, and the
net power without the power that it remembers is the load of the house. -/
structure Offsets (parts : List (Device ℝ)) (grids : List (Grid ℝ)) (device : DeviceId) (b : Nat)
    (f : Frame (Device ℝ) ℝ) (d : Battery ℝ) : Prop where
  part : f.parts[b]? = some (.battery d)
  mode : d.mode = .selfConsumption
  output : ∃ out, f.activeOutputs[b]? = some out ∧ out.clear = .limitedTo Battery.outputs
  load : f.meter.power .activeExternal - d.lastPowerW
    = houseLoad grids (participants grids parts) device f.activeOutputs

/-- **Every tick keeps the invariant**, and the battery follows what it says. -/
theorem next_offsets (hnew : Problem.new parts grids = .ok problem) {d₀ : Battery ℝ}
    (hb : parts[b]? = some (.battery d₀))
    (hindex : (participants grids parts).activeIndex? device = some b)
    (hone : ((meteredRelations grids).filter fun r => r.active == device).length = 1)
    {f : Frame (Device ℝ) ℝ} (h : Offsets parts grids device b f d) (tick : UInt64) :
    let followed := d.applySetpoint (-(houseLoad grids (participants grids parts) device f.activeOutputs))
    let f' := problem.wiring.next f tick
    declaredPower (participants grids parts) f'.activeOutputs device = followed.1 ∧
      Offsets parts grids device b f' (followed.2.noted followed.1 tick) := by
  intro followed f'
  obtain ⟨-, hdeclared⟩ := activeIndex?_spec hb hindex f'.activeOutputs
  obtain ⟨out, hout, hclear⟩ := h.output
  have hactive := mem_active hnew hb hindex
  have hpassive : b ∉ problem.wiring.passive := (new_sound hnew).disjoint b hactive
  obtain ⟨hstepped, houtput⟩ := getElem?_stepTogether hactive h.part hout tick f.meter
    (problem.wiring.heard f.passiveOutputs)
  rw [Battery.stepAlone_selfConsumption h.mode, h.load] at hstepped houtput
  have houtput : f'.activeOutputs[b]? = some (out.clear.setPower .activePower followed.1) := houtput
  have hpart : f'.parts[b]? = some (.battery (followed.2.noted followed.1 tick)) :=
    (getElem?_stepTogether_of_not_mem hpassive ..).trans hstepped
  have hallows : out.clear.allows .activePower = true := by
    rw [hclear]
    decide +kernel
  have hpower : declaredPower (participants grids parts) f'.activeOutputs device = followed.1 := by
    rw [hdeclared, Array.getD_eq_getD_getElem?, houtput, Option.getD_some, FlowMap.power_setPower hallows, if_pos rfl]
  refine ⟨hpower, hpart, ?_, ⟨_, houtput, ?_⟩, ?_⟩
  · exact (d.applySetpoint_mode _).trans h.mode
  · rw [FlowMap.clear_setPower, FlowMap.clear_clear, hclear]
  · have hmeter : f'.meter = MeterState.zero.addAll
        (problem.grids.flatMap fun g => g.contributions f'.activeOutputs) := measured_wiring problem _
    show f'.meter.power .activeExternal - followed.1 = _
    rw [hmeter, activeExternal_eq hnew, sum_metered _ hone, hpower, add_sub_cancel_left]

/-- **The powers of the battery over a run** are its answers to the loads of the frames before. -/
theorem powers_frames (hnew : Problem.new parts grids = .ok problem) {d₀ : Battery ℝ}
    (hb : parts[b]? = some (.battery d₀))
    (hindex : (participants grids parts).activeIndex? device = some b)
    (hone : ((meteredRelations grids).filter fun r => r.active == device).length = 1)
    (ticks : List UInt64) {f : Frame (Device ℝ) ℝ} (h : Offsets parts grids device b f d) :
    (problem.wiring.frames f ticks).map (fun x => declaredPower (participants grids parts) x.2.activeOutputs device)
      = (Series.run Battery.applySetpoint d
          (((f :: (problem.wiring.frames f ticks).map fun x => x.2).take ticks.length).map fun f =>
            -(houseLoad grids (participants grids parts) device f.activeOutputs))).1 := by
  induction ticks generalizing f d with
  | nil => rfl
  | cons tick ticks ih =>
    obtain ⟨hpower, hnext⟩ := next_offsets hnew hb hindex hone h tick
    simp only [Wiring.frames, List.map_cons, List.length_cons, List.take_succ_cons, Series.run_cons, hpower, ih hnext]
    exact congrArg _ (Battery.run_congr (Battery.noted_store ..) _).1

end Problem

namespace Evaluator

variable {parts : List (Device ℝ)} {grids : List (Grid ℝ)} {problem : Problem (Device ℝ) ℝ} {b n : Nat}
  {d : Battery ℝ} {device : DeviceId} {e : Evaluator (Device ℝ) ℝ}

/-- The battery at the start of a run has whatever schedule, and nobody reads it. -/
theorem startOf_battery (hnew : Problem.new parts grids = .ok problem) (hb : parts[b]? = some (.battery d))
    (htaking : b ∈ problem.taking) (s : Solution ℝ) (flags : EvaluationFlags) :
    ∃ d', (e.startOf problem s flags).parts[b]? = some (.battery d') ∧ d'.mode = d.mode ∧ d'.lastPowerW = 0 ∧
      d'.store = (d.start (e.settings flags)).store := by
  have hpart : problem.parts[b]? = some (.battery d) := by
    rw [Problem.new_eq_ok hnew]
    simpa using hb
  have hhanded : ∀ r, ∃ d', Layout.handed s (Device.battery d) r = .battery d' ∧ d'.mode = d.mode ∧
      (d'.start (e.settings flags)).store = (d.start (e.settings flags)).store := by
    intro r
    unfold Layout.handed
    split
    · exact ⟨d, rfl, rfl, rfl⟩
    · refine ⟨d.withSolution (s.piece r), rfl, ?_, ?_⟩
      · rw [Battery.withSolution_eq]
      · rw [Battery.withSolution_eq]
        rfl
  simp only [startOf, Problem.started, Layout.handOut, Array.getElem?_mapIdx, hpart, Option.map_some,
    if_pos htaking]
  cases (e.layout.shares s.encoding)[b]? with
  | none => exact ⟨d.start (e.settings flags), rfl, rfl, Scalar.real_zero, rfl⟩
  | some r =>
    obtain ⟨d', hd', hmode, hstore⟩ := hhanded r
    exact ⟨d'.start (e.settings flags), by simp only [hd']; rfl, hmode, Scalar.real_zero, hstore⟩

/-- The invariant at the start of a run, where nothing is measured and nothing is remembered. -/
theorem begun_offsets (hnew : Problem.new parts grids = .ok problem) (hb : parts[b]? = some (.battery d))
    (hmode : d.mode = .selfConsumption)
    (hindex : (Problem.participants grids parts).activeIndex? device = some b) (s : Solution ℝ)
    (flags : EvaluationFlags) :
    let begun := e.begun problem.wiring (e.startOf problem s flags)
    Problem.houseLoad grids (Problem.participants grids parts) device begun.activeOutputs = 0 ∧
      ∃ d', Problem.Offsets parts grids device b begun d' ∧ d'.store = (d.start (e.settings flags)).store := by
  intro begun
  have hsound := Problem.new_sound hnew
  have hactive := Problem.mem_active hnew hb hindex
  have hpassive : b ∉ problem.wiring.passive := hsound.disjoint b hactive
  obtain ⟨d', hstarted, hmode', hlast, hstore⟩ :=
    startOf_battery (e := e) hnew hb (hsound.active_taking b hactive) s flags
  have hload : Problem.houseLoad grids (Problem.participants grids parts) device begun.activeOutputs = 0 :=
    (Scalar.sum_map_zero fun r _ => declaredPower_clear _ problem.activeOutputs r.active).trans Scalar.real_zero
  have hmeter : begun.meter.power .activeExternal = 0 := by
    have hzero : (MeterState.zero : MeterState ℝ).power .activeExternal = 0 := by
      simp [MeterState.power, MeterState.zero, Scalar.real_zero]
    exact hzero
  refine ⟨hload, d', ⟨?_, hmode'.trans hmode, ⟨.limitedTo Battery.outputs, ?_, rfl⟩, ?_⟩, hstore⟩
  · exact (getElem?_stepTogether_of_not_mem hpassive ..).trans hstarted
  · show (problem.activeOutputs.map FlowMap.clear)[b]? = _
    rw [Problem.new_eq_ok hnew]
    simp only [Array.getElem?_map, List.getElem?_toArray, List.getElem?_map, hb, Option.map_some]
    rfl
  · rw [hload, hmeter, hlast, sub_zero]

/-- The load of the house in a recording is that of the frames. -/
theorem houseLoad_recordingOf (hnew : Problem.new parts grids = .ok problem) (he : e.Serves problem n)
    (s : Solution ℝ) (flags : EvaluationFlags) (r : Recording ℝ) {k : Nat}
    (hk : k < (e.frames problem.wiring (e.startOf problem s flags)).length) :
    (e.recordingOf problem.wiring (e.startOf problem s flags) r).houseLoad grids device k
      = Problem.houseLoad grids (Problem.participants grids parts) device
          (e.frames problem.wiring (e.startOf problem s flags))[k].2.activeOutputs := by
  have hcollision : Problem.collision? grids = none := (Problem.exists_new_iff.mp ⟨problem, hnew⟩).2
  refine congrArg Scalar.sum (List.map_congr_left fun relation hrelation => ?_)
  have hmetered : relation ∈ meteredRelations grids := List.mem_of_mem_filter hrelation
  exact activePowerOf_recordingOf hnew he s flags r (not_isPassive_of_metered hcollision hmetered) hk

/-- The setpoint of a tick is read off the frame before it, which for the first tick is the one at the start. -/
theorem map_offset {F : Type} (log : Recording ℝ) (load : F → ℝ) (start : F) (frames : List F)
    (hstart : load start = 0)
    (hframes : ∀ (j : Nat) (hj : j < frames.length), log.houseLoad grids device j = load frames[j]) :
    ((start :: frames).take frames.length).map (fun f => -(load f))
      = (List.range frames.length).map (log.offset grids device) := by
  refine List.ext_getElem (by simp) fun i hi _ => ?_
  have hi : i < frames.length := by simpa using hi
  cases i with
  | zero => simp [hstart, Recording.offset, Scalar.real_zero]
  | succ j => simp [Recording.offset, hframes j (by omega)]

/-- What the recording of an evaluation says about a battery for self-consumption. -/
theorem recordingOf_offsets (hnew : Problem.new parts grids = .ok problem) (he : e.Serves problem n)
    (hb : parts[b]? = some (.battery d)) (hmode : d.mode = .selfConsumption)
    (hindex : (Problem.participants grids parts).activeIndex? device = some b)
    (hone : ((meteredRelations grids).filter fun r => r.active == device).length = 1) (s : Solution ℝ)
    (flags : EvaluationFlags) (r : Recording ℝ) {k : Nat}
    (hk : k < (e.frames problem.wiring (e.startOf problem s flags)).length) :
    let log := e.recordingOf problem.wiring (e.startOf problem s flags) r
    log.activePowerOf device k = ((Series.run Battery.applySetpoint (d.start (e.settings flags))
      ((List.range k).map (log.offset grids device))).2.applySetpoint (log.offset grids device k)).1 := by
  intro log
  obtain ⟨hzero, d', hoffsets, hstore⟩ := begun_offsets (e := e) hnew hb hmode hindex s flags
  obtain ⟨own, hown, hdevice, -⟩ := Problem.exists_metered hone
  have hcollision : Problem.collision? grids = none := (Problem.exists_new_iff.mp ⟨problem, hnew⟩).2
  have hlogged := activePowerOf_recordingOf hnew he s flags r (not_isPassive_of_metered hcollision hown) hk
  have hload : ∀ (j : Nat) (hj : j < (e.frames problem.wiring (e.startOf problem s flags)).length),
      log.houseLoad grids device j = _ := fun j hj => houseLoad_recordingOf hnew he s flags r hj
  have hpowers := Problem.powers_frames hnew hb hindex hone e.window.clock.ticks hoffsets
  rw [show problem.wiring.frames (e.begun problem.wiring (e.startOf problem s flags)) e.window.clock.ticks
    = e.frames problem.wiring (e.startOf problem s flags) from rfl] at hpowers
  rw [hdevice] at hlogged
  generalize e.frames problem.wiring (e.startOf problem s flags) = frames at hk hlogged hload hpowers
  have hlength : e.window.clock.ticks.length = frames.length := by
    have hlengths := congrArg List.length hpowers
    simp only [List.length_map, Series.length_run, List.length_take, List.length_cons] at hlengths
    omega
  have hsetpoints := map_offset log
    (fun f : Frame (Device ℝ) ℝ => Problem.houseLoad grids (Problem.participants grids parts) device f.activeOutputs)
    (e.begun problem.wiring (e.startOf problem s flags)) (frames.map fun x => x.2) hzero (by simpa using hload)
  rw [List.length_map] at hsetpoints
  rw [hlength, hsetpoints, (Battery.run_congr hstore _).1] at hpowers
  have hpower := congrArg (fun xs => xs[k]?) hpowers
  simp only [Series.getElem?_run, List.getElem?_map, List.getElem?_range hk, List.getElem?_eq_getElem hk,
    Option.map_some, Option.some.injEq, ← List.map_take, List.take_range, Nat.min_eq_left hk.le] at hpower
  exact hlogged.trans hpower

end Evaluator

/-- **What a detailed evaluation answers.** It has no run where the variables of the parts cannot be counted in a word
or the ticks do not fit into a table. Elsewhere the outcome and the recording are read off the frames of a fresh run. -/
theorem Plan.detailed_answer {P α : Type} [Scalar α] [Part P α] [Part.Restartable P] {plan : Plan P α}
    {problem : Problem P α} {fresh : Evaluator P α} (hplan : plan.evaluator = .ok (problem, fresh))
    {moves : List (Traffic.Move α)} (hmoves : ∀ move ∈ moves, move.Carries Solution.Storable) {s : Solution α}
    (hs : s.Storable) (hwidth : s.size = (fresh.layout.width s.encoding).toNat) (flags : EvaluationFlags)
    (recording : Recording α) :
    let t := Traffic.run { evaluator := fresh, held := [] } moves
    let answer := t.evaluator.evaluateDetailed s flags recording
    let f := fresh.startOf problem s flags
    (UInt64.size ≤ Layout.totalCount s.encoding plan.parts ∧ answer.1 = .error (.defect .indexOutOfRange)) ∨
      (maxTableBytes < 80 * fresh.window.clock.ticks.length ∧ answer.1 = .error (.defect .capacityExceeded)) ∨
      answer.1 = .ok { fitness := fresh.fitnessOf problem.wiring f, profile := fresh.profileOf problem.wiring f } ∧
        answer.2.1 = fresh.recordingOf problem.wiring f recording := by
  intro t answer f
  refine (Plan.answer_cases hplan hmoves hs flags recording).imp_left ?_
  rintro ⟨hrefused, hanswer⟩
  refine ⟨?_, ?_⟩
  · exact Nat.le_of_not_lt fun hcount => hrefused (Plan.accepts_of_width hplan hwidth hcount)
  · rw [hanswer, Layout.refusal, if_pos hwidth]

/-- **A battery for self-consumption idles in the first tick of an evaluation, and then offsets the load of the house in
the tick before**: what the relations of all other devices have carried to the meters. Its own power does not matter,
because it has one relation to a meter, which is not among them. -/
theorem battery_follows_house {plan : Plan (Device ℝ) ℝ} {problem : Problem (Device ℝ) ℝ}
    {fresh : Evaluator (Device ℝ) ℝ} (hplan : plan.evaluator = .ok (problem, fresh))
    {moves : List (Traffic.Move ℝ)} (hmoves : ∀ move ∈ moves, move.Carries Solution.Storable) {s : Solution ℝ}
    (hs : s.Storable) (hwidth : s.size = (fresh.layout.width s.encoding).toNat) (flags : EvaluationFlags)
    (recording : Recording ℝ) {b : Nat} {d : Battery ℝ} (hb : plan.parts[b]? = some (.battery d))
    (hmode : d.mode = .selfConsumption) (hcharge : 0 ≤ d.maxChargeW)
    (hindex : (Problem.participants plan.grids plan.parts).activeIndex? d.timing.device = some b)
    (hone : ((meteredRelations plan.grids).filter fun r => r.active == d.timing.device).length = 1) :
    let t := Traffic.run { evaluator := fresh, held := [] } moves
    let answer := t.evaluator.evaluateDetailed s flags recording
    (UInt64.size ≤ Layout.totalCount s.encoding plan.parts ∧ answer.1 = .error (.defect .indexOutOfRange)) ∨
      (maxTableBytes < 80 * fresh.window.clock.ticks.length ∧ answer.1 = .error (.defect .capacityExceeded)) ∨
      ∃ outcome, answer.1 = .ok outcome ∧
        let log := answer.2.1
        let setpoint := log.offset plan.grids d.timing.device
        (0 < outcome.profile.size → log.activePowerOf d.timing.device 0 = 0) ∧
        ∀ k < outcome.profile.size, log.activePowerOf d.timing.device k
          = ((Series.run Battery.applySetpoint (d.start (fresh.settings flags))
              ((List.range k).map setpoint)).2.applySetpoint (setpoint k)).1 := by
  intro t answer
  refine (Plan.detailed_answer hplan hmoves hs hwidth flags recording).imp_right (Or.imp_right ?_)
  rintro ⟨hok, hlog⟩
  refine ⟨_, hok, ?_⟩
  have hlog : answer.2.1 = _ := hlog
  rw [hlog]
  intro log setpoint
  have hticks : ∀ k < (fresh.profileOf problem.wiring (fresh.startOf problem s flags)).size,
      log.activePowerOf d.timing.device k
        = ((Series.run Battery.applySetpoint (d.start (fresh.settings flags))
            ((List.range k).map setpoint)).2.applySetpoint (setpoint k)).1 := by
    intro k hk
    exact Evaluator.recordingOf_offsets (Plan.evaluator_eq_ok hplan).1 (Plan.serves hplan) hb hmode hindex hone s
      flags recording (by simpa [LoadProfile.size, Evaluator.profileOf] using hk)
  refine ⟨fun hsome => ?_, hticks⟩
  have hsetpoint : setpoint 0 = 0 := Scalar.real_zero
  rw [hticks 0 hsome, hsetpoint]
  exact Battery.applySetpoint_zero (d := d.start (fresh.settings flags)) hcharge

/-! ### A dwelling -/

namespace Dwelling

def meter : DeviceId := .ofNat 9

/-- A load and a battery behind one meter. -/
def topology : Topology :=
  { meters := [meter]
    relations := [1, 2].map fun n =>
      { active := .ofNat n, passive := meter, forward := .activePower, back := .activePower }
    meterDevices := [{ meter, pv := [], chp := [], battery := [.ofNat 2] }] }

def battery (α : Type) [Scalar α] : Battery α :=
  { timing := (Timing.new (.ofNat 2) 0 2700).withStep 900, capacityWh := 5000, initialSoc := 1, soc := 1,
    maxChargeW := 2000, maxDischargeW := 2000, chargeEfficiency := 1, dischargeEfficiency := 1, penaltyPerKwh := 1,
    mode := .selfConsumption, setpoints := #[], lastPowerW := 0, socTrace := #[], terminalCost := 0 }

end Dwelling

def dwelling (α : Type) [Transcendental α] : Plan (Device α) α :=
  { household α .dominance with
    parts := [.baseLoad (.new (.ofNat 1) 0 2700 400 1), .battery (Dwelling.battery α)]
    grids := [.electrical { topology := Dwelling.topology, fastPath := true, run? := none }] }

/-- The battery of the dwelling follows the load of the dwelling, also after a call that was refused. -/
theorem battery_follows_house_dwelling :
    ∃ problem fresh, (dwelling ℝ).evaluator = .ok (problem, fresh) ∧
      let moves : List (Traffic.Move ℝ) := [.call (.binary #[true]) .none none]
      (∀ move ∈ moves, move.Carries Solution.Storable) ∧
      let t := Traffic.run { evaluator := fresh, held := [] } moves
      let answer := t.evaluator.evaluateDetailed (.binary #[]) .none .empty
      ∃ outcome, answer.1 = .ok outcome ∧
        let log := answer.2.1
        let setpoint := log.offset (dwelling ℝ).grids (.ofNat 2)
        (0 < outcome.profile.size → log.activePowerOf (.ofNat 2) 0 = 0) ∧
        ∀ k < outcome.profile.size, log.activePowerOf (.ofNat 2) k
          = ((Series.run Battery.applySetpoint ((Dwelling.battery ℝ).start (fresh.settings .none))
              ((List.range k).map setpoint)).2.applySetpoint (setpoint k)).1 := by
  have hcollision : Problem.collision? (dwelling ℝ).grids = none := by
    refine Problem.collision?_eq_none.mpr ?_
    simp only [dwelling, List.forall_mem_cons, List.not_mem_nil, false_implies, implies_true, and_true,
      Grid.topology]
    decide
  obtain ⟨problem, fresh, hplan⟩ := Plan.exists_evaluator_iff.mpr ⟨by simp [dwelling], hcollision⟩
  have hmoves : ∀ move ∈ [Traffic.Move.call (.binary #[true]) .none none],
      Traffic.Move.Carries (α := ℝ) Solution.Storable move := by
    simp only [List.forall_mem_cons, Traffic.Move.Carries, Solution.Storable, List.not_mem_nil, false_implies,
      implies_true, and_true]
    decide
  have hs : (Solution.binary #[] : Solution ℝ).Storable := by
    unfold Solution.Storable
    decide
  have hwidth : (Solution.binary #[] : Solution ℝ).size = (fresh.layout.width .binary).toNat := by
    rw [show fresh.layout = .ofParts (dwelling ℝ).parts by rw [(Plan.evaluator_eq_ok hplan).2], Layout.width_ofParts,
      show (dwelling ℝ).parts.map (Layout.ownedCount .binary) = [0, 0] from rfl]
    decide
  have hindex : (Problem.participants (dwelling ℝ).grids (dwelling ℝ).parts).activeIndex? (.ofNat 2) = some 1 := rfl
  have hone : ((meteredRelations (dwelling ℝ).grids).filter fun r => r.active == .ofNat 2).length = 1 := by
    decide +kernel
  obtain hoverflow | hoverflow | hfollows := battery_follows_house (b := 1) (d := Dwelling.battery ℝ) hplan hmoves hs
    hwidth .none .empty rfl rfl (Nat.cast_nonneg 2000) hindex hone
  · have htotal : Layout.totalCount .binary (dwelling ℝ).parts = 0 := rfl
    exact absurd (htotal ▸ hoverflow.1) (by decide)
  · have hwindow : fresh.window = .new 0 2700 900 0 := by
      obtain ⟨hnew, rfl⟩ := Plan.evaluator_eq_ok hplan
      rw [Problem.new_eq_ok hnew]
      rfl
    exact absurd hoverflow.1 (by rw [hwindow]; decide)
  · exact ⟨problem, fresh, hplan, hmoves, hfollows⟩

end HomeEnergy

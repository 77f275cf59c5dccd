import HomeEnergy.Proofs.Balance
import HomeEnergy.Proofs.History
import HomeEnergy.Proofs.Records
import HomeEnergy.Proofs.Reports

/-!
# Detailed evaluations are faithful

A detailed evaluation writes down what happens in an evaluation and does not change it. What it writes is complete:
the recording and the outcome can be computed from each other as far as they overlap.

* `Part.Steady` — the laws of a part whose description never changes; `Device.steady` — the models obey them.
* `Recording.Faithful` — what a recording has to do with the outcome of its evaluation.
* `Recording.Balanced` — the net active power of a tick is the sum of what the recording says about the devices
  with a relation to a meter; `Evaluator.activePowerOf_recordingOf` — the recording of a device says what the
  device declares.
* `recording_faithful` — **a detailed evaluation has the fitness of the plain one, and its recording is faithful
  and, in exact numbers, balanced**, whatever the flags and whatever the recording held before.
-/

namespace HomeEnergy

/-! ### Descriptions -/

/-- What a schedule and the grids are told about a part. -/
structure Face where
  device : DeviceId
  kind : String
  isStatic : Bool
  outputs : List Commodity

/-- The description of a part. -/
def Part.face {P α : Type} [Part P α] (p : P) : Face :=
  { device := Part.device p, kind := Part.kind p, isStatic := Part.isStatic p, outputs := Part.outputs p }

/-- The laws of a part whose description is the same in all runs. -/
class Part.Steady (P : Type) {α : outParam Type} [Part P α] : Prop where
  face_start : ∀ (p : P) (r : RunSettings), Part.face (Part.start p r) = Part.face p
  face_withSolution : ∀ (p : P) (s : Solution α), Part.face (Part.withSolution p s) = Part.face p

instance Device.steady {α : Type} [Transcendental α] : Part.Steady (Device α) where
  face_start d r := by cases d <;> rfl
  face_withSolution d s := by
    cases d with
    | battery d => cases s <;> rfl
    | _ => rfl

namespace Evaluator

variable {P α : Type} [Scalar α] [Part P α] {e : Evaluator P α} {m : Problem P α} {w : Wiring α}
  {f : Frame P α} {n : Nat}

theorem scheduleOf_congr {p q : P} (h : Part.face p = Part.face q) (i : Nat) :
    e.scheduleOf w f i p = e.scheduleOf w f i q := by
  have hdevice : Part.device p = Part.device q := congrArg Face.device h
  have hkind : Part.kind p = Part.kind q := congrArg Face.kind h
  have houtputs : Part.outputs p = Part.outputs q := congrArg Face.outputs h
  simp only [scheduleOf, hdevice, hkind, houtputs]

/-- A start with a solution changes no description. -/
theorem face_startOf [Part.Steady P] (e : Evaluator P α) (m : Problem P α) (s : Solution α)
    (flags : EvaluationFlags) (i : Nat) :
    (e.startOf m s flags).parts[i]?.map Part.face = m.parts[i]?.map Part.face := by
  simp only [startOf, Problem.started, Layout.handOut, Array.getElem?_mapIdx, Option.map_map]
  congr 1
  funext p
  simp only [Function.comp_apply]
  have hhanded : ∀ r, Part.face (Layout.handed s p r) = Part.face p := by
    intro r
    unfold Layout.handed
    split
    · rfl
    · exact Part.Steady.face_withSolution p _
  split <;> split <;> simp only [Part.Steady.face_start, hhanded]

/-- **The recording of an evaluation, said for the parts of the problem.** -/
theorem recordingOf_startOf [Part.Steady P] (he : e.Serves m n) (s : Solution α)
    (flags : EvaluationFlags) (r : Recording α) :
    e.recordingOf m.wiring (e.startOf m s flags) r
      = { samples := ((e.frames m.wiring (e.startOf m s flags)).map fun x => (x.1, x.2.meter)).toArray
          schedules := m.parts.mapIdx fun i p =>
            if Part.isStatic p then none
            else some (e.scheduleOf m.wiring (e.startOf m s flags) i p) } := by
  have hface : ∀ (i : Nat) (p q : P), (e.startOf m s flags).parts[i]? = some p →
      m.parts[i]? = some q → Part.face p = Part.face q := by
    intro i p q hp hq
    have hi := face_startOf e m s flags i
    rw [hp, hq] at hi
    exact Option.some.inj hi
  have hsize : (e.startOf m s flags).parts.size = m.parts.size := by
    simp [startOf, Problem.started, Layout.handOut]
  have hmaps : Wiring.HasMaps (e.startOf m s flags) n := by
    refine ⟨?_, ?_⟩
    · simpa [startOf, Problem.started] using he.sized.activeOutputs
    · simpa [startOf, Problem.started] using he.sized.passiveOutputs
  rw [recordingOf_eq he.sound hmaps]
  · congr 1
    apply Array.ext
    · simpa using hsize
    · intro i h₁ h₂
      have hp := Array.getElem?_eq_getElem (by simpa using h₁ : i < (e.startOf m s flags).parts.size)
      have hq := Array.getElem?_eq_getElem (by simpa using h₂ : i < m.parts.size)
      have hpq := hface i _ _ hp hq
      simp only [Array.getElem_mapIdx, scheduleOf_congr hpq,
        show Part.isStatic _ = Part.isStatic _ from congrArg Face.isStatic hpq]
  · intro i p hp
    have hlt : i < m.parts.size := hsize ▸ (Array.getElem?_eq_some_iff.mp hp).1
    have hq := Array.getElem?_eq_getElem hlt
    have hpq := hface i p _ hp hq
    rw [show Part.isStatic p = _ from congrArg Face.isStatic hpq]
    exact he.taking i _ hq

end Evaluator

/-! ### What a recording says -/

namespace Recording

variable {P α : Type} [Scalar α] [Part P α]

/-- What a recording has to do with the outcome of its evaluation. It holds the ticks and meter states of the load
profile and, by part index, one schedule for each part that takes part, over the same ticks; what the parts cost is
what the fitness adds to the bill, in part order. -/
structure Faithful (r : Recording α) (parts : List P) (bill : LoadProfile α → α) (o : Outcome α) :
    Prop where
  samples : r.samples.toList = o.profile.samples
  described : (r.schedules.toList.map fun s? => s?.map fun s =>
      (s.device, s.kind, s.series.map fun c => c.commodity))
    = parts.map fun p =>
        if Part.isStatic p then none else some (Part.device p, Part.kind p, Part.outputs p)
  ticks : ∀ s ∈ r.finished, s.ticks.toList = o.profile.ticks
  series : ∀ s ∈ r.finished, ∀ c ∈ s.series,
    c.powers.size = o.profile.size ∧ c.temperatures.size = o.profile.size
  fitness : o.fitness
    = (r.finished.map fun s => s.terminalCost).foldl (fun total cost => total + cost) (bill o.profile)

omit [Part P α] in
/-- The active power of a device in a tick, counted from zero: what its schedule says, and zero if it has no
schedule or its schedule has no active power. -/
def activePowerOf (r : Recording α) (d : DeviceId) (k : Nat) : α :=
  match (r.finished.filter fun s => s.device == d).getLast? with
  | some s => ((s.powers? .activePower).getD #[]).getD k 0
  | none => 0

omit [Part P α] in
/-- In every tick the net active power is what the recording says about the active ends of the relations along
which active power flows to a meter. -/
def Balanced (r : Recording α) (grids : List (Grid α)) (o : Outcome α) : Prop :=
  ∀ k < o.profile.size, o.profile.powerAtIndex .activeExternal k
    = Scalar.sum ((meteredRelations grids).map fun relation => r.activePowerOf relation.active k)

omit [Scalar α] in
/-- The schedules that are there. -/
theorem finished_eq {r : Recording α} {parts : List P} (schedule : Nat → P → Schedule α)
    (h : r.schedules = parts.toArray.mapIdx fun i p =>
      if Part.isStatic p then none else some (schedule i p)) :
    r.finished = (parts.zipIdx.filter fun x => !Part.isStatic x.1).map fun x => schedule x.2 x.1 := by
  have hlist : r.schedules.toList = parts.zipIdx.map fun x =>
      if Part.isStatic x.1 then none else some (schedule x.2 x.1) := by
    rw [h, Array.toList_mapIdx, List.mapIdx_eq_zipIdx_map]
  rw [finished, hlist, List.filterMap_map, Function.id_comp]
  induction parts.zipIdx with
  | nil => rfl
  | cons x entries ih =>
    by_cases hstatic : Part.isStatic x.1 = true
    · simp [hstatic, ih]
    · simp [hstatic, ih]

end Recording

namespace Evaluator

variable {P α : Type} [Scalar α] [Part P α] {e : Evaluator P α} {w : Wiring α} {f : Frame P α}

theorem series_scheduleOf (i : Nat) (p : P) :
    (e.scheduleOf w f i p).series = (Part.outputs p).map fun c =>
      { commodity := c
        powers := ((e.frames w f).map fun x => (w.published x.2 i).power c).toArray
        temperatures := ((e.frames w f).map fun x => (w.published x.2 i).temperature? c).toArray } := by
  simp [scheduleOf, Schedule.extend, Schedule.new, Function.comp_def]

/-- What a schedule says about the active power. -/
theorem powers?_scheduleOf (i : Nat) (p : P) :
    (e.scheduleOf w f i p).powers? .activePower
      = if (Part.outputs p).contains .activePower then
          some ((e.frames w f).map fun x => (w.published x.2 i).power .activePower).toArray
        else none := by
  rw [Schedule.powers?, series_scheduleOf]
  induction Part.outputs p with
  | nil => rfl
  | cons c outputs ih =>
    by_cases hc : c = .activePower
    · subst hc
      simp
    · simpa [hc, Ne.symm hc] using ih

variable {parts : List P} {grids : List (Grid α)} {m : Problem P α} {n : Nat}

theorem finished_recordingOf [Part.Steady P] (hnew : Problem.new parts grids = .ok m)
    (he : e.Serves m n) (s : Solution α) (flags : EvaluationFlags) (r : Recording α) :
    (e.recordingOf m.wiring (e.startOf m s flags) r).finished
      = (parts.zipIdx.filter fun x => !Part.isStatic x.1).map fun x =>
          e.scheduleOf m.wiring (e.startOf m s flags) x.2 x.1 := by
  have hparts : m.parts = parts.toArray := by rw [Problem.new_eq_ok hnew]
  refine Recording.finished_eq (e.scheduleOf m.wiring (e.startOf m s flags)) ?_
  rw [recordingOf_startOf he, hparts]

/-- The schedules that a recording begins with, one for each part that takes part. -/
theorem finished_begin [Part.Steady P] (hnew : Problem.new parts grids = .ok m) (s : Solution α)
    (flags : EvaluationFlags) (r : Recording α) :
    (r.begin (e.startOf m s flags).parts.toList).finished
      = (parts.filter fun p => !Part.isStatic p).map fun p =>
          Schedule.new (Part.device p) (Part.kind p) (Part.outputs p) := by
  have hfaces : (e.startOf m s flags).parts.toList.map Part.face = parts.map Part.face := by
    apply List.ext_getElem?
    intro i
    have hi := face_startOf e m s flags i
    rw [Problem.new_eq_ok hnew] at hi ⊢
    simpa using hi
  have hread : ∀ ps : List P, ((ps.filter fun p => !Part.isStatic p).map fun p =>
        Schedule.new (α := α) (Part.device p) (Part.kind p) (Part.outputs p))
      = (ps.map Part.face).filterMap fun face =>
        if face.isStatic then none else some (Schedule.new face.device face.kind face.outputs) := by
    intro ps
    induction ps with
    | nil => rfl
    | cons p ps ih =>
      by_cases hstatic : Part.isStatic p = true
      · simpa [hstatic, Part.face] using ih
      · simpa [hstatic, Part.face] using ih
  rw [hread parts, ← hfaces]
  simp only [Recording.begin, Recording.finished, List.filterMap_map]
  rfl

/-- **The recording of an evaluation is faithful.** -/
theorem recordingOf_faithful [Part.Steady P] (hnew : Problem.new parts grids = .ok m)
    (he : e.Serves m n) (s : Solution α) (flags : EvaluationFlags) (r : Recording α) :
    (e.recordingOf m.wiring (e.startOf m s flags) r).Faithful parts e.bill
      { fitness := e.fitnessOf m.wiring (e.startOf m s flags)
        profile := e.profileOf m.wiring (e.startOf m s flags) } := by
  have hparts : m.parts = parts.toArray := by rw [Problem.new_eq_ok hnew]
  have hrecording := recordingOf_startOf he s flags r
  have hfinished := finished_recordingOf hnew he s flags r
  have hsamples := samples_profileOf e m.wiring (e.startOf m s flags)
  generalize e.startOf m s flags = f at hrecording hfinished hsamples ⊢
  have hmem : ∀ s ∈ (e.recordingOf m.wiring f r).finished, ∃ i p, s = e.scheduleOf m.wiring f i p := by
    intro s hs
    rw [hfinished] at hs
    obtain ⟨x, -, rfl⟩ := List.mem_map.mp hs
    exact ⟨x.2, x.1, rfl⟩
  constructor
  case samples => rw [hrecording, hsamples]
  case described =>
    rw [hrecording, hparts]
    apply List.ext_getElem?
    intro i
    simp only [List.getElem?_map, Array.getElem?_toList, Array.getElem?_mapIdx,
      List.getElem?_toArray, Option.map_map]
    congr 1
    funext p
    by_cases hstatic : Part.isStatic p = true
    · simp [hstatic]
    · simp only [Function.comp_apply, if_neg hstatic, Option.map_some, series_scheduleOf,
        List.map_map, Option.some.injEq, Prod.mk.injEq]
      exact ⟨rfl, rfl, List.map_id _⟩
  case ticks =>
    intro s hs
    obtain ⟨i, p, rfl⟩ := hmem s hs
    have hticks := congrArg (List.map fun x : UInt64 × MeterState α => x.1) hsamples
    simp only [LoadProfile.samples, List.map_map] at hticks
    refine Eq.trans ?_ hticks.symm
    simp [scheduleOf, Schedule.extend, Schedule.new, Function.comp_def]
  case series =>
    intro s hs c hc
    obtain ⟨i, p, rfl⟩ := hmem s hs
    rw [series_scheduleOf] at hc
    obtain ⟨c', -, rfl⟩ := List.mem_map.mp hc
    simp [LoadProfile.size, profileOf]
  case fitness =>
    have htaking : m.wiring.taking = (parts.zipIdx.filter fun x => !Part.isStatic x.1).map
        fun x => x.2 := by
      rw [← Problem.indicesWhere_eq parts fun p => !Part.isStatic p, Problem.new_eq_ok hnew]
      rfl
    rw [hfinished, List.map_map]
    show m.wiring.taking.foldl _ _ = _
    rw [htaking, List.foldl_map, List.foldl_map]
    rfl

omit [Scalar α] in
/-- The active end of a relation to a meter has the active role, because no grid makes it passive. -/
theorem not_isPassive_of_metered (hcollision : Problem.collision? grids = none)
    {relation : Relation} (hrelation : relation ∈ meteredRelations grids) :
    Problem.isPassive grids relation.active = false := by
  obtain ⟨g, hg, hr⟩ := List.mem_flatMap.mp hrelation
  have hmem : relation ∈ g.topology.relations := by
    cases g with
    | electrical e => exact (List.mem_filter.mp hr).1
    | thermal e => exact absurd hr (by simp)
  refine Bool.eq_false_iff.mpr fun h => ?_
  obtain ⟨g', hg', hpassive⟩ := List.any_eq_true.mp h
  exact Problem.collision?_eq_none.mp hcollision g hg relation hmem g' hg' hpassive

/-- **What the recording says about a device that no grid makes passive is what the device declares.** -/
theorem activePowerOf_recordingOf [Part.Steady P] (hnew : Problem.new parts grids = .ok m)
    (he : e.Serves m n) (s : Solution α) (flags : EvaluationFlags) (r : Recording α) {d : DeviceId}
    (hd : Problem.isPassive grids d = false) {k : Nat}
    (hk : k < (e.frames m.wiring (e.startOf m s flags)).length) :
    (e.recordingOf m.wiring (e.startOf m s flags) r).activePowerOf d k
      = declaredPower (Problem.participants grids parts)
          (e.frames m.wiring (e.startOf m s flags))[k].2.activeOutputs d := by
  have hfinished := finished_recordingOf hnew he s flags r
  generalize e.startOf m s flags = f at hfinished hk ⊢
  have hfilter : ((e.recordingOf m.wiring f r).finished.filter fun s => s.device == d)
      = ((parts.zipIdx.filter fun x => !Part.isStatic x.1).filter fun x =>
          Part.device x.1 == d).map fun x => e.scheduleOf m.wiring f x.2 x.1 := by
    rw [hfinished, List.filter_map]
    rfl
  rw [Recording.activePowerOf, hfilter, List.getLast?_map, declaredPower, Participants.inRole?,
    Problem.find?_participants]
  cases hlast : ((parts.zipIdx.filter fun x => !Part.isStatic x.1).filter fun x =>
      Part.device x.1 == d).getLast? with
  | none => rfl
  | some x =>
    obtain ⟨hx, hdevice⟩ := List.mem_filter.mp (List.mem_of_getLast? hlast)
    obtain ⟨hx, hstatic⟩ := List.mem_filter.mp hx
    have hget := List.mem_zipIdx_iff_getElem?.mp hx
    have hrole : Problem.roleOf grids x.1 = .active := by
      rw [Problem.roleOf, beq_iff_eq.mp hdevice, hd]
      rfl
    have hactive : x.2 ∈ m.wiring.active := by
      rw [Problem.new_eq_ok hnew]
      exact Problem.mem_indicesWhere.mpr ⟨x.1, hget, by simpa [hrole] using hstatic⟩
    simp only [Option.map_some, Option.filter_some, Problem.participant, Participant.new, hrole,
      beq_self_eq_true, if_true, powers?_scheduleOf]
    split
    · simp [hk, Wiring.published, hactive]
    · simp

/-- **In exact numbers the recording of an evaluation is balanced.** -/
theorem recordingOf_balanced [Part.Steady P] [Scalar.Exact α] (hnew : Problem.new parts grids = .ok m)
    (he : e.Serves m n) (s : Solution α) (flags : EvaluationFlags) (r : Recording α) :
    (e.recordingOf m.wiring (e.startOf m s flags) r).Balanced grids
      { fitness := e.fitnessOf m.wiring (e.startOf m s flags)
        profile := e.profileOf m.wiring (e.startOf m s flags) } := by
  have hcollision : Problem.collision? grids = none :=
    (Problem.exists_new_iff.mp ⟨m, hnew⟩).2
  intro k hk
  have hlt : k < (e.frames m.wiring (e.startOf m s flags)).length := by
    simpa [LoadProfile.size, profileOf] using hk
  have hpower : (e.profileOf m.wiring (e.startOf m s flags)).powerAtIndex .activeExternal k
      = (e.frames m.wiring (e.startOf m s flags))[k].2.meter.power .activeExternal := by
    simp [LoadProfile.powerAtIndex, profileOf, hlt]
  rw [hpower, Problem.meter_of_mem_frames m _ _ _ (List.getElem_mem hlt), Problem.activeExternal_eq hnew]
  congr 1
  refine List.map_congr_left ?_
  intro relation hrelation
  have hactive := not_isPassive_of_metered hcollision hrelation
  exact (activePowerOf_recordingOf hnew he s flags r hactive hlt).symm

end Evaluator

/-! ### Detailed evaluations -/

/-- **A detailed evaluation has the fitness of the plain one, and its recording is faithful and, in exact numbers,
balanced**, under all flags, whatever the recording held before and whatever has happened to the evaluator. An
evaluation of a solution of the right width fails only where the variables of the parts are too many to be counted
in a word, or the ticks too many for a table. -/
theorem recording_faithful {α : Type} [Transcendental α] {plan : Plan (Device α) α}
    {problem : Problem (Device α) α} {fresh : Evaluator (Device α) α}
    (hplan : plan.evaluator = .ok (problem, fresh)) {moves : List (Traffic.Move α)}
    (hmoves : ∀ move ∈ moves, move.Carries Solution.Storable) {s : Solution α} (hs : s.Storable)
    (hwidth : s.size = (fresh.layout.width s.encoding).toNat) (flags : EvaluationFlags)
    (recording : Recording α) :
    let t := Traffic.run { evaluator := fresh, held := [] } moves
    let answer := t.evaluator.evaluateDetailed s flags recording
    answer.1.map (fun outcome => outcome.fitness) = (t.evaluator.evaluate s).1 ∧
    ((UInt64.size ≤ Layout.totalCount s.encoding plan.parts ∧
        answer.1 = .error (.defect .indexOutOfRange)) ∨
      (maxTableBytes < 80 * fresh.window.clock.ticks.length ∧
        answer.1 = .error (.defect .capacityExceeded)) ∨
      ∃ outcome, answer.1 = .ok outcome ∧ answer.2.1.Faithful plan.parts fresh.bill outcome ∧
        (Scalar.Exact α → answer.2.1.Balanced plan.grids outcome)) := by
  intro t answer
  have hserves := Plan.serves hplan
  have hnew := (Plan.evaluator_eq_ok hplan).1
  have hlike : problem.Like problem plan.parts.length := ⟨rfl, hserves.sized⟩
  obtain ⟨hplain, -⟩ := Plan.answers_asNew hplan moves hmoves hs .none none
  obtain ⟨hresult, hrecording, -⟩ := Plan.answers_asNew hplan moves hmoves hs flags (some recording)
  have hanswer : answer.1 = (fresh.runOn problem s flags (some recording)).result := hresult
  have hwritten : answer.2.1
      = (fresh.runOn problem s flags (some recording)).recording?.getD recording :=
    congrArg (fun r? => r?.getD recording) hrecording
  refine ⟨?_, ?_⟩
  · show answer.1.map _ = (t.evaluator.run s .none none).1.map _
    rw [hplain, hanswer, Evaluator.runOn_flags hserves hlike s flags .none (some recording) none]
  · rw [hanswer, hwritten]
    by_cases haccepts : fresh.layout.Accepts s
    · by_cases hfits : fresh.Fits
      · obtain ⟨hok, hlog, -⟩ :=
          Evaluator.runOn_eq hserves hlike haccepts hfits flags (some recording)
        refine Or.inr (Or.inr ⟨_, hok, ?_, ?_⟩)
        · rw [hlog]
          exact Evaluator.recordingOf_faithful hnew hserves s flags recording
        · intro hexact
          rw [hlog]
          exact Evaluator.recordingOf_balanced hnew hserves s flags recording
      · exact Or.inr (Or.inl ⟨Nat.lt_of_not_le hfits,
          (Evaluator.runOn_overflow hserves hlike haccepts hfits flags (some recording)).1⟩)
    · refine Or.inl ⟨?_, ?_⟩
      · exact Nat.le_of_not_lt fun hcount => haccepts (Plan.accepts_of_width hplan hwidth hcount)
      · rw [Evaluator.runOn_refused hserves hlike haccepts, Layout.refusal, if_pos hwidth]

/-- The recording of the household, in real numbers, after an evaluation of everything switched on. -/
theorem recording_faithful_household :
    ∃ problem fresh, (household ℝ .dominance).evaluator = .ok (problem, fresh) ∧
      let s : Solution ℝ := .binary (Array.replicate 14 false)
      let moves := [Traffic.Move.call (.binary (Array.replicate 14 true)) .none none,
        .call (.binary #[true]) .none none]
      (∀ move ∈ moves, move.Carries Solution.Storable) ∧ s.Storable ∧
      s.size = (fresh.layout.width s.encoding).toNat ∧
      let t := Traffic.run { evaluator := fresh, held := [] } moves
      let answer := t.evaluator.evaluateDetailed s { log := true, keepPrediction := true } .empty
      answer.1.map (fun outcome => outcome.fitness) = (t.evaluator.evaluate s).1 ∧
      ∃ outcome, answer.1 = .ok outcome ∧
        answer.2.1.Faithful (Household.devices ℝ) fresh.bill outcome ∧
        answer.2.1.Balanced (Household.grids ℝ) outcome := by
  obtain ⟨problem, fresh, hplan⟩ := household_evaluator ℝ .dominance
  have hmoves : ∀ move ∈ [Traffic.Move.call (.binary (Array.replicate 14 true)) .none none,
      .call (.binary #[true]) .none none], Traffic.Move.Carries (α := ℝ) Solution.Storable move := by
    simp only [List.forall_mem_cons, Traffic.Move.Carries, Solution.Storable, List.not_mem_nil,
      false_implies, implies_true, and_true]
    decide
  have hs : (Solution.binary (Array.replicate 14 false) : Solution ℝ).Storable := by
    unfold Solution.Storable
    decide
  have hwidth : (Solution.binary (Array.replicate 14 false) : Solution ℝ).size
      = (fresh.layout.width .binary).toNat := by
    rw [show fresh.layout = .ofParts (household ℝ .dominance).parts by
      rw [(Plan.evaluator_eq_ok hplan).2], household_width]
    decide
  obtain ⟨hfitness, hoverflow | hoverflow | hrecorded⟩ :=
    recording_faithful hplan hmoves hs hwidth { log := true, keepPrediction := true } .empty
  · exact absurd hoverflow.1 (by rw [household_totalCount]; decide)
  · exact absurd hoverflow.1 (by rw [household_window hplan]; decide)
  · obtain ⟨outcome, hok, hfaithful, hbalanced⟩ := hrecorded
    exact ⟨problem, fresh, hplan, hmoves, hs, hwidth, hfitness, outcome, hok, hfaithful,
      hbalanced inferInstance⟩

end HomeEnergy

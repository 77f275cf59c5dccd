import HomeEnergy.Proofs.Relocation

/-!
# Parts that are left out of runs

A static part is in the list of parts and takes part in nothing. Inserting such parts moves the others to later
indices and changes nothing else, whatever the grids say about the devices that are inserted.

* `Padded` — a list of parts with static parts inserted at any positions.
* `Padded.Kept` — the other parts keep their order and their ranges of a solution; `Padded.exists_kept` — there are
  such places.
* `Padded.relocates`, `Padded.mirrors` — the grids deliver and measure the same.
* `static_parts_invisible` — **evaluations with and without the static parts have one result and the same
  schedules**.
-/

namespace HomeEnergy

section Lists

variable {P α : Type} [Part P α]

/-- A list of parts with static parts inserted at any positions. -/
inductive Padded : List P → List P → Prop where
  | nil : Padded [] []
  | keep (p : P) {parts padded : List P} : Padded parts padded → Padded (p :: parts) (p :: padded)
  | insert {p : P} (hp : Part.isStatic p = true) {parts padded : List P} :
      Padded parts padded → Padded parts (p :: padded)

namespace Padded

variable {parts padded : List P}

theorem refl (parts : List P) : Padded parts parts := by
  induction parts with
  | nil => exact .nil
  | cons p parts ih => exact .keep p ih

theorem ne_nil (h : Padded parts padded) (hparts : parts ≠ []) : padded ≠ [] := by
  cases h with
  | nil => exact hparts
  | keep p h => exact List.cons_ne_nil _ _
  | insert hp h => exact List.cons_ne_nil _ _

/-- The variables are as many as without the static parts. -/
theorem tile_eq (h : Padded parts padded) (e : Encoding) (start : UInt64) :
    (tile start (padded.map (Layout.ownedCount e))).2
      = (tile start (parts.map (Layout.ownedCount e))).2 := by
  induction h generalizing start with
  | nil => rfl
  | keep p h ih => exact ih _
  | insert hp h ih =>
    rw [List.map_cons, Layout.ownedCount, if_pos hp]
    simpa [tile] using ih start

/-- The ranges of static parts are empty, so that any solution holds them. -/
theorem all_tile (h : Padded parts padded) (e : Encoding) (size : Nat) (start : UInt64) :
    (tile start (padded.map (Layout.ownedCount e))).1.all (Share.isWithin size)
      = (tile start (parts.map (Layout.ownedCount e))).1.all (Share.isWithin size) := by
  induction h generalizing start with
  | nil => rfl
  | keep p h ih =>
    simp only [List.map_cons, tile, List.all_cons, ih]
  | insert hp h ih =>
    have hempty : Share.isWithin size { start, stop := start + 0 } = true := by
      simp [Share.isWithin, Share.isEmpty]
    rw [List.map_cons, Layout.ownedCount, if_pos hp]
    simp only [tile, List.all_cons, hempty, Bool.true_and]
    simpa using ih start

/-- Places at which a padded list holds the parts of the list: in their order, and with their ranges. -/
structure Kept (place : Nat → Nat) (parts padded : List P) : Prop where
  strictMono : StrictMono place
  present : Problem.present padded
    = (Problem.present parts).map fun x => (x.1, place x.2)
  shares : ∀ (e : Encoding) (start : UInt64) (i : Nat), i < parts.length →
    (tile start (padded.map (Layout.ownedCount e))).1[place i]?
      = (tile start (parts.map (Layout.ownedCount e))).1[i]?

omit [Part P α] in
theorem zipIdx_cons_succ (p : P) (parts : List P) :
    (p :: parts).zipIdx = (p, 0) :: parts.zipIdx.map fun x => (x.1, x.2 + 1) := by
  rw [List.zipIdx_cons, List.zipIdx_succ]

theorem present_cons (p : P) (parts : List P) :
    Problem.present (p :: parts)
      = (if Part.isStatic p then [] else [(p, 0)])
        ++ (Problem.present parts).map fun x => (x.1, x.2 + 1) := by
  have hrest : (parts.zipIdx.map fun x => (x.1, x.2 + 1)).filter (fun x => !Part.isStatic x.1)
      = (Problem.present parts).map fun x => (x.1, x.2 + 1) := by
    rw [List.filter_map]
    rfl
  rw [Problem.present, zipIdx_cons_succ]
  cases hp : Part.isStatic p with
  | true => rw [List.filter_cons_of_neg (by simp [hp]), hrest]; rfl
  | false => rw [List.filter_cons_of_pos (by simp [hp]), hrest]; rfl

/-- **A padded list holds the parts of the list at places in their order.** -/
theorem exists_kept (h : Padded parts padded) : ∃ place, Kept place parts padded := by
  induction h with
  | nil => exact ⟨id, strictMono_id, by simp [Problem.present], fun _ _ i hi => absurd hi (by simp)⟩
  | @keep p parts padded h ih =>
    obtain ⟨place, hmono, hpresent, hshares⟩ := ih
    -- the first part stays in front, and every part behind it moves by as much as without it
    refine ⟨fun i => i.casesOn 0 fun i => place i + 1, ?_, ?_, ?_⟩
    · refine strictMono_nat_of_lt_succ fun i => ?_
      cases i with
      | zero => exact Nat.succ_pos _
      | succ i => exact Nat.succ_lt_succ (hmono (Nat.lt_succ_self i))
    · rw [present_cons, present_cons, hpresent, List.map_append, List.map_map, List.map_map]
      split <;> rfl
    · intro e start i hi
      cases i with
      | zero => rfl
      | succ i => exact hshares e _ i (by simpa using hi)
  | @insert p hp parts padded h ih =>
    obtain ⟨place, hmono, hpresent, hshares⟩ := ih
    refine ⟨fun i => place i + 1, fun i j hij => Nat.succ_lt_succ (hmono hij), ?_, ?_⟩
    · rw [present_cons, if_pos hp, hpresent, List.map_map]
      rfl
    · intro e start i hi
      rw [List.map_cons, Layout.ownedCount, if_pos hp, tile]
      simpa using hshares e start i hi

/-! ### The problem of a padded list -/

variable {place : Nat → Nat}

/-- **A padded list holds the parts that take part at their places**, in the roles that the grids give them. -/
theorem relocates (h : Kept place parts padded) (grids : List (Grid α)) :
    Problem.Relocates grids place parts padded where
  injective := h.strictMono.injective
  get := by
    intro i p hp hstatic
    have hmem : (p, place i) ∈ Problem.present padded := by
      rw [h.present]
      exact List.mem_map.mpr ⟨(p, i), Problem.mem_present.mpr ⟨hp, hstatic⟩, rfl⟩
    exact (Problem.mem_present.mp hmem).1
  moved := by
    intro d
    rw [Problem.of?_participants, Problem.of?_participants, h.present, List.filter_map,
      List.getLast?_map, Option.map_map, Option.map_map]
    rfl

/-- The parts that take part are handed the same variables. -/
theorem handOut_getElem? (h : Kept place parts padded) (s : Solution α) {i : Nat} {p : P}
    (hp : parts[i]? = some p) (hp' : padded[place i]? = some p) :
    ((Layout.ofParts padded).handOut s padded.toArray)[place i]?
      = ((Layout.ofParts parts).handOut s parts.toArray)[i]? := by
  have hlt : i < parts.length := (List.getElem?_eq_some_iff.mp hp).1
  have hshare : ((Layout.ofParts padded).shares s.encoding)[place i]?
      = ((Layout.ofParts parts).shares s.encoding)[i]? := by
    rw [Layout.shares_ofParts, Layout.shares_ofParts, List.getElem?_toArray, List.getElem?_toArray]
    exact h.shares s.encoding 0 i hlt
  simp only [Layout.handOut, Array.getElem?_mapIdx, List.getElem?_toArray, hp, hp', hshare,
    Option.map_some]

theorem accepts_iff (h : Padded parts padded) (s : Solution α) :
    (Layout.ofParts padded).Accepts s ↔ (Layout.ofParts parts).Accepts s := by
  unfold Layout.Accepts
  rw [Layout.width_ofParts, Layout.width_ofParts, Layout.shares_ofParts, Layout.shares_ofParts,
    List.all_toArray, List.all_toArray, h.tile_eq, h.all_tile]

theorem width_eq (h : Padded parts padded) (e : Encoding) :
    (Layout.ofParts padded).width e = (Layout.ofParts parts).width e := by
  rw [Layout.width_ofParts, Layout.width_ofParts, h.tile_eq]

variable [Scalar α]

/-- A list is refused for the same reason as the padded one. -/
theorem new_eq_error_iff (h : Padded parts padded) (hparts : parts ≠ []) {grids : List (Grid α)}
    {failure : Failure} :
    Problem.new padded grids = .error failure ↔ Problem.new parts grids = .error failure := by
  have hempty : padded.isEmpty = parts.isEmpty := by
    rw [List.isEmpty_eq_false_iff.mpr hparts, List.isEmpty_eq_false_iff.mpr (h.ne_nil hparts)]
  unfold Problem.new
  rw [hempty]
  split
  · rfl
  · cases Problem.collision? grids <;> simp

variable {grids : List (Grid α)} {m m' : Problem P α}

/-- **The wirings of the two problems mirror each other.** -/
theorem mirrors (h : Kept place parts padded) (hnew : Problem.new parts grids = .ok m)
    (hnew' : Problem.new padded grids = .ok m') :
    m'.wiring.Mirrors m.wiring place fun _ _ => True :=
  Problem.mirrors_of_strictMono hnew hnew' (relocates h grids) h.strictMono

theorem takingParts_eq (h : Kept place parts padded) (hnew : Problem.new parts grids = .ok m)
    (hnew' : Problem.new padded grids = .ok m') : m'.takingParts = m.takingParts := by
  rw [Problem.takingParts_new hnew, Problem.takingParts_new hnew', h.present, List.map_map]
  rfl

end Padded

end Lists

/-! ### Evaluations -/

section Evaluations

variable {P α : Type} [Scalar α] [Part P α] {parts padded : List P} {grids : List (Grid α)}
  {m m' : Problem P α} {e e' : Evaluator P α} {place : Nat → Nat} {n n' : Nat}

/-- No step tells a part from itself. -/
theorem Part.inseparable_eq :
    Part.Inseparable (fun _ (p q : P) => p = q) (fun _ (_ : FlowMap α) => True) where
  publish := by rintro _ _ _ rfl _ _; rfl
  sent _ _ _ := trivial
  step := by rintro _ _ _ rfl _ _; rfl
  cost := by rintro _ _ _ rfl; rfl

namespace Padded

/-- Evaluations with and without the static parts start from matching frames. -/
theorem startOf_matches (h : Kept place parts padded) (hnew : Problem.new parts grids = .ok m)
    (hnew' : Problem.new padded grids = .ok m') (he : e.Serves m n) (he' : e'.Serves m' n')
    (hagrees : e'.Agrees e) (s : Solution α) (flags : EvaluationFlags) :
    Frame.Matches m.wiring place (fun _ p q => p = q) (e.startOf m s flags) (e'.startOf m' s flags) := by
  have hrelocates := relocates h grids
  refine Problem.startOf_matches hnew hnew' hrelocates he he' hagrees ?_
  intro i p hp hstatic
  have hlt : i < ((Layout.ofParts parts).handOut s parts.toArray).size := by
    simpa [Layout.handOut] using (List.getElem?_eq_some_iff.mp hp).1
  have hget := Array.getElem?_eq_getElem hlt
  exact ⟨_, _, hget, (handOut_getElem? h s hp (hrelocates.get hp hstatic)).trans hget, rfl⟩

theorem serves_accepts_iff (h : Padded parts padded) (hnew : Problem.new parts grids = .ok m)
    (hnew' : Problem.new padded grids = .ok m') (he : e.Serves m n) (he' : e'.Serves m' n') (s : Solution α) :
    e'.layout.Accepts s ↔ e.layout.Accepts s := by
  rw [he.layout, he'.layout, Problem.new_eq_ok hnew, Problem.new_eq_ok hnew']
  exact h.accepts_iff s

/-- An evaluation with the static parts has the result of the one without. -/
theorem runOn_eq (h : Padded parts padded) (hnew : Problem.new parts grids = .ok m)
    (hnew' : Problem.new padded grids = .ok m') (he : e.Serves m n) (he' : e'.Serves m' n')
    (hagrees : e'.Agrees e) (s : Solution α) (flags : EvaluationFlags)
    (recording? : Option (Recording α)) :
    (e'.runOn m' s flags recording?).result = (e.runOn m s flags recording?).result := by
  obtain ⟨place, hplace⟩ := h.exists_kept
  have haccepts := h.serves_accepts_iff hnew hnew' he he' s
  by_cases hs : e.layout.Accepts s
  · refine Evaluator.runOn_matches he he' hagrees Part.inseparable_eq (mirrors hplace hnew hnew') flags
      (startOf_matches hplace hnew hnew' he he' hagrees s flags) ?_ hs (haccepts.mpr hs) recording?
      recording?
    intro cost total
    rw [Problem.taking_new hnew, Problem.taking_new hnew', hplace.present, List.map_map, List.map_map]
    rfl
  · have hlike : m.Like m n := ⟨rfl, he.sized⟩
    have hlike' : m'.Like m' n' := ⟨rfl, he'.sized⟩
    have hwidth : e'.layout.width s.encoding = e.layout.width s.encoding := by
      rw [he.layout, he'.layout, Problem.new_eq_ok hnew, Problem.new_eq_ok hnew']
      exact h.width_eq _
    rw [Evaluator.runOn_refused he hlike hs, Evaluator.runOn_refused he' hlike' (mt haccepts.mp hs)]
    simp only [Layout.refusal, hwidth]

/-- An evaluation with the static parts writes the schedules of the one without. -/
theorem finished_eq [Part.Steady P] (h : Padded parts padded) (hnew : Problem.new parts grids = .ok m)
    (hnew' : Problem.new padded grids = .ok m') (he : e.Serves m n) (he' : e'.Serves m' n')
    (hagrees : e'.Agrees e) (s : Solution α) (flags : EvaluationFlags)
    (recording? : Option (Recording α)) :
    (e'.runOn m' s flags recording?).recording?.map Recording.finished
      = (e.runOn m s flags recording?).recording?.map Recording.finished := by
  obtain ⟨place, hplace⟩ := h.exists_kept
  have haccepts := h.serves_accepts_iff hnew hnew' he he' s
  by_cases hs : e.layout.Accepts s
  · rw [Evaluator.finished_runOn hnew he hs, Evaluator.finished_runOn hnew' he' (haccepts.mpr hs),
      hplace.present, List.map_map]
    congr 1
    funext _
    refine List.map_congr_left fun x hx => ?_
    exact Evaluator.scheduleAt_matches Part.inseparable_eq (mirrors hplace hnew hnew') hagrees hnew
      (startOf_matches hplace hnew hnew' he he' hagrees s flags) hx
  · rw [Evaluator.runOn_refused he ⟨rfl, he.sized⟩ hs,
      Evaluator.runOn_refused he' ⟨rfl, he'.sized⟩ (mt haccepts.mp hs)]

/-- The evaluators of two plans that differ in static parts only. -/
theorem agrees {plan : Plan P α} {problem problem' : Problem P α} {fresh fresh' : Evaluator P α}
    (h : Padded plan.parts padded) (hplan : plan.evaluator = .ok (problem, fresh))
    (hwide : ({ plan with parts := padded } : Plan P α).evaluator = .ok (problem', fresh')) :
    fresh'.Agrees fresh := by
  obtain ⟨place, hplace⟩ := h.exists_kept
  obtain ⟨hnew, rfl⟩ := Plan.evaluator_eq_ok hplan
  obtain ⟨hnew', rfl⟩ := Plan.evaluator_eq_ok hwide
  have htaking := takingParts_eq hplace hnew hnew'
  refine ⟨?_, rfl, rfl⟩
  simp only [Problem.referenceTime, Problem.horizon, htaking]

end Padded

/-- **Static parts are invisible.** A list of parts with static parts inserted at any positions is refused for the same
reasons as the list itself, whatever the grids say about the devices that are inserted. If it is accepted, the solutions
are as wide, the same window is simulated, and every evaluation has the same result and the same list of schedules,
under all flags. Numbers may be rounded. -/
theorem static_parts_invisible [Part.Steady P] {plan : Plan P α} (hparts : plan.parts ≠ [])
    (hpadded : Padded plan.parts padded) :
    let wide : Plan P α := { plan with parts := padded }
    (∀ failure, Problem.new wide.parts wide.grids = .error failure ↔
      Problem.new plan.parts plan.grids = .error failure) ∧
    ∀ problem fresh, plan.evaluator = .ok (problem, fresh) →
      ∃ problem' fresh', wide.evaluator = .ok (problem', fresh') ∧
        (∀ e, fresh'.layout.width e = fresh.layout.width e) ∧ fresh'.window = fresh.window ∧
        ∀ s flags recording?,
          (fresh'.run s flags recording?).1 = (fresh.run s flags recording?).1 ∧
          (fresh'.run s flags recording?).2.1.map Recording.finished
            = (fresh.run s flags recording?).2.1.map Recording.finished := by
  intro wide
  refine ⟨fun failure => hpadded.new_eq_error_iff hparts, fun problem fresh hplan => ?_⟩
  have hcollision : Problem.collision? plan.grids = none :=
    (Plan.exists_evaluator_iff.mp ⟨problem, fresh, hplan⟩).2
  obtain ⟨problem', fresh', hwide⟩ : ∃ problem' fresh', wide.evaluator = .ok (problem', fresh') :=
    Plan.exists_evaluator_iff.mpr ⟨hpadded.ne_nil hparts, hcollision⟩
  have hagrees := hpadded.agrees hplan hwide
  have hserves := Plan.serves hplan
  have hserves' := Plan.serves hwide
  have hnew := (Plan.evaluator_eq_ok hplan).1
  have hnew' := (Plan.evaluator_eq_ok hwide).1
  refine ⟨problem', fresh', hwide, fun e => ?_, hagrees.window, fun s flags recording? => ?_⟩
  · rw [(Plan.evaluator_eq_ok hplan).2, (Plan.evaluator_eq_ok hwide).2]
    exact hpadded.width_eq e
  · obtain ⟨hresult, hrecording⟩ := Plan.run_fresh hplan s flags recording?
    obtain ⟨hresult', hrecording'⟩ := Plan.run_fresh hwide s flags recording?
    rw [hresult, hresult', hrecording, hrecording']
    exact ⟨hpadded.runOn_eq hnew hnew' hserves hserves' hagrees s flags recording?,
      hpadded.finished_eq hnew hnew' hserves hserves' hagrees s flags recording?⟩

end Evaluations

def Household.idleLoad (n : Nat) : Device Double :=
  .baseLoad { BaseLoad.new (deviceId n) 0 2700 100 3 with isStatic := true }

/-- A household without a load and without its photovoltaic system does not notice when static loads take their
identities, which relations and the meter name. -/
theorem static_parts_invisible_household :
    let parts := (Household.devices Double).drop 2
    let padded := Household.idleLoad 1 :: (parts.take 1 ++ Household.idleLoad 2 :: parts.drop 1)
    let plan : Plan (Device Double) Double := { household Double .dominance with parts }
    plan.parts ≠ [] ∧ Padded plan.parts padded ∧
    ∃ problem fresh problem' fresh', plan.evaluator = .ok (problem, fresh) ∧
      ({ plan with parts := padded } : Plan (Device Double) Double).evaluator = .ok (problem', fresh') ∧
      (∀ e, fresh'.layout.width e = fresh.layout.width e) ∧ fresh'.window = fresh.window ∧
      ∀ s flags recording?,
        (fresh'.run s flags recording?).1 = (fresh.run s flags recording?).1 ∧
        (fresh'.run s flags recording?).2.1.map Recording.finished
          = (fresh.run s flags recording?).2.1.map Recording.finished := by
  intro parts padded plan
  have hparts : plan.parts ≠ [] := by simp [plan, parts, Household.devices]
  have hpadded : Padded plan.parts padded :=
    .insert rfl (.keep _ (.insert rfl (Padded.refl _)))
  obtain ⟨_, _, hhousehold⟩ := household_evaluator Double .dominance
  obtain ⟨problem, fresh, hplan⟩ : ∃ problem fresh, plan.evaluator = .ok (problem, fresh) :=
    Plan.exists_evaluator_iff.mpr ⟨hparts, (Plan.exists_evaluator_iff.mp ⟨_, _, hhousehold⟩).2⟩
  obtain ⟨-, hall⟩ := static_parts_invisible hparts hpadded
  obtain ⟨problem', fresh', hwide, hwidth, hwindow, hrun⟩ := hall problem fresh hplan
  exact ⟨hparts, hpadded, problem, fresh, problem', fresh', hplan, hwide, hwidth, hwindow, hrun⟩

end HomeEnergy

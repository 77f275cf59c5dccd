import HomeEnergy.Proofs.History
import HomeEnergy.Proofs.Reports
import HomeEnergy.Proofs.Sameness
import HomeEnergy.Proofs.Searches

/-!
# The optimum

What the optimizer returns: the best of what the searches found, evaluated once more on a container that the
searches have used.

* `Evaluator.Records` — what searches find on a problem: the fitness of an evaluation on the unused problem.
* `Evaluator.searchProblem_upright` — evaluations of the searches are such, whatever earlier ones left.
* `solve_firstBest` — **the optimizer returns the first of the best candidates**, with the fitness that its
  search recorded, under every ranking; it returns nothing exactly if a search fails or nothing is found.
-/

namespace HomeEnergy

section Records

variable {P α : Type} [Scalar α] [Part P α] {e : Evaluator P α} {m c : Problem P α} {n : Nat}

/-- The objectives of a solution are the fitness of an evaluation on the unused problem. -/
def Evaluator.Records (e : Evaluator P α) (m : Problem P α) (s : Solution α) (objectives : List α) : Prop :=
  ∃ outcome, (e.runOn m s .none none).result = .ok outcome ∧ objectives = [outcome.fitness]

/-- A total to which costs are added is comparable if it is not undefined. -/
theorem comparable_foldl [Scalar.Ordered α] {β : Type} (cost : β → α) (xs : List β) :
    ∀ total : α, (Scalar.isNaN total = false → total ≤ total) →
      Scalar.isNaN (xs.foldl (fun total x => total + cost x) total) = false →
      xs.foldl (fun total x => total + cost x) total ≤ xs.foldl (fun total x => total + cost x) total := by
  induction xs with
  | nil => intro total htotal; exact htotal
  | cons x xs ih => intro total _; exact ih (total + cost x) Scalar.Ordered.le_refl_add

/-- The fitness of an evaluation is comparable if it is not undefined. -/
theorem Evaluator.comparable_fitness [Scalar.Ordered α] (he : e.Serves m n) (h : c.Like m n)
    {s : Solution α} {flags : EvaluationFlags} {recording? : Option (Recording α)} {outcome : Outcome α}
    (hresult : (e.runOn c s flags recording?).result = .ok outcome)
    (hnan : Scalar.isNaN outcome.fitness = false) : outcome.fitness ≤ outcome.fitness := by
  by_cases haccepts : e.layout.Accepts s
  · by_cases hfits : e.Fits
    · rw [(runOn_eq he h haccepts hfits flags recording?).1] at hresult
      obtain rfl := Except.ok.inj hresult
      exact comparable_foldl _ _ _ Scalar.Ordered.le_refl_add hnan
    · rw [(runOn_overflow he h haccepts hfits flags recording?).1] at hresult
      exact absurd hresult (by simp)
  · rw [runOn_refused he h haccepts] at hresult
    exact absurd hresult (by simp)

variable [Part.Restartable P]

/-- **Searches record the fitness of evaluations on the unused problem**, and leave containers as good as
new. -/
theorem Evaluator.searchProblem_upright (he : e.Serves m n) :
    (searchProblem e.layout : SearchProblem (Evaluator P α) α).Upright
      (fun used => used.Holds e fun c => c.AsNew e.layout m n) (e.Records m) := by
  intro s used hs hused
  have hafter := hused.run (keeps_asNew he) hs .none none
  obtain ⟨c, hc, hrun⟩ := hused.run_eq
  have hresult : (used.run s .none none).1 = (e.runOn m s .none none).result :=
    (hrun s .none none).1.trans (runOn_asNew he hc hs .none none).1
  show Search.Yields _ _ ((((used.run s .none none).1.map fun outcome => outcome.fitness).map
    fun fitness => [fitness]), (used.run s .none none).2.2)
  rw [hresult]
  cases hok : (e.runOn m s .none none).result with
  | error f => exact hafter
  | ok outcome => exact ⟨hafter, outcome, hok, rfl⟩

end Records

/-! ### What the optimizer makes of what was found -/

namespace Plan

variable {P α : Type} [Transcendental α] [Part P α] {plan : Plan P α} {problem : Problem P α}
  {fresh used : Evaluator P α}

/-- What a plan comes to after its searches: their candidates are merged, and the winner is evaluated in
detail. -/
def conclude (plan : Plan P α) (used : Evaluator P α) :
    Except Failure (List (Candidate α)) → Except Failure (Option (Optimum α))
  | .error (.defect d) => .error (.defect d)
  | .error _ => .ok none
  | .ok cs =>
    match winner? plan.ranking (Candidate.front cs) with
    | none => .ok none
    | some c =>
      let (result, recording, _) :=
        used.evaluateDetailed c.solution { log := true, keepPrediction := true } .empty
      result.map fun outcome =>
        some { solution := c.solution, fitness := outcome.fitness, profile := outcome.profile, recording }

omit [Part P α] in
theorem winner?_nil (ranking : Ranking α) : winner? ranking ([] : List (Candidate α)) = none := by
  unfold winner?
  split <;> rfl

/-- A plan with an evaluator comes to what its searches lead to. -/
theorem solve_eq (hplan : plan.evaluator = .ok (problem, fresh)) :
    let searched := Search.runAll (Evaluator.searchProblem fresh.layout) plan.searches fresh
    plan.solve = plan.conclude searched.2 searched.1 := by
  simp only [solve, Search.best, hplan, bind, Except.bind]
  cases Search.runAll (Evaluator.searchProblem fresh.layout) plan.searches fresh with
  | mk found used =>
    cases found with
    | error f => cases f <;> rfl
    | ok cs =>
      simp only [Search.merge, conclude]
      cases hfront : Candidate.front cs with
      | nil => rw [winner?_nil]; rfl
      | cons c rest =>
        dsimp only
        cases winner? plan.ranking (c :: rest) with
        | none => rfl
        | some c =>
          dsimp only
          cases (used.evaluateDetailed c.solution { log := true, keepPrediction := true } .empty).1 <;>
            rfl

theorem conclude_error (plan : Plan P α) (used : Evaluator P α) {f : Failure} (hf : ∀ d, f ≠ .defect d) :
    plan.conclude used (.error f) = .ok none := by
  cases f with
  | defect d => exact absurd rfl (hf d)
  | _ => rfl

theorem conclude_nil (plan : Plan P α) (used : Evaluator P α) : plan.conclude used (.ok []) = .ok none := by
  have hfront : Candidate.front ([] : List (Candidate α)) = [] := rfl
  simp only [conclude, hfront, winner?_nil]

section Best

variable [Scalar.Ordered α] [Part.Restartable P] [Part.Discreet P] [Part.Extensional P]
  {e : Evaluator P α} {m : Problem P α} {n : Nat}

omit [Scalar.Ordered α] [Part.Extensional P] in
/-- The evaluation in detail comes to the fitness that the search recorded. -/
theorem evaluateDetailed_recorded (he : e.Serves m n)
    (hused : used.Holds e fun c => c.AsNew e.layout m n) {c : Candidate α} (hc : c.Recorded (e.Records m))
    (flags : EvaluationFlags) (recording : Recording α) :
    ∃ outcome, (used.evaluateDetailed c.solution flags recording).1 = .ok outcome ∧
      c.objectives = [outcome.fitness] := by
  obtain ⟨hstorable, outcome, houtcome, hobjectives⟩ := hc
  obtain ⟨c', hc', hrun⟩ := hused.run_eq
  refine ⟨outcome, ?_, hobjectives⟩
  calc (used.evaluateDetailed c.solution flags recording).1
      = (e.runOn c' c.solution flags (some recording)).result := (hrun ..).1
    _ = (e.runOn m c.solution flags (some recording)).result := (Evaluator.runOn_asNew he hc' hstorable ..).1
    _ = (e.runOn m c.solution .none none).result := Evaluator.runOn_flags he ⟨rfl, he.sized⟩ ..
    _ = .ok outcome := houtcome

/-- **Of recorded candidates the first of the best ones is returned**, with the fitness that was recorded. -/
theorem conclude_firstBest (plan : Plan P α) (he : e.Serves m n)
    (hused : used.Holds e fun c => c.AsNew e.layout m n) {cs : List (Candidate α)}
    (hcs : ∀ c ∈ cs, c.Recorded (e.Records m))
    (hnan : ∀ c ∈ cs, ∀ x ∈ c.objectives, Scalar.isNaN x = false) (hne : cs ≠ []) :
    ∃ i c x optimum, Candidate.FirstBest cs i c x ∧ plan.conclude used (.ok cs) = .ok (some optimum) ∧
      optimum.solution = c.solution ∧ optimum.fitness = x := by
  have hcomparable : ∀ c ∈ cs, ∃ y, c.objectives = [y] ∧ y ≤ y := by
    intro c hc
    obtain ⟨-, outcome, houtcome, hobjectives⟩ := hcs c hc
    refine ⟨outcome.fitness, hobjectives, ?_⟩
    exact Evaluator.comparable_fitness he ⟨rfl, he.sized⟩ houtcome
      (hnan c hc _ (by simp [hobjectives]))
  obtain ⟨i, c, x, hbest⟩ := Candidate.exists_firstBest hne hcomparable
  have hc := hcs c (List.mem_of_getElem? hbest.place)
  -- an earlier candidate with the same solution would have the same fitness, and be as good
  have hnew : ∀ j < i, ∀ d, cs[j]? = some d → d.solution.same c.solution = false := by
    intro j hj d hd
    obtain ⟨y, hy, hxy⟩ := hbest.first j hj d hd
    obtain ⟨-, outcome, houtcome, hobjectives⟩ := hcs d (List.mem_of_getElem? hd)
    obtain ⟨-, outcome', houtcome', hobjectives'⟩ := hc
    by_contra hsame
    rw [Evaluator.runOn_same e m (Bool.eq_true_of_not_eq_false hsame), houtcome'] at houtcome
    obtain rfl := Except.ok.inj houtcome
    obtain rfl : x = y := by simpa [hbest.fitness, hy] using hobjectives'.trans hobjectives.symm
    exact Scalar.Ordered.lt_irrefl x hxy
  have hwinner := winner?_front plan.ranking hbest hnew
  obtain ⟨outcome, houtcome, hobjectives⟩ := evaluateDetailed_recorded he hused hc
    { log := true, keepPrediction := true } .empty
  obtain rfl : x = outcome.fitness := by simpa [hbest.fitness] using hobjectives
  let optimum : Optimum α :=
    { solution := c.solution, fitness := outcome.fitness, profile := outcome.profile
      recording := (used.evaluateDetailed c.solution { log := true, keepPrediction := true } .empty).2.1 }
  refine ⟨i, c, outcome.fitness, optimum, hbest, ?_, rfl, rfl⟩
  simp only [conclude, hwinner, houtcome]
  rfl

end Best

end Plan

/-- **The optimizer returns the first of the best candidates.** It returns nothing exactly if a search fails, or
if all of them together find nothing; a defect is passed on. Otherwise, as long as no fitness is undefined, it
returns the first candidate of all results, in the order of the searches, whose fitness is least, and the
fitness that the search recorded. -/
theorem solve_firstBest {plan : Plan (Device Double) Double} {problem : Problem (Device Double) Double}
    {fresh : Evaluator (Device Double) Double} (hplan : plan.evaluator = .ok (problem, fresh)) :
    let found := (Search.runAll (Evaluator.searchProblem fresh.layout) plan.searches fresh).1
    (∀ cs, found = .ok cs → ∀ c ∈ cs, ∀ x ∈ c.objectives, Scalar.isNaN x = false) →
    (plan.solve = .ok none ↔ found = .ok [] ∨ ∃ f, found = .error f ∧ ∀ d, f ≠ .defect d) ∧
      (∀ d, found = .error (.defect d) → plan.solve = .error (.defect d)) ∧
      ∀ cs, found = .ok cs → cs ≠ [] →
        ∃ i c x optimum, Candidate.FirstBest cs i c x ∧ plan.solve = .ok (some optimum) ∧
          optimum.solution = c.solution ∧ optimum.fitness = x := by
  intro found hnan
  have hserves := Plan.serves hplan
  have hfresh : fresh.Holds fresh fun c => c.AsNew fresh.layout problem plan.parts.length :=
    Plan.holds hplan (Problem.asNew_refl hserves.sized)
  have hyields := Search.runAll_yields (Evaluator.searchProblem_upright hserves) plan.searches hfresh
  have hsolve := Plan.solve_eq hplan
  cases hsearched : Search.runAll (Evaluator.searchProblem fresh.layout) plan.searches fresh with
  | mk found' used =>
  have hfound : found = found' := congrArg Prod.fst hsearched
  rw [hsearched] at hyields hsolve
  clear_value found
  subst hfound
  match found, hyields with
  | .error f, _ =>
    by_cases hdefect : ∃ d, f = .defect d
    · obtain ⟨d, rfl⟩ := hdefect
      have hsolve' : plan.solve = .error (.defect d) := hsolve
      refine ⟨?_, ?_, by simp⟩
      · simp [hsolve']
      · intro d' hd'
        obtain rfl : d = d' := by simpa using hd'
        exact hsolve'
    · have hnone : ∀ d, f ≠ .defect d := fun d hd => hdefect ⟨d, hd⟩
      have hsolve' : plan.solve = .ok none := hsolve.trans (Plan.conclude_error plan used hnone)
      refine ⟨?_, ?_, by simp⟩
      · simp [hsolve', hnone]
      · intro d hd
        exact absurd (by simpa using hd) (hnone d)
  | .ok [], _ =>
    have hsolve' : plan.solve = .ok none := hsolve.trans (Plan.conclude_nil plan used)
    refine ⟨?_, by simp, by simp⟩
    simp [hsolve']
  | .ok (c :: cs), ⟨hused, hcs⟩ =>
    have hbest := Plan.conclude_firstBest plan hserves hused hcs (hnan _ rfl) (by simp)
    refine ⟨?_, by simp, ?_⟩
    · obtain ⟨_, _, _, _, _, hsome, _⟩ := hbest
      simp [hsolve, hsome]
    · intro cs' hcs' _
      obtain rfl := Except.ok.inj hcs'
      rw [hsolve]
      exact hbest

/-- A charger behind a meter, whose schedule for two steps is searched for at random and by a first
generation. -/
def Household.garage : Plan (Device Double) Double :=
  { parts :=
      [.evCharger
        { timing := (Timing.new (deviceId 4) 0 900).withStep 900, maxChargeW := 3000, penaltyPerKwh := 1,
          session := { arrivalStep := 0, deadlineStep := 2, energyWh := 1500 }, enabled := #[],
          remainingWh := 1500, terminalCost := 0 }]
    grids :=
      [.electrical
        { topology :=
            { meters := [electricalMeter]
              relations :=
                [{ active := deviceId 4, passive := electricalMeter, forward := .activePower,
                   back := .activePower }]
              meterDevices := [] }
          fastPath := true, run? := none }]
    signals := { prices := .ofList [(.activeExternal, { default := 0.3, windows := [] })],
                 limits := .empty }
    penaltyPerKwh := defaultPenalty
    searches :=
      [.random { encoding := .binary, samples := 3, seed := 7 },
        .genetic { GeneticParams.default with populationSize := 2, generations := 0, elitism := 1 }]
    ranking := .nashBargaining
    step := 900
    multithreaded := true
    start := 0 }

/-- The searches of the garage find something, and the first of the best is returned. -/
theorem solve_firstBest_garage :
    ∃ problem fresh cs, Household.garage.evaluator = .ok (problem, fresh) ∧
      (Search.runAll (Evaluator.searchProblem fresh.layout) Household.garage.searches fresh).1 = .ok cs ∧
      cs ≠ [] ∧ (∀ c ∈ cs, ∀ x ∈ c.objectives, Scalar.isNaN x = false) ∧
      ∃ i c x optimum, Candidate.FirstBest cs i c x ∧ Household.garage.solve = .ok (some optimum) ∧
        optimum.solution = c.solution ∧ optimum.fitness = x := by
  have hfinds : (match Household.garage.evaluator with
    | .ok (_, fresh) =>
      match (Search.runAll (Evaluator.searchProblem fresh.layout) Household.garage.searches fresh).1 with
      | .ok cs => !cs.isEmpty && cs.all fun c => c.objectives.all fun x => !Scalar.isNaN x
      | .error _ => false
    | .error _ => false) = true := by decide +kernel
  cases hplan : Household.garage.evaluator with
  | error f => simp [hplan] at hfinds
  | ok made =>
    obtain ⟨problem, fresh⟩ := made
    simp only [hplan] at hfinds
    cases hfound : (Search.runAll (Evaluator.searchProblem fresh.layout) Household.garage.searches
        fresh).1 with
    | error f => simp [hfound] at hfinds
    | ok cs =>
      simp only [hfound, Bool.and_eq_true, Bool.not_eq_true', List.isEmpty_eq_false_iff,
        List.all_eq_true] at hfinds
      refine ⟨problem, fresh, cs, rfl, hfound, hfinds.1, hfinds.2, ?_⟩
      refine (solve_firstBest hplan ?_).2.2 cs hfound hfinds.1
      intro cs' hcs'
      obtain rfl : cs = cs' := Except.ok.inj (hfound.symm.trans hcs')
      exact hfinds.2

end HomeEnergy

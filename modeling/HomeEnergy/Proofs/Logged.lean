import HomeEnergy.Search.Genetic

/-!
# Recorded evaluations

What a search evaluates cannot be seen from what it finds. This module gives a problem a record of its
evaluations, and shows that the search does not notice.

* `SearchProblem.logged` — the problem with its record, which is a part of the state that it works on.
* `Genetic.stageAfter` — the population after some generations; `Genetic.runFrom_eq` — a search takes the
  front of its last one.
* `Genetic.evolve_logged`, `Genetic.runFrom_logged` — **without the record, the generations and the search are
  the same**; `RandomSearch.runFrom_logged` — and so is a random search.
-/

namespace HomeEnergy

variable {G S α : Type} [WordSource G]

/-! ### Evaluations -/

/-- The same problem with a record of its evaluations, in their order. One that fails is recorded without
objectives. -/
def SearchProblem.logged (p : SearchProblem S α) : SearchProblem (S × List (Candidate α)) α where
  width := p.width
  evaluate x s :=
    let (outcome, s') := p.evaluate x s.1
    (outcome, (s', s.2 ++ [{ solution := x, objectives := outcome.toOption.getD [] }]))

@[simp] theorem SearchProblem.width_logged (p : SearchProblem S α) (e : Encoding) :
    p.logged.width e = p.width e := rfl

theorem SearchProblem.evaluate_logged {p : SearchProblem S α} {x : Solution α}
    {s : S × List (Candidate α)} {outcome : Except Failure (List α)} {s' : S}
    (h : p.evaluate x s.1 = (outcome, s')) :
    p.logged.evaluate x s
      = (outcome, s', s.2 ++ [{ solution := x, objectives := outcome.toOption.getD [] }]) := by
  simp only [logged, h]

def Search.unlogged {β : Type} (r : Except Failure β × S × List (Candidate α)) : Except Failure β × S :=
  (r.1, r.2.1)

theorem SearchProblem.evaluateAll_logged (p : SearchProblem S α) (xs : List (Solution α))
    (s : S × List (Candidate α)) :
    Search.unlogged (p.logged.evaluateAll xs s) = p.evaluateAll xs s.1 := by
  induction xs generalizing s with
  | nil => rfl
  | cons x xs ih =>
    cases h : p.evaluate x s.1 with
    | mk outcome s' =>
      simp only [evaluateAll, evaluate_logged h, h]
      cases outcome with
      | error e => rfl
      | ok objectives =>
        dsimp only
        rw [← ih (s', _)]
        cases p.logged.evaluateAll xs (s', _) with
        | mk outcome s => cases outcome <;> rfl

/-! ### Generations -/

namespace Genetic

def Stage.unlogged (g : Stage G (S × List (Candidate α)) α) : Stage G S α :=
  { population := g.population, budget := g.budget, source := g.source, state := g.state.1 }

def unloggedStep (r : Except Failure (Stage G (S × List (Candidate α)) α) × S × List (Candidate α)) :
    Except Failure (Stage G S α) × S :=
  (r.1.map Stage.unlogged, r.2.1)

omit [WordSource G] in
theorem takeIn_logged (problem : SearchProblem S α) (kept : List (Candidate α)) (xs : List (Solution α))
    (budget : Nat) (source : G) (s : S × List (Candidate α)) :
    unloggedStep (takeIn problem.logged kept xs budget source s)
      = takeIn problem kept xs budget source s.1 := by
  simp only [takeIn, ← SearchProblem.evaluateAll_logged, Search.unlogged]
  cases problem.logged.evaluateAll (xs.take budget) s with
  | mk outcome s => cases outcome <;> rfl

variable [Transcendental α]

theorem generation_logged (p : GeneticParams α) (width : Nat) (problem : SearchProblem S α)
    (g : Stage G (S × List (Candidate α)) α) :
    unloggedStep (generation p width problem.logged g) = generation p width problem g.unlogged :=
  takeIn_logged ..

theorem evolve_logged (p : GeneticParams α) (width : Nat) (problem : SearchProblem S α) (n : Nat)
    (g : Stage G (S × List (Candidate α)) α) :
    unloggedStep (evolve p width problem.logged n g) = evolve p width problem n g.unlogged := by
  induction n generalizing g with
  | zero => rfl
  | succ n ih =>
    by_cases hdone : g.budget = 0 ∨ g.population.isEmpty
    · have hdone' : g.unlogged.budget = 0 ∨ g.unlogged.population.isEmpty := hdone
      rw [evolve, evolve, if_pos hdone, if_pos hdone']
      rfl
    · have hdone' : ¬ (g.unlogged.budget = 0 ∨ g.unlogged.population.isEmpty) := hdone
      rw [evolve, evolve, if_neg hdone, if_neg hdone', ← generation_logged]
      cases generation p width problem.logged g with
      | mk outcome s =>
        cases outcome with
        | error e => rfl
        | ok g' => exact ih g'

/-! ### Searches -/

/-- The population after the first one and up to `n` generations. -/
def stageAfter (p : GeneticParams α) (source : G) (problem : SearchProblem S α) (s : S) (n : Nat) :
    Except Failure (Stage G S α) × S :=
  let width := problem.width p.encoding
  let (solutions, source) :=
    (Solution.drawMany (Solution.drawUniform p.encoding width) p.populationSize.toNat).run source
  match takeIn problem [] solutions p.budget source s with
  | (.error e, s) => (.error e, s)
  | (.ok g, _) => evolve p width problem n g

/-- A search takes the front of its last population, if there are variables and its tables can hold them. -/
theorem runFrom_eq {p : GeneticParams α} {problem : SearchProblem S α}
    (hwidth : 0 < problem.width p.encoding)
    (hfits : Solution.fits p.encoding (problem.width p.encoding) p.populationSize.toNat = true)
    (source : G) (s : S) :
    runFrom p source problem s
      = let (result, s) := stageAfter p source problem s p.generations.toNat
        (result.map fun g => Candidate.front g.population, s) := by
  simp only [runFrom, stageAfter, if_neg (Nat.ne_of_gt hwidth), hfits, Bool.not_true, Bool.false_eq_true, if_false]
  generalize (Solution.drawMany _ _ : StateM G (List (Solution α))).run source = first
  obtain ⟨solutions, source⟩ := first
  dsimp only
  cases takeIn problem [] solutions p.budget source s with
  | mk outcome s => cases outcome <;> rfl

/-- A search whose tables cannot hold its population fails before it evaluates anything. -/
theorem runFrom_eq_error {p : GeneticParams α} {problem : SearchProblem S α}
    (hwidth : 0 < problem.width p.encoding)
    (hfits : Solution.fits p.encoding (problem.width p.encoding) p.populationSize.toNat = false)
    (source : G) (s : S) : runFrom p source problem s = (.error (.defect .capacityExceeded), s) := by
  simp only [runFrom, if_neg (Nat.ne_of_gt hwidth), hfits, Bool.not_false, if_true]

theorem stageAfter_logged (p : GeneticParams α) (source : G) (problem : SearchProblem S α)
    (s : S × List (Candidate α)) (n : Nat) :
    unloggedStep (stageAfter p source problem.logged s n) = stageAfter p source problem s.1 n := by
  simp only [stageAfter, SearchProblem.width_logged]
  generalize (Solution.drawMany _ _ : StateM G (List (Solution α))).run source = first
  obtain ⟨solutions, source⟩ := first
  dsimp only
  rw [← takeIn_logged]
  cases takeIn problem.logged [] solutions p.budget source s with
  | mk outcome s =>
    cases outcome with
    | error e => rfl
    | ok g => exact evolve_logged ..

/-- **Recording the evaluations does not change a search.** -/
theorem runFrom_logged (p : GeneticParams α) (source : G) (problem : SearchProblem S α)
    (s : S × List (Candidate α)) :
    Search.unlogged (runFrom p source problem.logged s) = runFrom p source problem s.1 := by
  rcases Nat.eq_zero_or_pos (problem.width p.encoding) with hwidth | hwidth
  · have hwidth' : problem.logged.width p.encoding = 0 := hwidth
    simp only [runFrom, if_pos hwidth, if_pos hwidth']
    exact SearchProblem.evaluateAll_logged ..
  · have hwidth' : 0 < problem.logged.width p.encoding := hwidth
    cases hfits : Solution.fits p.encoding (problem.width p.encoding) p.populationSize.toNat with
    | false =>
      rw [runFrom_eq_error hwidth hfits, runFrom_eq_error hwidth' hfits]
      rfl
    | true =>
      rw [runFrom_eq hwidth hfits, runFrom_eq hwidth' hfits, ← stageAfter_logged]
      cases stageAfter p source problem.logged s p.generations.toNat with
      | mk outcome s => cases outcome <;> rfl

end Genetic

/-- Nor does it change a random search. -/
theorem RandomSearch.runFrom_logged [Scalar α] (r : RandomSearch) (source : G) (problem : SearchProblem S α)
    (s : S × List (Candidate α)) :
    Search.unlogged (r.runFrom source problem.logged s) = r.runFrom source problem s.1 := by
  have hfits : Solution.fits r.encoding (problem.logged.width r.encoding)
        (r.sampleCount (problem.logged.width r.encoding))
      = Solution.fits r.encoding (problem.width r.encoding) (r.sampleCount (problem.width r.encoding)) := rfl
  by_cases hsamples : r.samples = 0
  · simp only [runFrom, if_pos hsamples]
    rfl
  · simp only [runFrom, if_neg hsamples]
    cases hcase : Solution.fits r.encoding (problem.width r.encoding)
        (r.sampleCount (problem.width r.encoding)) with
    | false =>
      rw [if_pos (by rw [hfits, hcase]; rfl), if_pos (by rfl)]
      rfl
    | true =>
      rw [if_neg (by rw [hfits, hcase]; exact Bool.false_ne_true), if_neg (by exact Bool.false_ne_true),
        ← SearchProblem.evaluateAll_logged]
      rfl

end HomeEnergy

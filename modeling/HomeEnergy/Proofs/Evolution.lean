import HomeEnergy.Proofs.Logged
import HomeEnergy.Proofs.Searches
import HomeEnergy.Proofs.TotalOrder

/-!
# What a genetic search spends and keeps

A genetic search has a budget of evaluations. It evaluates its first population and then, generation by
generation, the children of those that do not belong to the elite, until the generations are over or the budget
is spent. This module counts the evaluations and compares all of them with what is found.

* `Genetic.offspring_shaped` — a child has the encoding and the number of variables of its parents.
* `Genetic.exists_elite` — the elite has a candidate that is as good as a given one.
* `Genetic.Stage.Tracked` — the invariant between generations; `Genetic.takeIn_tracked` — what evaluating the
  missing part of a population does to it; `Genetic.generation_tracked`, `Genetic.evolve_tracked` — a
  generation, and from it every number of generations.
* `Genetic.Stage.Tracked.best` — the front of a population with an elite has the best of all evaluations.
* `Genetic.spends_budget_keeps_best` — **a genetic search spends exactly its budget and never loses its best.**
-/

namespace HomeEnergy

open Draw

variable {G S α : Type} [WordSource G]

/-! ### Children -/

/-- Solutions of an encoding with a number of variables. -/
def Solution.Shaped (e : Encoding) (width : Nat) (x : Solution α) : Prop :=
  x.encoding = e ∧ x.size = width

theorem Solution.drawUniform_shaped [Scalar α] (e : Encoding) (width : Nat) :
    Always (Shaped e width) (drawUniform e width : StateM G (Solution α)) := by
  cases e with
  | binary =>
    refine always_bind (drawMany_always (always_true _) width) fun bits hbits => always_pure ⟨rfl, ?_⟩
    exact hbits.1
  | real =>
    refine always_bind (drawMany_always (always_true _) width) fun values hvalues => always_pure ⟨rfl, ?_⟩
    exact hvalues.1

namespace Genetic

variable [Transcendental α] {e : Encoding} {width : Nat}

/-- Arrays of one size have children of that size. -/
theorem crossAtPoint_size_eq {β : Type} {a b : Array β} (h : a.size = b.size) :
    Always (fun c => c.size = a.size) (crossAtPoint a b : StateM G (Array β)) := by
  have hmin : Nat.min a.size b.size = b.size := Nat.min_eq_right h.ge
  simp only [crossAtPoint, hmin]
  split
  · exact always_pure rfl
  · refine always_bind (always_true _) fun cut _ => always_pure ?_
    simp only [Array.size_append, Array.size_extract]
    omega

theorem blend_length_eq {xs ys : List α} (h : xs.length = ys.length) :
    Always (fun zs => zs.length = xs.length) (blend xs ys : StateM G (List α)) := by
  induction xs generalizing ys with
  | nil => exact always_pure rfl
  | cons x xs ih =>
    cases ys with
    | nil => exact absurd h (Nat.succ_ne_zero _)
    | cons y ys =>
      exact always_bind (always_true _) fun _ _ => always_bind (ih (Nat.succ.inj h)) fun zs hzs =>
        always_pure (congrArg Nat.succ hzs)

/-- **A child has the encoding and the number of variables of its parents.** -/
theorem offspring_shaped (p : GeneticParams α) (n : Nat) {a b : Solution α} (ha : a.Shaped e width)
    (hb : b.Shaped e width) : Always (Solution.Shaped e width) (offspring p n a b : StateM G (Solution α)) := by
  obtain ⟨rfl, hwidth⟩ := ha
  obtain ⟨hencoding, hwidth'⟩ := hb
  refine always_bind (always_true _) fun cross _ => ?_
  match a, b, hencoding, hwidth, hwidth' with
  | .binary x, .binary y, _, hx, hy =>
    have hmutate : ∀ c : Array Bool, c.size = x.size → Always (Solution.Shaped .binary width)
        (do return .binary (← flipBits (p.rate n) c.toList).toArray : StateM G (Solution α)) := by
      intro c hc
      refine always_bind (flipBits_length _ _) fun bits hbits => always_pure ⟨rfl, ?_⟩
      exact hbits.trans (hc.trans hx)
    cases cross with
    | true => exact always_bind (crossAtPoint_size_eq (hx.trans hy.symm)) hmutate
    | false => exact hmutate x rfl
  | .real x, .real y, _, hx, hy =>
    have hmutate : ∀ c : List α, c.length = x.toList.length → Always (Solution.Shaped .real width)
        (do return .real (← disturb (p.rate n) p.mutationSigma c).toArray : StateM G (Solution α)) := by
      intro c hc
      refine always_bind (disturb_length _ _ _) fun values hvalues => always_pure ⟨rfl, ?_⟩
      exact hvalues.trans (hc.trans hx)
    cases cross with
    | true => exact always_bind (blend_length_eq (hx.trans hy.symm)) hmutate
    | false => exact hmutate x.toList rfl

/-- A tournament of candidates that can be counted is won by one of them. -/
theorem tournament_always {T : Candidate α → Prop} {parents : Array (Candidate α)}
    (h : ∀ c ∈ parents, T c) (hne : 0 < parents.size) (hsize : parents.size ≤ UInt64.size)
    (p : GeneticParams α) : Always T (tournament p parents : StateM G (Candidate α)) := by
  refine always_bind (index_always (Nat.zero_le _) (by omega)) fun i hi => challenge_always h _ _ ?_
  have hlt : i < parents.size := by omega
  rw [Array.getD, dif_pos hlt]
  exact h _ (Array.getElem_mem hlt)

theorem breed_shaped (p : GeneticParams α) (n : Nat) {parents : Array (Candidate α)}
    (h : ∀ c ∈ parents, c.solution.Shaped e width) (hne : 0 < parents.size)
    (hsize : parents.size ≤ UInt64.size) :
    Always (Solution.Shaped e width) (breed p n parents : StateM G (Solution α)) := by
  have hwinner := tournament_always (G := G) h hne hsize p
  exact always_bind hwinner fun a ha => always_bind hwinner fun b hb => offspring_shaped p n ha hb

/-! ### The elite -/

variable [Scalar.Sortable α]

theorem sorted_pairwise (cs : List (Candidate α)) :
    (sorted cs).Pairwise fun a b => (Scalar.totalOrder a.score b.score).isLE = true := by
  have htrans := Scalar.Sortable.transCmp (α := α)
  refine List.pairwise_mergeSort ?_ ?_ cs
  · intro a b c hab hbc
    exact htrans.isLE_trans hab hbc
  · intro a b
    rw [htrans.eq_swap (a := b.score), Bool.or_eq_true]
    cases Scalar.totalOrder a.score b.score <;> simp

end Genetic

/-- A candidate with one objective, a defined number. -/
def Candidate.Rated [LE α] (c : Candidate α) : Prop :=
  ∃ y, c.objectives = [y] ∧ y ≤ y

theorem Candidate.score_eq [Scalar α] {c : Candidate α} {y : α} (h : c.objectives = [y]) : c.score = y := by
  simp [score, h]

theorem Candidate.Rated.score_le [Scalar α] {c : Candidate α} (h : c.Rated) : c.score ≤ c.score := by
  obtain ⟨y, hy, hle⟩ := h
  rwa [score_eq hy]

namespace Genetic

variable [Transcendental α] [Scalar.Sortable α]

/-- **The elite has a candidate that is as good as a given one.** -/
theorem exists_elite {cs : List (Candidate α)} (hcs : ∀ c ∈ cs, c.Rated) {n : Nat} (hn : 0 < n)
    {c : Candidate α} (hc : c ∈ cs) : ∃ b ∈ (sorted cs).take n, b.score ≤ c.score := by
  have hsorted := sorted_pairwise cs
  have hmem : ∀ d ∈ sorted cs, d ∈ cs := fun d hd => List.mem_mergeSort.mp hd
  have hc' : c ∈ sorted cs := List.mem_mergeSort.mpr hc
  obtain ⟨n, rfl⟩ := Nat.exists_eq_succ_of_ne_zero hn.ne'
  cases hranked : sorted cs with
  | nil => exact absurd (hranked ▸ hc') List.not_mem_nil
  | cons b rest =>
    rw [hranked] at hsorted hmem hc'
    refine ⟨b, List.mem_cons_self, ?_⟩
    rcases List.mem_cons.mp hc' with rfl | hrest
    · exact (hcs c hc).score_le
    · exact Scalar.Sortable.le_of_totalOrder (hcs b (hmem b List.mem_cons_self)).score_le
        (hcs c hc).score_le (List.rel_of_pairwise_cons hsorted hrest)

end Genetic

/-! ### Evaluations that succeed -/

/-- Evaluations of the solutions of an encoding succeed, from every state that the problem can be in, and each
gives one defined number. -/
def SearchProblem.Sound [LE α] (problem : SearchProblem S α) (e : Encoding) (I : S → Prop) : Prop :=
  ∀ x s, x.Shaped e (problem.width e) → I s →
    ∃ y s', problem.evaluate x s = (.ok [y], s') ∧ y ≤ y ∧ I s'

section Runs

variable {problem : SearchProblem S α} {e : Encoding} {I : S → Prop}

theorem SearchProblem.Sound.evaluateAll [LE α] (h : problem.Sound e I) {xs : List (Solution α)}
    (hxs : ∀ x ∈ xs, x.Shaped e (problem.width e)) {s : S × List (Candidate α)} (hs : I s.1) :
    ∃ cs s', problem.logged.evaluateAll xs s = (.ok cs, s', s.2 ++ cs) ∧ cs.length = xs.length ∧
      (∀ c ∈ cs, c.solution.Shaped e (problem.width e) ∧ c.Rated) ∧ I s' := by
  induction xs generalizing s with
  | nil => exact ⟨[], s.1, by simp [SearchProblem.evaluateAll], rfl, by simp, hs⟩
  | cons x xs ih =>
    obtain ⟨y, s₁, heval, hy, hs₁⟩ := h x s.1 (hxs x (by simp)) hs
    obtain ⟨cs, s', hall, hlength, hcs, hs'⟩ :=
      ih (fun x' hx' => hxs x' (by simp [hx'])) (s := (s₁, s.2 ++ [{ solution := x, objectives := [y] }])) hs₁
    refine ⟨{ solution := x, objectives := [y] } :: cs, s', ?_, by simp [hlength], ?_, hs'⟩
    · rw [SearchProblem.evaluateAll, SearchProblem.evaluate_logged heval]
      dsimp only [Except.toOption, Option.getD_some]
      rw [hall]
      simp
    · intro c hc
      rcases List.mem_cons.mp hc with rfl | hc
      · exact ⟨hxs x (by simp), y, rfl, hy⟩
      · exact hcs c hc

variable [Transcendental α]

/-- The evaluations of the first population and of `n` generations, whose elite is not evaluated again. -/
def GeneticParams.planned (p : GeneticParams α) (n : Nat) : Nat :=
  p.populationSize.toNat + n * (p.populationSize.toNat - p.elitism.toNat)

omit [Transcendental α] in
theorem GeneticParams.planned_succ (p : GeneticParams α) (n : Nat) :
    p.planned (n + 1) = p.planned n + (p.populationSize.toNat - p.elitism.toNat) := by
  rw [planned, planned, Nat.succ_mul, Nat.add_assoc]

/-- What is checked of accepted sizes. -/
theorem GeneticParams.sizes_of_accepted {p : GeneticParams α} (h : p.validate = .ok ()) :
    2 ≤ p.populationSize.toNat ∧ p.elitism.toNat < p.populationSize.toNat := by
  unfold validate at h
  by_cases hsize : p.populationSize < 2
  · rw [if_pos hsize] at h
    cases h
  by_cases htournament : p.tournamentSize = 0
  · rw [if_neg hsize, if_pos htournament] at h
    cases h
  by_cases helitism : p.populationSize ≤ p.elitism
  · rw [if_neg hsize, if_neg htournament, if_pos helitism] at h
    cases h
  rw [UInt64.lt_iff_toNat_lt] at hsize
  rw [UInt64.le_iff_toNat_le] at helitism
  exact ⟨Nat.not_lt.mp hsize, Nat.not_le.mp helitism⟩

namespace Genetic

/-- The invariant between generations, the last of which is the `n`-th: as many evaluations have been made as
the budget allows, and what has been evaluated has an equal or a better in the population. -/
structure Stage.Tracked (p : GeneticParams α) (problem : SearchProblem S α) (I : S → Prop) (n : Nat)
    (g : Stage G (S × List (Candidate α)) α) : Prop where
  state : I g.state.1
  rated : ∀ c ∈ g.state.2, c.solution.Shaped p.encoding (problem.width p.encoding) ∧ c.Rated
  population : ∀ c ∈ g.population, c ∈ g.state.2
  budget : g.budget + g.state.2.length = p.budget
  count : g.state.2.length = min p.budget (p.planned n)
  full : 0 < g.budget → g.population.length = p.populationSize.toNat
  matched : 0 < p.elitism.toNat → ∀ d ∈ g.state.2, ∃ c ∈ g.population, c.score ≤ d.score

variable {p : GeneticParams α}

omit [WordSource G] in
/-- Evaluating what is missing in a population makes up a generation. -/
theorem takeIn_tracked (h : problem.Sound p.encoding I) {kept : List (Candidate α)} {xs : List (Solution α)}
    {budget n : Nat} (source : G) {s : S × List (Candidate α)} (hs : I s.1)
    (hrated : ∀ c ∈ s.2, c.solution.Shaped p.encoding (problem.width p.encoding) ∧ c.Rated)
    (hkept : ∀ c ∈ kept, c ∈ s.2)
    (hxs : ∀ x ∈ xs, x.Shaped p.encoding (problem.width p.encoding))
    (hbudget : budget + s.2.length = p.budget) (hcount : s.2.length + xs.length = p.planned n)
    (hfull : kept.length + xs.length = p.populationSize.toNat)
    (hmatched : 0 < p.elitism.toNat → ∀ d ∈ s.2, ∃ c ∈ kept, c.score ≤ d.score) :
    ∃ g, takeIn problem.logged kept xs budget source s = (.ok g, g.state) ∧ g.Tracked p problem I n := by
  have hpending : ∀ x ∈ xs.take budget, x.Shaped p.encoding (problem.width p.encoding) :=
    fun x hx => hxs x (List.mem_of_mem_take hx)
  obtain ⟨cs, s', hall, hlength, hcs, hs'⟩ := h.evaluateAll hpending hs
  rw [List.length_take] at hlength
  simp only [takeIn, hall, List.length_take]
  refine ⟨_, rfl, ?_⟩
  -- the new candidates come after the kept ones in the population and after the old ones in the record
  constructor
  case state => exact hs'
  case rated =>
    intro c hc
    rcases List.mem_append.mp hc with hc | hc
    · exact hrated c hc
    · exact hcs c hc
  case population =>
    intro c hc
    rcases List.mem_append.mp hc with hc | hc
    · exact List.mem_append_left _ (hkept c hc)
    · exact List.mem_append_right _ hc
  case budget =>
    simp only [List.length_append]
    omega
  case count =>
    simp only [List.length_append]
    omega
  case full =>
    simp only [List.length_append]
    omega
  case matched =>
    intro helite d hd
    rcases List.mem_append.mp hd with hd | hd
    · obtain ⟨c, hc, hle⟩ := hmatched helite d hd
      exact ⟨c, List.mem_append_left _ hc, hle⟩
    · exact ⟨d, List.mem_append_right _ hd, (hcs d hd).2.score_le⟩

omit [WordSource G] in
/-- A stage without a budget has made all evaluations, however many generations are left. -/
theorem Stage.Tracked.exhausted {g : Stage G (S × List (Candidate α)) α} {n : Nat}
    (h : g.Tracked p problem I n) (hbudget : g.budget = 0) (k : Nat) : g.Tracked p problem I (n + k) := by
  have hcount := h.count
  have hspent := h.budget
  have hplanned : p.planned n ≤ p.planned (n + k) :=
    Nat.add_le_add_left (Nat.mul_le_mul_right _ (Nat.le_add_right n k)) _
  exact { h with count := by omega }

variable [Scalar.Sortable α]

/-- **One generation is evaluated, and the elite keeps the best of all before.** -/
theorem generation_tracked (h : problem.Sound p.encoding I) (haccepted : p.validate = .ok ())
    {g : Stage G (S × List (Candidate α)) α} {n : Nat} (hg : g.Tracked p problem I n)
    (hbudget : 0 < g.budget) :
    ∃ g', generation p (problem.width p.encoding) problem.logged g = (.ok g', g'.state) ∧
      g'.Tracked p problem I (n + 1) := by
  obtain ⟨-, helitism⟩ := p.sizes_of_accepted haccepted
  have hsize := p.populationSize.toNat_lt_size
  have hranked : (sorted g.population).length = p.populationSize.toNat :=
    (List.length_mergeSort _).trans (hg.full hbudget)
  have hmem : ∀ c ∈ sorted g.population, c ∈ g.state.2 :=
    fun c hc => hg.population c (List.mem_mergeSort.mp hc)
  have helite : ((sorted g.population).take p.elitism.toNat).length = p.elitism.toNat := by
    rw [List.length_take]
    omega
  have hothers : ((sorted g.population).drop p.elitism.toNat).length
      = p.populationSize.toNat - p.elitism.toNat := by
    rw [List.length_drop]
    omega
  -- the elite does not fill the population, so that the others are the parents
  have hnonempty : ¬ ((sorted g.population).drop p.elitism.toNat).isEmpty = true := by
    rw [List.isEmpty_iff_length_eq_zero]
    omega
  -- parents are chosen by index, which takes parents of a number that fits a word
  have hparents : ∀ c ∈ ((sorted g.population).drop p.elitism.toNat).toArray,
      c.solution.Shaped p.encoding (problem.width p.encoding) :=
    fun c hc => (hg.rated c (hmem c (List.mem_of_mem_drop (List.mem_toArray.mp hc)))).1
  have hbred := Solution.drawMany_always
    (breed_shaped (G := G) p (problem.width p.encoding) hparents
      (by rw [List.size_toArray]; omega) (by rw [List.size_toArray]; omega))
    (p.populationSize.toNat - p.elitism.toNat) g.source
  simp only [generation]
  rw [if_neg hnonempty, helite]
  generalize (Solution.drawMany _ _ : StateM G (List (Solution α))).run g.source = bred at hbred ⊢
  obtain ⟨children, source⟩ := bred
  obtain ⟨hchildren, hshaped⟩ := hbred
  dsimp only at hchildren hshaped
  have hspent := hg.budget
  have hcount := hg.count
  refine takeIn_tracked h source hg.state hg.rated ?_ hshaped hspent ?_ ?_ ?_
  · exact fun c hc => hmem c (List.mem_of_mem_take hc)
  · rw [GeneticParams.planned_succ]
    omega
  · omega
  · intro hpos d hd
    obtain ⟨c, hc, hle⟩ := hg.matched hpos d hd
    obtain ⟨b, hb, hle'⟩ := exists_elite (fun c hc => (hg.rated c (hg.population c hc)).2) hpos hc
    exact ⟨b, hb, Scalar.Ordered.le_trans hle' hle⟩

/-- **Every number of generations**, up to the end of the budget. -/
theorem evolve_tracked (h : problem.Sound p.encoding I) (haccepted : p.validate = .ok ()) (k : Nat)
    {g : Stage G (S × List (Candidate α)) α} {n : Nat} (hg : g.Tracked p problem I n) :
    ∃ g', evolve p (problem.width p.encoding) problem.logged k g = (.ok g', g'.state) ∧
      g'.Tracked p problem I (n + k) := by
  induction k generalizing g n with
  | zero => exact ⟨g, rfl, hg⟩
  | succ k ih =>
    rcases Nat.eq_zero_or_pos g.budget with hbudget | hbudget
    · refine ⟨g, ?_, hg.exhausted hbudget (k + 1)⟩
      rw [evolve, if_pos (Or.inl hbudget)]
    · have hpopulation : ¬ (g.budget = 0 ∨ g.population.isEmpty = true) := by
        have hsize := (p.sizes_of_accepted haccepted).1
        rw [List.isEmpty_iff_length_eq_zero, hg.full hbudget]
        omega
      obtain ⟨g₁, hstep, hg₁⟩ := generation_tracked h haccepted hg hbudget
      obtain ⟨g', hrun, hg'⟩ := ih hg₁
      refine ⟨g', ?_, ?_⟩
      · rw [evolve, if_neg hpopulation, hstep]
        exact hrun
      · rwa [Nat.add_right_comm, Nat.add_assoc] at hg'

/-- The first population and the generations after it. -/
theorem stageAfter_tracked (h : problem.Sound p.encoding I) (haccepted : p.validate = .ok ())
    (source : G) {s : S} (hs : I s) (n : Nat) :
    ∃ g, stageAfter p source problem.logged (s, []) n = (.ok g, g.state) ∧ g.Tracked p problem I n := by
  have hfirst := Solution.drawMany_always
    (Solution.drawUniform_shaped (G := G) (α := α) p.encoding (problem.width p.encoding))
    p.populationSize.toNat source
  simp only [stageAfter, SearchProblem.width_logged]
  generalize (Solution.drawMany _ _ : StateM G (List (Solution α))).run source = first at hfirst ⊢
  obtain ⟨solutions, source⟩ := first
  obtain ⟨g, htake, hg⟩ : ∃ g, takeIn problem.logged [] solutions p.budget source (s, []) = (.ok g, g.state) ∧
      g.Tracked p problem I 0 := by
    refine takeIn_tracked h source hs (by simp) (by simp) hfirst.2 rfl ?_ ?_ (by simp)
    · simp [GeneticParams.planned, hfirst.1]
    · simp [hfirst.1]
  dsimp only
  rw [htake]
  have := evolve_tracked h haccepted n hg
  rwa [Nat.zero_add] at this

end Genetic

/-! ### What is found -/

/-- A recorded candidate whose fitness is the least that has been recorded. -/
structure Candidate.Best [LE α] (log : List (Candidate α)) (c : Candidate α) : Prop where
  recorded : c ∈ log
  least : ∃ y, c.objectives = [y] ∧ ∀ d ∈ log, ∃ z, d.objectives = [z] ∧ y ≤ z

namespace Genetic

variable {p : GeneticParams α} [Scalar.Sortable α]

section Found

variable {g : Stage G (S × List (Candidate α)) α} {n : Nat}

omit [WordSource G] [Scalar.Sortable α] in
theorem Stage.Tracked.rated_of_mem (hg : g.Tracked p problem I n) {c : Candidate α}
    (hc : c ∈ g.population) : c.Rated :=
  (hg.rated c (hg.population c hc)).2

omit [WordSource G] in
/-- **The front of a population with an elite has the best of all evaluations.** -/
theorem Stage.Tracked.best (hg : g.Tracked p problem I n) (helitism : 0 < p.elitism.toNat)
    {c : Candidate α} (hc : c ∈ Candidate.front g.population) : c.Best g.state.2 := by
  have hmem : c ∈ g.population := Candidate.frontOf_subset hc
  obtain ⟨i, b, x, hb⟩ := Candidate.exists_firstBest (List.ne_nil_of_mem hmem) fun _ => hg.rated_of_mem
  obtain ⟨y, hy, -, hyx⟩ := hb.level hc
  refine ⟨hg.population c hmem, y, hy, ?_⟩
  intro d hd
  obtain ⟨z, hz, -⟩ := (hg.rated d hd).2
  obtain ⟨m, hm, hle⟩ := hg.matched helitism d hd
  obtain ⟨w, hw, hxw⟩ := hb.least m hm
  rw [Candidate.score_eq hw, Candidate.score_eq hz] at hle
  exact ⟨z, hz, Scalar.Ordered.le_trans hyx (Scalar.Ordered.le_trans hxw hle)⟩

omit [WordSource G] in
/-- Unless one solution was rated twice in different ways, the front is not empty. -/
theorem Stage.Tracked.front_ne_nil (hg : g.Tracked p problem I n) (helitism : 0 < p.elitism.toNat)
    (hlog : g.state.2 ≠ [])
    (hsame : ∀ c ∈ g.state.2, ∀ d ∈ g.state.2,
      c.solution.same d.solution = true → c.objectives = d.objectives) :
    Candidate.front g.population ≠ [] := by
  obtain ⟨d, hd⟩ := List.exists_mem_of_ne_nil _ hlog
  obtain ⟨c, hc, -⟩ := hg.matched helitism d hd
  obtain ⟨i, b, x, hb⟩ := Candidate.exists_firstBest (List.ne_nil_of_mem hc) fun _ => hg.rated_of_mem
  have hnew : ∀ j < i, ∀ d, g.population[j]? = some d → d.solution.same b.solution = false := by
    intro j hj d hd
    obtain ⟨y, hy, hlt⟩ := hb.first j hj d hd
    by_contra hnot
    have heq := hsame d (hg.population d (List.mem_of_getElem? hd)) b
      (hg.population b (List.mem_of_getElem? hb.place)) (Bool.eq_true_of_not_eq_false hnot)
    rw [hy, hb.fitness, List.cons.injEq] at heq
    exact Scalar.Ordered.lt_irrefl x (heq.1 ▸ hlt)
  obtain ⟨rest, hfront⟩ := Candidate.front_eq hb hnew
  rw [hfront]
  exact List.cons_ne_nil _ _

end Found

/-- A search that has spent its budget: `log` is the record of its evaluations. -/
structure Completed (p : GeneticParams α) (problem : SearchProblem S α) (source : G) (s : S)
    (found log : List (Candidate α)) : Prop where
  count : log.length = min p.budget (p.planned p.generations.toNat)
  unlimited : p.maxEvaluations = none → p.planned p.generations.toNat < UInt64.size →
    log.length = p.planned p.generations.toNat
  balanced : ∀ n, ∃ g s', stageAfter p source problem.logged (s, []) n = (.ok g, s') ∧
    g.budget + s'.2.length = p.budget
  best : 1 ≤ p.elitism.toNat → ∀ c ∈ found, c.Best log
  -- unless one solution was rated twice in different ways
  nonempty : 1 ≤ p.elitism.toNat → log ≠ [] →
    (∀ c ∈ log, ∀ d ∈ log, c.solution.same d.solution = true → c.objectives = d.objectives) → found ≠ []

/-- **A genetic search spends exactly its budget and never loses its best**, whatever the draws. A search whose
tables cannot hold its population fails before it evaluates anything. -/
theorem spends_budget_keeps_best (haccepted : p.validate = .ok ())
    (hwidth : 0 < problem.width p.encoding) (hsound : problem.Sound p.encoding I) (source : G) {s : S}
    (hs : I s) :
    if Solution.fits p.encoding (problem.width p.encoding) p.populationSize.toNat then
      ∃ found s' log, runFrom p source problem s = (.ok found, s') ∧
        runFrom p source problem.logged (s, []) = (.ok found, s', log) ∧
        Completed p problem source s found log
    else
      runFrom p source problem s = (.error (.defect .capacityExceeded), s) ∧
        runFrom p source problem.logged (s, []) = (.error (.defect .capacityExceeded), s, []) := by
  have hwidth' : 0 < problem.logged.width p.encoding := hwidth
  split
  · rename_i hfits
    obtain ⟨g, hrun, hg⟩ := stageAfter_tracked hsound haccepted source hs p.generations.toNat
    have hlogged : runFrom p source problem.logged (s, [])
        = (.ok (Candidate.front g.population), g.state) := by
      rw [runFrom_eq hwidth' hfits, hrun]
      rfl
    refine ⟨_, g.state.1, g.state.2, ?_, hlogged, ?_⟩
    · rw [← runFrom_logged p source problem (s, []), hlogged]
      rfl
    · constructor
      case count => exact hg.count
      case unlimited =>
        intro hnone hplanned
        have hbudget : p.budget = UInt64.size - 1 := by rw [GeneticParams.budget, hnone]
        have hcount := hg.count
        omega
      case balanced =>
        intro n
        obtain ⟨g, hrun, hg⟩ := stageAfter_tracked hsound haccepted source hs n
        exact ⟨g, g.state, hrun, hg.budget⟩
      case best => exact fun helitism c hc => hg.best helitism hc
      case nonempty => exact fun helitism hlog hsame => hg.front_ne_nil helitism hlog hsame
  · rename_i hfits
    rw [Bool.not_eq_true] at hfits
    exact ⟨runFrom_eq_error hwidth hfits source s, runFrom_eq_error hwidth' hfits source (s, [])⟩

end Genetic

end Runs

namespace Genetic

def oneBit : SearchProblem Unit Double where
  width _ := 1
  evaluate x s := (.ok [if x.flag 0 then 1 else 0], s)

def smallest : GeneticParams Double :=
  { GeneticParams.default with populationSize := 2, generations := 1, elitism := 1 }

theorem spends_budget_keeps_best_oneBit :
    smallest.validate = .ok () ∧ 0 < oneBit.width .binary ∧ oneBit.Sound .binary (fun _ => True) ∧
      ∃ found s log, runFrom smallest (Keystream.ofSeed 42) oneBit () = (.ok found, s) ∧
        runFrom smallest (Keystream.ofSeed 42) oneBit.logged ((), []) = (.ok found, s, log) ∧
        log.length = 3 ∧ ∀ c ∈ found, c.Best log := by
  have haccepted : smallest.validate = .ok () := by decide
  have hwidth : 0 < oneBit.width .binary := by decide
  have hsound : oneBit.Sound .binary (fun _ => True) := by
    intro x s _ _
    refine ⟨_, _, rfl, ?_, trivial⟩
    split <;> decide
  have hsearch := spends_budget_keeps_best haccepted hwidth hsound (Keystream.ofSeed 42) (s := ()) trivial
  rw [if_pos (by decide)] at hsearch
  obtain ⟨found, s, log, hrun, hlogged, hcompleted⟩ := hsearch
  exact ⟨haccepted, hwidth, hsound, found, s, log, hrun, hlogged, hcompleted.count,
    hcompleted.best (by decide)⟩

end Genetic

end HomeEnergy

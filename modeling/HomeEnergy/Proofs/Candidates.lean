import HomeEnergy.Proofs.Evolution
import HomeEnergy.Proofs.Pieces
import HomeEnergy.Proofs.Refusals
import HomeEnergy.Proofs.Units

/-!
# Well-formed candidates

What a search hands to the evaluator has the encoding of the search and as many variables as the problem, and
its numbers are between zero and one.

* `Solution.WellFormed` — such a solution; `GeneticParams.SoundSpread` — what the numbers of a genetic search need.
* `Genetic.offspring_wellFormed`, `Genetic.breed_wellFormed` — **children of well-formed parents are well formed.**
* `SearchProblem.Guarded` — evaluations of well-formed solutions keep an invariant and fail in some ways only;
  `Search.Ends` — so does a search.
* `Genetic.generation_ends`, `Genetic.evolve_ends` — a generation, and from it every number of generations;
  `Genetic.runFrom_ends`, `RandomSearch.runFrom_ends` — whole searches.
* `candidates_wellFormed` — **every candidate of every search is well formed, and no search finds a mismatch of
  widths.**
* `undefined_spread_leaves_unit` — a spread that is not a number is accepted, and leads to variables that are not.
-/

namespace HomeEnergy

open Draw Scalar

variable {G S α : Type} [WordSource G]

/-! ### Children -/

/-- A solution of an encoding with a number of variables. If it was made by sound means, its numbers are between
zero and one. -/
structure Solution.WellFormed [Scalar α] (sound : Prop) (e : Encoding) (width : Nat) (x : Solution α) : Prop where
  shaped : x.Shaped e width
  inUnit : sound → ∀ v ∈ x.values, InUnit v

theorem Solution.values_of_binary {x : Solution α} (h : x.encoding = .binary) : x.values = [] := by
  cases x with
  | binary bits => rfl
  | real values => exact nomatch h

variable [Transcendental α] [Unital α] {sound : Prop} {e : Encoding} {width : Nat}

theorem Solution.drawUniform_wellFormed (sound : Prop) (e : Encoding) (width : Nat) :
    Always (WellFormed sound e width) (drawUniform e width : StateM G (Solution α)) := by
  have hvalues : Always (fun x => ∀ v ∈ x.values, InUnit v) (drawUniform e width : StateM G (Solution α)) := by
    cases e with
    | binary => exact always_bind (always_true _) fun bits _ => always_pure (by simp [values])
    | real =>
      refine always_bind (drawMany_always unit_always width) fun values hvalues => always_pure ?_
      intro v hv
      obtain ⟨hlow, hhigh⟩ := hvalues.2 v hv
      exact ⟨hlow, Ordered.le_of_lt hhigh⟩
  exact fun source => ⟨drawUniform_shaped e width source, fun _ => hvalues source⟩

/-- A spread of mutations that does not lead out of the numbers. Bits have no spread. -/
def GeneticParams.SoundSpread (p : GeneticParams α) : Prop :=
  p.encoding = .real → p.mutationSigma ≤ p.mutationSigma ∧ Regular p.mutationSigma

namespace Genetic

theorem blend_inUnit {xs ys : List α} (hxs : ∀ x ∈ xs, InUnit x) (hys : ∀ y ∈ ys, InUnit y) :
    Always (fun zs => ∀ z ∈ zs, InUnit z) (blend xs ys : StateM G (List α)) := by
  induction xs generalizing ys with
  | nil => exact always_pure (by simp)
  | cons x xs ih =>
    cases ys with
    | nil => exact always_pure (by simp)
    | cons y ys =>
      rw [List.forall_mem_cons] at hxs hys
      refine always_bind unit_always fun t ht => always_bind (ih hxs.2 hys.2) fun zs hzs => always_pure ?_
      exact List.forall_mem_cons.mpr
        ⟨Unital.blend_inUnit hxs.1 hys.1 ⟨ht.1, Ordered.le_of_lt ht.2⟩, hzs⟩

/-- Disturbed numbers are moved back, which takes noise that is a number. -/
theorem disturb_inUnit (rate : α) {sigma : α} (hsigma : sigma ≤ sigma) (hregular : Regular sigma)
    {xs : List α} (hxs : ∀ x ∈ xs, InUnit x) :
    Always (fun ys => ∀ y ∈ ys, InUnit y) (disturb rate sigma xs : StateM G (List α)) := by
  induction xs with
  | nil => exact always_pure (by simp)
  | cons x xs ih =>
    rw [List.forall_mem_cons] at hxs
    refine always_bind (always_true _) fun changes _ => ?_
    cases changes with
    | true =>
      refine always_bind (normalNoise_defined hsigma hregular) fun noise hnoise =>
        always_bind (ih hxs.2) fun ys hys => always_pure ?_
      exact List.forall_mem_cons.mpr ⟨clamp_inUnit (Unital.add_defined hxs.1 hnoise), hys⟩
    | false =>
      exact always_bind (ih hxs.2) fun ys hys => always_pure (List.forall_mem_cons.mpr ⟨hxs.1, hys⟩)

/-- **A child of well-formed parents is well formed**, if the spread is sound. -/
theorem offspring_wellFormed (p : GeneticParams α) (n : Nat) {a b : Solution α}
    (ha : a.WellFormed p.SoundSpread p.encoding width) (hb : b.WellFormed p.SoundSpread p.encoding width) :
    Always (Solution.WellFormed p.SoundSpread p.encoding width) (offspring p n a b : StateM G (Solution α)) := by
  have hshaped := offspring_shaped (G := G) p n ha.shaped hb.shaped
  have hvalues (hp : p.SoundSpread) :
      Always (fun x => ∀ v ∈ x.values, InUnit v) (offspring p n a b : StateM G (Solution α)) := by
    cases he : p.encoding with
    | binary =>
      intro source
      rw [Solution.values_of_binary ((hshaped source).1.trans he)]
      exact List.forall_mem_nil _
    | real =>
      obtain ⟨hsigma, hregular⟩ := hp he
      refine always_bind (always_true _) fun cross _ => ?_
      match a, b, ha.shaped.1.trans he, hb.shaped.1.trans he, ha.inUnit hp, hb.inUnit hp with
      | .real x, .real y, _, _, hx, hy =>
        have hmutate : ∀ c : List α, (∀ v ∈ c, InUnit v) → Always (fun x => ∀ v ∈ x.values, InUnit v)
            (do return .real (← disturb (p.rate n) p.mutationSigma c).toArray : StateM G (Solution α)) := by
          intro c hc
          exact always_bind (disturb_inUnit _ hsigma hregular hc) fun values hvalues => always_pure hvalues
        cases cross with
        | true => exact always_bind (blend_inUnit hx hy) hmutate
        | false => exact hmutate x.toList hx
  exact fun source => ⟨hshaped source, fun hp => hvalues hp source⟩

theorem breed_wellFormed (p : GeneticParams α) (n : Nat) {parents : Array (Candidate α)}
    (h : ∀ c ∈ parents, c.solution.WellFormed p.SoundSpread p.encoding width) (hne : 0 < parents.size)
    (hsize : parents.size ≤ UInt64.size) :
    Always (Solution.WellFormed p.SoundSpread p.encoding width) (breed p n parents : StateM G (Solution α)) := by
  have hwinner := tournament_always (G := G) h hne hsize p
  exact always_bind hwinner fun a ha => always_bind hwinner fun b hb => offspring_wellFormed p n ha hb

end Genetic

/-! ### Runs -/

def Search.Ends {β : Type} (F : Failure → Prop) (I : S → Prop) (T : β → Prop) : Except Failure β × S → Prop
  | (.error f, s) => F f ∧ I s
  | (.ok b, s) => I s ∧ T b

namespace Search.Ends

variable {β γ : Type} {F : Failure → Prop} {I : S → Prop} {T U : β → Prop} {r : Except Failure β × S}

theorem mono (h : Search.Ends F I T r) (hTU : ∀ b, T b → U b) : Search.Ends F I U r := by
  match r, h with
  | (.error _, _), h => exact h
  | (.ok b, _), h => exact ⟨h.1, hTU b h.2⟩

theorem state (h : Search.Ends F I T r) : I r.2 := by
  match r, h with
  | (.error _, _), h => exact h.2
  | (.ok _, _), h => exact h.1

theorem failure (h : Search.Ends F I T r) {f : Failure} (hf : r.1 = .error f) : F f := by
  match r, h, hf with
  | (.error _, _), h, rfl => exact h.1

theorem map {V : γ → Prop} (h : Search.Ends F I T r) (g : β → γ) (hg : ∀ b, T b → V (g b)) :
    Search.Ends F I V (r.1.map g, r.2) := by
  match r, h with
  | (.error _, _), h => exact h
  | (.ok b, _), h => exact ⟨h.1, hg b h.2⟩

end Search.Ends

/-- Evaluations of well-formed solutions keep an invariant, and their failures are of some kind. -/
def SearchProblem.Guarded (problem : SearchProblem S α) (sound : Prop) (e : Encoding) (F : Failure → Prop)
    (I : S → Prop) : Prop :=
  ∀ x s, x.WellFormed sound e (problem.width e) → I s →
    Search.Ends (fun f => F (evaluationFailure f)) I (fun _ => True) (problem.evaluate x s)

section Runs

variable {problem : SearchProblem S α} {F : Failure → Prop} {I : S → Prop}

omit [Unital α] in
theorem SearchProblem.evaluateAll_ends (h : problem.Guarded sound e F I) {xs : List (Solution α)}
    (hxs : ∀ x ∈ xs, x.WellFormed sound e (problem.width e)) {s : S} (hs : I s) :
    Search.Ends F I (fun cs => cs.length = xs.length ∧ ∀ c ∈ cs, c.solution.WellFormed sound e (problem.width e))
      (problem.evaluateAll xs s) := by
  induction xs generalizing s with
  | nil => exact ⟨hs, rfl, by simp⟩
  | cons x xs ih =>
    rw [List.forall_mem_cons] at hxs
    simp only [evaluateAll]
    have hfirst := h x s hxs.1 hs
    generalize problem.evaluate x s = first at hfirst ⊢
    obtain ⟨f | objectives, s⟩ := first
    · exact hfirst
    have hrest := ih hxs.2 hfirst.1
    dsimp only
    generalize problem.evaluateAll xs s = rest at hrest ⊢
    obtain ⟨f | cs, s⟩ := rest
    · exact hrest
    obtain ⟨hs, hlength, hcs⟩ := hrest
    exact ⟨hs, congrArg Nat.succ hlength, List.forall_mem_cons.mpr ⟨hxs.1, hcs⟩⟩

namespace Genetic

/-- The invariant between generations: the population is well formed and not too large. -/
structure Stage.Populated (p : GeneticParams α) (width : Nat) (I : S → Prop) (g : Stage G S α) : Prop where
  population : ∀ c ∈ g.population, c.solution.WellFormed p.SoundSpread p.encoding width
  size : g.population.length ≤ p.populationSize.toNat
  state : I g.state

variable {p : GeneticParams α}

omit [WordSource G] [Unital α] in
theorem takeIn_ends (h : problem.Guarded p.SoundSpread p.encoding F I) (kept : List (Candidate α))
    (hkept : ∀ c ∈ kept, c.solution.WellFormed p.SoundSpread p.encoding (problem.width p.encoding))
    {xs : List (Solution α)} (hxs : ∀ x ∈ xs, x.WellFormed p.SoundSpread p.encoding (problem.width p.encoding))
    (hsize : kept.length + xs.length ≤ p.populationSize.toNat) (budget : Nat) (source : G) {s : S} (hs : I s) :
    Search.Ends F I (Stage.Populated p (problem.width p.encoding) I) (takeIn problem kept xs budget source s) := by
  have hpending : ∀ x ∈ xs.take budget, x.WellFormed p.SoundSpread p.encoding (problem.width p.encoding) :=
    fun x hx => hxs x (List.mem_of_mem_take hx)
  have htaken := SearchProblem.evaluateAll_ends h hpending hs
  simp only [takeIn]
  generalize problem.evaluateAll (xs.take budget) s = taken at htaken ⊢
  obtain ⟨f | cs, s⟩ := taken
  · exact htaken
  obtain ⟨hs, hlength, hcs⟩ := htaken
  refine ⟨hs, ?_, ?_, hs⟩
  · intro c hc
    rcases List.mem_append.mp hc with hc | hc
    · exact hkept c hc
    · exact hcs c hc
  · rw [List.length_take] at hlength
    simp only [List.length_append]
    omega

/-- Somebody is left to breed: the others, or the elite if it is everybody. -/
theorem breeders_spec {β : Type} {cs : List β} (hne : cs ≠ []) (n : Nat) :
    let parents := if (cs.drop n).isEmpty then cs.take n else cs.drop n
    (∀ c ∈ parents, c ∈ cs) ∧ 0 < parents.length ∧ parents.length ≤ cs.length := by
  have hpos := List.length_pos_iff.mpr hne
  dsimp only
  split
  · rename_i hempty
    rw [List.isEmpty_iff_length_eq_zero, List.length_drop] at hempty
    rw [List.length_take]
    exact ⟨fun c => List.mem_of_mem_take, by omega, by omega⟩
  · rename_i hothers
    rw [List.isEmpty_iff_length_eq_zero, List.length_drop] at hothers
    rw [List.length_drop]
    exact ⟨fun c => List.mem_of_mem_drop, by omega, by omega⟩

/-- **A generation keeps the invariant**: the elite was well formed before, and so are the children. -/
theorem generation_ends (h : problem.Guarded p.SoundSpread p.encoding F I)
    (haccepted : p.validate = .ok ()) {g : Stage G S α}
    (hg : g.Populated p (problem.width p.encoding) I) (hne : g.population ≠ []) :
    Search.Ends F I (Stage.Populated p (problem.width p.encoding) I)
      (generation p (problem.width p.encoding) problem g) := by
  obtain ⟨-, helitism⟩ := p.sizes_of_accepted haccepted
  have hmachine := p.populationSize.toNat_lt_size
  have hsize := hg.size
  have hlength : (sorted g.population).length = g.population.length := List.length_mergeSort _
  have hranked : ∀ c ∈ sorted g.population,
      c.solution.WellFormed p.SoundSpread p.encoding (problem.width p.encoding) :=
    fun c hc => hg.population c (List.mem_mergeSort.mp hc)
  have hsorted : sorted g.population ≠ [] :=
    List.length_pos_iff.mp (hlength ▸ List.length_pos_iff.mpr hne)
  obtain ⟨hmem, hnonempty, hcounted⟩ := breeders_spec hsorted p.elitism.toNat
  have hbred := Solution.drawMany_always
    (breed_wellFormed (G := G) p (problem.width p.encoding)
      (fun c hc => hranked c (hmem c (List.mem_toArray.mp hc))) hnonempty (hcounted.trans (by omega)))
    (p.populationSize.toNat - ((sorted g.population).take p.elitism.toNat).length) g.source
  refine takeIn_ends h _ (fun c hc => hranked c (List.mem_of_mem_take hc)) hbred.2 ?_ g.budget _ hg.state
  refine (congrArg (_ + ·) hbred.1).le.trans ?_
  rw [List.length_take]
  omega

/-- **Every number of generations keeps the invariant.** -/
theorem evolve_ends (h : problem.Guarded p.SoundSpread p.encoding F I) (haccepted : p.validate = .ok ())
    (n : Nat) {g : Stage G S α} (hg : g.Populated p (problem.width p.encoding) I) :
    Search.Ends F I (Stage.Populated p (problem.width p.encoding) I)
      (evolve p (problem.width p.encoding) problem n g) := by
  induction n generalizing g with
  | zero => exact ⟨hg.state, hg⟩
  | succ n ih =>
    simp only [evolve]
    split
    · exact ⟨hg.state, hg⟩
    · rename_i hgoes
      have hne : g.population ≠ [] := fun hnil => hgoes (Or.inr (List.isEmpty_iff.mpr hnil))
      have hnext := generation_ends h haccepted hg hne
      generalize generation p (problem.width p.encoding) problem g = next at hnext ⊢
      obtain ⟨f | g, s⟩ := next
      · exact hnext
      · exact ih hnext.2

/-- A search keeps the invariant, whatever the draws, and fails in the known ways. -/
theorem runFrom_ends (h : problem.Guarded p.SoundSpread p.encoding F I) (haccepted : p.validate = .ok ())
    (hcapacity : F (.defect .capacityExceeded)) (source : G) {s : S} (hs : I s) :
    Search.Ends F I (fun _ => True) (runFrom p source problem s) := by
  rcases Nat.eq_zero_or_pos (problem.width p.encoding) with hwidth | hwidth
  · -- the only solution without variables
    have honly := Solution.drawUniform_wellFormed (G := G) (α := α) p.SoundSpread p.encoding 0 source
    simp only [runFrom, if_pos hwidth]
    refine (SearchProblem.evaluateAll_ends h ?_ hs).mono fun _ _ => trivial
    intro x hx
    rw [List.mem_singleton.mp hx, hwidth]
    exact honly
  · cases hfits : Solution.fits p.encoding (problem.width p.encoding) p.populationSize.toNat with
    | false =>
      rw [runFrom_eq_error hwidth hfits]
      exact ⟨hcapacity, hs⟩
    | true =>
      have hfirst := Solution.drawMany_always
        (Solution.drawUniform_wellFormed (G := G) (α := α) p.SoundSpread p.encoding (problem.width p.encoding))
        p.populationSize.toNat source
      rw [runFrom_eq hwidth hfits]
      simp only [stageAfter]
      generalize (Solution.drawMany _ _ : StateM G (List (Solution α))).run source = first at hfirst ⊢
      obtain ⟨solutions, source⟩ := first
      have htaken := takeIn_ends h [] (by simp) hfirst.2 (by simpa using hfirst.1.le) p.budget source hs
      dsimp only
      generalize takeIn problem [] solutions p.budget source s = taken at htaken ⊢
      obtain ⟨f | g, s⟩ := taken
      · exact htaken
      · exact (evolve_ends h haccepted p.generations.toNat htaken.2).map _ fun _ _ => trivial

end Genetic

/-- A random search keeps the invariant. -/
theorem RandomSearch.runFrom_ends {r : RandomSearch} (h : problem.Guarded True r.encoding F I)
    (hcapacity : F (.defect .capacityExceeded)) (hparameter : ∀ cause, F (.search cause)) (source : G) {s : S}
    (hs : I s) : Search.Ends F I (fun _ => True) (r.runFrom source problem s) := by
  simp only [runFrom]
  split
  · exact ⟨hparameter _, hs⟩
  · split
    · exact ⟨hcapacity, hs⟩
    · have hdrawn := Solution.drawMany_always
        (Solution.drawUniform_wellFormed (G := G) (α := α) True r.encoding (problem.width r.encoding))
        (r.sampleCount (problem.width r.encoding)) source
      exact (SearchProblem.evaluateAll_ends h hdrawn.2 hs).map _ fun _ _ => trivial

end Runs

/-! ### All candidates -/

omit [Unital α] in
/-- Recorded evaluations are evaluations of well-formed solutions. -/
theorem SearchProblem.guarded_logged (problem : SearchProblem S α) (sound : Prop) (e : Encoding) :
    problem.logged.Guarded sound e (fun _ => True)
      (fun s => ∀ c ∈ s.2, c.solution.WellFormed sound e (problem.width e)) := by
  intro x s hx hs
  cases h : problem.evaluate x s.1 with
  | mk outcome s' =>
    rw [evaluate_logged h]
    have hlog : ∀ c ∈ s.2 ++ [{ solution := x, objectives := outcome.toOption.getD [] }],
        c.solution.WellFormed sound e (problem.width e) := by
      intro c hc
      rcases List.mem_append.mp hc with hc | hc
      · exact hs c hc
      · rw [List.mem_singleton.mp hc]
        exact hx
    cases outcome with
    | error f => exact ⟨trivial, hlog⟩
    | ok objectives => exact ⟨hlog, trivial⟩

/-- A failure of a search other than a solution of the wrong width. -/
def Failure.Fitting (f : Failure) : Prop :=
  ∀ expected actual, f ≠ .evaluation (.widthMismatch expected actual)

omit [Unital α] in
/-- Well-formed solutions have the width of the layout, which no evaluation changes. -/
theorem Evaluator.guarded_searchProblem {P : Type} [Part P α] (layout : Layout) (sound : Prop) (e : Encoding) :
    (searchProblem layout : SearchProblem (Evaluator P α) α).Guarded sound e Failure.Fitting
      (fun evaluator => evaluator.layout = layout) := by
  rintro x evaluator hx rfl
  have hwidth : x.size = (evaluator.layout.width x.encoding).toNat := by
    rw [hx.shaped.1]
    exact hx.shaped.2
  have hends : Search.Ends (fun f => (SearchProblem.evaluationFailure f).Fitting)
      (fun evaluator' => evaluator'.layout = evaluator.layout) (fun _ => True) (evaluator.evaluate x) := by
    have hfails := evaluate_failsBy hwidth
    have hlayout := layout_evaluate evaluator x
    match evaluator.evaluate x, hfails, hlayout with
    | (.error f, _), hfails, hlayout =>
      refine ⟨?_, hlayout⟩
      cases hfails f rfl with
      | gridNotInitialized k => exact fun expected actual h => nomatch h
      | defect d => exact fun expected actual h => nomatch h
    | (.ok _, _), _, hlayout => exact ⟨hlayout, trivial⟩
  exact hends.map _ fun _ _ => trivial

/-- **Every candidate of every search is well formed**, whatever the draws, and **no search fails by a mismatch of
widths.** Only the range of numbers in a genetic search takes a spread that is sound. -/
theorem candidates_wellFormed {P : Type} [Part P α] {p : GeneticParams α} (haccepted : p.validate = .ok ())
    (r : RandomSearch) (source : G) :
    (∀ (problem : SearchProblem S α) (s : S),
      Search.unlogged (Genetic.runFrom p source problem.logged (s, [])) = Genetic.runFrom p source problem s ∧
      (∀ c ∈ (Genetic.runFrom p source problem.logged (s, [])).2.2,
        c.solution.WellFormed p.SoundSpread p.encoding (problem.width p.encoding)) ∧
      Search.unlogged (r.runFrom source problem.logged (s, [])) = r.runFrom source problem s ∧
      ∀ c ∈ (r.runFrom source problem.logged (s, [])).2.2,
        c.solution.WellFormed True r.encoding (problem.width r.encoding)) ∧
    ∀ (e : Evaluator P α) (expected actual : Nat),
      (Genetic.runFrom p source (Evaluator.searchProblem e.layout) e).1
        ≠ .error (.evaluation (.widthMismatch expected actual)) ∧
      (r.runFrom source (Evaluator.searchProblem e.layout) e).1
        ≠ .error (.evaluation (.widthMismatch expected actual)) := by
  refine ⟨fun problem s => ⟨Genetic.runFrom_logged .., ?_, RandomSearch.runFrom_logged .., ?_⟩, ?_⟩
  · exact (Genetic.runFrom_ends (problem.guarded_logged _ _) haccepted trivial source (by simp)).state
  · exact (RandomSearch.runFrom_ends (problem.guarded_logged _ _) trivial (fun _ => trivial) source (by simp)).state
  · have hdefect : (Failure.defect .capacityExceeded).Fitting := fun _ _ h => nomatch h
    have hparameter : ∀ cause, (Failure.search cause).Fitting := fun _ _ _ h => nomatch h
    intro e expected actual
    have hgenetic := Genetic.runFrom_ends (Evaluator.guarded_searchProblem (P := P) e.layout _ p.encoding)
      haccepted hdefect source (s := e) rfl
    have hrandom := RandomSearch.runFrom_ends (Evaluator.guarded_searchProblem (P := P) e.layout _ r.encoding)
      hdefect hparameter source (s := e) rfl
    exact ⟨fun h => hgenetic.failure h expected actual rfl, fun h => hrandom.failure h expected actual rfl⟩

def SearchProblem.level (α : Type) [Scalar α] (width : Nat) : SearchProblem Unit α where
  width _ := width
  evaluate _ s := (.ok [0], s)

def GeneticParams.onNumbers (α : Type) [Scalar α] : GeneticParams α :=
  { GeneticParams.default with encoding := .real }

def GeneticParams.blending : GeneticParams Double :=
  { GeneticParams.onNumbers Double with mutationSigma := 0 }

theorem candidates_wellFormed_onNumbers :
    (GeneticParams.onNumbers ℝ).validate = .ok () ∧ (GeneticParams.onNumbers ℝ).SoundSpread ∧
      (∀ c ∈ (Genetic.runFrom (GeneticParams.onNumbers ℝ) (Keystream.ofSeed 42)
          (SearchProblem.level ℝ 3).logged ((), [])).2.2,
        c.solution.Shaped .real 3 ∧ ∀ v ∈ c.solution.values, InUnit v) ∧
      (∀ (e : Evaluator (Device ℝ) ℝ) (expected actual : Nat),
        (Genetic.runFrom (GeneticParams.onNumbers ℝ) (Keystream.ofSeed 42)
          (Evaluator.searchProblem e.layout) e).1 ≠ .error (.evaluation (.widthMismatch expected actual))) ∧
      ∀ c ∈ (Genetic.runFrom GeneticParams.blending (Keystream.ofSeed 42)
          (SearchProblem.level Double 3).logged ((), [])).2.2,
        c.solution.Shaped .real 3 ∧ ∀ v ∈ c.solution.values, InUnit v := by
  have hrate : GeneticParams.isRate (0.9 : ℝ) = true := by
    rw [GeneticParams.isRate, Bool.and_eq_true, decide_eq_true_eq, decide_eq_true_eq, ofNat_real, ofNat_real]
    norm_num
  have hspread : ¬ (0.1 : ℝ) < ((0 : ℕ) : ℝ) := by norm_num
  have haccepted : (GeneticParams.onNumbers ℝ).validate = .ok () := by
    unfold GeneticParams.validate
    rw [if_neg (by decide), if_neg (by decide), if_neg (by decide),
      if_neg (by rw [show (GeneticParams.onNumbers ℝ).crossoverRate = 0.9 from rfl, hrate]; decide),
      if_neg (by exact Bool.false_ne_true)]
    exact if_neg hspread
  have hsound : (GeneticParams.onNumbers ℝ).SoundSpread := fun _ => ⟨le_rfl, regular_real _⟩
  -- without a spread no noise is drawn
  have hblending : GeneticParams.blending.SoundSpread :=
    fun _ => ⟨by decide, fun hspread => absurd hspread (by decide)⟩
  have hreal := candidates_wellFormed (S := Unit) (P := Device ℝ) haccepted .default (Keystream.ofSeed 42)
  have hdouble := candidates_wellFormed (S := Unit) (P := Device Double) (p := GeneticParams.blending)
    (by decide) .default (Keystream.ofSeed 42)
  refine ⟨haccepted, hsound, fun c hc => ?_, fun e expected actual => (hreal.2 e expected actual).1,
    fun c hc => ?_⟩
  · obtain ⟨hshaped, hinUnit⟩ := (hreal.1 (.level ℝ 3) ()).2.1 c hc
    exact ⟨hshaped, hinUnit hsound⟩
  · obtain ⟨hshaped, hinUnit⟩ := (hdouble.1 (.level Double 3) ()).2.1 c hc
    exact ⟨hshaped, hinUnit hblending⟩

/-! ### A spread that is not a number -/

namespace Genetic

theorem normalNoise_undefined (b : Bool) :
    Always (fun z => ∃ b', z = .undefined b') (normalNoise (.undefined b) : StateM G Double) := by
  unfold normalNoise
  split
  · rename_i h
    exact absurd h Bool.false_ne_true
  · refine always_bind (always_true _) fun u _ => always_bind (always_true _) fun v _ => always_pure ?_
    generalize (Transcendental.sqrt _ * Transcendental.cos _ : Double) = z
    cases z with
    | number a => exact ⟨b, rfl⟩
    | undefined b' => exact ⟨b', rfl⟩

/-- A number that is disturbed by what is not a number is not a number afterwards. -/
theorem disturb_undefined (b : Bool) (xs : List Double) :
    Always (fun ys => ∀ y ∈ ys, ¬ y ≤ y) (disturb 1 (.undefined b) xs : StateM G (List Double)) := by
  induction xs with
  | nil => exact always_pure (by simp)
  | cons x xs ih =>
    have hcertain : Always (fun changes => changes = true) (chance (1 : Double) : StateM G Bool) :=
      fun _ => rfl
    refine always_bind hcertain fun changes hchanges => ?_
    subst hchanges
    refine always_bind (normalNoise_undefined b) fun noise hnoise => always_bind ih fun ys hys => always_pure ?_
    obtain ⟨b', rfl⟩ := hnoise
    refine List.forall_mem_cons.mpr ⟨?_, hys⟩
    cases x with
    | number a => exact Bool.false_ne_true
    | undefined b'' => exact Bool.false_ne_true

/-- All numbers of a child are undefined if the spread is and if every variable mutates. -/
theorem offspring_undefined {p : GeneticParams Double} {b : Bool} {n width : Nat} (hrate : p.rate n = 1)
    (hspread : p.mutationSigma = .undefined b) {x y : Solution Double} (hx : x.Shaped .real width)
    (hy : y.Shaped .real width) :
    Always (fun z => z.Shaped .real width ∧ ∀ v ∈ z.values, ¬ v ≤ v)
      (offspring p n x y : StateM G (Solution Double)) := by
  have hvalues : Always (fun z => ∀ v ∈ z.values, ¬ v ≤ v) (offspring p n x y : StateM G (Solution Double)) := by
    refine always_bind (always_true _) fun cross _ => ?_
    match x, y, hx.1, hy.1 with
    | .real xs, .real ys, _, _ =>
      have hmutate : ∀ c : List Double, Always (fun z => ∀ v ∈ z.values, ¬ v ≤ v)
          (do return .real (← disturb (p.rate n) p.mutationSigma c).toArray : StateM G (Solution Double)) := by
        intro c
        rw [hrate, hspread]
        exact always_bind (disturb_undefined b c) fun values hvalues => always_pure hvalues
      cases cross with
      | true => exact always_bind (always_true _) fun c _ => hmutate c
      | false => exact hmutate xs.toList
  exact fun source => ⟨offspring_shaped p n hx hy source, hvalues source⟩

end Genetic

def GeneticParams.unguarded : GeneticParams Double :=
  { GeneticParams.onNumbers Double with
    populationSize := 2, generations := 1, elitism := 0, mutationRate := some 1, mutationSigma := .undefined false }

omit [Unital α] in
/-- What a problem with equally good solutions records. -/
theorem SearchProblem.evaluateAll_level (width : Nat) (xs : List (Solution α))
    (s : Unit × List (Candidate α)) :
    (level α width).logged.evaluateAll xs s
      = (.ok (xs.map fun x => { solution := x, objectives := [0] }), s.1,
        s.2 ++ xs.map fun x => { solution := x, objectives := [0] }) := by
  induction xs generalizing s with
  | nil => simp [evaluateAll]
  | cons x xs ih =>
    have heval : (level α width).evaluate x s.1 = (.ok [0], s.1) := rfl
    simp only [evaluateAll, evaluate_logged heval, ih]
    simp [Except.toOption]

def Candidate.Adrift (c : Candidate Double) : Prop :=
  c.solution.Shaped .real 1 ∧ ∃ v ∈ c.solution.values, ¬ v ≤ v ∧ ¬ InUnit v

theorem Solution.Shaped.exists_value {z : Solution Double} (h : z.Shaped .real 1) : ∃ v, v ∈ z.values := by
  obtain ⟨hencoding, hsize⟩ := h
  cases z with
  | binary bits => cases hencoding
  | real values =>
    have hone : values.toList.length = 1 := hsize
    exact List.exists_mem_of_length_pos (hone ▸ Nat.one_pos)

omit [WordSource G] in
/-- The first population consists of two candidates of one number. -/
theorem Genetic.takeIn_unguarded {xs : List (Solution Double)} (hlength : xs.length = 2)
    (hshaped : ∀ x ∈ xs, x.Shaped .real 1) (source : G) :
    ∃ g, takeIn (SearchProblem.level Double 1).logged [] xs GeneticParams.unguarded.budget source ((), [])
        = (.ok g, g.state) ∧
      (∀ c ∈ g.population, c.solution.Shaped .real 1) ∧ g.population.length = 2 ∧ 0 < g.budget := by
  have htake : xs.take GeneticParams.unguarded.budget = xs :=
    List.take_of_length_le (by rw [hlength]; decide)
  simp only [takeIn, htake, SearchProblem.evaluateAll_level, hlength]
  refine ⟨_, rfl, ?_, ?_, ?_⟩
  · simpa using hshaped
  · simpa using hlength
  · show 0 < GeneticParams.unguarded.budget - 2
    decide

/-- The generation consists of children with undefined numbers. -/
theorem Genetic.generation_unguarded {g : Stage G (Unit × List (Candidate Double)) Double}
    (hpopulation : ∀ c ∈ g.population, c.solution.Shaped .real 1) (hlength : g.population.length = 2)
    (hbudget : 0 < g.budget) :
    ∃ g', generation GeneticParams.unguarded 1 (SearchProblem.level Double 1).logged g = (.ok g', g'.state) ∧
      ∃ c ∈ g'.state.2, c.Adrift := by
  have hranked : (sorted g.population).length = 2 := (List.length_mergeSort _).trans hlength
  have hparents : ∀ c ∈ (sorted g.population).toArray, c.solution.Shaped .real 1 :=
    fun c hc => hpopulation c (List.mem_mergeSort.mp (List.mem_toArray.mp hc))
  have hwinner := tournament_always (G := G) hparents (by rw [List.size_toArray, hranked]; decide)
    (by rw [List.size_toArray, hranked]; decide) GeneticParams.unguarded
  have hchild : Always (fun z => z.Shaped .real 1 ∧ ∀ v ∈ z.values, ¬ v ≤ v)
      (breed GeneticParams.unguarded 1 (sorted g.population).toArray : StateM G (Solution Double)) :=
    always_bind hwinner fun x hx => always_bind hwinner fun y hy =>
      offspring_undefined (b := false) rfl rfl hx hy
  have hnonempty : ¬ (sorted g.population).isEmpty = true := by
    rw [List.isEmpty_iff_length_eq_zero, hranked]
    decide
  have hbred := Solution.drawMany_always hchild 2 g.source
  have helitism : GeneticParams.unguarded.elitism.toNat = 0 := rfl
  have hsize : GeneticParams.unguarded.populationSize.toNat = 2 := rfl
  simp only [generation, takeIn, SearchProblem.evaluateAll_level, helitism, hsize, List.take_zero,
    List.drop_zero, List.length_nil, Nat.sub_zero, if_neg hnonempty]
  generalize (Solution.drawMany _ _ : StateM G (List (Solution Double))).run g.source = bred at hbred ⊢
  obtain ⟨children, source⟩ := bred
  obtain ⟨hchildren, hundefined⟩ := hbred
  refine ⟨_, rfl, ?_⟩
  -- the first child has been evaluated
  obtain ⟨child, rest, rfl⟩ : ∃ child rest, children = child :: rest :=
    List.exists_cons_of_length_pos (by rw [show children.length = 2 from hchildren]; decide)
  obtain ⟨budget, hsucc⟩ := Nat.exists_eq_succ_of_ne_zero hbudget.ne'
  obtain ⟨hshaped, hvalues⟩ := hundefined child List.mem_cons_self
  refine ⟨{ solution := child, objectives := [0] }, ?_, hshaped, ?_⟩
  · simp [hsucc]
  · obtain ⟨v, hv⟩ := hshaped.exists_value
    exact ⟨v, hv, hvalues v hv, fun hin => hvalues v hv hin.defined⟩

/-- **A spread that is not a number is accepted, and leads to variables that are not numbers.** -/
theorem undefined_spread_leaves_unit :
    GeneticParams.unguarded.validate = .ok () ∧
      ∃ c ∈ (Genetic.runFrom GeneticParams.unguarded (Keystream.ofSeed 42)
        (SearchProblem.level Double 1).logged ((), [])).2.2, c.Adrift := by
  refine ⟨by decide, ?_⟩
  let p := GeneticParams.unguarded
  let problem := SearchProblem.level Double 1
  have hfirst := Solution.drawMany_always
    (Solution.drawUniform_shaped (G := Keystream) (α := Double) p.encoding (problem.width p.encoding))
    p.populationSize.toNat (Keystream.ofSeed 42)
  have hwidth : 0 < problem.logged.width p.encoding := by decide
  have hfits : Solution.fits p.encoding (problem.logged.width p.encoding) p.populationSize.toNat = true := by
    decide
  rw [Genetic.runFrom_eq hwidth hfits]
  simp only [Genetic.stageAfter, SearchProblem.width_logged]
  generalize (Solution.drawMany _ _ : StateM Keystream (List (Solution Double))).run _ = first at hfirst ⊢
  obtain ⟨solutions, source⟩ := first
  obtain ⟨hlength, hshaped⟩ : solutions.length = 2 ∧ ∀ x ∈ solutions, x.Shaped .real 1 := hfirst
  obtain ⟨g, hg, hpopulation, hsize, hbudget⟩ := Genetic.takeIn_unguarded hlength hshaped source
  obtain ⟨g', hstep, hadrift⟩ := Genetic.generation_unguarded hpopulation hsize hbudget
  have hgoes : ¬ (g.budget = 0 ∨ g.population.isEmpty = true) := by
    rw [List.isEmpty_iff_length_eq_zero]
    omega
  dsimp only
  rw [hg]
  dsimp only
  rw [show p.generations.toNat = 0 + 1 from rfl, Genetic.evolve, if_neg hgoes]
  rw [show problem.width p.encoding = 1 from rfl, hstep]
  exact hadrift

end HomeEnergy

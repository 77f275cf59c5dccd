import HomeEnergy.Proofs.Distribution
import HomeEnergy.Proofs.Draws
import HomeEnergy.Proofs.Selection

/-!
# What searches find

A search draws solutions, evaluates them and passes candidates on, over generations or at once. This module
shows that whatever holds of every evaluation holds of everything a search finds.

* `Genetic.offspring_storable` — a child takes no more space than its first parent.
* `SearchProblem.Upright` — evaluations keep an invariant of the state they work on, and their objectives are
  of some kind; `Search.Yields` — a search keeps the invariant and its candidates are of that kind.
* `Genetic.generation_yields`, `Genetic.evolve_yields` — a generation, and from it every number of
  generations.
* `Search.runAll_yields` — **every candidate of every series of searches has the objectives that an evaluation
  gave to its solution**, and the solution fits into a table.
-/

namespace HomeEnergy

/-! ### Solutions -/

open Draw

variable {G S α : Type} [WordSource G]

namespace Solution

omit [WordSource G] in
/-- Repeating a draw gives as many outcomes, and each passes the test. -/
theorem drawMany_always {β : Type} {T : β → Prop} {draw : StateM G β} (h : Always T draw) (n : Nat) :
    Always (fun xs => xs.length = n ∧ ∀ x ∈ xs, T x) (drawMany draw n) := by
  induction n with
  | zero => exact always_pure ⟨rfl, by simp⟩
  | succ n ih =>
    refine always_bind h fun x hx => always_bind ih fun xs hxs => always_pure ⟨?_, ?_⟩
    · simp [hxs.1]
    · intro y hy
      rcases List.mem_cons.mp hy with rfl | hy
      · exact hx
      · exact hxs.2 y hy

/-- Uniform solutions fit into a table if the search has checked that they do. -/
theorem drawUniform_storable [Scalar α] {e : Encoding} {width count : Nat}
    (h : fits e width count = true) :
    Always Storable (drawUniform e width : StateM G (Solution α)) := by
  have hwidth : width * variableBytes e ≤ maxTableBytes := by
    simp only [fits, Bool.and_eq_true, decide_eq_true_eq] at h
    exact h.1
  cases e with
  | binary =>
    refine always_bind (drawMany_always (always_true _) width) fun bits hbits => always_pure ?_
    simpa [Storable, size, encoding, hbits.1] using hwidth
  | real =>
    refine always_bind (drawMany_always (always_true _) width) fun values hvalues => always_pure ?_
    simpa [Storable, size, encoding, hvalues.1] using hwidth

theorem storable_of_le {s s' : Solution α} (h : s.Storable) (hencoding : s'.encoding = s.encoding)
    (hsize : s'.size ≤ s.size) : s'.Storable := by
  unfold Storable at h ⊢
  rw [hencoding]
  exact Nat.le_trans (Nat.mul_le_mul_right _ hsize) h

end Solution

/-! ### Children -/

namespace Genetic

variable [Transcendental α]

theorem crossAtPoint_size {β : Type} (a b : Array β) :
    Always (fun c => c.size ≤ a.size) (crossAtPoint a b : StateM G (Array β)) := by
  simp only [crossAtPoint]
  split
  · exact always_pure (Nat.le_refl _)
  · refine always_bind (always_true _) fun cut _ => always_pure ?_
    have hmin : Nat.min a.size b.size ≤ a.size := Nat.min_le_left ..
    have hmin' : Nat.min a.size b.size ≤ b.size := Nat.min_le_right ..
    simp only [Array.size_append, Array.size_extract]
    omega

theorem blend_length (xs ys : List α) :
    Always (fun zs => zs.length ≤ xs.length) (blend xs ys : StateM G (List α)) := by
  induction xs generalizing ys with
  | nil => exact always_pure (Nat.le_refl _)
  | cons x xs ih =>
    cases ys with
    | nil => exact always_pure (Nat.zero_le _)
    | cons y ys =>
      exact always_bind (always_true _) fun _ _ => always_bind (ih ys) fun zs hzs =>
        always_pure (Nat.succ_le_succ hzs)

theorem flipBits_length (rate : α) (bits : List Bool) :
    Always (fun bs => bs.length = bits.length) (flipBits rate bits : StateM G (List Bool)) := by
  induction bits with
  | nil => exact always_pure rfl
  | cons b bits ih =>
    exact always_bind (always_true _) fun _ _ => always_bind ih fun bs hbs =>
      always_pure (congrArg Nat.succ hbs)

theorem disturb_length (rate sigma : α) (xs : List α) :
    Always (fun ys => ys.length = xs.length) (disturb rate sigma xs : StateM G (List α)) := by
  induction xs with
  | nil => exact always_pure rfl
  | cons x xs ih =>
    refine always_bind (always_true _) fun changes _ => ?_
    cases changes with
    | true =>
      exact always_bind (always_true _) fun _ _ => always_bind ih fun ys hys =>
        always_pure (congrArg Nat.succ hys)
    | false => exact always_bind ih fun ys hys => always_pure (congrArg Nat.succ hys)

/-- **A child takes no more space than its first parent.** -/
theorem offspring_storable (p : GeneticParams α) (width : Nat) {a : Solution α} (h : a.Storable)
    (b : Solution α) : Always Solution.Storable (offspring p width a b : StateM G (Solution α)) := by
  refine always_bind (always_true _) fun cross _ => ?_
  match a, b, h with
  | .binary x, .binary y, h =>
    have hmutate : ∀ c : Array Bool, c.size ≤ x.size → Always Solution.Storable
        (do return .binary (← flipBits (p.rate width) c.toList).toArray : StateM G (Solution α)) := by
      intro c hc
      refine always_bind (flipBits_length _ _) fun bits hbits =>
        always_pure (Solution.storable_of_le h rfl ?_)
      simpa [Solution.size, hbits] using hc
    cases cross with
    | true => exact always_bind (crossAtPoint_size x y) hmutate
    | false => exact always_bind (always_pure (Nat.le_refl _)) hmutate
  | .real x, .real y, h =>
    have hmutate : ∀ c : List α, c.length ≤ x.toList.length → Always Solution.Storable
        (do return .real (← disturb (p.rate width) p.mutationSigma c).toArray :
          StateM G (Solution α)) := by
      intro c hc
      refine always_bind (disturb_length _ _ _) fun values hvalues =>
        always_pure (Solution.storable_of_le h rfl ?_)
      simpa [Solution.size, hvalues] using hc
    cases cross with
    | true => exact always_bind (blend_length x.toList y.toList) hmutate
    | false => exact always_bind (always_pure (Nat.le_refl _)) hmutate
  | .binary x, .real y, h => exact always_pure h
  | .real x, .binary y, h => exact always_pure h

omit [Transcendental α] in
theorem getD_of {T : Candidate α → Prop} {parents : Array (Candidate α)} (h : ∀ c ∈ parents, T c)
    {c : Candidate α} (hc : T c) (i : Nat) : T (parents.getD i c) := by
  unfold Array.getD
  split
  · exact h _ (Array.getElem_mem _)
  · exact hc

/-- Challenges do not leave the candidates. -/
theorem challenge_always {T : Candidate α → Prop} {parents : Array (Candidate α)}
    (h : ∀ c ∈ parents, T c) (n : Nat) :
    ∀ best, T best → Always T (challenge parents n best : StateM G (Candidate α)) := by
  induction n with
  | zero => intro best hbest; exact always_pure hbest
  | succ n ih =>
    intro best hbest
    refine always_bind (always_true _) fun i _ => ih _ ?_
    split
    · exact getD_of h hbest i
    · exact hbest

/-- Children of storable candidates are storable. Without candidates the parents have no variables. -/
theorem breed_storable (p : GeneticParams α) (width : Nat) {parents : Array (Candidate α)}
    (h : ∀ c ∈ parents, c.solution.Storable) :
    Always Solution.Storable (breed p width parents : StateM G (Solution α)) := by
  have hdefault : (default : Candidate α).solution.Storable := Nat.zero_le _
  have htournament : Always (fun c => c.solution.Storable)
      (tournament p parents : StateM G (Candidate α)) :=
    always_bind (always_true _) fun i _ => challenge_always h _ _ (getD_of h hdefault i)
  exact always_bind htournament fun a ha => always_bind htournament fun b _ =>
    offspring_storable p width ha b.solution

end Genetic

/-! ### Evaluations of a search -/

def Search.Yields {β : Type} (I : S → Prop) (T : β → Prop) : Except Failure β × S → Prop
  | (.error _, s) => I s
  | (.ok b, s) => I s ∧ T b

def Candidate.Recorded (R : Solution α → List α → Prop) (c : Candidate α) : Prop :=
  c.solution.Storable ∧ R c.solution c.objectives

/-- Evaluations of storable solutions keep an invariant, and their objectives are of some kind. -/
def SearchProblem.Upright (p : SearchProblem S α) (I : S → Prop)
    (R : Solution α → List α → Prop) : Prop :=
  ∀ x s, x.Storable → I s → Search.Yields I (R x) (p.evaluate x s)

section Runs

variable {p : SearchProblem S α} {I : S → Prop} {R : Solution α → List α → Prop}

/-- Candidates are solutions with the objectives that evaluations gave to them. -/
theorem SearchProblem.evaluateAll_yields (h : p.Upright I R) {xs : List (Solution α)}
    (hxs : ∀ x ∈ xs, x.Storable) {s : S} (hs : I s) :
    Search.Yields I (fun cs => ∀ c ∈ cs, c.Recorded R) (p.evaluateAll xs s) := by
  induction xs generalizing s with
  | nil => exact ⟨hs, by simp⟩
  | cons x xs ih =>
    have hx : x.Storable := hxs x (by simp)
    simp only [evaluateAll]
    match p.evaluate x s, h x s hx hs with
    | (.error e, s), hs => exact hs
    | (.ok objectives, s), ⟨hs, hobjectives⟩ =>
      dsimp only
      match p.evaluateAll xs s, ih (fun y hy => hxs y (by simp [hy])) hs with
      | (.error e, s), hs => exact hs
      | (.ok cs, s), ⟨hs, hcs⟩ =>
        refine ⟨hs, ?_⟩
        intro c hc
        rcases List.mem_cons.mp hc with rfl | hc
        · exact ⟨hx, hobjectives⟩
        · exact hcs c hc

theorem Search.Yields.front [Scalar α] {answer : Except Failure (List (Candidate α)) × S}
    (h : Yields I (fun cs => ∀ c ∈ cs, c.Recorded R) answer) :
    Yields I (fun cs => ∀ c ∈ cs, c.Recorded R) (answer.1.map Candidate.front, answer.2) := by
  match answer, h with
  | (.error _, _), hs => exact hs
  | (.ok cs, _), ⟨hs, hcs⟩ => exact ⟨hs, fun c hc => hcs c (Candidate.frontOf_subset hc)⟩

namespace Genetic

variable [Transcendental α]

/-- The invariant between generations: the candidates are recorded, and so is the state. -/
structure Stage.Holds (g : Stage G S α) (I : S → Prop) (R : Solution α → List α → Prop) : Prop where
  population : ∀ c ∈ g.population, c.Recorded R
  state : I g.state

omit [WordSource G] [Transcendental α] in
theorem takeIn_yields (h : p.Upright I R) {kept : List (Candidate α)}
    (hkept : ∀ c ∈ kept, c.Recorded R) {xs : List (Solution α)} (hxs : ∀ x ∈ xs, x.Storable)
    (budget : Nat) (source : G) {s : S} (hs : I s) :
    Search.Yields I (fun g => g.Holds I R) (takeIn p kept xs budget source s) := by
  have hpending : ∀ x ∈ xs.take budget, x.Storable := fun x hx => hxs x (List.mem_of_mem_take hx)
  simp only [takeIn]
  match p.evaluateAll (xs.take budget) s, SearchProblem.evaluateAll_yields h hpending hs with
  | (.error e, s), hs => exact hs
  | (.ok cs, s), ⟨hs, hcs⟩ =>
    refine ⟨hs, ?_, hs⟩
    intro c hc
    rcases List.mem_append.mp hc with hc | hc
    · exact hkept c hc
    · exact hcs c hc

/-- **A generation keeps the invariant**: the elite has been recorded before, and the children are evaluated. -/
theorem generation_yields (h : p.Upright I R) (params : GeneticParams α) (width : Nat)
    {g : Stage G S α} (hg : g.Holds I R) :
    Search.Yields I (fun g => g.Holds I R) (generation params width p g) := by
  have hranked : ∀ c ∈ sorted g.population, c.Recorded R :=
    fun c hc => hg.population c (List.mem_mergeSort.mp hc)
  have helite : ∀ c ∈ (sorted g.population).take params.elitism.toNat, c.Recorded R :=
    fun c hc => hranked c (List.mem_of_mem_take hc)
  refine takeIn_yields h helite ?_ g.budget _ hg.state
  refine fun x hx => ((Solution.drawMany_always (breed_storable params width ?_) _) g.source).2 x hx
  intro c hc
  rw [List.mem_toArray] at hc
  split at hc
  · exact (helite c hc).1
  · exact (hranked c (List.mem_of_mem_drop hc)).1

/-- **Every number of generations keeps the invariant.** -/
theorem evolve_yields (h : p.Upright I R) (params : GeneticParams α) (width n : Nat)
    {g : Stage G S α} (hg : g.Holds I R) :
    Search.Yields I (fun g => g.Holds I R) (evolve params width p n g) := by
  induction n generalizing g with
  | zero => exact ⟨hg.state, hg⟩
  | succ n ih =>
    simp only [evolve]
    split
    · exact ⟨hg.state, hg⟩
    · match generation params width p g, generation_yields h params width hg with
      | (.error e, s), hs => exact hs
      | (.ok g, s), ⟨_, hg⟩ => exact ih hg

theorem runFrom_yields (h : p.Upright I R) (params : GeneticParams α) (source : G) {s : S} (hs : I s) :
    Search.Yields I (fun cs => ∀ c ∈ cs, c.Recorded R) (runFrom params source p s) := by
  simp only [runFrom]
  split
  · refine SearchProblem.evaluateAll_yields h ?_ hs
    intro x hx
    obtain rfl := List.mem_singleton.mp hx
    have hfits : Solution.fits params.encoding 0 0 = true := by simp [Solution.fits]
    exact Solution.drawUniform_storable hfits source
  · split
    · exact hs
    · rename_i hfits
      have hfirst : ∀ x ∈ ((Solution.drawMany (Solution.drawUniform params.encoding
          (p.width params.encoding)) params.populationSize.toNat : StateM G (List (Solution α))).run
          source).1, x.Storable :=
        (Solution.drawMany_always (Solution.drawUniform_storable (by simpa using hfits)) _ source).2
      generalize (Solution.drawMany _ _ : StateM G (List (Solution α))).run source = first at hfirst ⊢
      obtain ⟨solutions, source⟩ := first
      dsimp only
      match takeIn p [] solutions params.budget source s,
        takeIn_yields h (by simp) hfirst params.budget source hs with
      | (.error e, s), hs => exact hs
      | (.ok g, s), ⟨_, hg⟩ =>
        dsimp only
        match evolve params (p.width params.encoding) p params.generations.toNat g,
          evolve_yields h params (p.width params.encoding) params.generations.toNat hg with
        | (.error e, s), hs => exact hs
        | (.ok g, s), ⟨hs, hg⟩ =>
          exact ⟨hs, fun c hc => hg.population c (Candidate.frontOf_subset hc)⟩

end Genetic

/-- A random search finds recorded candidates. -/
theorem RandomSearch.runFrom_yields [Scalar α] (h : p.Upright I R) (r : RandomSearch) (source : G) {s : S}
    (hs : I s) : Search.Yields I (fun cs => ∀ c ∈ cs, c.Recorded R) (r.runFrom source p s) := by
  simp only [runFrom]
  split
  · exact hs
  · split
    · exact hs
    · rename_i hfits
      have hdrawn := Solution.drawMany_always (Solution.drawUniform_storable (G := G) (α := α)
        (by simpa using hfits)) (r.sampleCount (p.width r.encoding)) source
      exact (SearchProblem.evaluateAll_yields h hdrawn.2 hs).front

end Runs

namespace Search

variable [Transcendental α] {p : SearchProblem S α} {I : S → Prop} {R : Solution α → List α → Prop}

theorem run_yields (h : p.Upright I R) (search : Search α) {s : S} (hs : I s) :
    Yields I (fun cs => ∀ c ∈ cs, c.Recorded R) (search.run p s) := by
  cases search with
  | genetic params => exact Genetic.runFrom_yields h params _ hs
  | random r => exact RandomSearch.runFrom_yields h r _ hs

/-- **Every candidate of every series of searches has the objectives that an evaluation gave to its
solution.** -/
theorem runAll_yields (h : p.Upright I R) (searches : List (Search α)) {s : S} (hs : I s) :
    Yields I (fun cs => ∀ c ∈ cs, c.Recorded R) (runAll p searches s) := by
  induction searches generalizing s with
  | nil => exact ⟨hs, by simp⟩
  | cons search searches ih =>
    simp only [runAll]
    match search.run p s, run_yields h search hs with
    | (.error e, s), hs => exact hs
    | (.ok found, s), ⟨hs, hfound⟩ =>
      dsimp only
      match runAll p searches s, ih hs with
      | (.error e, s), hs => exact hs
      | (.ok more, s), ⟨hs, hmore⟩ =>
        refine ⟨hs, ?_⟩
        intro c hc
        rcases List.mem_append.mp hc with hc | hc
        · exact hfound c hc
        · exact hmore c hc

end Search

end HomeEnergy

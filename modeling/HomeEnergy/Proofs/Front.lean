import HomeEnergy.Proofs.Dominance
import HomeEnergy.Proofs.Optimum

/-!
# The front of a list of candidates

A front leaves out the candidates that another one dominates, and those whose solution an earlier candidate has. An
earlier candidate counts here whether it stays or not. So a candidate that nothing dominates can be left out for one
that is dominated, if the two share a solution and differ in their objectives.

* `Ranking.AtMost` — the order of rows objective by objective; `Ranking.dominates_iff_atMost` — **dominance between rows
  of one length is its strict part**.
* `Candidate.Comparable` — candidates with as many objectives each, none of them undefined;
  `Candidate.Comparable.exists_undominated_le` — **below every candidate there is one that nothing dominates**.
* `Candidate.mem_front_iff` — a front has the candidates that nothing dominates and whose solution is new.
* `Candidate.covers_iff` — a front covers its list exactly if whatever nothing dominates is as good as a candidate
  whose solution is new; `Candidate.covers_of_consistent` — so it does where candidates of one solution are as good as
  each other.
* `Plan.covers_runAll` — so it does for what the searches of a plan find.
* `front_covers_iff` — what this makes of a front.
-/

namespace HomeEnergy

/-! ### Dominance as an order -/

namespace Ranking

variable {α : Type} [Scalar α] {a b c : List α}

open Scalar.Ordered

/-- A row is at most another one in every column. -/
def AtMost (a b : List α) : Prop :=
  List.Forall₂ (fun x y => x ≤ y) a b

instance : Decidable (AtMost a b) :=
  inferInstanceAs (Decidable (List.Forall₂ _ a b))

theorem AtMost.trans [Scalar.Ordered α] (hab : AtMost a b) (hbc : AtMost b c) : AtMost a c := by
  induction hab generalizing c with
  | nil => exact hbc
  | cons hxy _ ih =>
    cases hbc with
    | cons hyz hrest => exact .cons (le_trans hxy hyz) (ih hrest)

/-- **Dominance between rows of one length is the strict part of an order.** -/
theorem dominates_iff_atMost [Scalar.Ordered α] (hlength : a.length = b.length) :
    Dominates a b ↔ AtMost a b ∧ ¬ AtMost b a := by
  constructor
  · rintro ⟨hall, k, x, hx, y, hy, hxy⟩
    refine ⟨List.forall₂_iff_get.mpr ⟨hlength, fun i hi hi' => ?_⟩, ?_⟩
    · exact hall i _ (List.getElem?_eq_getElem hi) _ (List.getElem?_eq_getElem hi')
    · intro hba
      obtain ⟨hk, rfl⟩ := List.getElem?_eq_some_iff.mp hx
      obtain ⟨hk', rfl⟩ := List.getElem?_eq_some_iff.mp hy
      exact not_le_of_lt hxy (hba.get hk' hk)
  · rintro ⟨hab, hnot⟩
    have hcolumn : ∀ k : Nat, ∀ x ∈ a[k]?, ∀ y ∈ b[k]?, x ≤ y := by
      intro k x hx y hy
      obtain ⟨hk, rfl⟩ := List.getElem?_eq_some_iff.mp hx
      obtain ⟨hk', rfl⟩ := List.getElem?_eq_some_iff.mp hy
      exact hab.get hk hk'
    refine ⟨hcolumn, ?_⟩
    -- rows that are not above each other in any column would be at most each other
    by_contra hnone
    refine hnot (List.forall₂_iff_get.mpr ⟨hlength.symm, fun i hi hi' => ?_⟩)
    have hx : a[i] ∈ a[i]? := List.getElem?_eq_getElem hi'
    have hy : b[i] ∈ b[i]? := List.getElem?_eq_getElem hi
    by_contra hyx
    exact hnone ⟨i, a[i], hx, b[i], hy, lt_iff_le_not_ge.mpr ⟨hcolumn i _ hx _ hy, hyx⟩⟩

end Ranking

namespace Candidate

variable {α : Type} [Scalar α]

open Ranking (Dominates AtMost)

/-! ### Comparable candidates -/

/-- Candidates with as many objectives each, none of which is undefined: an undefined number is not even at most
itself. -/
structure Comparable (cs : List (Candidate α)) : Prop where
  length_eq : ∀ c ∈ cs, ∀ d ∈ cs, c.objectives.length = d.objectives.length
  defined : ∀ c ∈ cs, ∀ x ∈ c.objectives, x ≤ x

/-- Two candidates are as good as each other in every objective. -/
def Level (c d : Candidate α) : Prop :=
  AtMost c.objectives d.objectives ∧ AtMost d.objectives c.objectives

instance (c d : Candidate α) : Decidable (Level c d) :=
  inferInstanceAs (Decidable (_ ∧ _))

def Undominated (cs : List (Candidate α)) (c : Candidate α) : Prop :=
  ∀ d ∈ cs, ¬ Dominates d.objectives c.objectives

/-- The candidate at a place of a list, if no earlier one has its solution. -/
def NewAt (cs : List (Candidate α)) (i : Nat) (c : Candidate α) : Prop :=
  c ∈ cs[i]? ∧ ∀ j < i, ∀ d ∈ cs[j]?, d.solution.same c.solution = false

/-- Every candidate of a list is dominated by a chosen one, or as good as one. -/
def Covers (chosen cs : List (Candidate α)) : Prop :=
  ∀ c ∈ cs, ∃ d ∈ chosen, Dominates d.objectives c.objectives ∨ Level d c

/-- Candidates of one solution are as good as each other. -/
def Consistent (cs : List (Candidate α)) : Prop :=
  ∀ c ∈ cs, ∀ d ∈ cs, c.solution.same d.solution = true → Level c d

instance (cs : List (Candidate α)) : Decidable (Consistent cs) :=
  inferInstanceAs (Decidable (∀ c ∈ cs, ∀ d ∈ cs, _ → _))

section Laws

variable [Scalar.Ordered α] {cs : List (Candidate α)} {c d : Candidate α}

open Scalar.Ordered

/-- The test for dominance is right about defined objectives. -/
theorem Comparable.dominates_iff (h : Comparable cs) (hc : c ∈ cs) (hd : d ∈ cs) :
    c.dominates d = true ↔ Dominates c.objectives d.objectives := by
  have hpair : ∀ e ∈ c.objectives.zip d.objectives, (¬ e.2 < e.1) ↔ e.1 ≤ e.2 := by
    intro e he
    have hx : e.1 ≤ e.1 := h.defined c hc e.1 (List.of_mem_zip he).1
    have hy : e.2 ≤ e.2 := h.defined d hd e.2 (List.of_mem_zip he).2
    exact ⟨le_of_not_lt hx hy, fun hle hlt => not_le_of_lt hlt hle⟩
  rw [← Ranking.rowDominates_iff, dominates, Ranking.rowDominates]
  simp only [Bool.and_eq_true, Bool.not_eq_true', List.any_eq_false, List.all_eq_true, decide_eq_true_eq]
  exact and_congr_left fun _ => forall₂_congr hpair

theorem Comparable.undominated_iff (h : Comparable cs) (hc : c ∈ cs) :
    Undominated cs c ↔ cs.any (fun d => d.dominates c) = false := by
  rw [List.any_eq_false]
  exact forall₂_congr fun d hd => not_congr (h.dominates_iff hd hc).symm

/-- What is as good as a candidate that nothing dominates is dominated by nothing. -/
theorem Comparable.undominated_of_level (h : Comparable cs) (hc : c ∈ cs) (hd : d ∈ cs) (hlevel : Level c d)
    (hfree : Undominated cs c) : Undominated cs d := by
  intro e he hdom
  obtain ⟨hed, hnot⟩ := (Ranking.dominates_iff_atMost (h.length_eq e he d hd)).mp hdom
  refine hfree e he ((Ranking.dominates_iff_atMost (h.length_eq e he c hc)).mpr ?_)
  exact ⟨hed.trans hlevel.2, fun hce => hnot (hlevel.2.trans hce)⟩

/-- **Below every candidate there is one that nothing dominates**: itself, or one that dominates it. -/
theorem Comparable.exists_undominated_le (h : Comparable cs) (hc : c ∈ cs) :
    ∃ d ∈ cs, Undominated cs d ∧ AtMost d.objectives c.objectives := by
  by_cases hfree : Undominated cs c
  · exact ⟨c, hc, hfree, List.forall₂_same.mpr (h.defined c hc)⟩
  · -- a first row, in the order of rows, among those that dominate the candidate
    simp only [Undominated, not_forall, not_not] at hfree
    obtain ⟨b, hb, hbc⟩ := hfree
    let above := (cs.filter fun d => Ranking.rowDominates d.objectives c.objectives).map fun d =>
      (d.objectives, 0)
    have habove : ∀ r, r ∈ above ↔
        ∃ d ∈ cs, Dominates d.objectives c.objectives ∧ (d.objectives, 0) = r := by
      intro r
      simp only [above, List.mem_map, List.mem_filter, Ranking.rowDominates_iff, and_assoc]
    obtain ⟨r, hr, hfirst⟩ : ∃ r ∈ above, ∀ s ∈ above, ¬ Ranking.Before s.1 r.1 := Ranking.exists_undominated
      (List.ne_nil_of_mem ((habove _).mpr ⟨b, hb, hbc, rfl⟩))
    obtain ⟨d, hd, hdc, rfl⟩ := (habove r).mp hr
    obtain ⟨hle, hnot⟩ := (Ranking.dominates_iff_atMost (h.length_eq d hd c hc)).mp hdc
    refine ⟨d, hd, ?_, hle⟩
    intro e he hed
    obtain ⟨hle', -⟩ := (Ranking.dominates_iff_atMost (h.length_eq e he d hd)).mp hed
    have hec : Dominates e.objectives c.objectives :=
      (Ranking.dominates_iff_atMost (h.length_eq e he c hc)).mpr
        ⟨hle'.trans hle, fun hce => hnot (hce.trans hle')⟩
    exact hfirst (e.objectives, 0) ((habove _).mpr ⟨e, he, hec, rfl⟩) hed.before

end Laws

/-! ### What a front has -/

section Members

/-- A candidate stays in a front if nothing dominates it and its solution is not among the earlier ones. -/
def Stays (all earlier : List (Candidate α)) (c : Candidate α) : Prop :=
  all.any (fun d => d.dominates c) = false ∧ ∀ d ∈ earlier, d.solution.same c.solution = false

variable {all earlier cs : List (Candidate α)} {b c : Candidate α}

theorem frontOf_cons_of_stays (h : Stays all earlier c) :
    frontOf all earlier (c :: cs) = c :: frontOf all (c :: earlier) cs := by
  have hnew : earlier.any (fun d => d.solution.same c.solution) = false := by
    simpa [List.any_eq_false] using h.2
  simp only [frontOf, h.1, hnew, Bool.false_eq_true, if_false]

theorem frontOf_cons_of_not_stays (h : ¬ Stays all earlier c) :
    frontOf all earlier (c :: cs) = frontOf all (c :: earlier) cs := by
  simp only [frontOf]
  split
  · rfl
  · rename_i hfree
    split
    · rfl
    · rename_i hnew
      exact absurd ⟨by simpa using hfree, by simpa using hnew⟩ h

theorem stays_cons :
    Stays all (b :: earlier) c ↔ b.solution.same c.solution = false ∧ Stays all earlier c := by
  rw [Stays, Stays, List.forall_mem_cons, and_left_comm]

/-- What is new in a list is its head, or unlike the head and new among the others. -/
theorem exists_newAt_cons : (∃ i, NewAt (b :: cs) i c) ↔
    c = b ∨ b.solution.same c.solution = false ∧ ∃ i, NewAt cs i c := by
  constructor
  · rintro ⟨i, hplace, hearlier⟩
    cases i with
    | zero => exact Or.inl (Option.some.inj hplace).symm
    | succ i =>
      exact Or.inr ⟨hearlier 0 (Nat.succ_pos i) b rfl, i, hplace, fun j hj =>
        hearlier (j + 1) (Nat.succ_lt_succ hj)⟩
  · rintro (rfl | ⟨hhead, i, hplace, hearlier⟩)
    · exact ⟨0, rfl, fun j hj => absurd hj (Nat.not_lt_zero j)⟩
    · refine ⟨i + 1, hplace, ?_⟩
      intro j hj d hd
      cases j with
      | zero =>
        obtain rfl : b = d := Option.some.inj hd
        exact hhead
      | succ j => exact hearlier j (Nat.lt_of_succ_lt_succ hj) d hd

/-- A front is a part of the list, in its order. -/
theorem frontOf_sublist : (frontOf all earlier cs).Sublist cs := by
  induction cs generalizing earlier with
  | nil => exact List.Sublist.refl []
  | cons b cs ih =>
    by_cases hb : Stays all earlier b
    · rw [frontOf_cons_of_stays hb]
      exact ih.cons_cons b
    · rw [frontOf_cons_of_not_stays hb]
      exact ih.cons b

theorem mem_frontOf_iff : c ∈ frontOf all earlier cs ↔ Stays all earlier c ∧ ∃ i, NewAt cs i c := by
  induction cs generalizing earlier with
  | nil => simp [frontOf, NewAt]
  | cons b cs ih =>
    rw [exists_newAt_cons]
    by_cases hb : Stays all earlier b
    · rw [frontOf_cons_of_stays hb, List.mem_cons, ih, stays_cons]
      constructor
      · rintro (rfl | ⟨⟨hhead, hc⟩, hnew⟩)
        · exact ⟨hb, Or.inl rfl⟩
        · exact ⟨hc, Or.inr ⟨hhead, hnew⟩⟩
      · rintro ⟨hc, rfl | ⟨hhead, hnew⟩⟩
        · exact Or.inl rfl
        · exact Or.inr ⟨⟨hhead, hc⟩, hnew⟩
    · rw [frontOf_cons_of_not_stays hb, ih, stays_cons]
      constructor
      · rintro ⟨⟨hhead, hc⟩, hnew⟩
        exact ⟨hc, Or.inr ⟨hhead, hnew⟩⟩
      · rintro ⟨hc, rfl | ⟨hhead, hnew⟩⟩
        · exact absurd hc hb
        · exact ⟨⟨hhead, hc⟩, hnew⟩

/-- No two candidates of a front have one solution. -/
theorem frontOf_pairwise :
    (frontOf all earlier cs).Pairwise fun c d => c.solution.same d.solution = false := by
  induction cs generalizing earlier with
  | nil => exact List.Pairwise.nil
  | cons b cs ih =>
    by_cases hb : Stays all earlier b
    · rw [frontOf_cons_of_stays hb]
      refine List.pairwise_cons.mpr ⟨?_, ih⟩
      intro d hd
      exact (stays_cons.mp (mem_frontOf_iff.mp hd).1).1
    · rw [frontOf_cons_of_not_stays hb]
      exact ih

end Members

/-! ### What a front covers -/

section Covering

variable [Scalar.Ordered α] {cs : List (Candidate α)} {c : Candidate α}

/-- **A front has the candidates that nothing dominates and whose solution is new.** -/
theorem mem_front_iff (h : Comparable cs) :
    c ∈ front cs ↔ Undominated cs c ∧ ∃ i, NewAt cs i c := by
  rw [front, mem_frontOf_iff]
  constructor
  · rintro ⟨⟨hfree, -⟩, i, hnew⟩
    exact ⟨(h.undominated_iff (List.mem_of_getElem? hnew.1)).mpr hfree, i, hnew⟩
  · rintro ⟨hfree, i, hnew⟩
    exact ⟨⟨(h.undominated_iff (List.mem_of_getElem? hnew.1)).mp hfree, by simp⟩, i, hnew⟩

/-- **A front covers its list exactly if whatever nothing dominates is as good as a candidate whose solution is
new.** -/
theorem covers_iff (h : Comparable cs) : Covers (front cs) cs ↔
    ∀ c ∈ cs, Undominated cs c → ∃ i d, NewAt cs i d ∧ Level d c := by
  constructor
  · intro hcovers c hc hfree
    obtain ⟨d, hd, hdom | hlevel⟩ := hcovers c hc
    · exact absurd hdom (hfree d (frontOf_sublist.subset hd))
    · obtain ⟨-, i, hnew⟩ := (mem_front_iff h).mp hd
      exact ⟨i, d, hnew, hlevel⟩
  · intro hnew c hc
    obtain ⟨b, hb, hfree, hbc⟩ := h.exists_undominated_le hc
    obtain ⟨i, d, hd, hdb, hbd⟩ := hnew b hb hfree
    have hmem : d ∈ cs := List.mem_of_getElem? hd.1
    have hle : AtMost d.objectives c.objectives := hdb.trans hbc
    refine ⟨d, (mem_front_iff h).mpr ⟨h.undominated_of_level hb hmem ⟨hbd, hdb⟩ hfree, i, hd⟩, ?_⟩
    by_cases hcd : AtMost c.objectives d.objectives
    · exact Or.inr ⟨hle, hcd⟩
    · exact Or.inl ((Ranking.dominates_iff_atMost (h.length_eq d hmem c hc)).mpr ⟨hle, hcd⟩)

/-- Where candidates of one solution are as good as each other, one whose solution is new is as good as any. -/
theorem exists_newAt_level (h : Comparable cs) (hcs : Consistent cs) (i : Nat) :
    ∀ c ∈ cs[i]?, ∃ j d, NewAt cs j d ∧ Level d c := by
  induction i using Nat.strongRecOn with
  | ind i ih =>
    intro c hc
    have hmem : c ∈ cs := List.mem_of_getElem? hc
    by_cases hnew : NewAt cs i c
    · have hself : AtMost c.objectives c.objectives := List.forall₂_same.mpr (h.defined c hmem)
      exact ⟨i, c, hnew, hself, hself⟩
    · -- an earlier candidate has the solution, and one that is new is as good as that one
      obtain ⟨j, hj, b, hb, hsame⟩ : ∃ j < i, ∃ b ∈ cs[j]?, b.solution.same c.solution = true := by
        by_contra hnone
        refine hnew ⟨hc, fun j hj b hb => ?_⟩
        by_contra hsame
        exact hnone ⟨j, hj, b, hb, Bool.eq_true_of_not_eq_false hsame⟩
      obtain ⟨k, d, hd, hdb, hbd⟩ := ih j hj b hb
      obtain ⟨hbc, hcb⟩ := hcs b (List.mem_of_getElem? hb) c hmem hsame
      exact ⟨k, d, hd, hdb.trans hbc, hcb.trans hbd⟩

/-- **A front covers candidates that are as good as each other where they share a solution.** -/
theorem covers_of_consistent (h : Comparable cs) (hcs : Consistent cs) : Covers (front cs) cs := by
  refine (covers_iff h).mpr fun c hc _ => ?_
  obtain ⟨i, hi⟩ := List.mem_iff_getElem?.mp hc
  exact exists_newAt_level h hcs i c hi

end Covering

end Candidate

/-! ### What searches find -/

namespace Plan

variable {P α : Type} [Transcendental α] [Part P α] [Scalar.Ordered α] [Part.Restartable P] [Part.Extensional P]
  {e : Evaluator P α} {m : Problem P α} {n : Nat}

omit [Part.Restartable P] in
/-- Evaluations of one solution record one fitness. -/
theorem consistent_recorded (he : e.Serves m n) {cs : List (Candidate α)} (hcs : ∀ c ∈ cs, c.Recorded (e.Records m))
    (hnan : ∀ c ∈ cs, ∀ x ∈ c.objectives, Scalar.isNaN x = false) :
    Candidate.Comparable cs ∧ Candidate.Consistent cs := by
  have hdefined : ∀ c ∈ cs, ∀ x ∈ c.objectives, x ≤ x := by
    intro c hc x hx
    obtain ⟨-, outcome, houtcome, hobjectives⟩ := hcs c hc
    obtain rfl : x = outcome.fitness := by simpa [hobjectives] using hx
    exact Evaluator.comparable_fitness he ⟨rfl, he.sized⟩ houtcome (hnan c hc _ hx)
  refine ⟨⟨?_, hdefined⟩, ?_⟩
  · intro c hc d hd
    obtain ⟨-, _, -, hobjectives⟩ := hcs c hc
    obtain ⟨-, _, -, hobjectives'⟩ := hcs d hd
    rw [hobjectives, hobjectives']
    rfl
  · intro c hc d hd hsame
    obtain ⟨-, outcome, houtcome, hobjectives⟩ := hcs c hc
    obtain ⟨-, outcome', houtcome', hobjectives'⟩ := hcs d hd
    rw [Evaluator.runOn_same e m hsame, houtcome'] at houtcome
    obtain rfl := Except.ok.inj houtcome
    have hself : Ranking.AtMost c.objectives c.objectives := List.forall₂_same.mpr (hdefined c hc)
    rw [Candidate.Level, hobjectives', ← hobjectives]
    exact ⟨hself, hself⟩

/-- **What the searches of a plan find is covered by its front**, as long as no fitness is undefined. -/
theorem covers_runAll {plan : Plan P α} {problem : Problem P α} {fresh : Evaluator P α}
    (hplan : plan.evaluator = .ok (problem, fresh)) {cs : List (Candidate α)}
    (hfound : (Search.runAll (Evaluator.searchProblem fresh.layout) plan.searches fresh).1 = .ok cs)
    (hnan : ∀ c ∈ cs, ∀ x ∈ c.objectives, Scalar.isNaN x = false) :
    Candidate.Covers (Candidate.front cs) cs := by
  have hserves := Plan.serves hplan
  have hfresh : fresh.Holds fresh fun c => c.AsNew fresh.layout problem plan.parts.length :=
    Plan.holds hplan (Problem.asNew_refl hserves.sized)
  have hyields := Search.runAll_yields (Evaluator.searchProblem_upright hserves) plan.searches hfresh
  cases hsearched : Search.runAll (Evaluator.searchProblem fresh.layout) plan.searches fresh with
  | mk found used =>
    rw [hsearched] at hyields hfound
    obtain rfl : found = .ok cs := hfound
    obtain ⟨hcomparable, hconsistent⟩ := consistent_recorded hserves hyields.2 hnan
    exact Candidate.covers_of_consistent hcomparable hconsistent

end Plan

/-! ### The front -/

section Front

variable {α : Type} [Scalar α] [Scalar.Ordered α]

open Ranking (Dominates)

/-- **A front is what nothing dominates, each solution once, and covers its list unless a solution was evaluated in two
ways.** Of candidates with as many objectives each, none of them undefined, a front is a part of the list in its order,
without two candidates of one solution and without one that dominates another. It covers the list, in that each
candidate is dominated by or as good as one of the front, exactly if whatever nothing dominates is as good as a
candidate whose solution is new. This is so where candidates of one solution are as good as each other, and then the
front of a list is not empty unless the list is. -/
theorem front_covers_iff {cs : List (Candidate α)} (h : Candidate.Comparable cs) :
    (Candidate.front cs).Sublist cs ∧
    (Candidate.front cs).Pairwise (fun c d => c.solution.same d.solution = false) ∧
    (∀ c ∈ Candidate.front cs, ∀ d ∈ Candidate.front cs, ¬ Dominates c.objectives d.objectives) ∧
    (Candidate.Covers (Candidate.front cs) cs ↔
      ∀ c ∈ cs, Candidate.Undominated cs c → ∃ i d, Candidate.NewAt cs i d ∧ Candidate.Level d c) ∧
    (Candidate.Consistent cs → Candidate.Covers (Candidate.front cs) cs ∧
      (cs ≠ [] → Candidate.front cs ≠ [])) := by
  refine ⟨Candidate.frontOf_sublist, Candidate.frontOf_pairwise, ?_, Candidate.covers_iff h, ?_⟩
  · intro c hc d hd
    obtain ⟨hfree, -⟩ := (Candidate.mem_front_iff h).mp hd
    exact hfree c (Candidate.frontOf_sublist.subset hc)
  · intro hcs
    have hcovers := Candidate.covers_of_consistent h hcs
    refine ⟨hcovers, fun hne => ?_⟩
    obtain ⟨c, hc⟩ := List.exists_mem_of_ne_nil cs hne
    obtain ⟨d, hd, -⟩ := hcovers c hc
    exact List.ne_nil_of_mem hd

end Front

/-- Four candidates for two switches, the last one a copy of the first. -/
def Candidate.fourSwitchings : List (Candidate Double) :=
  [{ solution := .binary #[true, true], objectives := [1, 5] },
    { solution := .binary #[true, false], objectives := [2, 2] },
    { solution := .binary #[false, false], objectives := [3, 3] },
    { solution := .binary #[true, true], objectives := [1, 5] }]

/-- The front of the four has two of them and covers all. -/
theorem front_covers_iff_fourSwitchings :
    Candidate.Comparable Candidate.fourSwitchings ∧ Candidate.Consistent Candidate.fourSwitchings ∧
    (Candidate.front Candidate.fourSwitchings).length = 2 ∧
    Candidate.Covers (Candidate.front Candidate.fourSwitchings) Candidate.fourSwitchings := by
  have hcomparable : Candidate.Comparable Candidate.fourSwitchings := ⟨by decide, by decide⟩
  have hconsistent : Candidate.Consistent Candidate.fourSwitchings := by decide
  obtain ⟨-, -, -, -, hcovers⟩ := front_covers_iff hcomparable
  exact ⟨hcomparable, hconsistent, by decide, (hcovers hconsistent).1⟩

/-- One solution that was evaluated in two ways, the second time better. -/
def Candidate.reevaluated : List (Candidate Double) :=
  [{ solution := .binary #[true], objectives := [2] }, { solution := .binary #[true], objectives := [1] }]

/-- The better evaluation is left out for the worse one, and nothing is left. -/
theorem reevaluated_uncovered :
    Candidate.Comparable Candidate.reevaluated ∧ Candidate.reevaluated ≠ [] ∧
    Candidate.front Candidate.reevaluated = [] ∧
    ¬ Candidate.Covers (Candidate.front Candidate.reevaluated) Candidate.reevaluated := by
  have hempty : Candidate.front Candidate.reevaluated = [] := List.isEmpty_iff.mp (by decide)
  refine ⟨⟨by decide, by decide⟩, by simp [Candidate.reevaluated], hempty, ?_⟩
  rw [hempty]
  intro hcovers
  obtain ⟨d, hd, -⟩ := hcovers _ List.mem_cons_self
  exact absurd hd List.not_mem_nil

end HomeEnergy

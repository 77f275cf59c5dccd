import HomeEnergy.Optimizer
import HomeEnergy.Proofs.Order

/-!
# Which candidate wins

The candidates of the searches go through a front, a normalization and a ranking before one of them wins. This
module says which one it is, where candidates have one objective.

* `Candidate.FirstBest` — the first candidate of a list whose objective is least;
  `Candidate.exists_firstBest` — there is one in every list of comparable candidates.
* `Candidate.front_eq` — **the first best candidate leads the front**, unless an earlier candidate has its
  solution; `Candidate.FirstBest.level` — the others of the front are as good.
* `Ranking.normalize_level` — objectives that are as good as each other become zeros, infinite ones included.
* `Ranking.rank_replicate` — **every ranking keeps the order of equal rows.**
* `Plan.winner?_front` — the first best candidate wins.
-/

namespace HomeEnergy

namespace Candidate

variable {α : Type} [Scalar α]

/-- The first candidate of a list whose only objective is least. -/
structure FirstBest (cs : List (Candidate α)) (i : Nat) (c : Candidate α) (x : α) : Prop where
  place : cs[i]? = some c
  fitness : c.objectives = [x]
  least : ∀ d ∈ cs, ∃ y, d.objectives = [y] ∧ x ≤ y
  first : ∀ j < i, ∀ d, cs[j]? = some d → ∃ y, d.objectives = [y] ∧ x < y

variable [Scalar.Ordered α]

open Scalar.Ordered

/-- Candidates with comparable objectives have a first best one. -/
theorem exists_firstBest {cs : List (Candidate α)} (hne : cs ≠ [])
    (hcs : ∀ c ∈ cs, ∃ y, c.objectives = [y] ∧ y ≤ y) : ∃ i c x, FirstBest cs i c x := by
  induction cs with
  | nil => exact absurd rfl hne
  | cons c rest ih =>
    obtain ⟨y, hc, hy⟩ := hcs c (by simp)
    by_cases hrest : rest = []
    · subst hrest
      refine ⟨0, c, y, rfl, hc, ?_, by simp⟩
      intro d hd
      exact ⟨y, List.mem_singleton.mp hd ▸ hc, hy⟩
    · obtain ⟨i, d, x, hd⟩ := ih hrest fun d hd => hcs d (by simp [hd])
      have hx : x ≤ x := by
        obtain ⟨x', hx', hle⟩ := hd.least d (List.mem_of_getElem? hd.place)
        obtain rfl : x = x' := by simpa using hd.fitness.symm.trans hx'
        exact hle
      by_cases hxy : x < y
      · refine ⟨i + 1, d, x, by simpa using hd.place, hd.fitness, ?_, ?_⟩
        · intro d' hd'
          rcases List.mem_cons.mp hd' with rfl | hd'
          · exact ⟨y, hc, le_of_lt hxy⟩
          · exact hd.least d' hd'
        · intro j hj d' hd'
          cases j with
          | zero =>
            obtain rfl : c = d' := by simpa using hd'
            exact ⟨y, hc, hxy⟩
          | succ j => exact hd.first j (Nat.lt_of_succ_lt_succ hj) d' (by simpa using hd')
      · have hyx : y ≤ x := le_of_not_lt hy hx hxy
        refine ⟨0, c, y, rfl, hc, ?_, by simp⟩
        intro d' hd'
        rcases List.mem_cons.mp hd' with rfl | hd'
        · exact ⟨y, hc, hy⟩
        · obtain ⟨z, hz, hxz⟩ := hd.least d' hd'
          exact ⟨z, hz, le_trans hyx hxz⟩

/-! ### The front -/

/-- Of candidates with one objective the better one dominates. -/
theorem dominates_iff {c d : Candidate α} {x y : α} (hc : c.objectives = [x]) (hd : d.objectives = [y]) :
    d.dominates c = true ↔ y < x := by
  simp only [dominates, hc, hd, List.zip_cons_cons, List.zip_nil_right, List.any_cons, List.any_nil,
    Bool.or_false, Bool.and_eq_true, Bool.not_eq_true', decide_eq_false_iff_not, decide_eq_true_eq]
  exact ⟨fun h => h.2, fun h => ⟨fun h' => not_le_of_lt h (le_of_lt h'), h⟩⟩

omit [Scalar.Ordered α] in
/-- No candidate of a front is dominated. -/
theorem of_mem_frontOf {all : List (Candidate α)} {d : Candidate α} :
    ∀ {cs earlier : List (Candidate α)}, d ∈ frontOf all earlier cs →
      d ∈ cs ∧ ∀ d' ∈ all, d'.dominates d = false := by
  intro cs
  induction cs with
  | nil => intro earlier h; exact absurd h (by simp [frontOf])
  | cons c cs ih =>
    intro earlier h
    simp only [frontOf] at h
    split at h
    · exact ⟨List.mem_cons_of_mem _ (ih h).1, (ih h).2⟩
    · rename_i hfree
      split at h
      · exact ⟨List.mem_cons_of_mem _ (ih h).1, (ih h).2⟩
      · rcases List.mem_cons.mp h with rfl | h
        · exact ⟨List.mem_cons_self, by simpa using hfree⟩
        · exact ⟨List.mem_cons_of_mem _ (ih h).1, (ih h).2⟩

omit [Scalar.Ordered α] in
theorem frontOf_subset {all earlier cs : List (Candidate α)} : frontOf all earlier cs ⊆ cs :=
  fun _ h => (of_mem_frontOf h).1

omit [Scalar.Ordered α] in
/-- Dominated candidates at the start of a list leave no trace in its front. -/
theorem frontOf_append {all : List (Candidate α)} (cs : List (Candidate α)) :
    ∀ (dominated earlier : List (Candidate α)),
      (∀ d ∈ dominated, all.any (fun d' => d'.dominates d) = true) →
      frontOf all earlier (dominated ++ cs) = frontOf all (dominated.reverse ++ earlier) cs := by
  intro dominated
  induction dominated with
  | nil => intro earlier _; rfl
  | cons d dominated ih =>
    intro earlier h
    rw [List.cons_append, frontOf, if_pos (h d (by simp)),
      ih (d :: earlier) fun d' hd' => h d' (by simp [hd']), List.reverse_cons, List.append_assoc,
      List.singleton_append]

theorem FirstBest.undominated {cs : List (Candidate α)} {i : Nat} {c : Candidate α} {x : α}
    (h : FirstBest cs i c x) : cs.any (fun d => d.dominates c) = false := by
  rw [List.any_eq_false]
  intro d hd hdom
  obtain ⟨y, hy, hxy⟩ := h.least d hd
  exact not_le_of_lt ((dominates_iff h.fitness hy).mp hdom) hxy

theorem FirstBest.dominated {cs : List (Candidate α)} {i : Nat} {c : Candidate α} {x : α}
    (h : FirstBest cs i c x) {j : Nat} (hj : j < i) {d : Candidate α} (hd : cs[j]? = some d) :
    cs.any (fun d' => d'.dominates d) = true := by
  obtain ⟨y, hy, hxy⟩ := h.first j hj d hd
  exact List.any_eq_true.mpr
    ⟨c, List.mem_of_getElem? h.place, (dominates_iff hy h.fitness).mpr hxy⟩

/-- What the front has beside a first best candidate is as good as that one. -/
theorem FirstBest.level {cs : List (Candidate α)} {i : Nat} {c : Candidate α} {x : α}
    (h : FirstBest cs i c x) {d : Candidate α} (hd : d ∈ front cs) :
    ∃ y, d.objectives = [y] ∧ x ≤ y ∧ y ≤ x := by
  obtain ⟨hmem, hundominated⟩ := of_mem_frontOf hd
  obtain ⟨y, hy, hxy⟩ := h.least d hmem
  refine ⟨y, hy, hxy, ?_⟩
  by_contra hnot
  have hdom : c.dominates d = true :=
    (dominates_iff hy h.fitness).mpr (lt_iff_le_not_ge.mpr ⟨hxy, hnot⟩)
  rw [hundominated c (List.mem_of_getElem? h.place)] at hdom
  exact absurd hdom (by simp)

/-- **The first best candidate leads the front**, unless an earlier candidate has its solution. -/
theorem front_eq {cs : List (Candidate α)} {i : Nat} {c : Candidate α} {x : α} (h : FirstBest cs i c x)
    (hnew : ∀ j < i, ∀ d, cs[j]? = some d → d.solution.same c.solution = false) :
    ∃ rest, front cs = c :: rest := by
  have hsplit : cs = cs.take i ++ c :: cs.drop (i + 1) := by
    obtain ⟨hlt, hget⟩ := List.getElem?_eq_some_iff.mp h.place
    rw [← hget, ← List.drop_eq_getElem_cons hlt, List.take_append_drop]
  have hearlier : ∀ d ∈ cs.take i, ∃ j < i, cs[j]? = some d := by
    intro d hd
    obtain ⟨j, hj⟩ := List.mem_iff_getElem?.mp hd
    by_cases hlt : j < i
    · exact ⟨j, hlt, by rwa [List.getElem?_take_of_lt hlt] at hj⟩
    · exact absurd hj (by simp [hlt])
  have hdominated : ∀ d ∈ cs.take i, cs.any (fun d' => d'.dominates d) = true := by
    intro d hd
    obtain ⟨j, hj, hd⟩ := hearlier d hd
    exact h.dominated hj hd
  have hfirst : ((cs.take i).reverse ++ []).any (fun d => d.solution.same c.solution) = false := by
    rw [List.any_eq_false]
    intro d hd
    obtain ⟨j, hj, hd⟩ := hearlier d (by simpa using hd)
    simp [hnew j hj d hd]
  refine ⟨frontOf cs (c :: ((cs.take i).reverse ++ [])) (cs.drop (i + 1)), ?_⟩
  calc frontOf cs [] cs
      = frontOf cs [] (cs.take i ++ c :: cs.drop (i + 1)) := congrArg _ hsplit
    _ = frontOf cs ((cs.take i).reverse ++ []) (c :: cs.drop (i + 1)) :=
        frontOf_append _ _ _ hdominated
    _ = _ := by rw [frontOf, if_neg (by simp [h.undominated]), if_neg (by rw [hfirst]; simp)]

end Candidate

namespace Ranking

variable {α : Type} [Scalar α]

/-! ### Normalization -/

theorem min_of {S : α → Prop} {x y : α} (hx : S x) (hy : S y) : S (Scalar.min x y) := by
  unfold Scalar.min
  split
  · exact hx
  · split
    · exact hx
    · exact hy

theorem max_of {S : α → Prop} {x y : α} (hx : S x) (hy : S y) : S (Scalar.max x y) := by
  unfold Scalar.max
  split
  · exact hx
  · split
    · exact hx
    · exact hy

/-- The bounds of a column are values of it, or bounds from before. -/
theorem bounds_mem {S : α → Prop} (i : Nat) (rows : List (List α)) :
    ∀ bounds? : Option (α × α), (∀ b ∈ bounds?, S b.1 ∧ S b.2) →
      (∀ row ∈ rows, ∀ x ∈ row, S x) →
      ∀ b ∈ rows.foldl (fun bounds? row =>
          match row[i]? with
          | some x => widen bounds? x
          | none => bounds?) bounds?, S b.1 ∧ S b.2 := by
  induction rows with
  | nil => intro bounds? hbounds _; exact hbounds
  | cons row rows ih =>
    intro bounds? hbounds hrows
    refine ih _ ?_ fun row' hrow' => hrows row' (by simp [hrow'])
    cases hx : row[i]? with
    | none => simpa only [hx] using hbounds
    | some x =>
      have hS : S x := hrows row (by simp) x (List.mem_of_getElem? hx)
      simp only [hx, widen]
      split
      · exact hbounds
      · match bounds?, hbounds with
        | none, _ =>
          intro b hb
          obtain rfl : (x, x) = b := by simpa using hb
          exact ⟨hS, hS⟩
        | some (low, high), hbounds =>
          obtain ⟨hlow, hhigh⟩ := hbounds _ rfl
          intro b hb
          obtain rfl : (Scalar.min low x, Scalar.max high x) = b := by simpa using hb
          exact ⟨min_of hlow hS, max_of hhigh hS⟩

omit [Scalar α] in
theorem foldl_width {rows : List (List α)} (hrows : ∀ row ∈ rows, row.length = 1) {n : Nat} (hn : n ≤ 1)
    (hne : rows ≠ [] ∨ n = 1) : rows.foldl (fun n row => Nat.max n row.length) n = 1 := by
  induction rows generalizing n with
  | nil => exact hne.resolve_left (by simp)
  | cons row rows ih =>
    rw [List.foldl_cons, hrows row (by simp), show Nat.max n 1 = 1 from Nat.max_eq_right hn]
    exact ih (fun row' hrow' => hrows row' (by simp [hrow'])) (Nat.le_refl 1) (Or.inr rfl)

variable [Scalar.Ordered α]

/-- Rows of one objective each, all as good as each other, become zeros. -/
theorem normalize_level {rows : List (List α)}
    (hrows : ∀ row ∈ rows, ∃ x, row = [x])
    (hlevel : ∀ row ∈ rows, ∀ x ∈ row, ∀ row' ∈ rows, ∀ y ∈ row', x ≤ y) :
    normalize rows = List.replicate rows.length [0] := by
  rw [List.eq_replicate_iff]
  refine ⟨by simp [normalize], ?_⟩
  intro row hrow
  obtain ⟨row', hrow', rfl⟩ := List.mem_map.mp hrow
  obtain ⟨x, rfl⟩ := hrows row' hrow'
  have hone : rows.foldl (fun n row => Nat.max n row.length) 0 = 1 := by
    refine foldl_width ?_ (Nat.zero_le 1) (Or.inl (List.ne_nil_of_mem hrow'))
    intro row hrow
    obtain ⟨y, rfl⟩ := hrows row hrow
    rfl
  have hrescale : rescale (columnBounds rows 0) x = 0 := by
    have hmem := bounds_mem (S := fun z => ∃ row ∈ rows, z ∈ row) 0 rows none (by simp)
      fun row hrow y hy => ⟨row, hrow, hy⟩
    unfold rescale
    cases hbounds : columnBounds rows 0 with
    | none => rfl
    | some b =>
      obtain ⟨⟨low, hlow, hlow'⟩, high, hhigh, hhigh'⟩ := hmem b hbounds
      exact if_neg (Scalar.Ordered.sub_not_pos (hlevel _ hhigh _ hhigh' _ hlow _ hlow')
        (hlevel _ hlow _ hlow' _ hhigh _ hhigh'))
  show List.zipWith _ [x] (List.map (columnBounds rows) (List.range (rows.foldl _ 0))) = [0]
  rw [hone]
  show [rescale (columnBounds rows 0) x] = [0]
  rw [hrescale]

/-! ### Ranking -/

omit [Scalar α] [Scalar.Ordered α] in
/-- Equal keys are ordered by index. -/
theorem orderBy_replicate {κ : Type} {compareKeys : κ → κ → Ordering} {k : κ}
    (hk : compareKeys k k = .eq) (n : Nat) : orderBy compareKeys (List.replicate n k) = List.range n := by
  have hsorted : (List.replicate n k).zipIdx.Pairwise
      fun a b => (compareKeys a.1 b.1).isLE = true := by
    refine List.pairwise_of_forall_mem_list ?_
    intro a ha b hb
    have hka : a.1 = k := List.eq_of_mem_replicate (List.fst_mem_of_mem_zipIdx ha)
    have hkb : b.1 = k := List.eq_of_mem_replicate (List.fst_mem_of_mem_zipIdx hb)
    rw [hka, hkb, hk]
    rfl
  unfold orderBy
  rw [List.mergeSort_of_pairwise hsorted]
  show (List.replicate n k).zipIdx.map Prod.snd = _
  rw [List.zipIdx_map_snd, List.length_replicate, List.range_eq_range']

/-- No row dominates itself. -/
theorem rowDominates_self (row : List α) : rowDominates row row = false := by
  have hany : (row.zip row).any (fun e => decide (e.1 < e.2)) = false := by
    rw [List.any_eq_false]
    intro e he
    have heq : e.1 = e.2 := by
      induction row with
      | nil => exact absurd he (by simp)
      | cons x row ih =>
        rcases List.mem_cons.mp he with rfl | he
        · rfl
        · exact ih he
    simp [heq, Scalar.Ordered.lt_irrefl]
  simp [rowDominates, hany]

omit [Scalar.Ordered α] in
/-- Rows that do not dominate each other are on one level. -/
theorem levels_free {rows : List (List α × Nat)} (hne : rows ≠ [])
    (hfree : ∀ r ∈ rows, ∀ s ∈ rows, rowDominates s.1 r.1 = false) (fuel : Nat) :
    levels (fuel + 1) rows = [rows.map fun r => r.2] := by
  have hany : ∀ r ∈ rows, (rows.any fun s => rowDominates s.1 r.1) = false := by
    intro r hr
    rw [List.any_eq_false]
    intro s hs
    simp [hfree r hr s hs]
  have hpartition : rows.partition (fun r => rows.any fun s => rowDominates s.1 r.1) = ([], rows) := by
    rw [List.partition_eq_filter_filter, Prod.mk.injEq, List.filter_eq_nil_iff, List.filter_eq_self]
    exact ⟨fun r hr => by simp [hany r hr], fun r hr => by simp [hany r hr]⟩
  match rows, hne, hpartition with
  | r :: rest, _, hpartition =>
    simp only [levels, hpartition]
    cases fuel <;> rfl

/-- Equal rows are on the first level. -/
theorem levelOf_replicate (n : Nat) (row : List α) :
    levelOf (List.replicate n row) = List.replicate n 0 := by
  rw [List.eq_replicate_iff]
  refine ⟨by simp [levelOf], ?_⟩
  intro level hlevel
  obtain ⟨i, hi, rfl⟩ := List.mem_map.mp hlevel
  rw [List.mem_range, List.length_replicate] at hi
  cases n with
  | zero => exact absurd hi (Nat.not_lt_zero i)
  | succ n =>
    have hrows : ∀ r ∈ (List.replicate (n + 1) row).zipIdx, r.1 = row := by
      intro r hr
      exact List.eq_of_mem_replicate (List.fst_mem_of_mem_zipIdx hr)
    have hfree : ∀ r ∈ (List.replicate (n + 1) row).zipIdx, ∀ s ∈ (List.replicate (n + 1) row).zipIdx,
        rowDominates s.1 r.1 = false := by
      intro r hr s hs
      rw [hrows s hs, hrows r hr, rowDominates_self]
    rw [List.length_replicate, levels_free (by simp) hfree n]
    show List.findIdx _ [(List.replicate (n + 1) row).zipIdx.map Prod.snd] = 0
    rw [List.zipIdx_map_snd, List.length_replicate, List.findIdx_cons]
    simp [List.mem_range'_1, hi]

/-- **Every ranking keeps the order of equal rows.** -/
theorem rank_replicate (r : Ranking α) (n : Nat) (row : List α) :
    r.rank (List.replicate n row) = List.range n := by
  have hscore : ∀ r : Ranking α, orderBy Scalar.totalOrder ((List.replicate n row).map r.score)
      = List.range n := by
    intro r
    rw [List.map_replicate]
    exact orderBy_replicate (Scalar.Ordered.totalOrder_self _) n
  cases r with
  | dominance =>
    simp only [rank, levelOf_replicate, List.map_replicate, List.zip_replicate']
    refine orderBy_replicate ?_ n
    simp [compareLevels, Scalar.Ordered.totalOrder_self]
  | singleObjective i => exact hscore (.singleObjective i)
  | weightedSum weights => exact hscore (.weightedSum weights)
  | chebyshev weights => exact hscore (.chebyshev weights)
  | nashBargaining => exact hscore .nashBargaining

end Ranking

/-- **The first best candidate wins, whatever the ranking**, unless an earlier candidate has its solution. -/
theorem Plan.winner?_front {α : Type} [Transcendental α] [Scalar.Ordered α] (ranking : Ranking α)
    {cs : List (Candidate α)} {i : Nat} {c : Candidate α} {x : α} (h : Candidate.FirstBest cs i c x)
    (hnew : ∀ j < i, ∀ d, cs[j]? = some d → d.solution.same c.solution = false) :
    winner? ranking (Candidate.front cs) = some c := by
  obtain ⟨rest, hfront⟩ := Candidate.front_eq h hnew
  have hrows : ∀ row ∈ (Candidate.front cs).map fun c => c.objectives,
      ∃ y, row = [y] ∧ x ≤ y ∧ y ≤ x := by
    intro row hrow
    obtain ⟨d, hd, rfl⟩ := List.mem_map.mp hrow
    exact h.level hd
  have hnormal := Ranking.normalize_level (fun row hrow => (hrows row hrow).imp fun _ h => h.1) (by
    intro row hrow y hy row' hrow' z hz
    obtain ⟨y', rfl, -, hyx⟩ := hrows row hrow
    obtain ⟨z', rfl, hxz, -⟩ := hrows row' hrow'
    rw [List.mem_singleton.mp hy, List.mem_singleton.mp hz]
    exact Scalar.Ordered.le_trans hyx hxz)
  unfold winner?
  rw [hnormal, Ranking.rank_replicate, hfront]
  simp [List.range_succ_eq_map]

end HomeEnergy

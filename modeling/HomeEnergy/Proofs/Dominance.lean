import HomeEnergy.Ranking
import HomeEnergy.Proofs.TotalOrder

/-!
# Levels of dominance

Ranking by dominance takes the rows away level by level: in each pass those that no row that is left dominates. Rows
are compared as far as both go, so that dominance is not transitive where rows have different lengths, and an
undefined number is neither above nor below any other. There is no cycle all the same.

* `Ranking.Dominates` — a row is nowhere above another one and somewhere below it.
* `Ranking.Before` — the order of rows by the first column in which they differ; `Ranking.Before.trans`,
  `Ranking.Before.irrefl` — it is strict, and **a row that dominates another one comes before it**
  (`Ranking.Dominates.before`).
* `Ranking.left` — the rows that are left after some passes; `Ranking.length_left_succ` — **each pass takes a row
  away**, since a first row in the order is dominated by none.
* `Ranking.mem_left_levelOf` — the level of a row is the number of passes that leave it.
* `Ranking.orderBy_pairwise` — a ranking by keys is sorted by key and then by index.
* `dominance_ranked` — what this makes of ranking by dominance.
-/

namespace HomeEnergy

namespace Ranking

variable {α : Type} [Scalar α]

/-! ### Dominance has no cycles -/

/-- As far as both rows go, the first one is nowhere above the second one and somewhere below it. -/
def Dominates (a b : List α) : Prop :=
  (∀ k : Nat, ∀ x ∈ a[k]?, ∀ y ∈ b[k]?, x ≤ y) ∧ ∃ k : Nat, ∃ x ∈ a[k]?, ∃ y ∈ b[k]?, x < y

omit [Scalar α] in
theorem mem_zip_iff {a b : List α} {e : α × α} :
    e ∈ a.zip b ↔ ∃ k : Nat, e.1 ∈ a[k]? ∧ e.2 ∈ b[k]? := by
  simp only [List.mem_iff_getElem?, List.getElem?_zip_eq_some, Option.mem_def]

theorem rowDominates_iff {a b : List α} : rowDominates a b = true ↔ Dominates a b := by
  simp only [rowDominates, Bool.and_eq_true, List.all_eq_true, List.any_eq_true, decide_eq_true_eq,
    mem_zip_iff, Dominates]
  constructor
  · rintro ⟨hall, e, ⟨k, hx, hy⟩, hlt⟩
    exact ⟨fun k x hx y hy => hall (x, y) ⟨k, hx, hy⟩, k, e.1, hx, e.2, hy, hlt⟩
  · rintro ⟨hall, k, x, hx, y, hy, hlt⟩
    exact ⟨fun e ⟨k, hx, hy⟩ => hall k e.1 hx e.2 hy, (x, y), ⟨k, hx, hy⟩, hlt⟩

/-- A row is below another one in the first column in which they differ. -/
inductive Before : List α → List α → Prop where
  | head {x y : α} {a b : List α} (h : x < y) : Before (x :: a) (y :: b)
  | tail {x y : α} {a b : List α} (h : x ≤ y) (h' : y ≤ x) (hrest : Before a b) : Before (x :: a) (y :: b)

section Laws

variable [Scalar.Ordered α]

open Scalar.Ordered

theorem Before.irrefl (a : List α) : ¬ Before a a := by
  induction a with
  | nil => intro h; cases h
  | cons x a ih =>
    intro h
    cases h with
    | head h => exact lt_irrefl x h
    | tail _ _ hrest => exact ih hrest

theorem Before.trans {a b c : List α} (hab : Before a b) (hbc : Before b c) : Before a c := by
  induction hab generalizing c with
  | head hxy =>
    -- what is below a number is below every number that is not below that one
    have hbelow : ∀ {x y z : α}, x < y → y ≤ z → x < z := fun hxy hyz =>
      lt_iff_le_not_ge.mpr ⟨le_trans (le_of_lt hxy) hyz,
        fun hzx => not_le_of_lt hxy (le_trans hyz hzx)⟩
    cases hbc with
    | head hyz => exact .head (hbelow hxy (le_of_lt hyz))
    | tail hyz _ _ => exact .head (hbelow hxy hyz)
  | tail hxy hyx _ ih =>
    cases hbc with
    | head hyz =>
      exact .head (lt_iff_le_not_ge.mpr ⟨le_trans hxy (le_of_lt hyz),
        fun hzx => not_le_of_lt hyz (le_trans hzx hxy)⟩)
    | tail hyz hzy hrest => exact .tail (le_trans hxy hyz) (le_trans hzy hyx) (ih hrest)

/-- **A row that dominates another one comes before it.** -/
theorem Dominates.before {a b : List α} (h : Dominates a b) : Before a b := by
  induction a generalizing b with
  | nil =>
    obtain ⟨-, k, x, hx, -⟩ := h
    exact absurd hx (by simp)
  | cons x a ih =>
    obtain ⟨hall, k, u, hu, v, hv, huv⟩ := h
    cases b with
    | nil => exact absurd hv (by simp)
    | cons y b =>
      have hxy : x ≤ y := hall 0 x rfl y rfl
      by_cases hlt : x < y
      · exact .head hlt
      · have hyx : y ≤ x := by
          by_contra hnot
          exact hlt (lt_iff_le_not_ge.mpr ⟨hxy, hnot⟩)
        cases k with
        | zero =>
          obtain rfl : x = u := Option.some.inj hu
          obtain rfl : y = v := Option.some.inj hv
          exact absurd huv hlt
        | succ k =>
          exact .tail hxy hyx (ih ⟨fun k => hall (k + 1), k, u, hu, v, hv, huv⟩)

/-- Among rows there is one that none of them dominates. -/
theorem exists_undominated {rows : List (List α × Nat)} (hne : rows ≠ []) :
    ∃ r ∈ rows, ∀ s ∈ rows, ¬ Before s.1 r.1 := by
  induction rows with
  | nil => exact absurd rfl hne
  | cons r rows ih =>
    by_cases hrows : rows = []
    · subst hrows
      refine ⟨r, by simp, ?_⟩
      intro s hs
      obtain rfl := List.mem_singleton.mp hs
      exact Before.irrefl s.1
    · obtain ⟨m, hm, hfirst⟩ := ih hrows
      by_cases hrm : Before r.1 m.1
      · refine ⟨r, by simp, ?_⟩
        intro s hs hsr
        rcases List.mem_cons.mp hs with rfl | hs
        · exact Before.irrefl s.1 hsr
        · exact hfirst s hs (hsr.trans hrm)
      · refine ⟨m, List.mem_cons_of_mem r hm, ?_⟩
        intro s hs
        rcases List.mem_cons.mp hs with rfl | hs
        · exact hrm
        · exact hfirst s hs

end Laws

/-! ### Passes -/

def isDominated (rows : List (List α × Nat)) (r : List α × Nat) : Bool :=
  rows.any fun s => rowDominates s.1 r.1

/-- The rows that are left after some passes: each pass leaves those that a row that was left dominates. -/
def left (rows : List (List α × Nat)) : Nat → List (List α × Nat)
  | 0 => rows
  | k + 1 => (left rows k).filter (isDominated (left rows k))

theorem isDominated_iff {rows : List (List α × Nat)} {r : List α × Nat} :
    isDominated rows r = true ↔ ∃ s ∈ rows, Dominates s.1 r.1 := by
  simp only [isDominated, List.any_eq_true, rowDominates_iff]

theorem left_left (rows : List (List α × Nat)) (k : Nat) : left (left rows 1) k = left rows (k + 1) := by
  induction k with
  | zero => rfl
  | succ k ih => simp only [left] at ih ⊢; rw [ih]

theorem left_subset {rows : List (List α × Nat)} {k : Nat} : left rows k ⊆ rows := by
  induction k with
  | zero => exact fun _ h => h
  | succ k ih => exact fun _ h => ih (List.mem_filter.mp h).1

/-- **A row is left by one pass more than a row that dominates it.** -/
theorem mem_left_succ {rows : List (List α × Nat)} {k : Nat} {r : List α × Nat} :
    r ∈ left rows (k + 1) ↔ r ∈ rows ∧ ∃ s ∈ left rows k, Dominates s.1 r.1 := by
  induction k generalizing r with
  | zero => simp only [left, List.mem_filter, isDominated_iff]
  | succ k ih =>
    rw [left, List.mem_filter, isDominated_iff]
    constructor
    · rintro ⟨hr, hs⟩
      exact ⟨left_subset hr, hs⟩
    · rintro ⟨hr, s, hs, hdom⟩
      -- what is left after a pass more was left before
      exact ⟨ih.mpr ⟨hr, s, (List.mem_filter.mp hs).1, hdom⟩, s, hs, hdom⟩

/-- The levels are the rows that the passes take away, as long as rows are left. -/
theorem getElem?_levels (fuel : Nat) :
    ∀ (rows : List (List α × Nat)) (k : Nat), (levels fuel rows)[k]? =
      if k < fuel ∧ left rows k ≠ [] then
        some (((left rows k).filter fun r => !isDominated (left rows k) r).map fun r => r.2)
      else none := by
  induction fuel with
  | zero => intro rows k; rfl
  | succ fuel ih =>
    intro rows k
    cases rows with
    | nil =>
      have hnil : left ([] : List (List α × Nat)) k = [] := List.subset_nil.mp left_subset
      rw [hnil, if_neg (by simp)]
      rfl
    | cons r rest =>
      have hunfold : levels (fuel + 1) (r :: rest)
          = (((r :: rest).filter fun s => !isDominated (r :: rest) s).map fun s => s.2)
            :: levels fuel (left (r :: rest) 1) := by
        simp only [levels, List.partition_eq_filter_filter]
        rfl
      rw [hunfold]
      cases k with
      | zero => rw [if_pos ⟨Nat.succ_pos fuel, by simp [left]⟩]; rfl
      | succ k =>
        rw [List.getElem?_cons_succ, ih, left_left]
        simp only [Nat.add_lt_add_iff_right]

section Passes

variable [Scalar.Ordered α]

/-- **Each pass takes a row away.** -/
theorem length_left_succ {rows : List (List α × Nat)} {k : Nat} (h : left rows k ≠ []) :
    (left rows (k + 1)).length < (left rows k).length := by
  obtain ⟨r, hr, hfirst⟩ := exists_undominated h
  refine List.length_filter_lt_length_iff_exists.mpr ⟨r, hr, ?_⟩
  rw [isDominated_iff]
  rintro ⟨s, hs, hdom⟩
  exact hfirst s hs hdom.before

theorem length_left (rows : List (List α × Nat)) (k : Nat) : (left rows k).length ≤ rows.length - k := by
  induction k with
  | zero => exact Nat.le_refl _
  | succ k ih =>
    by_cases h : left rows k = []
    · rw [left, h]
      exact Nat.zero_le _
    · have hlt := length_left_succ h
      omega

theorem left_eq_nil {rows : List (List α × Nat)} {k : Nat} (h : rows.length ≤ k) : left rows k = [] := by
  have hlength := length_left rows k
  rw [Nat.sub_eq_zero_of_le h] at hlength
  exact List.eq_nil_of_length_eq_zero (Nat.le_zero.mp hlength)

/-- A greater bound on the number of passes makes no difference. -/
theorem levels_of_length_le {rows : List (List α × Nat)} {fuel : Nat} (h : rows.length ≤ fuel) :
    levels fuel rows = levels rows.length rows := by
  refine List.ext_getElem? fun k => ?_
  rw [getElem?_levels, getElem?_levels]
  have hiff : (k < fuel ∧ left rows k ≠ []) ↔ (k < rows.length ∧ left rows k ≠ []) := by
    constructor
    · rintro ⟨-, hne⟩
      refine ⟨?_, hne⟩
      by_contra hk
      exact hne (left_eq_nil (Nat.le_of_not_lt hk))
    · rintro ⟨hk, hne⟩
      exact ⟨Nat.lt_of_lt_of_le hk h, hne⟩
  simp only [hiff]

/-- A row is left by as many passes as come before the one that takes it away. -/
theorem exists_pass {rows : List (List α × Nat)} {r : List α × Nat} (hr : r ∈ rows) :
    ∃ k, r ∈ left rows k ∧ r ∉ left rows (k + 1) := by
  by_contra hnone
  have hall : ∀ k, r ∈ left rows k := by
    intro k
    induction k with
    | zero => exact hr
    | succ k ih =>
      by_contra hnot
      exact hnone ⟨k, ih, hnot⟩
  have hend := hall rows.length
  rw [left_eq_nil (Nat.le_refl _)] at hend
  exact List.not_mem_nil hend

end Passes

theorem left_anti {rows : List (List α × Nat)} {j k : Nat} (h : j ≤ k) : left rows k ⊆ left rows j := by
  induction h with
  | refl => exact fun _ h => h
  | step _ ih => exact fun _ h => ih (List.mem_filter.mp h).1

/-! ### Levels -/

section Levels

omit [Scalar α] in
theorem eq_of_mem_zipIdx {rows : List (List α)} {r : List α × Nat} (h : r ∈ rows.zipIdx) {row : List α}
    (hrow : rows[r.2]? = some row) : r = (row, r.2) := by
  have hget := List.mem_zipIdx_iff_getElem?.mp h
  exact Prod.ext (Option.some.inj (hget.symm.trans hrow)) rfl

/-- A row stands on the level of the pass that takes it away. -/
theorem contains_level {rows : List (List α)} {i : Nat} {row : List α} (hrow : rows[i]? = some row) (k : Nat) :
    ((((left rows.zipIdx k).filter fun r => !isDominated (left rows.zipIdx k) r).map fun r => r.2).contains i)
      = true ↔ (row, i) ∈ left rows.zipIdx k ∧ (row, i) ∉ left rows.zipIdx (k + 1) := by
  simp only [List.contains_iff_mem, List.mem_map, List.mem_filter, Bool.not_eq_true', left, not_and,
    Bool.not_eq_true]
  constructor
  · rintro ⟨r, ⟨hr, hfree⟩, rfl⟩
    rw [← eq_of_mem_zipIdx (left_subset hr) hrow]
    exact ⟨hr, fun _ => hfree⟩
  · rintro ⟨hr, hfree⟩
    exact ⟨(row, i), ⟨hr, hfree hr⟩, rfl⟩

variable [Scalar.Ordered α]

/-- **The level of a row is the number of passes that leave it.** -/
theorem mem_left_levelOf {rows : List (List α)} {i : Nat} {row : List α} (hrow : rows[i]? = some row) :
    ∃ level, (levelOf rows)[i]? = some level ∧
      ∀ k, (row, i) ∈ left rows.zipIdx k ↔ k ≤ level := by
  have hmem : (row, i) ∈ rows.zipIdx := List.mem_zipIdx_iff_getElem?.mpr hrow
  obtain ⟨level, hlevel, hgone⟩ := exists_pass hmem
  have hiff : ∀ k, (row, i) ∈ left rows.zipIdx k ↔ k ≤ level := by
    intro k
    constructor
    · intro hk
      by_contra hlt
      exact hgone (left_anti (by omega) hk)
    · intro hk
      exact left_anti hk hlevel
  refine ⟨level, ?_, hiff⟩
  have hi : i < rows.length := (List.getElem?_eq_some_iff.mp hrow).1
  have hne : left rows.zipIdx level ≠ [] := List.ne_nil_of_mem hlevel
  have hbound : level < rows.length := by
    by_contra hge
    exact hne (left_eq_nil (by rw [List.length_zipIdx]; omega))
  have hget : ∀ k, k ≤ level → (levels rows.length rows.zipIdx)[k]? = some
      (((left rows.zipIdx k).filter fun r => !isDominated (left rows.zipIdx k) r).map fun r => r.2) := by
    intro k hk
    rw [getElem?_levels, if_pos ⟨by omega, List.ne_nil_of_mem ((hiff k).mpr hk)⟩]
  obtain ⟨hlt, hself⟩ := List.getElem?_eq_some_iff.mp (hget level (Nat.le_refl _))
  simp only [levelOf, List.getElem?_map, List.getElem?_range hi, Option.map_some, Option.some.injEq]
  refine (List.findIdx_eq hlt).mpr ⟨?_, ?_⟩
  · rw [hself, contains_level hrow]
    exact ⟨hlevel, hgone⟩
  · intro j hj
    obtain ⟨hlt', hj'⟩ := List.getElem?_eq_some_iff.mp (hget j (Nat.le_of_lt hj))
    rw [hj', ← Bool.not_eq_true, contains_level hrow]
    exact fun h => h.2 ((hiff (j + 1)).mpr hj)

end Levels

/-- A row of a list dominates another one. -/
def DominatesAt (rows : List (List α)) (i j : Nat) : Prop :=
  ∃ a ∈ rows[i]?, ∃ b ∈ rows[j]?, Dominates a b

/-- Levels of rows, as dominance asks for them: zero for a row that none dominates, and otherwise one more than the
greatest level of a row that dominates it. -/
structure Leveled (rows : List (List α)) (levels : List Nat) : Prop where
  length : levels.length = rows.length
  above : ∀ i j, DominatesAt rows i j → ∀ k ∈ levels[i]?, ∀ l ∈ levels[j]?, k + 1 ≤ l
  reached : ∀ j, ∀ l ∈ levels[j]?, l = 0 ∨ ∃ i, DominatesAt rows i j ∧ ∃ k ∈ levels[i]?, l = k + 1

/-- **The levels are as dominance asks for them.** -/
theorem leveled_levelOf [Scalar.Ordered α] (rows : List (List α)) : Leveled rows (levelOf rows) where
  length := by simp [levelOf]
  above := by
    rintro i j ⟨a, ha, b, hb, hdom⟩ k hk l hl
    obtain ⟨k', hk', hi⟩ := mem_left_levelOf ha
    obtain ⟨l', hl', hj⟩ := mem_left_levelOf hb
    obtain rfl : k' = k := Option.some.inj (hk'.symm.trans hk)
    obtain rfl : l' = l := Option.some.inj (hl'.symm.trans hl)
    exact (hj _).mp (mem_left_succ.mpr
      ⟨List.mem_zipIdx_iff_getElem?.mpr hb, (a, i), (hi _).mpr (Nat.le_refl _), hdom⟩)
  reached := by
    intro j l hl
    have hlt : j < rows.length := by
      have hlt := (List.getElem?_eq_some_iff.mp hl).1
      simpa [levelOf] using hlt
    have hb : rows[j]? = some rows[j] := List.getElem?_eq_getElem hlt
    obtain ⟨l', hl', hj⟩ := mem_left_levelOf hb
    obtain rfl : l' = l := Option.some.inj (hl'.symm.trans hl)
    cases l' with
    | zero => exact Or.inl rfl
    | succ l =>
      obtain ⟨-, s, hs, hdom⟩ := mem_left_succ.mp ((hj _).mpr (Nat.le_refl _))
      have ha : rows[s.2]? = some s.1 := List.mem_zipIdx_iff_getElem?.mp (left_subset hs)
      obtain ⟨k, hk, hi⟩ := mem_left_levelOf ha
      refine Or.inr ⟨s.2, ⟨s.1, ha, _, hb, hdom⟩, k, hk, ?_⟩
      have hle : l ≤ k := (hi l).mp hs
      have hge : k + 1 ≤ l + 1 := (hj _).mp (mem_left_succ.mpr
        ⟨List.mem_zipIdx_iff_getElem?.mpr hb, s, (hi k).mpr (Nat.le_refl _), hdom⟩)
      omega

/-- Dominance between rows of different lengths is not transitive: the last row dominates the second and the
second the first, but the last one not the first. -/
example : levelOf ([[3, 0], [2], [1, 9]] : List (List Double)) = [2, 1, 0] := by decide

/-! ### Ranking by keys -/

section Order

variable {κ : Type} {compareKeys : κ → κ → Ordering}

theorem orderBy_perm (keys : List κ) : (orderBy compareKeys keys).Perm (List.range keys.length) := by
  have hperm := (List.mergeSort_perm keys.zipIdx fun a b => (compareKeys a.1 b.1).isLE).map fun e => e.2
  rw [List.zipIdx_map_snd, ← List.range_eq_range'] at hperm
  exact hperm

theorem isLE_trans [Std.TransCmp compareKeys] (a b c : κ × Nat) (hab : (compareKeys a.1 b.1).isLE = true)
    (hbc : (compareKeys b.1 c.1).isLE = true) : (compareKeys a.1 c.1).isLE = true :=
  Std.TransCmp.isLE_trans hab hbc

theorem isLE_total [Std.TransCmp compareKeys] (a b : κ × Nat) :
    ((compareKeys a.1 b.1).isLE || (compareKeys b.1 a.1).isLE) = true := by
  rw [show compareKeys b.1 a.1 = (compareKeys a.1 b.1).swap from Std.OrientedCmp.eq_swap]
  cases compareKeys a.1 b.1 <;> rfl

/-- Entries of one key keep their order. -/
theorem filter_mergeSort [Std.TransCmp compareKeys] (keys : List κ) (key : κ) :
    ((keys.zipIdx.mergeSort fun a b => (compareKeys a.1 b.1).isLE).filter fun e => compareKeys key e.1 == .eq)
      = keys.zipIdx.filter fun e => compareKeys key e.1 == .eq := by
  have hclass : (keys.zipIdx.filter fun e => compareKeys key e.1 == .eq).Pairwise
      fun a b => (compareKeys a.1 b.1).isLE = true := by
    refine List.pairwise_filter.mpr (List.pairwise_of_forall fun a b ha hb => ?_)
    have heq := Std.TransCmp.eq_trans (Std.OrientedCmp.eq_symm (eq_of_beq ha)) (eq_of_beq hb)
    rw [heq]
    rfl
  have hsub := (List.sublist_mergeSort isLE_trans isLE_total hclass List.filter_sublist).filter
    fun e => compareKeys key e.1 == .eq
  rw [List.filter_filter, List.filter_congr (fun e _ => Bool.and_self _)] at hsub
  exact (hsub.eq_of_length ((List.mergeSort_perm keys.zipIdx _).filter _).length_eq.symm).symm

omit [Scalar α] in
theorem pairwise_zipIdx (keys : List κ) : keys.zipIdx.Pairwise fun a b => a.2 < b.2 := by
  have hrange := List.pairwise_lt_range' (s := 0) (n := keys.length)
  rw [← List.zipIdx_map_snd] at hrange
  exact List.pairwise_map.mp hrange

/-- **A ranking is sorted by key, and by index where keys are equal.** -/
theorem orderBy_pairwise [Std.TransCmp compareKeys] (keys : List κ) :
    (orderBy compareKeys keys).Pairwise fun i j =>
      ∃ a ∈ keys[i]?, ∃ b ∈ keys[j]?, (compareKeys a b).then (compare i j) = .lt := by
  refine List.pairwise_map.mpr ?_
  rw [List.pairwise_iff_forall_sublist]
  intro a b hab
  have hmem : ∀ e ∈ [a, b], e.1 ∈ keys[e.2]? := by
    intro e he
    exact List.mem_zipIdx_iff_getElem?.mp (List.mem_mergeSort.mp (hab.subset he))
  refine ⟨a.1, hmem a (by simp), b.1, hmem b (by simp), ?_⟩
  have hle := List.pairwise_iff_forall_sublist.mp
    (List.pairwise_mergeSort isLE_trans isLE_total keys.zipIdx) hab
  cases hcompare : compareKeys a.1 b.1 with
  | lt => rfl
  | gt => rw [hcompare] at hle; exact absurd hle (by decide)
  | eq =>
    -- both stand in the list of the entries of their key
    have hclass := hab.filter fun e => compareKeys a.1 e.1 == .eq
    rw [filter_mergeSort, List.filter_cons_of_pos (by simp [Std.ReflCmp.compare_self]),
      List.filter_cons_of_pos (by simp [hcompare]), List.filter_nil] at hclass
    have hlt := List.pairwise_iff_forall_sublist.mp (pairwise_zipIdx keys) (hclass.trans List.filter_sublist)
    exact Nat.compare_eq_lt.mpr hlt

end Order

/-- Keys of level and score have places in one order. -/
instance [Scalar.Sortable α] : Std.TransCmp (compareLevels (α := α)) :=
  have horder := Scalar.Sortable.transCmp (α := α)
  have : Std.TransCmp fun a b : Nat × α => Scalar.totalOrder a.2 b.2 :=
    { eq_swap := horder.eq_swap, isLE_trans := horder.isLE_trans }
  inferInstanceAs (Std.TransCmp (compareLex (compareOn Prod.fst) fun a b : Nat × α =>
    Scalar.totalOrder a.2 b.2))

/-- The order of the indices of rows: by level, then by the sum of the row, then by index. -/
def Precedes (rows : List (List α)) (i j : Nat) : Prop :=
  ∃ k ∈ (levelOf rows)[i]?, ∃ l ∈ (levelOf rows)[j]?, ∃ a ∈ rows[i]?, ∃ b ∈ rows[j]?,
    (compare k l).then ((Scalar.totalOrder (Scalar.sum a) (Scalar.sum b)).then (compare i j)) = .lt

/-- **Ranking by dominance is sorted by level, sum and index.** -/
theorem rank_dominance_pairwise [Scalar.Sortable α] (rows : List (List α)) :
    (rank .dominance rows).Pairwise (Precedes rows) := by
  refine (orderBy_pairwise _).imp ?_
  rintro i j ⟨⟨k, x⟩, hi, ⟨l, y⟩, hj, hlt⟩
  obtain ⟨hk, hx⟩ := List.getElem?_zip_eq_some.mp hi
  obtain ⟨hl, hy⟩ := List.getElem?_zip_eq_some.mp hj
  rw [List.getElem?_map, Option.map_eq_some_iff] at hx hy
  obtain ⟨a, ha, rfl⟩ := hx
  obtain ⟨b, hb, rfl⟩ := hy
  refine ⟨k, hk, l, hl, a, ha, b, hb, ?_⟩
  rw [← hlt, compareLevels, Ordering.then_assoc]
  rfl

theorem rank_dominance_perm (rows : List (List α)) :
    (rank .dominance rows).Perm (List.range rows.length) := by
  have hperm : (rank .dominance rows).Perm _ := orderBy_perm ((levelOf rows).zip (rows.map (score .dominance)))
  rwa [List.length_zip, List.length_map, show (levelOf rows).length = rows.length by simp [levelOf],
    Nat.min_self] at hperm

/-- A row of an earlier level comes first. -/
theorem idxOf_lt_of_dominatesAt [Scalar.Sortable α] {rows : List (List α)} {i j : Nat}
    (h : DominatesAt rows i j) : (rank .dominance rows).idxOf i < (rank .dominance rows).idxOf j := by
  have hperm := rank_dominance_perm rows
  have hlevels := leveled_levelOf rows
  obtain ⟨a, ha, b, hb, hdom⟩ := h
  have hmem : ∀ {i : Nat} {row : List α}, rows[i]? = some row → i ∈ rank .dominance rows := fun hrow =>
    hperm.mem_iff.mpr (List.mem_range.mpr (List.getElem?_eq_some_iff.mp hrow).1)
  have hi := List.idxOf_lt_length_of_mem (hmem ha)
  have hj := List.idxOf_lt_length_of_mem (hmem hb)
  obtain ⟨k, hk, -⟩ := mem_left_levelOf ha
  obtain ⟨l, hl, -⟩ := mem_left_levelOf hb
  have habove := hlevels.above i j ⟨a, ha, b, hb, hdom⟩ k hk l hl
  rcases Nat.lt_trichotomy ((rank .dominance rows).idxOf i) ((rank .dominance rows).idxOf j) with hlt | heq | hgt
  · exact hlt
  · -- a row that dominates another one is another row
    have hsame : i = j := by
      rw [← List.getElem_idxOf hi, ← List.getElem_idxOf hj]
      simp only [heq]
    subst hsame
    obtain rfl : k = l := Option.some.inj (hk.symm.trans hl)
    omega
  · have hprecedes := List.pairwise_iff_getElem.mp (rank_dominance_pairwise rows) _ _ hj hi hgt
    rw [List.getElem_idxOf, List.getElem_idxOf] at hprecedes
    obtain ⟨l', hl', k', hk', _, _, _, _, hlt⟩ := hprecedes
    obtain rfl : k' = k := Option.some.inj (hk'.symm.trans hk)
    obtain rfl : l' = l := Option.some.inj (hl'.symm.trans hl)
    rw [Nat.compare_eq_gt.mpr (by omega : k' < l')] at hlt
    exact absurd hlt (by simp)

end Ranking

/-- **Ranking by dominance comes to an end and respects dominance**, whatever the numbers are and however long the
rows:

* each pass over the rows that are left takes one away, so that none is left after as many passes as there are rows,
  and a greater bound on the number of passes changes nothing;
* the level of a row is zero if no row dominates it, and otherwise one more than the greatest level of those that do;
* the ranking names each index once, sorted by level, sum and index, and each row before those that it dominates. -/
theorem dominance_ranked (rows : List (List Double)) :
    (∀ k, Ranking.left rows.zipIdx k ≠ [] →
      (Ranking.left rows.zipIdx (k + 1)).length < (Ranking.left rows.zipIdx k).length) ∧
    Ranking.left rows.zipIdx rows.length = [] ∧
    (∀ passes, rows.length ≤ passes →
      Ranking.levels passes rows.zipIdx = Ranking.levels rows.length rows.zipIdx) ∧
    Ranking.Leveled rows (Ranking.levelOf rows) ∧
    (Ranking.rank .dominance rows).Perm (List.range rows.length) ∧
    (Ranking.rank .dominance rows).Pairwise (Ranking.Precedes rows) ∧
    ∀ i j, Ranking.DominatesAt rows i j →
      (Ranking.rank .dominance rows).idxOf i < (Ranking.rank .dominance rows).idxOf j := by
  have hlength : rows.zipIdx.length = rows.length := List.length_zipIdx
  refine ⟨fun k => Ranking.length_left_succ, ?_, ?_, Ranking.leveled_levelOf rows,
    Ranking.rank_dominance_perm rows, Ranking.rank_dominance_pairwise rows,
    fun i j => Ranking.idxOf_lt_of_dominatesAt⟩
  · exact Ranking.left_eq_nil (Nat.le_of_eq hlength)
  · intro passes hpasses
    rw [Ranking.levels_of_length_le (by omega), hlength]

end HomeEnergy

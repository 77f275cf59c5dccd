import HomeEnergy.Proofs.Dominance
import HomeEnergy.Proofs.Rational
import HomeEnergy.Ranking.Normalize
import Mathlib.Algebra.Order.Field.Basic

/-!
# Normalization keeps the order

In rational numbers, normalization moves and stretches each column of objectives as a whole. It brings the values
between zero and one, and nothing else about them changes that a ranking looks at: neither how they compare nor, with
that, which rows dominate which. It forgets the scale that an objective was given in.

* `Ranking.columnBounds_eq_some_iff` — the bounds of a column are its least and its greatest value.
* `Ranking.normalize_eq` — each value is rescaled by the bounds of its column.
* `Ranking.rescale_lt_iff`, `Ranking.rescale_eq_iff` — **values of a column compare as before.**
* `Ranking.onScale`, `Ranking.normalize_onScale` — another scale moves the bounds along with the values, so that
  **normalized rows are the same on every scale**.
* `Ranking.Normalizes` — what normalized rows have in common with the rows; `normalization_keeps_order` — that they
  have it, and that no ranking tells scales apart.
-/

namespace HomeEnergy

namespace Ranking

/-! ### Columns -/

section Columns

variable {α : Type}

def cell? (rows : List (List α)) (i k : Nat) : Option α :=
  rows[i]?.bind fun row => row[k]?

/-- The values of a column, of the rows that go as far. -/
def column (rows : List (List α)) (k : Nat) : List α :=
  rows.filterMap fun row => row[k]?

theorem mem_column {rows : List (List α)} {k : Nat} {x : α} : x ∈ column rows k ↔ ∃ i, cell? rows i k = some x := by
  simp only [column, List.mem_filterMap, cell?, Option.bind_eq_some_iff]
  constructor
  · rintro ⟨row, hrow, hx⟩
    obtain ⟨i, hi⟩ := List.mem_iff_getElem?.mp hrow
    exact ⟨i, row, hi, hx⟩
  · rintro ⟨i, row, hi, hx⟩
    exact ⟨row, List.mem_of_getElem? hi, hx⟩

/-- No row is wider than all rows together. -/
theorem length_le_width (rows : List (List α)) (n : Nat) :
    n ≤ rows.foldl (fun n row => Nat.max n row.length) n ∧
      ∀ row ∈ rows, row.length ≤ rows.foldl (fun n row => Nat.max n row.length) n := by
  induction rows generalizing n with
  | nil => exact ⟨Nat.le_refl n, fun _ h => nomatch h⟩
  | cons row rows ih =>
    obtain ⟨hstart, hrows⟩ := ih (Nat.max n row.length)
    refine ⟨Nat.le_trans (Nat.le_max_left n row.length) hstart, ?_⟩
    intro row' hrow'
    rcases List.mem_cons.mp hrow' with rfl | hrow'
    · exact Nat.le_trans (Nat.le_max_right n row'.length) hstart
    · exact hrows row' hrow'

variable [Scalar α]

theorem columnBounds_eq_foldl (rows : List (List α)) (k : Nat) :
    columnBounds rows k = (column rows k).foldl widen none := by
  rw [column, List.foldl_filterMap]
  rfl

/-- **Each value is rescaled by the bounds of its column.** -/
theorem normalize_eq (rows : List (List α)) :
    normalize rows = rows.map fun row => row.mapIdx fun k x => rescale (columnBounds rows k) x := by
  unfold normalize
  refine List.map_congr_left fun row hrow => List.ext_getElem? fun k => ?_
  rw [List.getElem?_zipWith, List.getElem?_mapIdx]
  cases hx : row[k]? with
  | none => rfl
  | some x =>
    have hk : k < rows.foldl (fun n row => Nat.max n row.length) 0 :=
      Nat.lt_of_lt_of_le (List.getElem?_eq_some_iff.mp hx).1 ((length_le_width rows 0).2 row hrow)
    simp only [List.getElem?_map, List.getElem?_range hk, Option.map_some]

theorem cell?_normalize (rows : List (List α)) (i k : Nat) :
    cell? (normalize rows) i k = (cell? rows i k).map (rescale (columnBounds rows k)) := by
  rw [normalize_eq]
  simp only [cell?, List.getElem?_map]
  cases rows[i]? with
  | none => rfl
  | some row => exact List.getElem?_mapIdx

end Columns

/-! ### Bounds -/

/-- The least and the greatest value of a list. -/
structure Bounds (xs : List ℚ) (low high : ℚ) : Prop where
  low_mem : low ∈ xs
  high_mem : high ∈ xs
  low_le : ∀ x ∈ xs, low ≤ x
  le_high : ∀ x ∈ xs, x ≤ high

theorem foldl_widen (xs : List ℚ) (low high : ℚ) :
    xs.foldl widen (some (low, high)) = some (xs.foldl min low, xs.foldl max high) := by
  induction xs generalizing low high with
  | nil => rfl
  | cons x xs ih =>
    have hwiden : widen (some (low, high)) x = some (min low x, max high x) := by
      rw [← Scalar.min_rat, ← Scalar.max_rat]
      rfl
    rw [List.foldl_cons, hwiden, ih]
    rfl

/-- **The bounds of a column are its least and its greatest value.** -/
theorem columnBounds_eq_some_iff {rows : List (List ℚ)} {k : Nat} {low high : ℚ} :
    columnBounds rows k = some (low, high) ↔ Bounds (column rows k) low high := by
  have hmin_max : columnBounds rows k = some (low, high) ↔
      (column rows k).min? = some low ∧ (column rows k).max? = some high := by
    rw [columnBounds_eq_foldl]
    cases column rows k with
    | nil => simp
    | cons x xs =>
      have hfirst : widen none x = some (x, x) := rfl
      rw [List.foldl_cons, hfirst, foldl_widen]
      simp [List.min?, List.max?]
  rw [hmin_max, List.min?_eq_some_iff, List.max?_eq_some_iff]
  exact ⟨fun ⟨hlow, hhigh⟩ => ⟨hlow.1, hhigh.1, hlow.2, hhigh.2⟩,
    fun h => ⟨⟨h.low_mem, h.low_le⟩, h.high_mem, h.le_high⟩⟩

theorem exists_bounds {rows : List (List ℚ)} {k : Nat} {x : ℚ} (hx : x ∈ column rows k) :
    ∃ low high, columnBounds rows k = some (low, high) ∧ Bounds (column rows k) low high := by
  cases hbounds : columnBounds rows k with
  | some b => exact ⟨b.1, b.2, rfl, columnBounds_eq_some_iff.mp hbounds⟩
  | none =>
    rw [columnBounds_eq_foldl] at hbounds
    obtain ⟨y, ys, hys⟩ := List.exists_cons_of_ne_nil (List.ne_nil_of_mem hx)
    have hfirst : widen none y = some (y, y) := rfl
    rw [hys, List.foldl_cons, hfirst, foldl_widen] at hbounds
    exact nomatch hbounds

/-! ### Rescaling -/

theorem rescale_rat (low high x : ℚ) :
    rescale (some (low, high)) x = if low < high then (x - low) / (high - low) else 0 := by
  show (if _ < high - low then (x - low) / (high - low) else _) = _
  rw [Scalar.rat_zero]
  simp only [sub_pos]

section Rescaling

variable {xs : List ℚ} {low high x y : ℚ}

theorem Bounds.eq_low (h : Bounds xs low high) (hflat : ¬low < high) (hx : x ∈ xs) : x = low :=
  le_antisymm (le_trans (h.le_high x hx) (not_lt.mp hflat)) (h.low_le x hx)

theorem rescale_mem_unit (h : Bounds xs low high) (hx : x ∈ xs) :
    0 ≤ rescale (some (low, high)) x ∧ rescale (some (low, high)) x ≤ 1 := by
  rw [rescale_rat]
  split
  · rename_i hlt
    have hrange : 0 < high - low := sub_pos.mpr hlt
    have hlow := h.low_le x hx
    have hhigh := h.le_high x hx
    exact ⟨div_nonneg (sub_nonneg.mpr hlow) hrange.le, (div_le_one hrange).mpr (by linarith)⟩
  · exact ⟨le_refl 0, zero_le_one⟩

/-- **A value of a column is less than another one if it was.** -/
theorem rescale_lt_iff (h : Bounds xs low high) (hx : x ∈ xs) (hy : y ∈ xs) :
    rescale (some (low, high)) x < rescale (some (low, high)) y ↔ x < y := by
  simp only [rescale_rat]
  by_cases hlt : low < high
  · have hrange : 0 < high - low := sub_pos.mpr hlt
    rw [if_pos hlt, if_pos hlt, div_lt_div_iff_of_pos_right hrange, sub_lt_sub_iff_right]
  · rw [if_neg hlt, if_neg hlt, h.eq_low hlt hx, h.eq_low hlt hy]
    simp

theorem rescale_le_iff (h : Bounds xs low high) (hx : x ∈ xs) (hy : y ∈ xs) :
    rescale (some (low, high)) x ≤ rescale (some (low, high)) y ↔ x ≤ y := by
  rw [← not_lt, rescale_lt_iff h hy hx, not_lt]

theorem rescale_eq_iff (h : Bounds xs low high) (hx : x ∈ xs) (hy : y ∈ xs) :
    rescale (some (low, high)) x = rescale (some (low, high)) y ↔ x = y := by
  rw [le_antisymm_iff, le_antisymm_iff, rescale_le_iff h hx hy, rescale_le_iff h hy hx]

theorem rescale_low (low high : ℚ) : rescale (some (low, high)) low = 0 := by
  rw [rescale_rat]
  simp

theorem rescale_high (h : low < high) : rescale (some (low, high)) high = 1 := by
  rw [rescale_rat, if_pos h]
  exact div_self (sub_pos.mpr h).ne'

end Rescaling

/-! ### Other scales -/

section Scales

variable {s t : ℚ}

/-- Rows with each value moved and stretched, in each column as it is there. -/
def onScale (s t : Nat → ℚ) (rows : List (List ℚ)) : List (List ℚ) :=
  rows.map fun row => row.mapIdx fun k x => s k * x + t k

theorem column_onScale (s t : Nat → ℚ) (rows : List (List ℚ)) (k : Nat) :
    column (onScale s t rows) k = (column rows k).map fun x => s k * x + t k := by
  simp only [column, onScale, List.filterMap_map, List.map_filterMap, Function.comp_def,
    List.getElem?_mapIdx]

/-- Bounds move along with the values. -/
theorem Bounds.onScale {xs : List ℚ} {low high : ℚ} (h : Bounds xs low high) (hs : 0 < s) (t : ℚ) :
    Bounds (xs.map fun x => s * x + t) (s * low + t) (s * high + t) where
  low_mem := List.mem_map.mpr ⟨low, h.low_mem, rfl⟩
  high_mem := List.mem_map.mpr ⟨high, h.high_mem, rfl⟩
  low_le := by
    intro y hy
    obtain ⟨x, hx, rfl⟩ := List.mem_map.mp hy
    have hle := mul_le_mul_of_nonneg_left (h.low_le x hx) hs.le
    linarith
  le_high := by
    intro y hy
    obtain ⟨x, hx, rfl⟩ := List.mem_map.mp hy
    have hle := mul_le_mul_of_nonneg_left (h.le_high x hx) hs.le
    linarith

/-- A value has the same place between bounds on every scale. -/
theorem rescale_onScale (hs : 0 < s) (t low high x : ℚ) :
    rescale (some (s * low + t, s * high + t)) (s * x + t) = rescale (some (low, high)) x := by
  simp only [rescale_rat, add_lt_add_iff_right, mul_lt_mul_iff_right₀ hs]
  split
  · rw [show s * x + t - (s * low + t) = s * (x - low) by ring,
      show s * high + t - (s * low + t) = s * (high - low) by ring]
    exact mul_div_mul_left _ _ hs.ne'
  · rfl

/-- **Normalized rows are the same on every scale.** -/
theorem normalize_onScale {s : Nat → ℚ} (hs : ∀ k, 0 < s k) (t : Nat → ℚ) (rows : List (List ℚ)) :
    normalize (onScale s t rows) = normalize rows := by
  have hrescale : ∀ k x, x ∈ column rows k →
      rescale (columnBounds (onScale s t rows) k) (s k * x + t k) = rescale (columnBounds rows k) x := by
    intro k x hx
    obtain ⟨low, high, heq, hbounds⟩ := exists_bounds hx
    have heq' : columnBounds (onScale s t rows) k = some (s k * low + t k, s k * high + t k) := by
      rw [columnBounds_eq_some_iff, column_onScale]
      exact hbounds.onScale (hs k) (t k)
    rw [heq, heq', rescale_onScale (hs k)]
  rw [normalize_eq (onScale s t rows), normalize_eq rows]
  show (rows.map _).map _ = _
  rw [List.map_map]
  refine List.map_congr_left fun row hrow => List.ext_getElem? fun k => ?_
  simp only [Function.comp_apply, List.getElem?_mapIdx, Option.map_map]
  refine Option.map_congr fun x hx => ?_
  exact hrescale k x (List.mem_filterMap.mpr ⟨row, hrow, hx⟩)

end Scales

/-! ### Normalized rows -/

/-- What normalization makes of rows. -/
structure Normalizes (rows normalized : List (List ℚ)) : Prop where
  shape : normalized.map List.length = rows.map List.length
  unit : ∀ i k, ∀ x ∈ cell? normalized i k, 0 ≤ x ∧ x ≤ 1
  order : ∀ i j k, ∀ x ∈ cell? rows i k, ∀ y ∈ cell? rows j k,
    ∀ x' ∈ cell? normalized i k, ∀ y' ∈ cell? normalized j k,
      (x' < y' ↔ x < y) ∧ (x' = y' ↔ x = y) ∧ (y' < x' ↔ y < x)
  dominance : ∀ i j, DominatesAt normalized i j ↔ DominatesAt rows i j
  -- at the least value and at the greatest one, and nowhere else
  attained : ∀ k, (∃ i j, ∃ x ∈ cell? rows i k, ∃ y ∈ cell? rows j k, x ≠ y) →
    (∃ i, cell? normalized i k = some 0) ∧ (∃ i, cell? normalized i k = some 1) ∧
      ∀ i, ∀ x ∈ cell? rows i k,
        (cell? normalized i k = some 0 ↔ ∀ j, ∀ y ∈ cell? rows j k, x ≤ y) ∧
        (cell? normalized i k = some 1 ↔ ∀ j, ∀ y ∈ cell? rows j k, y ≤ x)
  constant : ∀ k, (∀ i j, ∀ x ∈ cell? rows i k, ∀ y ∈ cell? rows j k, x = y) →
    ∀ i, ∀ x ∈ cell? normalized i k, x = 0

section Rows

variable {rows : List (List ℚ)}

/-- A normalized value comes from a value between the bounds of its column. -/
theorem exists_of_cell?_normalize {i k : Nat} {x' : ℚ} (h : cell? (normalize rows) i k = some x') :
    ∃ x low high, cell? rows i k = some x ∧ columnBounds rows k = some (low, high) ∧
      x ∈ column rows k ∧ Bounds (column rows k) low high ∧ x' = rescale (some (low, high)) x := by
  rw [cell?_normalize] at h
  obtain ⟨x, hx, rfl⟩ := Option.map_eq_some_iff.mp h
  have hmem : x ∈ column rows k := mem_column.mpr ⟨i, hx⟩
  obtain ⟨low, high, heq, hbounds⟩ := exists_bounds hmem
  exact ⟨x, low, high, hx, heq, hmem, hbounds, by rw [heq]⟩

/-- Values of two rows compare after normalization as they did before. -/
theorem order_normalize {i j k : Nat} {x y x' y' : ℚ} (hx : cell? rows i k = some x)
    (hy : cell? rows j k = some y) (hx' : cell? (normalize rows) i k = some x')
    (hy' : cell? (normalize rows) j k = some y') : (x' < y' ↔ x < y) ∧ (x' = y' ↔ x = y) ∧ (x' ≤ y' ↔ x ≤ y) := by
  obtain ⟨_, low, high, hx₁, heq, hxmem, hbounds, rfl⟩ := exists_of_cell?_normalize hx'
  obtain ⟨_, low', high', hy₁, heq', hymem, -, rfl⟩ := exists_of_cell?_normalize hy'
  obtain rfl := Option.some.inj (hx.symm.trans hx₁)
  obtain rfl := Option.some.inj (hy.symm.trans hy₁)
  obtain ⟨rfl, rfl⟩ : low = low' ∧ high = high' := by simpa using heq.symm.trans heq'
  exact ⟨rescale_lt_iff hbounds hxmem hymem, rescale_eq_iff hbounds hxmem hymem,
    rescale_le_iff hbounds hxmem hymem⟩

/-- Dominance, said by the values of two rows. -/
theorem dominatesAt_iff {i j : Nat} : DominatesAt rows i j ↔
    (∀ k, ∀ x ∈ cell? rows i k, ∀ y ∈ cell? rows j k, x ≤ y) ∧
      ∃ k, ∃ x ∈ cell? rows i k, ∃ y ∈ cell? rows j k, x < y := by
  unfold DominatesAt cell?
  cases rows[i]? with
  | none => simp
  | some a =>
    cases rows[j]? with
    | none => simp
    | some b =>
      simp only [Option.mem_def, Option.some.injEq, exists_eq_left', Option.bind_some]
      rfl

theorem dominatesAt_normalize {i j : Nat} : DominatesAt (normalize rows) i j ↔ DominatesAt rows i j := by
  rw [dominatesAt_iff, dominatesAt_iff]
  refine and_congr (forall_congr' fun k => ?_) (exists_congr fun k => ?_)
  all_goals
    cases hx : cell? rows i k with
    | none => simp [cell?_normalize, hx]
    | some x =>
      cases hy : cell? rows j k with
      | none => simp [cell?_normalize, hy]
      | some y =>
        have hx' : cell? (normalize rows) i k = some _ := (cell?_normalize rows i k).trans (congrArg _ hx)
        have hy' : cell? (normalize rows) j k = some _ := (cell?_normalize rows j k).trans (congrArg _ hy)
        obtain ⟨hlt, -, hle⟩ := order_normalize hx hy hx' hy'
        rw [hx', hy']
        simp [hlt, hle]

/-- In a column with two different values, the bounds become zero and one. -/
theorem attained_normalize {k : Nat} {low high : ℚ} (heq : columnBounds rows k = some (low, high))
    (hlt : low < high) {i : Nat} {x : ℚ} (hx : cell? rows i k = some x) :
    (cell? (normalize rows) i k = some 0 ↔ x = low) ∧ (cell? (normalize rows) i k = some 1 ↔ x = high) := by
  have hbounds := columnBounds_eq_some_iff.mp heq
  have hmem : x ∈ column rows k := mem_column.mpr ⟨i, hx⟩
  rw [cell?_normalize, hx, heq, Option.map_some, Option.some.injEq, Option.some.injEq]
  constructor
  · rw [← rescale_low low high, rescale_eq_iff hbounds hmem hbounds.low_mem]
  · rw [← rescale_high hlt, rescale_eq_iff hbounds hmem hbounds.high_mem]

theorem constant_normalize {k : Nat} (hflat : ∀ i j, ∀ x ∈ cell? rows i k, ∀ y ∈ cell? rows j k, x = y)
    {i : Nat} {x' : ℚ} (hx' : cell? (normalize rows) i k = some x') : x' = 0 := by
  obtain ⟨x, low, high, hx, -, -, hbounds, rfl⟩ := exists_of_cell?_normalize hx'
  obtain ⟨j, hlow⟩ := mem_column.mp hbounds.low_mem
  rw [hflat i j x hx low hlow]
  exact rescale_low low high

/-- **Normalization keeps the order of the rows.** -/
theorem normalizes_normalize (rows : List (List ℚ)) : Normalizes rows (normalize rows) where
  shape := by
    rw [normalize_eq, List.map_map]
    exact List.map_congr_left fun row _ => List.length_mapIdx
  unit := by
    intro i k x' hx'
    obtain ⟨x, low, high, -, -, hmem, hbounds, rfl⟩ := exists_of_cell?_normalize hx'
    exact rescale_mem_unit hbounds hmem
  order := by
    intro i j k x hx y hy x' hx' y' hy'
    obtain ⟨hlt, heq, -⟩ := order_normalize hx hy hx' hy'
    exact ⟨hlt, heq, (order_normalize hy hx hy' hx').1⟩
  dominance _ _ := dominatesAt_normalize
  attained := by
    rintro k ⟨i₁, i₂, x₁, hx₁, x₂, hx₂, hne⟩
    obtain ⟨low, high, heq, hbounds⟩ := exists_bounds (mem_column.mpr ⟨i₁, hx₁⟩)
    have hlt : low < high := by
      by_contra hflat
      exact hne ((hbounds.eq_low hflat (mem_column.mpr ⟨i₁, hx₁⟩)).trans
        (hbounds.eq_low hflat (mem_column.mpr ⟨i₂, hx₂⟩)).symm)
    obtain ⟨i, hlow⟩ := mem_column.mp hbounds.low_mem
    obtain ⟨j, hhigh⟩ := mem_column.mp hbounds.high_mem
    refine ⟨⟨i, (attained_normalize heq hlt hlow).1.mpr rfl⟩, ⟨j, (attained_normalize heq hlt hhigh).2.mpr rfl⟩, ?_⟩
    intro l x hx
    have hmem : x ∈ column rows k := mem_column.mpr ⟨l, hx⟩
    obtain ⟨hzero, hone⟩ := attained_normalize heq hlt hx
    constructor
    · rw [hzero]
      exact ⟨fun h j y hy => h ▸ hbounds.low_le y (mem_column.mpr ⟨j, hy⟩),
        fun h => le_antisymm (h i low hlow) (hbounds.low_le x hmem)⟩
    · rw [hone]
      exact ⟨fun h j y hy => h ▸ hbounds.le_high y (mem_column.mpr ⟨j, hy⟩),
        fun h => le_antisymm (hbounds.le_high x hmem) (h j high hhigh)⟩
  constant _ hflat _ _ hx' := constant_normalize hflat hx'

end Rows

end Ranking

/-- **Normalization keeps the order of the rows, and forgets their scale.** Whatever is added to the values of an
objective, and whatever positive number they are multiplied by, the normalized rows are the same, and with them the
order that each strategy puts the rows in. -/
theorem normalization_keeps_order (rows : List (List ℚ)) :
    Ranking.Normalizes rows (Ranking.normalize rows) ∧
      ∀ s t : Nat → ℚ, (∀ k, 0 < s k) →
        Ranking.normalize (Ranking.onScale s t rows) = Ranking.normalize rows ∧
          ∀ r : Ranking ℚ, r.rank (Ranking.normalize (Ranking.onScale s t rows))
            = r.rank (Ranking.normalize rows) := by
  refine ⟨Ranking.normalizes_normalize rows, fun s t hs => ?_⟩
  have hsame := Ranking.normalize_onScale hs t rows
  exact ⟨hsame, fun r => congrArg r.rank hsame⟩

/-- The second objective is the same everywhere. -/
example : Ranking.normalize ([[1, 5], [3, 5], [2, 5]] : List (List Rat)) = [[0, 0], [1, 0], [1 / 2, 0]] := by
  decide +kernel

end HomeEnergy

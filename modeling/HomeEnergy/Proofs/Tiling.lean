import HomeEnergy.Evaluation
import HomeEnergy.Proofs.Acceptance
import HomeEnergy.Proofs.Exact
import HomeEnergy.Proofs.Pieces
import Mathlib.Data.List.ReduceOption

/-!
# Ranges that tile a solution, slices that are handed out once

A layout is meant to cut a solution into consecutive ranges, one for each part, and a distribution to hand out every
slice once. Both are said here in terms of the ranges and of the parts alone, and so is when they fail: ranges are
counted in machine words, and the last range of a layout with too many variables ends before it begins.

* `Share.Tiles` — ranges of given lengths, one behind the other; `tiles_tile_iff` — **ranges tile exactly if their
  ends can be counted in a word**.
* `Layout.Delivers`, `Layout.Delivered` — what a distribution hands out.
* `Layout.distribution_tiles_iff` — **ranges tile exactly if the variables of all parts can be counted; then every
  solution of the right width is handed out slice by slice, and any other one changes no part**.
* `Layout.vastStores_untiled` — two batteries with schedules that are too long together.
-/

namespace HomeEnergy

/-- Ranges of the given lengths, one behind the other, from a first variable on up to where the last one ends. -/
inductive Share.Tiles : Nat → List Share → List Nat → Nat → Prop where
  | done (start : Nat) : Tiles start [] [] start
  | range {start n stop : Nat} {r : Share} {shares : List Share} {counts : List Nat}
      (first : r.start.toNat = start) (last : r.stop.toNat = start + n)
      (rest : Tiles (start + n) shares counts stop) : Tiles start (r :: shares) (n :: counts) stop

theorem Share.Tiles.total {start stop : Nat} {shares : List Share} {counts : List Nat}
    (h : Tiles start shares counts stop) : start + counts.sum = stop := by
  induction h with
  | done => simp
  | range _ _ _ ih => simpa [Nat.add_assoc] using ih

/-- **Consecutive ranges tile exactly if their ends can be counted in a word.** -/
theorem tiles_tile_iff (counts : List UInt64) (start : UInt64) :
    Share.Tiles start.toNat (tile start counts).1 (counts.map UInt64.toNat) (tile start counts).2.toNat ↔
      start.toNat + (counts.map UInt64.toNat).sum < UInt64.size := by
  constructor
  · intro h
    rw [h.total]
    exact UInt64.toNat_lt _
  · intro hsum
    induction counts generalizing start with
    | nil => exact .done _
    | cons n counts ih =>
      rw [List.map_cons, List.sum_cons] at hsum
      have hnext : (start + n).toNat = start.toNat + n.toNat := by
        rw [UInt64.toNat_add]
        exact Nat.mod_eq_of_lt (by simp only [UInt64.size] at hsum; omega)
      have hrest := ih (start + n) (by omega)
      rw [hnext] at hrest
      exact .range rfl hnext hrest

namespace Layout

variable {P α : Type} [Part P α]

/-- What the owner of a range gets from a solution: nothing if the range is empty, and else its slice. -/
def Delivers [Scalar α] (s : Solution α) (r : Share) : Option (Solution α) → Prop
  | none => r.isEmpty = true
  | some piece => r.isEmpty = false ∧ s.slice r.start.toNat r.stop.toNat = .ok piece

def receive (p : P) : Option (Solution α) → P
  | none => p
  | some piece => Part.withSolution p piece

/-- What happens when a solution is distributed: the slice of every range that is not empty is handed to the part at
its place, once, and the slices are the solution. -/
structure Delivered [Scalar α] (l : Layout) (s : Solution α) (parts parts' : List P)
    (deliveries : List (Option (Solution α))) : Prop where
  delivers : List.Forall₂ (Delivers s) (l.shares s.encoding).toList deliveries
  places : parts.length = deliveries.length
  received : parts' = List.zipWith receive parts deliveries
  whole : Solution.joined s.encoding deliveries.reduceOption = s

/-- The slices of a solution, one for each range that is not empty. -/
def deliveries (l : Layout) (s : Solution α) : List (Option (Solution α)) :=
  (l.shares s.encoding).toList.map fun r => if r.isEmpty then none else some (s.piece r)

/-- A range that is empty or within the solution gets its slice. -/
theorem delivers_piece [Scalar α] {s : Solution α} {r : Share} (h : r.isWithin s.size = true) :
    Delivers s r (if r.isEmpty then none else some (s.piece r)) := by
  by_cases hempty : r.isEmpty = true
  · rw [if_pos hempty]
    exact hempty
  · have hlt : r.start < r.stop := by simpa [Share.isEmpty] using hempty
    have hle : r.start.toNat ≤ r.stop.toNat := Nat.le_of_lt (UInt64.lt_iff_toNat_lt.mp hlt)
    have hstop : r.stop.toNat ≤ s.size := by simpa [Share.isWithin, hempty] using h
    rw [if_neg hempty]
    refine ⟨by simpa using hempty, ?_⟩
    cases s <;> simp [Solution.slice, Solution.piece, hle, hstop]

theorem entries_piece_of_isEmpty {s : Solution α} {r : Share} (h : r.isEmpty = true) :
    (s.piece r).entries = [] := by
  have hle : r.stop.toNat ≤ r.start.toNat := by
    simpa [Share.isEmpty, UInt64.lt_iff_toNat_lt] using h
  rw [Solution.entries_piece, List.extract_eq_take_drop, Nat.sub_eq_zero_of_le hle, List.take_zero]

/-- The empty ranges add nothing to a solution that is put together again. -/
theorem joined_deliveries (l : Layout) (s : Solution α) :
    Solution.joined s.encoding (l.deliveries s).reduceOption = Solution.joined s.encoding (l.cut s) := by
  have hslices : (l.deliveries s).reduceOption
      = ((l.shares s.encoding).toList.filter fun r => !r.isEmpty).map s.piece := by
    unfold deliveries
    induction (l.shares s.encoding).toList with
    | nil => rfl
    | cons r shares ih => cases hr : r.isEmpty <;> simp [hr, ih]
  have hpieces : ∀ shares : List Share, ∀ piece ∈ shares.map s.piece, piece.encoding = s.encoding := by
    intro shares piece hpiece
    obtain ⟨r, -, rfl⟩ := List.mem_map.mp hpiece
    exact Solution.encoding_piece s r
  refine Solution.ext_entries (by simp) ?_
  rw [hslices, cut, Solution.entries_joined (hpieces _), Solution.entries_joined (hpieces _)]
  induction (l.shares s.encoding).toList with
  | nil => rfl
  | cons r shares ih =>
    cases hr : r.isEmpty
    · simpa [hr] using ih
    · simpa [hr, entries_piece_of_isEmpty hr] using ih

variable {e : Encoding} {parts : List P}

/-- What the parts get, as the distribution computes it and as it is meant. -/
theorem toList_handOut (l : Layout) (s : Solution α) {ps : Array P}
    (hsize : ps.size = (l.shares s.encoding).size) :
    (l.handOut s ps).toList = List.zipWith receive ps.toList (l.deliveries s) := by
  apply List.ext_getElem?
  intro i
  simp only [handOut, Array.getElem?_toList, Array.getElem?_mapIdx, List.getElem?_zipWith, deliveries,
    List.getElem?_map]
  cases hp : ps[i]? with
  | none => simp
  | some p =>
    have hi : i < (l.shares s.encoding).size := hsize ▸ (Array.getElem?_eq_some_iff.mp hp).1
    cases hr : ((l.shares s.encoding)[i]).isEmpty <;>
      simp [Array.getElem?_eq_getElem hi, handed, hr, receive]

/-- **A solution of the right width is handed out slice by slice**, to whatever has become of the parts. -/
theorem distribute_delivers [Scalar α] (hcount : totalCount e parts < UInt64.size) {s : Solution α}
    (he : s.encoding = e) (hwidth : s.size = ((ofParts parts).width e).toNat) {ps : Array P}
    (hps : ps.size = parts.length) :
    ∃ ps' deliveries, (ofParts parts).distribute s ps = .ok ps' ∧
      (ofParts parts).Delivered s ps.toList ps'.toList deliveries := by
  subst he
  have haccepts : (ofParts parts).Accepts s := accepts_of_width hcount hwidth
  have hshares : ps.size = ((ofParts parts).shares s.encoding).size := by rw [hps, size_shares_ofParts]
  refine ⟨(ofParts parts).handOut s ps, (ofParts parts).deliveries s, ?_, ?_, ?_, ?_, ?_⟩
  · rw [distribute_eq hshares, if_pos haccepts]
  · refine List.forall₂_map_right_iff.mpr (List.forall₂_same.mpr fun r hr => delivers_piece ?_)
    exact Array.all_eq_true_iff_forall_mem.mp haccepts.2 r (by simpa using hr)
  · simp [deliveries, hps]
  · exact toList_handOut _ s hshares
  · rw [joined_deliveries, joined_cut (by rw [hwidth, toNat_width hcount]) hcount]

/-- **A solution of another width is refused**, whatever the ranges are. -/
theorem distribute_refuses [Scalar α] {l : Layout} {s : Solution α}
    (hwidth : s.size ≠ (l.width s.encoding).toNat) (ps : Array P) :
    l.distribute s ps = .error (.widthMismatch (l.width s.encoding).toNat s.size) := by
  simp only [distribute, if_neg hwidth]

/-- An evaluation that is refused its solution leaves all parts as they are. -/
theorem runOn_refuses [Scalar α] {evaluator : Evaluator P α} {s : Solution α}
    (hwidth : s.size ≠ (evaluator.layout.width s.encoding).toNat) (problem : Problem P α)
    (flags : EvaluationFlags) (recording? : Option (Recording α)) :
    evaluator.runOn problem s flags recording?
      = { result := .error (.widthMismatch (evaluator.layout.width s.encoding).toNat s.size),
          problem := problem.clearExchange, recording? } := by
  simp only [Evaluator.runOn, distribute_refuses hwidth]

/-- The number of variables that a part is asked for: a static part is not asked. -/
theorem map_toNat_ownedCount (e : Encoding) (parts : List P) :
    (parts.map (ownedCount e)).map UInt64.toNat
      = parts.map fun p => if Part.isStatic p then 0 else (Part.variableCount p e).toNat := by
  rw [List.map_map]
  refine List.map_congr_left fun p _ => ?_
  cases hp : Part.isStatic p <;> simp [ownedCount, hp]

/-- **Ranges tile exactly if the variables of all parts can be counted in a word.** Then every solution of the right
width is handed out slice by slice. A solution of any other width is refused in any case, and changes no part. -/
theorem distribution_tiles_iff [Scalar α] (parts : List P) (e : Encoding) :
    let layout := ofParts parts
    let counts := parts.map fun p => if Part.isStatic p then 0 else (Part.variableCount p e).toNat
    (Share.Tiles 0 (layout.shares e).toList counts (layout.width e).toNat ↔ counts.sum < UInt64.size) ∧
    (counts.sum < UInt64.size →
      ∀ s : Solution α, s.encoding = e → s.size = (layout.width e).toNat →
        ∀ ps : Array P, ps.size = parts.length →
          ∃ ps' deliveries, layout.distribute s ps = .ok ps' ∧
            layout.Delivered s ps.toList ps'.toList deliveries) ∧
    ∀ s : Solution α, s.encoding = e → s.size ≠ (layout.width e).toNat →
      (∀ ps : Array P, layout.distribute s ps = .error (.widthMismatch (layout.width e).toNat s.size)) ∧
      ∀ evaluator : Evaluator P α, evaluator.layout = layout →
        ∀ (problem : Problem P α) (flags : EvaluationFlags) (recording? : Option (Recording α)),
          let answer := evaluator.runOn problem s flags recording?
          answer.result = .error (.widthMismatch (layout.width e).toNat s.size) ∧
            answer.problem.parts = problem.parts ∧ answer.recording? = recording? := by
  intro layout counts
  have hcounts : counts.sum = totalCount e parts := by
    rw [← sum_ownedCount, map_toNat_ownedCount, UInt64.toNat_zero, Nat.zero_add]
  refine ⟨?_, ?_, ?_⟩
  · have htiles := tiles_tile_iff (parts.map (ownedCount e)) 0
    rw [UInt64.toNat_zero, Nat.zero_add, map_toNat_ownedCount] at htiles
    rwa [shares_ofParts, width_ofParts]
  · intro hcount s he hwidth ps hps
    exact distribute_delivers (hcounts ▸ hcount) he hwidth hps
  · rintro s rfl hwidth
    refine ⟨distribute_refuses hwidth, fun evaluator hlayout problem flags recording? => ?_⟩
    rw [← hlayout] at hwidth ⊢
    simp only [runOn_refuses hwidth]
    exact ⟨trivial, rfl, trivial⟩

/-- The household gets a schedule of ten numbers slice by slice, and none of a single number. -/
theorem distribution_tiles_iff_household :
    let layout := ofParts (Household.devices ℝ)
    let parts := (Household.devices ℝ).toArray
    (∃ parts' deliveries, layout.distribute (.real (.replicate 10 1)) parts = .ok parts' ∧
      layout.Delivered (.real (.replicate 10 1)) parts.toList parts'.toList deliveries) ∧
    layout.distribute (.real #[1]) parts = .error (.widthMismatch 10 1) := by
  intro layout parts
  have hwidth : (layout.width .real).toNat = 10 :=
    congrArg UInt64.toNat (household_width ℝ .dominance .real)
  obtain ⟨-, hhanded, hrefused⟩ := distribution_tiles_iff (Household.devices ℝ) .real
  refine ⟨hhanded ?_ (.real (.replicate 10 1)) rfl ?_ parts (by simp [parts]), ?_⟩
  · rw [← map_toNat_ownedCount, Household.map_ownedCount]
    decide
  · rw [hwidth]
    simp [Solution.size]
  · obtain ⟨hall, -⟩ := hrefused (.real #[1]) rfl (by rw [hwidth]; simp [Solution.size])
    rw [hall parts, hwidth]
    rfl

/-- A battery with one step per tick over half of all ticks. -/
def vastStore (α : Type) [Scalar α] (n : Nat) : Except Defect (Battery α) :=
  Battery.new (.ofNat n) 0 9223372036854775807 1 1000 0 100 100

/-- The battery exists, and its schedule takes half of all words. -/
theorem vastStore_owns (n : Nat) : ∃ store, vastStore ℝ n = .ok store ∧
    Part.isStatic (Device.battery store) = false ∧
    Part.variableCount (Device.battery store) .real = 9223372036854775808 := by
  have haccepted : ((0 : ℕ) : ℝ) < ((1000 : ℕ) : ℝ) ∧
      (((0 : ℕ) : ℝ) ≤ ((0 : ℕ) : ℝ) ∧ ((0 : ℕ) : ℝ) ≤ ((1 : ℕ) : ℝ)) ∧
      ((0 : ℕ) : ℝ) ≤ ((100 : ℕ) : ℝ) ∧ ((0 : ℕ) : ℝ) ≤ ((100 : ℕ) : ℝ) := by norm_num
  refine ⟨_, if_pos ?_, rfl, ?_⟩
  · exact haccepted
  · show (if (9223372036854775807 : UInt64) < 0 then 0
      else (9223372036854775807 - 0) / Timing.atLeastOne (Timing.atLeastOne 1) + 1) = 9223372036854775808
    decide

/-- **Two batteries whose schedules are too long together.** The range of the second one ends before it begins, and
the solution has no variables. -/
theorem vastStores_untiled :
    ∃ a b, vastStore ℝ 1 = .ok a ∧ vastStore ℝ 2 = .ok b ∧
      let parts := [Device.battery a, Device.battery b]
      let layout := ofParts parts
      layout.real = #[⟨0, 9223372036854775808⟩, ⟨9223372036854775808, 0⟩] ∧ layout.realWidth = 0 ∧
      ¬ Share.Tiles 0 (layout.shares .real).toList
        (parts.map fun p => if Part.isStatic p then 0 else (Part.variableCount p .real).toNat)
        (layout.width .real).toNat := by
  obtain ⟨a, ha, hstatic, hcount⟩ := vastStore_owns 1
  obtain ⟨b, hb, hstatic', hcount'⟩ := vastStore_owns 2
  refine ⟨a, b, ha, hb, ?_⟩
  intro parts layout
  have howned : parts.map (ownedCount .real) = [9223372036854775808, 9223372036854775808] := by
    simp [parts, ownedCount, hstatic, hcount, hstatic', hcount']
  have htile : tile 0 (parts.map (ownedCount .real))
      = ([⟨0, 9223372036854775808⟩, ⟨9223372036854775808, 0⟩], 0) := by
    rw [howned]
    decide
  have hshares : layout.shares .real = #[⟨0, 9223372036854775808⟩, ⟨9223372036854775808, 0⟩] := by
    rw [shares_ofParts, htile]
  have hwidth : layout.width .real = 0 := by rw [width_ofParts, htile]
  refine ⟨hshares, hwidth, fun htiles => ?_⟩
  have htotal := htiles.total
  rw [hwidth, ← map_toNat_ownedCount, howned] at htotal
  exact absurd htotal (by decide)

end Layout

end HomeEnergy

import HomeEnergy.Proofs.Distribution
import Mathlib.Algebra.BigOperators.Group.List.Lemmas
import Mathlib.Data.List.Forall2

/-!
# Solutions made of pieces

A layout cuts a solution into one piece for each part, and pieces that are as long as the parts ask for can be put
together again. This holds as long as the variables of all parts together can be counted in a word.

* `Layout.tile_spec` — where a range begins and ends.
* `Layout.Suits` — a piece that is as long as a part asks for; `Solution.joined` — pieces one after the other.
* `Layout.suits_pieces`, `Layout.joined_pieces` — **a solution is its pieces**.
* `Layout.handOut_joined` — **a part is handed the piece that was made for it**.
-/

namespace HomeEnergy

namespace Solution

variable {α : Type}

def bits : Solution α → List Bool
  | binary bits => bits.toList
  | real _ => []

def values : Solution α → List α
  | binary _ => []
  | real values => values.toList

def joined (e : Encoding) (pieces : List (Solution α)) : Solution α :=
  match e with
  | .binary => binary (pieces.flatMap bits).toArray
  | .real => real (pieces.flatMap values).toArray

@[simp] theorem encoding_joined (e : Encoding) (pieces : List (Solution α)) :
    (joined e pieces).encoding = e := by
  cases e <;> rfl

def entries : Solution α → List (Bool ⊕ α)
  | binary bits => bits.toList.map .inl
  | real values => values.toList.map .inr

@[simp] theorem length_entries (s : Solution α) : s.entries.length = s.size := by
  cases s <;> simp [entries, size]

/-- A solution is its encoding and its variables. -/
theorem ext_entries {s t : Solution α} (he : s.encoding = t.encoding) (h : s.entries = t.entries) :
    s = t := by
  cases s <;> cases t
  case binary.binary a b =>
    have hlists := (List.map_injective_iff.mpr fun _ _ => Sum.inl.inj) h
    rw [Array.toList_inj.mp hlists]
  case real.real a b =>
    have hlists := (List.map_injective_iff.mpr fun _ _ => Sum.inr.inj) h
    rw [Array.toList_inj.mp hlists]
  all_goals exact absurd he (by simp [encoding])

@[simp] theorem encoding_piece (s : Solution α) (r : Share) : (s.piece r).encoding = s.encoding := by
  cases s <;> rfl

theorem entries_piece (s : Solution α) (r : Share) :
    (s.piece r).entries = s.entries.extract r.start.toNat r.stop.toNat := by
  cases s <;> simp [piece, entries, List.extract_eq_take_drop]

theorem entries_joined {e : Encoding} {pieces : List (Solution α)}
    (h : ∀ piece ∈ pieces, piece.encoding = e) :
    (joined e pieces).entries = (pieces.map entries).flatten := by
  rw [← List.flatMap_def]
  cases e
  all_goals
    simp only [joined, entries, List.map_flatMap]
    refine List.flatMap_congr fun piece hpiece => ?_
    have hencoding := h piece hpiece
    cases piece
  case binary.binary bits => rfl
  case real.real values => rfl
  all_goals exact absurd hencoding (by simp [encoding])

theorem size_joined {e : Encoding} {pieces : List (Solution α)}
    (h : ∀ piece ∈ pieces, piece.encoding = e) :
    (joined e pieces).size = (pieces.map size).sum := by
  rw [← length_entries, entries_joined h, List.length_flatten, List.map_map]
  simp [Function.comp_def]

/-- **A piece of pieces**, cut out where it lies. -/
theorem piece_joined {e : Encoding} {pieces : List (Solution α)}
    (h : ∀ piece ∈ pieces, piece.encoding = e) {i : Nat} {piece : Solution α}
    (hpiece : pieces[i]? = some piece) {r : Share}
    (hstart : r.start.toNat = ((pieces.take i).map size).sum)
    (hstop : r.stop.toNat = r.start.toNat + piece.size) : (joined e pieces).piece r = piece := by
  refine ext_entries ?_ ?_
  · rw [encoding_piece, encoding_joined, h piece (List.mem_of_getElem? hpiece)]
  · obtain ⟨hi, rfl⟩ := List.getElem?_eq_some_iff.mp hpiece
    have hsizes : pieces.map size = (pieces.map entries).map List.length := by
      simp [Function.comp_def]
    have hbegin : r.start.toNat = (((pieces.map entries).map List.length).take i).sum := by
      rw [hstart, List.map_take, hsizes]
    have hend : r.stop.toNat = (((pieces.map entries).map List.length).take (i + 1)).sum := by
      rw [hstop, hbegin, List.sum_take_succ _ i (by simpa using hi), List.getElem_map, List.getElem_map,
        length_entries]
    rw [entries_piece, entries_joined h, List.extract_eq_take_drop, ← List.drop_take, hbegin, hend,
      List.drop_take_succ_flatten_eq_getElem _ i (by simpa using hi), List.getElem_map]

end Solution

namespace Layout

/-! ### Ranges that can be counted -/

/-- Where the lengths can be counted in a word, a range begins where the earlier ones end, and is as long as it says. -/
theorem tile_spec {counts : List UInt64} :
    ∀ {start : UInt64}, start.toNat + (counts.map UInt64.toNat).sum < UInt64.size →
      ∀ {i : Nat} {r : Share} {n : UInt64}, (tile start counts).1[i]? = some r → counts[i]? = some n →
        r.start.toNat = start.toNat + ((counts.take i).map UInt64.toNat).sum ∧
          r.stop.toNat = r.start.toNat + n.toNat := by
  induction counts with
  | nil => intro start _ i r n _ hn; exact absurd hn (by simp)
  | cons m counts ih =>
    intro start hsum i r n hr hn
    rw [List.map_cons, List.sum_cons] at hsum
    have hnext : (start + m).toNat = start.toNat + m.toNat := by
      rw [UInt64.toNat_add]
      exact Nat.mod_eq_of_lt (by simp only [UInt64.size] at hsum; omega)
    cases i with
    | zero =>
      obtain rfl : m = n := by simpa using hn
      have hr : ({ start, stop := start + m } : Share) = r := by simpa [tile] using hr
      rw [← hr]
      exact ⟨rfl, hnext⟩
    | succ i =>
      have hrest : (start + m).toNat + (counts.map UInt64.toNat).sum < UInt64.size := by omega
      obtain ⟨hstart, hstop⟩ := ih hrest (i := i) (r := r) (n := n) (by simpa [tile] using hr)
        (by simpa using hn)
      rw [List.take_succ_cons, List.map_cons, List.sum_cons]
      exact ⟨by omega, hstop⟩

/-- Ranges that cover a list cut it into blocks that are the list again. -/
theorem flatten_tile {β : Type} {xs : List β} {counts : List UInt64} (hxs : xs.length < UInt64.size) :
    ∀ {start : UInt64}, start.toNat + (counts.map UInt64.toNat).sum = xs.length →
      ((tile start counts).1.map fun r => xs.extract r.start.toNat r.stop.toNat).flatten
        = xs.drop start.toNat := by
  induction counts with
  | nil =>
    intro start hsum
    rw [List.drop_of_length_le (by simpa using Nat.le_of_eq hsum.symm)]
    rfl
  | cons n counts ih =>
    intro start hsum
    rw [List.map_cons, List.sum_cons] at hsum
    have hnext : (start + n).toNat = start.toNat + n.toNat := by
      rw [UInt64.toNat_add]
      exact Nat.mod_eq_of_lt (by simp only [UInt64.size] at hxs; omega)
    have hcovers : (start + n).toNat + (counts.map UInt64.toNat).sum = xs.length := by omega
    have hrest := ih hcovers
    simp only [tile, List.map_cons, List.flatten_cons, hrest, hnext, List.extract_eq_take_drop,
      Nat.add_sub_cancel_left]
    rw [← List.drop_drop, List.take_append_drop]

section Parts

variable {P α : Type} [Part P α] {e : Encoding} {parts : List P} {pieces : List (Solution α)}

/-- A piece of a solution that is as long as a part asks for. -/
def Suits (e : Encoding) (p : P) (piece : Solution α) : Prop :=
  piece.encoding = e ∧ piece.size = (ownedCount e p).toNat

def cut (l : Layout) (s : Solution α) : List (Solution α) :=
  (l.shares s.encoding).toList.map s.piece

/-- A part with the piece that was made for it. A part that asks for nothing keeps what it has. -/
def served [Scalar α] (e : Encoding) (p : P) (piece : Solution α) : P :=
  if ownedCount e p = 0 then p else Part.withSolution p piece

theorem sum_ownedCount (e : Encoding) (parts : List P) :
    (0 : UInt64).toNat + ((parts.map (ownedCount e)).map UInt64.toNat).sum = totalCount e parts := by
  rw [List.map_map, UInt64.toNat_zero, Nat.zero_add]
  rfl

theorem sum_ownedCount_lt (hcount : totalCount e parts < UInt64.size) :
    (0 : UInt64).toNat + ((parts.map (ownedCount e)).map UInt64.toNat).sum < UInt64.size := by
  rwa [sum_ownedCount]

theorem toNat_width (hcount : totalCount e parts < UInt64.size) :
    ((ofParts parts).width e).toNat = totalCount e parts := by
  rw [width_ofParts, (stop_tile_le 0 (sum_ownedCount_lt hcount)).1, sum_ownedCount]

theorem encoding_of_suits (h : List.Forall₂ (Suits e) parts pieces) :
    ∀ piece ∈ pieces, piece.encoding = e := by
  induction h with
  | nil => exact fun piece hpiece => absurd hpiece (by simp)
  | cons hpiece _ ih => exact List.forall_mem_cons.mpr ⟨hpiece.1, ih⟩

theorem map_size_of_suits (h : List.Forall₂ (Suits e) parts pieces) :
    pieces.map Solution.size = (parts.map (ownedCount e)).map UInt64.toNat := by
  induction h with
  | nil => rfl
  | cons hpiece _ ih => rw [List.map_cons, hpiece.2, ih]; rfl

theorem suits_of_getElem? (h : List.Forall₂ (Suits e) parts pieces) {i : Nat} {p : P} {piece : Solution α}
    (hp : parts[i]? = some p) (hpiece : pieces[i]? = some piece) : Suits e p piece := by
  obtain ⟨hip, rfl⟩ := List.getElem?_eq_some_iff.mp hp
  obtain ⟨hipiece, rfl⟩ := List.getElem?_eq_some_iff.mp hpiece
  exact List.Forall₂.get h hip hipiece

theorem size_joined_of_suits (h : List.Forall₂ (Suits e) parts pieces) :
    (Solution.joined e pieces).size = totalCount e parts := by
  rw [Solution.size_joined (encoding_of_suits h), map_size_of_suits h, ← sum_ownedCount, UInt64.toNat_zero,
    Nat.zero_add]

theorem take_map_toNat (h : List.Forall₂ (Suits e) parts pieces) (i : Nat) :
    (((parts.map (ownedCount e)).take i).map UInt64.toNat).sum
      = ((pieces.take i).map Solution.size).sum := by
  rw [List.map_take, List.map_take, map_size_of_suits h]

/-- **The pieces of a solution suit the parts.** -/
theorem suits_cut {s : Solution α} (hsize : s.size = totalCount s.encoding parts)
    (hcount : totalCount s.encoding parts < UInt64.size) :
    List.Forall₂ (Suits s.encoding) parts ((ofParts parts).cut s) := by
  have hsum := sum_ownedCount_lt hcount
  obtain ⟨hend, hstops⟩ := stop_tile_le 0 hsum
  have hlength : ((ofParts parts).cut s).length = parts.length := by simp [cut]
  refine List.forall₂_iff_get.mpr ⟨hlength.symm, fun i hi hi' => ?_⟩
  have hrange : i < (tile 0 (parts.map (ownedCount s.encoding))).1.length := by simpa using hi
  have hr := List.getElem?_eq_getElem hrange
  obtain ⟨-, hstop⟩ := tile_spec hsum hr (n := ownedCount s.encoding parts[i]) (by simp [hi])
  have hle := hstops _ (List.mem_of_getElem? hr)
  have hpiece : ((ofParts parts).cut s).get ⟨i, hi'⟩
      = s.piece (tile 0 (parts.map (ownedCount s.encoding))).1[i] := by
    simp [cut, shares_ofParts]
  rw [hpiece]
  refine ⟨Solution.encoding_piece .., ?_⟩
  have hall : s.size = (tile 0 (parts.map (ownedCount s.encoding))).2.toNat := by
    rw [hend, hsize, sum_ownedCount]
  show (s.piece _).size = (ownedCount s.encoding parts[i]).toNat
  rw [← Solution.length_entries, Solution.entries_piece, List.extract_eq_take_drop, List.length_take,
    List.length_drop, Solution.length_entries]
  omega

/-- **A solution is its pieces.** -/
theorem joined_cut {s : Solution α} (hsize : s.size = totalCount s.encoding parts)
    (hcount : totalCount s.encoding parts < UInt64.size) :
    Solution.joined s.encoding ((ofParts parts).cut s) = s := by
  refine Solution.ext_entries (Solution.encoding_joined ..) ?_
  rw [Solution.entries_joined (encoding_of_suits (suits_cut hsize hcount)), cut, shares_ofParts,
    List.map_map]
  have hlength : s.entries.length < UInt64.size := by
    rw [Solution.length_entries, hsize]
    exact hcount
  have hsum : (0 : UInt64).toNat + ((parts.map (ownedCount s.encoding)).map UInt64.toNat).sum
      = s.entries.length := by
    rw [Solution.length_entries, hsize, sum_ownedCount]
  refine Eq.trans ?_ (flatten_tile hlength hsum)
  simp [Function.comp_def, Solution.entries_piece]

theorem accepts_joined (h : List.Forall₂ (Suits e) parts pieces)
    (hcount : totalCount e parts < UInt64.size) :
    (ofParts parts).Accepts (Solution.joined e pieces) := by
  refine accepts_of_width (by rwa [Solution.encoding_joined]) ?_
  rw [Solution.encoding_joined, toNat_width hcount, size_joined_of_suits h]

/-- **A part is handed the piece that was made for it.** -/
theorem handOut_joined [Scalar α] (h : List.Forall₂ (Suits e) parts pieces)
    (hcount : totalCount e parts < UInt64.size) {i : Nat} {p : P} {piece : Solution α}
    (hp : parts[i]? = some p) (hpiece : pieces[i]? = some piece) :
    ((ofParts parts).handOut (Solution.joined e pieces) parts.toArray)[i]?
      = some (served e p piece) := by
  have hsum := sum_ownedCount_lt hcount
  have hi : i < parts.length := (List.getElem?_eq_some_iff.mp hp).1
  obtain ⟨r, hr⟩ : ∃ r, (tile 0 (parts.map (ownedCount e))).1[i]? = some r :=
    ⟨_, List.getElem?_eq_getElem (by simpa using hi)⟩
  obtain ⟨hstart, hstop⟩ := tile_spec hsum hr (n := ownedCount e p) (by simp [hp])
  have hsuits := suits_of_getElem? h hp hpiece
  have hmine : (Solution.joined e pieces).piece r = piece := by
    refine Solution.piece_joined (encoding_of_suits h) hpiece ?_ (by rw [hstop, hsuits.2])
    rw [hstart, take_map_toNat h]
    simp
  have hempty : r.isEmpty = decide (ownedCount e p = 0) := by
    have hzero : ownedCount e p = 0 ↔ (ownedCount e p).toNat = 0 := by
      rw [← UInt64.toNat_inj]
      rfl
    simp only [Share.isEmpty, UInt64.lt_iff_toNat_lt, hzero]
    by_cases hn : (ownedCount e p).toNat = 0
    · simp [hn, hstop]
    · simp [hn, hstop, Nat.pos_of_ne_zero hn]
  simp only [handOut, Array.getElem?_mapIdx, List.getElem?_toArray, hp, Option.map_some,
    Solution.encoding_joined, shares_ofParts, hr, handed, hempty, hmine, served, decide_eq_true_eq]

end Parts

end Layout

end HomeEnergy

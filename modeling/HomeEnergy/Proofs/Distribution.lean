import HomeEnergy.Search.Sampling
import HomeEnergy.Layout
import HomeEnergy.Proofs.Restart
import Mathlib.Algebra.GroupWithZero.Nat

/-!
# Who gets a share of a solution

Ranges are counted in machine words, and a word wraps round. This module says what a distribution does for
every layout, and what wrapping round can and cannot do to it.

* `Layout.Accepts` — the condition on a solution alone under which it is distributed;
  `Layout.distribute_eq` — **whether a distribution succeeds does not depend on the parts**, and each part
  gets its own range.
* `Layout.accepts_of_width` — a solution of the right width is accepted, as long as the variables of all
  parts together can be counted in a word.
* `Layout.Grants`, `Layout.grants_of_share` — **a part that once got variables gets variables from every
  accepted solution**, of either encoding.
-/

namespace HomeEnergy

namespace Solution

variable {α : Type}

def Storable (s : Solution α) : Prop :=
  s.size * variableBytes s.encoding ≤ maxTableBytes

def piece (s : Solution α) (r : Share) : Solution α :=
  match s with
  | binary bits => binary (bits.extract r.start.toNat r.stop.toNat)
  | real values => real (values.extract r.start.toNat r.stop.toNat)

end Solution

/-- True of a range that is empty or lies within a solution. -/
def Share.isWithin (size : Nat) (r : Share) : Bool :=
  r.isEmpty || decide (r.stop.toNat ≤ size)

namespace Layout

variable {P α : Type} [Scalar α] [Part P α]

def handed (s : Solution α) (p : P) (r : Share) : P :=
  if r.isEmpty then p else Part.withSolution p (s.piece r)

/-- A range is handed out if it is empty or lies within the solution. -/
theorem give_eq (s : Solution α) (p : P) (r : Share) :
    give s p r = if r.isWithin s.size then .ok (handed s p r)
      else .error (.defect .indexOutOfRange) := by
  unfold give handed Share.isWithin
  by_cases hempty : r.isEmpty = true
  · simp [hempty]
  · have hlt : r.start < r.stop := by simpa [Share.isEmpty] using hempty
    have hle : r.start.toNat ≤ r.stop.toNat := Nat.le_of_lt (UInt64.lt_iff_toNat_lt.mp hlt)
    simp only [hempty, Bool.false_or, decide_eq_true_eq]
    by_cases hstop : r.stop.toNat ≤ s.size
    · cases s <;> simp [Solution.slice, Solution.piece, hle, hstop]
    · simp [Solution.slice, hstop]

def handedAll (s : Solution α) : List P → List Share → List P
  | p :: parts, r :: shares => handed s p r :: handedAll s parts shares
  | parts, _ => parts

theorem giveAll_eq (s : Solution α) :
    ∀ (parts : List P) (shares : List Share), parts.length = shares.length →
      giveAll s parts shares = if shares.all (Share.isWithin s.size) then .ok (handedAll s parts shares)
        else .error (.defect .indexOutOfRange) := by
  intro parts
  induction parts with
  | nil =>
    intro shares hlength
    have hnil : shares = [] := List.eq_nil_of_length_eq_zero hlength.symm
    subst hnil
    rfl
  | cons p parts ih =>
    intro shares hlength
    cases shares with
    | nil => exact absurd hlength (by simp)
    | cons r shares =>
      have hrest := ih shares (by simpa using hlength)
      simp only [giveAll, give_eq, hrest, List.all_cons]
      by_cases hr : r.isWithin s.size = true
      · by_cases hall : shares.all (Share.isWithin s.size) = true
        · simp only [hr, hall, if_true, Bool.and_self]
          rfl
        · simp only [hr, hall, if_true, Bool.true_and]
          rfl
      · simp only [hr, Bool.false_and]
        rfl

omit [Scalar α] in
theorem getElem?_handedAll (s : Solution α) :
    ∀ (parts : List P) (shares : List Share) (i : Nat),
      (handedAll s parts shares)[i]? = parts[i]?.map fun p =>
        match shares[i]? with
        | some r => handed s p r
        | none => p := by
  intro parts
  induction parts with
  | nil => intro shares i; simp [handedAll]
  | cons p parts ih =>
    intro shares i
    cases shares with
    | nil => simp [handedAll]
    | cons r shares =>
      cases i with
      | zero => rfl
      | succ i => simpa [handedAll] using ih shares i

/-- What a layout requires of a solution: the right width, and every range within the solution. -/
def Accepts (l : Layout) (s : Solution α) : Prop :=
  s.size = (l.width s.encoding).toNat ∧
    (l.shares s.encoding).all (Share.isWithin s.size) = true

instance (l : Layout) (s : Solution α) : Decidable (l.Accepts s) :=
  inferInstanceAs (Decidable (_ ∧ _))

def refusal (l : Layout) (s : Solution α) : Failure :=
  if s.size = (l.width s.encoding).toNat then .defect .indexOutOfRange
  else .widthMismatch (l.width s.encoding).toNat s.size

/-- The parts with their ranges of an accepted solution. -/
def handOut (l : Layout) (s : Solution α) (parts : Array P) : Array P :=
  parts.mapIdx fun i p =>
    match (l.shares s.encoding)[i]? with
    | some r => handed s p r
    | none => p

/-- **Whether a distribution succeeds does not depend on the parts**, and each part gets its own range. -/
theorem distribute_eq {l : Layout} {s : Solution α} {parts : Array P}
    (hsize : parts.size = (l.shares s.encoding).size) :
    l.distribute s parts = if l.Accepts s then .ok (l.handOut s parts) else .error (l.refusal s) := by
  have hout : (handedAll s parts.toList (l.shares s.encoding).toList).toArray = l.handOut s parts := by
    apply Array.ext_getElem?
    intro i
    simp only [List.getElem?_toArray, getElem?_handedAll, Array.getElem?_toList, handOut,
      Array.getElem?_mapIdx]
  have hall : (l.shares s.encoding).toList.all (Share.isWithin s.size)
      = (l.shares s.encoding).all (Share.isWithin s.size) := by simp
  have hgive := giveAll_eq s parts.toList (l.shares s.encoding).toList (by simpa using hsize)
  rw [hall] at hgive
  by_cases hwidth : s.size = (l.width s.encoding).toNat
  · by_cases hwithin : (l.shares s.encoding).all (Share.isWithin s.size) = true
    · have haccepts : l.Accepts s := ⟨hwidth, hwithin⟩
      simp only [distribute, if_pos hwidth, hgive, if_pos hwithin, if_pos haccepts, ← hout]
      rfl
    · have haccepts : ¬ l.Accepts s := fun h => hwithin h.2
      simp only [distribute, if_pos hwidth, hgive, if_neg hwithin, if_neg haccepts, refusal]
      rfl
  · have haccepts : ¬ l.Accepts s := fun h => hwidth h.1
    simp only [distribute, if_neg hwidth, if_neg haccepts, refusal]

/-! ### Consecutive ranges -/

omit [Scalar α] [Part P α] in
@[simp] theorem length_tile (start : UInt64) (counts : List UInt64) :
    (tile start counts).1.length = counts.length := by
  induction counts generalizing start with
  | nil => rfl
  | cons n counts ih => simp [tile, ih]

/-- A range has the length that was asked for, counted in words. -/
theorem stop_tile {start : UInt64} {counts : List UInt64} {i : Nat} {r : Share} {n : UInt64}
    (hr : (tile start counts).1[i]? = some r) (hn : counts[i]? = some n) :
    r.stop = r.start + n := by
  induction counts generalizing start i with
  | nil => exact absurd hn (by simp)
  | cons m counts ih =>
    cases i with
    | zero =>
      obtain rfl : m = n := by simpa using hn
      have hr : ({ start, stop := start + m } : Share) = r := by simpa [tile] using hr
      rw [← hr]
    | succ i => exact ih (by simpa [tile] using hr) (by simpa using hn)

/-- Where all ranges are empty or within a solution, none begins behind it. Wrapping round only leads
back. -/
theorem start_tile_le {size : Nat} {counts : List UInt64} :
    ∀ {start : UInt64}, start.toNat ≤ size →
      (tile start counts).1.all (Share.isWithin size) = true →
      ∀ r ∈ (tile start counts).1, r.start.toNat ≤ size := by
  induction counts with
  | nil => intro start _ _ r hr; exact absurd hr (by simp [tile])
  | cons n counts ih =>
    intro start hstart hall r hr
    simp only [tile, List.all_cons, Bool.and_eq_true] at hall
    simp only [tile, List.mem_cons] at hr
    rcases hr with rfl | hr
    · exact hstart
    · refine ih ?_ hall.2 r hr
      rcases Bool.or_eq_true_iff.mp hall.1 with hempty | hstop
      · have hle : start + n ≤ start := by simpa [Share.isEmpty] using hempty
        exact Nat.le_trans (UInt64.le_iff_toNat_le.mp hle) hstart
      · simpa using hstop

/-- Where the lengths can be counted in a word, the ranges end where the last one does, or before. -/
theorem stop_tile_le {counts : List UInt64} :
    ∀ start : UInt64, start.toNat + (counts.map UInt64.toNat).sum < UInt64.size →
      (tile start counts).2.toNat = start.toNat + (counts.map UInt64.toNat).sum ∧
      ∀ r ∈ (tile start counts).1, r.stop.toNat ≤ (tile start counts).2.toNat := by
  induction counts with
  | nil =>
    intro start _
    exact ⟨by simp [tile], by simp [tile]⟩
  | cons n counts ih =>
    intro start hsum
    rw [List.map_cons, List.sum_cons] at hsum ⊢
    have hstart : (start + n).toNat = start.toNat + n.toNat := by
      rw [UInt64.toNat_add]
      exact Nat.mod_eq_of_lt (by simp only [UInt64.size] at hsum; omega)
    obtain ⟨hend, hrest⟩ := ih (start + n) (by rw [hstart]; omega)
    refine ⟨by simp only [tile]; omega, ?_⟩
    intro r hr
    simp only [tile, List.mem_cons] at hr ⊢
    rcases hr with rfl | hr
    · show (start + n).toNat ≤ _
      omega
    · exact hrest r hr

/-! ### The layout of a list of parts -/

omit [Scalar α] in
theorem shares_ofParts (parts : List P) (e : Encoding) :
    (ofParts parts).shares e = (tile 0 (parts.map (ownedCount e))).1.toArray := by
  cases e <;> rfl

omit [Scalar α] in
theorem width_ofParts (parts : List P) (e : Encoding) :
    (ofParts parts).width e = (tile 0 (parts.map (ownedCount e))).2 := by
  cases e <;> rfl

omit [Scalar α] in
@[simp] theorem size_shares_ofParts (parts : List P) (e : Encoding) :
    ((ofParts parts).shares e).size = parts.length := by
  simp [shares_ofParts]

/-- The number of variables of all parts together, counted without a bound. -/
def totalCount (e : Encoding) (parts : List P) : Nat :=
  (parts.map fun p => (ownedCount e p).toNat).sum

omit [Scalar α] in
/-- **A solution of the right width is accepted**, as long as its variables can be counted. -/
theorem accepts_of_width {parts : List P} {s : Solution α}
    (hcount : totalCount s.encoding parts < UInt64.size)
    (hwidth : s.size = ((ofParts parts).width s.encoding).toNat) : (ofParts parts).Accepts s := by
  refine ⟨hwidth, ?_⟩
  have hsum : ((0 : UInt64).toNat + ((parts.map (ownedCount s.encoding)).map UInt64.toNat).sum)
      < UInt64.size := by
    simpa [totalCount, Function.comp_def] using hcount
  obtain ⟨-, hstops⟩ := stop_tile_le 0 hsum
  rw [width_ofParts] at hwidth
  rw [shares_ofParts, List.all_toArray, List.all_eq_true, hwidth]
  intro r hr
  exact Bool.or_eq_true_iff.mpr (Or.inr (by simpa using hstops r hr))

/-! ### Who gets variables -/

/-- True of a part that gets variables from every solution that is accepted and that a table can hold. -/
def Grants (l : Layout) (α : Type) [Scalar α] (i : Nat) : Prop :=
  ∀ s : Solution α, s.Storable → l.Accepts s →
    ∃ r, (l.shares s.encoding)[i]? = some r ∧ r.isEmpty = false

omit [Scalar α] in
/-- The range of a part begins within an accepted solution and is as long as the part asks for, counted in
words. -/
theorem share_spec {parts : List P} {s : Solution α} (haccepts : (ofParts parts).Accepts s) {i : Nat}
    {p : P} (hp : parts[i]? = some p) :
    ∃ r, ((ofParts parts).shares s.encoding)[i]? = some r ∧ r.isWithin s.size = true ∧
      r.start.toNat ≤ s.size ∧ r.stop = r.start + ownedCount s.encoding p := by
  obtain ⟨hwidth, hall⟩ := haccepts
  rw [shares_ofParts] at hall ⊢
  rw [List.all_toArray] at hall
  have hlt : i < (tile 0 (parts.map (ownedCount s.encoding))).1.length := by
    simpa using (List.getElem?_eq_some_iff.mp hp).1
  have hr := List.getElem?_eq_getElem hlt
  refine ⟨_, (List.getElem?_toArray ..).trans hr, ?_, ?_, ?_⟩
  · exact List.all_eq_true.mp hall _ (List.getElem_mem hlt)
  · exact start_tile_le (Nat.zero_le _) hall _ (List.getElem_mem hlt)
  · exact stop_tile hr (by rw [List.getElem?_map, hp]; rfl)

/-- A range with variables that lies within a solution is as long as it says. -/
theorem count_of_nonempty {size : Nat} {r : Share} {n : UInt64} (hempty : r.isEmpty = false)
    (hwithin : r.isWithin size = true) (hstop : r.stop = r.start + n) :
    0 < n.toNat ∧ n.toNat ≤ size := by
  have hlt : r.start.toNat < r.stop.toNat := by
    have : r.start < r.stop := by simpa [Share.isEmpty] using hempty
    exact UInt64.lt_iff_toNat_lt.mp this
  have hle : r.stop.toNat ≤ size := by simpa [Share.isWithin, hempty] using hwithin
  have hsum := congrArg UInt64.toNat hstop
  rw [UInt64.toNat_add] at hsum
  have := r.start.toNat_lt
  have := n.toNat_lt
  omega

/-- A range whose end can be counted in a word has variables if its length is not zero. -/
theorem nonempty_of_count {r : Share} {n : UInt64} (hstop : r.stop = r.start + n)
    (hpos : 0 < n.toNat) (hsum : r.start.toNat + n.toNat < UInt64.size) : r.isEmpty = false := by
  have hstop := congrArg UInt64.toNat hstop
  rw [UInt64.toNat_add, Nat.mod_eq_of_lt hsum] at hstop
  have hlt : r.start < r.stop := UInt64.lt_iff_toNat_lt.mpr (by omega)
  simpa [Share.isEmpty] using hlt

variable [Part.Restartable P]

theorem ownedCount_binary (p : P) : ownedCount .binary p = ownedCount .real p ∨
    ownedCount .binary p = 2 * ownedCount .real p := by
  unfold ownedCount
  split
  · exact Or.inl rfl
  · exact Part.Restartable.variableCount_binary p

/-- The number of variables that a part owns in one encoding, bounded by that in the other one. -/
theorem ownedCount_bound {p : P} {s s' : Solution α} (hs : s.Storable) (hs' : s'.Storable)
    (hpos : 0 < (ownedCount s.encoding p).toNat) (hle : (ownedCount s.encoding p).toNat ≤ s.size) :
    0 < (ownedCount s'.encoding p).toNat ∧
      s'.size + (ownedCount s'.encoding p).toNat < UInt64.size := by
  unfold Solution.Storable at hs hs'
  have hbinary := ownedCount_binary p
  have hlt := (ownedCount .real p).toNat_lt
  have hdouble : (2 * ownedCount .real p).toNat = 2 * (ownedCount .real p).toNat % 2 ^ 64 := by
    rw [UInt64.toNat_mul]
    rfl
  cases hencoding : s.encoding <;> cases hencoding' : s'.encoding <;>
    simp only [hencoding, hencoding', Solution.variableBytes, maxTableBytes, UInt64.size]
      at hs hs' hpos hle ⊢
  · omega
  · rcases hbinary with h | h <;> rw [h] at hpos hle <;> omega
  · rcases hbinary with h | h <;> rw [h] <;> omega
  · omega

/-- **A part that once got variables gets variables from every accepted solution.** The number of
variables of a part differs between the encodings by a factor of two at most, and a table holds so few that
neither count wraps round. -/
theorem grants_of_share {parts : List P} {s : Solution α} (hs : s.Storable)
    (haccepts : (ofParts parts).Accepts s) {i : Nat} {r : Share}
    (hr : ((ofParts parts).shares s.encoding)[i]? = some r) (hempty : r.isEmpty = false) :
    (ofParts parts).Grants α i := by
  intro s' hs' haccepts'
  have hi : i < parts.length := by
    have := (Array.getElem?_eq_some_iff.mp hr).1
    simpa using this
  have hp := List.getElem?_eq_getElem hi
  obtain ⟨r₀, hr₀, hwithin, -, hstop⟩ := share_spec haccepts hp
  obtain rfl : r = r₀ := Option.some.inj (hr.symm.trans hr₀)
  obtain ⟨r', hr', -, hstart', hstop'⟩ := share_spec haccepts' hp
  obtain ⟨hpos, hle⟩ := count_of_nonempty hempty hwithin hstop
  obtain ⟨hpos', hsum'⟩ := ownedCount_bound hs hs' hpos hle
  exact ⟨r', hr', nonempty_of_count hstop' hpos' (by omega)⟩

end Layout

end HomeEnergy

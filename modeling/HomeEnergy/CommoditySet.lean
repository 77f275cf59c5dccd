import HomeEnergy.Commodity

/-!
# Sets of commodities

A set of commodities is one bit per commodity. The lemmas say what each operation does to membership;
nothing else needs the bits.
-/

namespace HomeEnergy

structure CommoditySet where
  bits : BitVec 5
deriving DecidableEq, Inhabited, Repr

namespace CommoditySet

def empty : CommoditySet := ⟨0⟩

def full : CommoditySet := ⟨BitVec.allOnes 5⟩

@[inline] def contains (s : CommoditySet) (c : Commodity) : Bool :=
  s.bits.getLsbD c.index.val

def bit : Commodity → BitVec 5
  | .activePower => 1
  | .reactivePower => 2
  | .heatingHotWater => 4
  | .domesticHotWater => 8
  | .naturalGas => 16

@[inline] def insert (s : CommoditySet) (c : Commodity) : CommoditySet :=
  ⟨s.bits ||| bit c⟩

def ofList (cs : List Commodity) : CommoditySet :=
  cs.foldl insert empty

@[inline] def isEmpty (s : CommoditySet) : Bool :=
  s.bits == 0

theorem getLsbD_bit (c d : Commodity) : (bit c).getLsbD d.index.val = decide (c = d) := by
  cases c <;> cases d <;> decide

@[simp] theorem contains_empty (c : Commodity) : empty.contains c = false := by
  cases c <;> decide

@[simp] theorem contains_full (c : Commodity) : full.contains c = true := by
  cases c <;> decide

@[simp] theorem contains_insert (s : CommoditySet) (c d : Commodity) :
    (s.insert c).contains d = (s.contains d || decide (c = d)) := by
  simp only [contains, insert, BitVec.getLsbD_or, getLsbD_bit]

theorem contains_foldl_insert (cs : List Commodity) (s : CommoditySet) (c : Commodity) :
    (cs.foldl insert s).contains c = (s.contains c || decide (c ∈ cs)) := by
  induction cs generalizing s with
  | nil => simp
  | cons d cs ih =>
    rw [List.foldl_cons, ih, contains_insert]
    simp [Bool.or_assoc, eq_comm]

@[simp] theorem contains_ofList (cs : List Commodity) (c : Commodity) :
    (ofList cs).contains c = decide (c ∈ cs) := by
  rw [ofList, contains_foldl_insert, contains_empty, Bool.false_or]

/-- Sets with the same members are equal. -/
theorem eq_of_contains {s t : CommoditySet} (h : ∀ c, s.contains c = t.contains c) : s = t := by
  have hbits : s.bits = t.bits := by
    apply BitVec.eq_of_getLsbD_eq
    intro i hi
    obtain ⟨c, rfl⟩ := Commodity.exists_index_val hi
    exact h c
  cases s
  cases t
  exact congrArg mk hbits

theorem isEmpty_iff {s : CommoditySet} : s.isEmpty = true ↔ ∀ c, s.contains c = false := by
  constructor
  · intro h c
    have hempty : s = empty := congrArg mk (eq_of_beq h)
    rw [hempty, contains_empty]
  · intro h
    have hempty : s = empty := eq_of_contains fun c => by rw [h, contains_empty]
    rw [hempty]
    rfl

/-- Lists have the same set if they have the same members. -/
theorem ofList_eq_ofList_iff {cs ds : List Commodity} : ofList cs = ofList ds ↔ ∀ c, c ∈ cs ↔ c ∈ ds := by
  constructor
  · intro h c
    have hcontains : (ofList cs).contains c = (ofList ds).contains c := by rw [h]
    simpa using hcontains
  · intro h
    refine eq_of_contains fun c => ?_
    simp [h c]

@[simp] theorem insert_insert_self (s : CommoditySet) (c : Commodity) : (s.insert c).insert c = s.insert c :=
  eq_of_contains fun d => by simp

theorem insert_insert_comm (s : CommoditySet) (c d : Commodity) :
    (s.insert c).insert d = (s.insert d).insert c :=
  eq_of_contains fun e => by simp [Bool.or_assoc, Bool.or_comm (decide (c = e))]

end CommoditySet

end HomeEnergy

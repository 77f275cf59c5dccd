import HomeEnergy.FlowMap
import HomeEnergy.Proofs.Order
import Mathlib.Logic.Function.Basic

/-!
# What a flow map holds

A flow map keeps the allowed commodities, two sets of bits and two tables of slots, and every operation updates each
of them on its own. This module says that nobody has to know: a flow map is two partial maps.

* `Contents` — a power and a temperature for some of the commodities; `FlowMap.contents` — what a flow map holds.
* `FlowMap.reads_contents` — **a reader finds the contents and nothing else**, whatever the slots hold.
* `Slots` — bits with their slots, the same for powers and temperatures; `Slots.Tidy` — nothing is left in a slot
  without an entry, and no entry is outside the allowed commodities.
* `FlowMap.contents_change`, `FlowMap.tidy_change` — **one operation changes the contents as it says**, and leaves a
  tidy map.
* `FlowMap.eq_iff_contents`, `FlowMap.same_iff_contents` — **tidy maps are equal if they allow and hold the same**,
  and compare equal if what they hold does.
* `Contents.changes` — operations that put given contents into an empty map; `FlowMap.exists_after_eq_iff_tidy` —
  **operations leave the tidy maps and no others**.
* `flowMap_canonical` — all of this for the maps that a series of operations leaves, in double-precision numbers.
-/

namespace HomeEnergy

/-! ### Two partial maps -/

/-- A power and a temperature for some of the commodities. -/
@[ext] structure Contents (α : Type) where
  power? : Commodity → Option α
  temperature? : Commodity → Option α

/-- One operation that changes a flow map. -/
inductive FlowMap.Change (α : Type) where
  | setPower (c : Commodity) (x : α)
  | addPower (c : Commodity) (x : α)
  | setTemperature (c : Commodity) (x : α)
  | clear

def FlowMap.Change.isAllowed {α : Type} (allowed : CommoditySet) : Change α → Bool
  | setPower c _ | addPower c _ | setTemperature c _ => allowed.contains c
  | clear => true

variable {α : Type}

namespace Contents

def empty : Contents α :=
  ⟨fun _ => none, fun _ => none⟩

/-- The contents after one change. -/
def change [Add α] (e : Contents α) : FlowMap.Change α → Contents α
  | .setPower c x => { e with power? := Function.update e.power? c (some x) }
  | .addPower c x =>
    let sum := match e.power? c with
      | some y => y + x
      | none => x
    { e with power? := Function.update e.power? c (some sum) }
  | .setTemperature c x => { e with temperature? := Function.update e.temperature? c (some x) }
  | .clear => empty

def after [Add α] (e : Contents α) (changes : List (FlowMap.Change α)) : Contents α :=
  changes.foldl change e

/-- Contents that compare equal, entry by entry and as numbers do: the two zeros are equal, and an undefined number
equals nothing. -/
def Same [BEq α] (e f : Contents α) : Prop :=
  ∀ c, (e.power? c == f.power? c) = true ∧ (e.temperature? c == f.temperature? c) = true

end Contents

/-- The entries of a partial map in index order, each of them once. -/
structure Lists (xs : List (Commodity × α)) (held? : Commodity → Option α) : Prop where
  ordered : xs.Pairwise fun x y => x.1.index < y.1.index
  mem_iff : ∀ c x, (c, x) ∈ xs ↔ held? c = some x

/-! ### Bits and slots -/

/-- The commodities that are present, and a slot for every commodity. -/
structure Slots (α : Type) where
  present : CommoditySet
  values : Vector α 5

namespace Slots

def value (s : Slots α) (c : Commodity) : α :=
  s.values.get c.index

def get? (s : Slots α) (c : Commodity) : Option α :=
  if s.present.contains c then some (s.value c) else none

/-- What has become of the slots `s` when `x` is stored as the entry of `c`. -/
structure Stores (s : Slots α) (c : Commodity) (x : α) (t : Slots α) : Prop where
  present : t.present = s.present.insert c
  value : ∀ d, t.value d = if c = d then x else s.value d

theorem stores_set (present : CommoditySet) (values : Vector α 5) (c : Commodity) (x : α)
    (h : c.index.val < 5) :
    (⟨present, values⟩ : Slots α).Stores c x ⟨present.insert c, values.set c.index.val x h⟩ where
  present := rfl
  value d := by
    by_cases hcd : c = d
    · subst hcd
      rw [if_pos rfl]
      exact Vector.getElem_set_self h
    · rw [if_neg hcd]
      exact Vector.getElem_set_ne h d.index.isLt (Commodity.index_val_ne hcd)

theorem values_eq_of_value {s t : Slots α} (h : ∀ c, s.value c = t.value c) : s.values = t.values := by
  refine Vector.ext fun i hi => ?_
  obtain ⟨c, rfl⟩ := Commodity.exists_index_val hi
  exact h c

/-- Tables of slots compare equal if their slots do. -/
theorem values_beq_iff [BEq α] {s t : Slots α} :
    (s.values == t.values) = true ↔ ∀ c, (s.value c == t.value c) = true := by
  rw [Vector.beq_eq_decide, decide_eq_true_iff]
  constructor
  · intro h c
    exact h c.index.val c.index.isLt
  · intro h i hi
    obtain ⟨c, rfl⟩ := Commodity.exists_index_val hi
    exact h c

@[simp] theorem isSome_get? (s : Slots α) (c : Commodity) : (s.get? c).isSome = s.present.contains c := by
  unfold get?
  split <;> simp [*]

theorem get?_eq_none_iff {s : Slots α} {c : Commodity} : s.get? c = none ↔ s.present.contains c = false := by
  simp [get?]

theorem Stores.get?_eq {s t : Slots α} {c : Commodity} {x : α} (h : s.Stores c x t) :
    t.get? = Function.update s.get? c (some x) := by
  funext d
  by_cases hdc : d = c
  · subst hdc
    simp [get?, h.present, h.value]
  · rw [Function.update_of_ne hdc]
    simp [get?, h.present, h.value, Ne.symm hdc]

/-- **Entries are listed in index order**, since the commodities are. -/
theorem lists_get? (s : Slots α) :
    Lists ((Commodity.all.filter s.present.contains).map fun c => (c, s.value c)) s.get? where
  ordered := by
    have hall : Commodity.all.Pairwise fun c d => c.index < d.index := by decide
    exact List.pairwise_map.mpr (hall.filter _)
  mem_iff c x := by
    constructor
    · intro h
      obtain ⟨d, hd, heq⟩ := List.mem_map.mp h
      obtain ⟨rfl, rfl⟩ := Prod.mk.inj heq
      exact if_pos (List.mem_filter.mp hd).2
    · intro h
      obtain ⟨hpresent, rfl⟩ : s.present.contains c = true ∧ s.value c = x := by
        simpa [get?] using h
      exact List.mem_map.mpr ⟨c, List.mem_filter.mpr ⟨c.mem_all, hpresent⟩, rfl⟩

variable [Scalar α]

/-- Slots without an entry hold zero, and there are entries of allowed commodities only. -/
structure Tidy (s : Slots α) (allowed : CommoditySet) : Prop where
  zero_of_absent : ∀ c, s.present.contains c = false → s.value c = 0
  allowed_of_present : ∀ c, s.present.contains c = true → allowed.contains c = true

def blank : Slots α :=
  ⟨.empty, Vector.replicate 5 0⟩

theorem get?_blank : (blank : Slots α).get? = fun _ => none := by
  funext c
  simp [get?, blank]

theorem tidy_blank (allowed : CommoditySet) : (blank : Slots α).Tidy allowed where
  zero_of_absent c _ := Vector.getElem_replicate c.index.isLt
  allowed_of_present c h := by simp [blank] at h

variable {s t : Slots α} {allowed allowed' : CommoditySet}

/-- What is stored for an allowed commodity leaves tidy slots. -/
theorem Stores.tidy {c : Commodity} {x : α} (hst : s.Stores c x t) (h : s.Tidy allowed)
    (hc : allowed.contains c = true) : t.Tidy allowed where
  zero_of_absent d hd := by
    obtain ⟨habsent, hcd⟩ : s.present.contains d = false ∧ c ≠ d := by simpa [hst.present] using hd
    rw [hst.value, if_neg hcd]
    exact h.zero_of_absent d habsent
  allowed_of_present d hd := by
    have hor : s.present.contains d = true ∨ c = d := by simpa [hst.present] using hd
    rcases hor with hpresent | rfl
    · exact h.allowed_of_present d hpresent
    · exact hc

theorem Tidy.value_eq (h : s.Tidy allowed) (c : Commodity) : s.value c = (s.get? c).getD 0 := by
  unfold get?
  cases hc : s.present.contains c with
  | false => simpa using h.zero_of_absent c hc
  | true => rfl

/-- **Tidy slots with the same entries are equal.** -/
theorem Tidy.eq_of_get? (h : s.Tidy allowed) (h' : t.Tidy allowed') (hget : s.get? = t.get?) : s = t := by
  have hpresent : s.present = t.present := by
    refine CommoditySet.eq_of_contains fun c => ?_
    rw [← isSome_get?, ← isSome_get?, hget]
  have hvalues : s.values = t.values := by
    refine values_eq_of_value fun c => ?_
    rw [h.value_eq, h'.value_eq, hget]
  cases s
  cases t
  simp_all

/-- Entries of tidy slots compare equal if both are missing or neither, and the slots compare equal. -/
theorem Tidy.get?_beq_iff (h : s.Tidy allowed) (h' : t.Tidy allowed') (hzero : ((0 : α) == 0) = true)
    (c : Commodity) : (s.get? c == t.get? c) = true ↔
      s.present.contains c = t.present.contains c ∧ (s.value c == t.value c) = true := by
  rw [← isSome_get?, ← isSome_get?, h.value_eq, h'.value_eq]
  cases s.get? c <;> cases t.get? c <;> simp [hzero]

/-- **Tidy slots compare equal if their entries do**, provided that zero compares equal to itself. -/
theorem Tidy.beq_iff (h : s.Tidy allowed) (h' : t.Tidy allowed') (hzero : ((0 : α) == 0) = true) :
    s.present = t.present ∧ (s.values == t.values) = true ↔ ∀ c, (s.get? c == t.get? c) = true := by
  simp only [h.get?_beq_iff h' hzero, forall_and, values_beq_iff]
  exact and_congr_left' ⟨fun hpresent c => by rw [hpresent], CommoditySet.eq_of_contains⟩

end Slots

/-! ### The contents of a map -/

namespace FlowMap

def powerSlots (m : FlowMap α) : Slots α :=
  ⟨m.powerSet, m.powers⟩

def temperatureSlots (m : FlowMap α) : Slots α :=
  ⟨m.temperatureSet, m.temperatures⟩

def contents (m : FlowMap α) : Contents α :=
  ⟨m.powerSlots.get?, m.temperatureSlots.get?⟩

variable [Scalar α]

/-- What a reader finds in a map that holds the contents `e`. -/
structure Reads (m : FlowMap α) (e : Contents α) : Prop where
  power : ∀ c, m.power c = (e.power? c).getD 0
  temperature? : ∀ c, m.temperature? c = e.temperature? c
  containsPower : ∀ c, m.containsPower c = (e.power? c).isSome
  containsTemperature : ∀ c, m.containsTemperature c = (e.temperature? c).isSome
  containsCommodity : ∀ c, m.containsCommodity c = ((e.power? c).isSome || (e.temperature? c).isSome)
  isEmpty : m.isEmpty = true ↔ e = .empty
  powerEntries : Lists m.powerEntries e.power?
  temperatureEntries : Lists m.temperatureEntries e.temperature?

omit [Scalar α] in
/-- A map is empty if it holds nothing. -/
theorem isEmpty_iff_contents (m : FlowMap α) : m.isEmpty = true ↔ m.contents = .empty := by
  simp only [isEmpty, Bool.and_eq_true, CommoditySet.isEmpty_iff]
  constructor
  · rintro ⟨hpower, htemperature⟩
    exact Contents.ext (funext fun c => Slots.get?_eq_none_iff.mpr (hpower c))
      (funext fun c => Slots.get?_eq_none_iff.mpr (htemperature c))
  · intro h
    have hpower : m.powerSlots.get? = fun _ => none := congrArg Contents.power? h
    have htemperature : m.temperatureSlots.get? = fun _ => none := congrArg Contents.temperature? h
    exact ⟨fun c => Slots.get?_eq_none_iff.mp (congrFun hpower c),
      fun c => Slots.get?_eq_none_iff.mp (congrFun htemperature c)⟩

/-- **A reader finds the contents and nothing else.** -/
theorem reads_contents (m : FlowMap α) : m.Reads m.contents where
  power c := by
    show (if m.powerSlots.present.contains c then m.powerSlots.value c else 0) = (m.powerSlots.get? c).getD 0
    unfold Slots.get?
    split <;> rfl
  temperature? _ := rfl
  containsPower c := (m.powerSlots.isSome_get? c).symm
  containsTemperature c := (m.temperatureSlots.isSome_get? c).symm
  containsCommodity c := by
    show (m.powerSet.contains c || m.temperatureSet.contains c) = _
    rw [contents, Slots.isSome_get?, Slots.isSome_get?]
    rfl
  isEmpty := m.isEmpty_iff_contents
  powerEntries := m.powerSlots.lists_get?
  temperatureEntries := m.temperatureSlots.lists_get?

/-! ### One operation -/

/-- A map without leftovers: absent entries are zero, and present ones are allowed. -/
structure Tidy (m : FlowMap α) : Prop where
  powers : m.powerSlots.Tidy m.allowed
  temperatures : m.temperatureSlots.Tidy m.allowed

/-- The map after one change. -/
def change (m : FlowMap α) : Change α → FlowMap α
  | .setPower c x => m.setPower c x
  | .addPower c x => m.addPower c x
  | .setTemperature c x => m.setTemperature c x
  | .clear => m.clear

def after (m : FlowMap α) (changes : List (Change α)) : FlowMap α :=
  changes.foldl change m

@[simp] theorem contents_withAllowed (allowed : CommoditySet) :
    (withAllowed allowed : FlowMap α).contents = .empty :=
  Contents.ext Slots.get?_blank Slots.get?_blank

theorem tidy_withAllowed (allowed : CommoditySet) : (withAllowed allowed : FlowMap α).Tidy :=
  ⟨Slots.tidy_blank allowed, Slots.tidy_blank allowed⟩

variable {m n : FlowMap α} {c : Commodity}

theorem contents_setPower (h : m.allows c = true) (x : α) :
    (m.setPower c x).contents = m.contents.change (.setPower c x) := by
  rw [setPower, if_pos h]
  exact Contents.ext (Slots.stores_set m.powerSet m.powers c x c.index.isLt).get?_eq rfl

theorem contents_setTemperature (h : m.allows c = true) (x : α) :
    (m.setTemperature c x).contents = m.contents.change (.setTemperature c x) := by
  rw [setTemperature, if_pos h]
  exact Contents.ext rfl (Slots.stores_set m.temperatureSet m.temperatures c x c.index.isLt).get?_eq

theorem power_setPower (h : m.allows c = true) (x : α) (d : Commodity) :
    (m.setPower c x).power d = if c = d then x else m.power d := by
  rw [(reads_contents _).power, (reads_contents m).power, contents_setPower h]
  by_cases hcd : c = d
  · subst hcd
    simp [Contents.change]
  · simp [Contents.change, hcd, Ne.symm hcd]

/-- A power is added by storing the sum. -/
theorem exists_addPower_eq (m : FlowMap α) (c : Commodity) (x : α) :
    ∃ y, m.addPower c x = m.setPower c y ∧
      m.contents.change (.addPower c x) = m.contents.change (.setPower c y) := by
  have hpower : m.contents.power? c = if m.containsPower c then some (m.powerSlots.value c) else none := rfl
  unfold addPower
  by_cases h : m.containsPower c = true
  · rw [if_pos h] at hpower ⊢
    exact ⟨m.powerSlots.value c + x, rfl, by simp only [Contents.change, hpower]⟩
  · rw [if_neg h] at hpower ⊢
    exact ⟨x, rfl, by simp only [Contents.change, hpower]⟩

theorem tidy_setPower (hm : m.Tidy) (c : Commodity) (x : α) : (m.setPower c x).Tidy := by
  unfold setPower
  split
  next h =>
    have hpowers := (Slots.stores_set m.powerSet m.powers c x c.index.isLt).tidy hm.powers h
    exact ⟨hpowers, hm.temperatures⟩
  next => exact hm

theorem tidy_setTemperature (hm : m.Tidy) (c : Commodity) (x : α) : (m.setTemperature c x).Tidy := by
  unfold setTemperature
  split
  next h =>
    have htemperatures :=
      (Slots.stores_set m.temperatureSet m.temperatures c x c.index.isLt).tidy hm.temperatures h
    exact ⟨hm.powers, htemperatures⟩
  next => exact hm

/-- **An allowed change of a map is that change of its contents.** -/
theorem contents_change (m : FlowMap α) {d : Change α} (h : d.isAllowed m.allowed = true) :
    (m.change d).contents = m.contents.change d := by
  cases d with
  | setPower c x => exact contents_setPower h x
  | addPower c x =>
    obtain ⟨y, hmap, hcontents⟩ := m.exists_addPower_eq c x
    rw [hcontents, ← contents_setPower h y, ← hmap]
    rfl
  | setTemperature c x => exact contents_setTemperature h x
  | clear => exact contents_withAllowed m.allowed

/-- Any other change leaves the map as it is. -/
theorem change_eq_self (m : FlowMap α) {d : Change α} (h : d.isAllowed m.allowed = false) :
    m.change d = m := by
  cases d with
  | setPower c x => exact setPower_of_not_allows (Bool.eq_false_iff.mp h) x
  | addPower c x =>
    obtain ⟨y, hmap, _⟩ := m.exists_addPower_eq c x
    exact hmap.trans (setPower_of_not_allows (Bool.eq_false_iff.mp h) y)
  | setTemperature c x => exact if_neg (Bool.eq_false_iff.mp h)
  | clear => cases h

/-- **No change leaves anything behind.** -/
theorem tidy_change (hm : m.Tidy) (d : Change α) : (m.change d).Tidy := by
  cases d with
  | setPower c x => exact tidy_setPower hm c x
  | addPower c x =>
    obtain ⟨y, hmap, _⟩ := m.exists_addPower_eq c x
    rw [change, hmap]
    exact tidy_setPower hm c y
  | setTemperature c x => exact tidy_setTemperature hm c x
  | clear => exact tidy_withAllowed m.allowed

@[simp] theorem allowed_change (m : FlowMap α) (d : Change α) : (m.change d).allowed = m.allowed := by
  have hclear : (m.change d).clear = m.clear := by
    cases d <;> simp [change]
  show (m.change d).clear.allowed = m.clear.allowed
  rw [hclear]

/-! ### A series of operations -/

@[simp] theorem allowed_after (m : FlowMap α) (changes : List (Change α)) :
    (m.after changes).allowed = m.allowed := by
  induction changes generalizing m with
  | nil => rfl
  | cons d changes ih => exact (ih (m.change d)).trans (m.allowed_change d)

theorem tidy_after (hm : m.Tidy) (changes : List (Change α)) : (m.after changes).Tidy := by
  induction changes generalizing m with
  | nil => exact hm
  | cons d changes ih => exact ih (tidy_change hm d)

/-- **The allowed changes act on the contents one after the other**, the others not at all. -/
theorem contents_after (m : FlowMap α) (changes : List (Change α)) :
    (m.after changes).contents = m.contents.after (changes.filter (·.isAllowed m.allowed)) := by
  induction changes generalizing m with
  | nil => rfl
  | cons d changes ih =>
    have htail : (m.after (d :: changes)).contents
        = (m.change d).contents.after (changes.filter (·.isAllowed m.allowed)) := by
      rw [← m.allowed_change d]
      exact ih (m.change d)
    rw [htail]
    by_cases hd : d.isAllowed m.allowed = true
    · rw [List.filter_cons_of_pos hd, contents_change m hd]
      rfl
    · rw [List.filter_cons_of_neg hd, change_eq_self m (Bool.eq_false_iff.mpr hd)]

/-! ### Equality of maps -/

/-- **Tidy maps are equal if they allow the same and hold the same.** -/
theorem eq_iff_contents (hm : m.Tidy) (hn : n.Tidy) :
    m = n ↔ m.allowed = n.allowed ∧ m.contents = n.contents := by
  constructor
  · rintro rfl
    exact ⟨rfl, rfl⟩
  · rintro ⟨hallowed, hcontents⟩
    have hpowers : m.powerSlots = n.powerSlots :=
      hm.powers.eq_of_get? hn.powers (congrArg Contents.power? hcontents)
    have htemperatures : m.temperatureSlots = n.temperatureSlots :=
      hm.temperatures.eq_of_get? hn.temperatures (congrArg Contents.temperature? hcontents)
    obtain ⟨hpowerSet, hpowers⟩ := Slots.mk.inj hpowers
    obtain ⟨htemperatureSet, htemperatures⟩ := Slots.mk.inj htemperatures
    cases m
    cases n
    simp_all

/-- **Tidy maps compare equal if they allow the same and what they hold compares equal**, in numbers whose zero
compares equal to itself. -/
theorem same_iff_contents (hm : m.Tidy) (hn : n.Tidy) (hzero : ((0 : α) == 0) = true) :
    m.same n = true ↔ m.allowed = n.allowed ∧ m.contents.Same n.contents := by
  have hpowers := hm.powers.beq_iff hn.powers hzero
  have htemperatures := hm.temperatures.beq_iff hn.temperatures hzero
  have hsame : m.contents.Same n.contents ↔
      (m.powerSet = n.powerSet ∧ (m.powers == n.powers) = true) ∧
        m.temperatureSet = n.temperatureSet ∧ (m.temperatures == n.temperatures) = true :=
    forall_and.trans (and_congr hpowers.symm htemperatures.symm)
  rw [hsame]
  simp only [same, Bool.and_eq_true, beq_iff_eq]
  tauto

end FlowMap

/-! ### Changes that lead to given contents -/

/-- A partial map with the entries that another one has of the listed commodities on top. -/
def entriesOver (top bottom : Commodity → Option α) (cs : List Commodity) (c : Commodity) : Option α :=
  if c ∈ cs then (top c).or (bottom c) else bottom c

theorem entriesOver_cons (top bottom : Commodity → Option α) (d : Commodity) (cs : List Commodity) :
    entriesOver top (Function.update bottom d ((top d).or (bottom d))) cs = entriesOver top bottom (d :: cs) := by
  funext c
  by_cases hcd : c = d
  · subst hcd
    simp [entriesOver, ← Option.or_assoc]
  · simp [entriesOver, hcd]

namespace Contents

def changesAt (e : Contents α) (c : Commodity) : List (FlowMap.Change α) :=
  (e.power? c).toList.map (.setPower c) ++ (e.temperature? c).toList.map (.setTemperature c)

def changes (e : Contents α) : List (FlowMap.Change α) :=
  Commodity.all.flatMap e.changesAt

theorem mem_changes {e : Contents α} {d : FlowMap.Change α} (h : d ∈ e.changes) :
    (∃ c x, d = .setPower c x ∧ e.power? c = some x) ∨
      ∃ c x, d = .setTemperature c x ∧ e.temperature? c = some x := by
  obtain ⟨c, _, hd⟩ := List.mem_flatMap.mp h
  rcases List.mem_append.mp hd with hd | hd
  · obtain ⟨x, hx, rfl⟩ := List.mem_map.mp hd
    exact .inl ⟨c, x, rfl, Option.mem_toList.mp hx⟩
  · obtain ⟨x, hx, rfl⟩ := List.mem_map.mp hd
    exact .inr ⟨c, x, rfl, Option.mem_toList.mp hx⟩

variable [Add α]

/-- The changes of one commodity put its entries over the earlier ones. -/
theorem after_changesAt (e f : Contents α) (c : Commodity) :
    f.after (e.changesAt c) =
      ⟨Function.update f.power? c ((e.power? c).or (f.power? c)),
        Function.update f.temperature? c ((e.temperature? c).or (f.temperature? c))⟩ := by
  cases hpower : e.power? c <;> cases htemperature : e.temperature? c <;>
    simp [changesAt, after, change, hpower, htemperature]

/-- The changes of several commodities do so for each of them. -/
theorem after_flatMap_changesAt (e : Contents α) (cs : List Commodity) (f : Contents α) :
    f.after (cs.flatMap e.changesAt) =
      ⟨entriesOver e.power? f.power? cs, entriesOver e.temperature? f.temperature? cs⟩ := by
  induction cs generalizing f with
  | nil => rfl
  | cons d cs ih =>
    have happend : f.after ((d :: cs).flatMap e.changesAt)
        = (f.after (e.changesAt d)).after (cs.flatMap e.changesAt) := List.foldl_append ..
    rw [happend, after_changesAt, ih, entriesOver_cons, entriesOver_cons]

/-- **Its changes put the contents into an empty map.** -/
theorem after_changes (e : Contents α) : empty.after e.changes = e := by
  rw [changes, after_flatMap_changesAt]
  refine Contents.ext (funext fun c => ?_) (funext fun c => ?_)
  · simp [entriesOver, empty]
  · simp [entriesOver, empty]

end Contents

/-! ### Maps that operations leave -/

namespace FlowMap

variable [Scalar α]

/-- The changes that lead to the contents of a tidy map are allowed. -/
theorem Tidy.isAllowed_of_mem_changes {m : FlowMap α} (hm : m.Tidy) {d : Change α}
    (h : d ∈ m.contents.changes) : d.isAllowed m.allowed = true := by
  rcases Contents.mem_changes h with ⟨c, x, rfl, hx⟩ | ⟨c, x, rfl, hx⟩
  · refine hm.powers.allowed_of_present c ?_
    rw [← Slots.isSome_get?]
    exact Option.isSome_of_eq_some hx
  · refine hm.temperatures.allowed_of_present c ?_
    rw [← Slots.isSome_get?]
    exact Option.isSome_of_eq_some hx

/-- **The maps that operations leave are exactly the tidy ones.** -/
theorem exists_after_eq_iff_tidy {m : FlowMap α} {allowed : CommoditySet} :
    (∃ changes, (withAllowed allowed).after changes = m) ↔ m.Tidy ∧ m.allowed = allowed := by
  constructor
  · rintro ⟨changes, rfl⟩
    exact ⟨tidy_after (tidy_withAllowed allowed) changes, allowed_after _ changes⟩
  · rintro ⟨hm, rfl⟩
    have hallowed : ((withAllowed m.allowed : FlowMap α).after m.contents.changes).allowed = m.allowed :=
      allowed_after _ _
    have hcontents : ((withAllowed m.allowed : FlowMap α).after m.contents.changes).contents = m.contents := by
      rw [contents_after, contents_withAllowed]
      have hfilter : m.contents.changes.filter (·.isAllowed m.allowed) = m.contents.changes :=
        List.filter_eq_self.mpr fun d hd => hm.isAllowed_of_mem_changes hd
      exact (congrArg (Contents.after .empty) hfilter).trans m.contents.after_changes
    have htidy := tidy_after (tidy_withAllowed (α := α) m.allowed) m.contents.changes
    exact ⟨m.contents.changes, (eq_iff_contents htidy hm).mpr ⟨hallowed, hcontents⟩⟩

end FlowMap

/-- The contents that operations leave in a map for the listed commodities: operations on other commodities are left
out. -/
def Contents.leftBy [Add α] (cs : List Commodity) (changes : List (FlowMap.Change α)) : Contents α :=
  empty.after (changes.filter (·.isAllowed (.ofList cs)))

theorem FlowMap.tidy_after_limitedTo [Scalar α] (cs : List Commodity) (changes : List (Change α)) :
    ((limitedTo cs).after changes).Tidy ∧ ((limitedTo cs).after changes).allowed = .ofList cs :=
  exists_after_eq_iff_tidy.mp ⟨changes, rfl⟩

theorem FlowMap.contents_after_limitedTo [Scalar α] (cs : List Commodity) (changes : List (Change α)) :
    ((limitedTo cs).after changes).contents = .leftBy cs changes := by
  rw [contents_after, limitedTo, contents_withAllowed]
  rfl

/-- **A flow map is two partial maps.** Of any series of operations, on a map that allows some commodities, those on
allowed commodities act on an optional power and an optional temperature of each commodity, and the others do nothing.
A reader of the map finds these contents. Slots without an entry hold zero, and there are entries of allowed
commodities only. Therefore two maps compare equal, slot by slot, exactly if they allow the same commodities and what
they hold compares equal, and they are one map exactly if they allow the same commodities and hold the same. -/
theorem flowMap_canonical (cs cs' : List Commodity) (changes changes' : List (FlowMap.Change Double)) :
    ((FlowMap.limitedTo cs).after changes).Reads (.leftBy cs changes) ∧
      ((FlowMap.limitedTo cs).after changes).Tidy ∧
      (∀ c, ((FlowMap.limitedTo cs).after changes).allows c = decide (c ∈ cs)) ∧
      (((FlowMap.limitedTo cs).after changes).same ((FlowMap.limitedTo cs').after changes') = true ↔
        (∀ c, c ∈ cs ↔ c ∈ cs') ∧ (Contents.leftBy cs changes).Same (.leftBy cs' changes')) ∧
      ((FlowMap.limitedTo cs).after changes = (FlowMap.limitedTo cs').after changes' ↔
        (∀ c, c ∈ cs ↔ c ∈ cs') ∧ Contents.leftBy cs changes = .leftBy cs' changes') := by
  obtain ⟨htidy, hallowed⟩ := FlowMap.tidy_after_limitedTo cs changes
  obtain ⟨htidy', hallowed'⟩ := FlowMap.tidy_after_limitedTo cs' changes'
  have hzero : ((0 : Double) == 0) = true := Double.beq_iff.mpr ⟨Double.origin, rfl, Double.origin, rfl, rfl⟩
  refine ⟨?_, htidy, ?_, ?_, ?_⟩
  · rw [← FlowMap.contents_after_limitedTo]
    exact FlowMap.reads_contents _
  · intro c
    rw [FlowMap.allows, hallowed, CommoditySet.contains_ofList]
  · rw [FlowMap.same_iff_contents htidy htidy' hzero, hallowed, hallowed', CommoditySet.ofList_eq_ofList_iff,
      FlowMap.contents_after_limitedTo, FlowMap.contents_after_limitedTo]
  · rw [FlowMap.eq_iff_contents htidy htidy', hallowed, hallowed', CommoditySet.ofList_eq_ofList_iff,
      FlowMap.contents_after_limitedTo, FlowMap.contents_after_limitedTo]

end HomeEnergy

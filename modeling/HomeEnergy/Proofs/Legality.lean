import HomeEnergy.Grid
import HomeEnergy.Proofs.Outcomes

/-!
# Legal topologies

A topology is legal if no active end of its relations is a passive end or a meter, and if devices are attached to
declared meters only. Both kinds of grid insist on that, and a thermal grid on the number of its meters before. An
electrical grid does not ask for a meter.

* `Topology.Legal` — what a legal topology is; `Topology.Refused` — which failure reports an illegal one: the first
  relation whose active end is passive too, or else the first device list of an undeclared meter.
* `Topology.validate_eq_ok_iff`, `Topology.validate_eq_error_iff` — validation decides the one and reports the other.
* `ElectricalGrid.new_judges`, `ThermalGrid.new_judges` — **which topologies become grids**, and how the others fail.
* `grids_accept_legal_iff` — both at once, and where an electrical grid judges as if it asked for a meter.
-/

namespace HomeEnergy

namespace Topology

variable {t : Topology}

/-- A topology makes a device passive as a meter or as the passive end of a relation. -/
def MakesPassive (t : Topology) (d : DeviceId) : Prop :=
  d ∈ t.meters ∨ ∃ r ∈ t.relations, r.passive = d

theorem isPassive_iff {d : DeviceId} : t.isPassive d = true ↔ t.MakesPassive d := by
  simp [isPassive, MakesPassive]

/-- The ends of the relations are kept apart, and devices are attached to meters that there are. -/
structure Legal (t : Topology) : Prop where
  separated : ∀ r ∈ t.relations, ¬t.MakesPassive r.active
  declared : ∀ m ∈ t.meterDevices, m.meter ∈ t.meters

/-- What is reported about a topology that is not legal. -/
inductive Refused (t : Topology) : Failure → Prop where
  | collision {before after : List Relation} {r : Relation}
      (split : t.relations = before ++ r :: after)
      (passive : t.MakesPassive r.active)
      (first : ∀ r' ∈ before, ¬t.MakesPassive r'.active) :
      Refused t (.activePassiveCollision r.active)
  | undeclared {before after : List MeterDevices} {m : MeterDevices}
      (separated : ∀ r ∈ t.relations, ¬t.MakesPassive r.active)
      (split : t.meterDevices = before ++ m :: after)
      (undeclared : m.meter ∉ t.meters)
      (first : ∀ m' ∈ before, m'.meter ∈ t.meters) :
      Refused t (.unknownDevice m.meter)

/-! ### Validation -/

theorem find?_relation_eq_none :
    (t.relations.find? fun r => t.isPassive r.active) = none ↔
      ∀ r ∈ t.relations, ¬t.MakesPassive r.active := by
  simp only [List.find?_eq_none, isPassive_iff]

theorem find?_relation_eq_some {r : Relation} :
    (t.relations.find? fun r => t.isPassive r.active) = some r ↔
      t.MakesPassive r.active ∧ ∃ before after, t.relations = before ++ r :: after ∧
        ∀ r' ∈ before, ¬t.MakesPassive r'.active := by
  simp only [List.find?_eq_some_iff_append, Bool.not_eq_true', Bool.eq_false_iff, ne_eq, isPassive_iff]

theorem find?_meterDevices_eq_none :
    (t.meterDevices.find? fun m => !t.meters.contains m.meter) = none ↔
      ∀ m ∈ t.meterDevices, m.meter ∈ t.meters := by
  simp [List.find?_eq_none]

theorem find?_meterDevices_eq_some {m : MeterDevices} :
    (t.meterDevices.find? fun m => !t.meters.contains m.meter) = some m ↔
      m.meter ∉ t.meters ∧ ∃ before after, t.meterDevices = before ++ m :: after ∧
        ∀ m' ∈ before, m'.meter ∈ t.meters := by
  simp [List.find?_eq_some_iff_append]

/-- **Validation accepts the legal topologies.** -/
theorem validate_eq_ok_iff : t.validate = .ok () ↔ t.Legal := by
  unfold validate
  split
  · rename_i r hrelation
    obtain ⟨hpassive, before, after, hsplit, -⟩ := find?_relation_eq_some.mp hrelation
    have hmem : r ∈ t.relations := by simp [hsplit]
    exact iff_of_false (fun h => nomatch h) fun h => h.separated r hmem hpassive
  · rename_i hrelation
    split
    · rename_i m hdevices
      obtain ⟨hundeclared, before, after, hsplit, -⟩ := find?_meterDevices_eq_some.mp hdevices
      have hmem : m ∈ t.meterDevices := by simp [hsplit]
      exact iff_of_false (fun h => nomatch h) fun h => hundeclared (h.declared m hmem)
    · rename_i hdevices
      exact iff_of_true rfl
        ⟨find?_relation_eq_none.mp hrelation, find?_meterDevices_eq_none.mp hdevices⟩

/-- What validation finds is what is reported. -/
theorem refused_of_validate_eq_error {f : Failure} (h : t.validate = .error f) : t.Refused f := by
  unfold validate at h
  split at h
  · rename_i r hrelation
    obtain rfl := Except.error.inj h
    obtain ⟨hpassive, before, after, hsplit, hfirst⟩ := find?_relation_eq_some.mp hrelation
    exact .collision hsplit hpassive hfirst
  · rename_i hrelation
    split at h
    · rename_i m hdevices
      obtain rfl := Except.error.inj h
      obtain ⟨hundeclared, before, after, hsplit, hfirst⟩ := find?_meterDevices_eq_some.mp hdevices
      exact .undeclared (find?_relation_eq_none.mp hrelation) hsplit hundeclared hfirst
    · exact nomatch h

/-- **Validation reports what comes first.** -/
theorem validate_eq_error_iff {f : Failure} : t.validate = .error f ↔ t.Refused f := by
  refine ⟨refused_of_validate_eq_error, ?_⟩
  rintro (⟨hsplit, hpassive, hfirst⟩ | ⟨hseparated, hsplit, hundeclared, hfirst⟩)
  · simp only [validate, find?_relation_eq_some.mpr ⟨hpassive, _, _, hsplit, hfirst⟩]
  · simp only [validate, find?_relation_eq_none.mpr hseparated,
      find?_meterDevices_eq_some.mpr ⟨hundeclared, _, _, hsplit, hfirst⟩]

theorem Refused.eq {f f' : Failure} (h : t.Refused f) (h' : t.Refused f') : f = f' :=
  Except.error.inj ((validate_eq_error_iff.mpr h).symm.trans (validate_eq_error_iff.mpr h'))

theorem Refused.not_legal {f : Failure} (h : t.Refused f) : ¬t.Legal := by
  intro hlegal
  exact absurd ((validate_eq_error_iff.mpr h).symm.trans (validate_eq_ok_iff.mpr hlegal)) (by simp)

/-! ### What becomes a grid -/

/-- A constructor of grids asks for some number of meters first, and for a legal topology then. -/
structure Judged (t : Topology) (counts : Prop) (miscounted : Failure) {β : Type}
    (result : Except Failure β) : Prop where
  accepted : (∃ grid, result = .ok grid) ↔ counts ∧ t.Legal
  refused : ∀ f, result = .error f ↔ (¬counts ∧ f = miscounted) ∨ (counts ∧ t.Refused f)

theorem judged_map_validate {counts : Prop} (hcounts : counts) (miscounted : Failure) {β : Type}
    (grid : β) : t.Judged counts miscounted (t.validate.map fun _ => grid) where
  accepted := by
    rw [← validate_eq_ok_iff]
    cases t.validate <;> simp [Except.map, hcounts]
  refused f := by
    rw [map_eq_error_iff, validate_eq_error_iff]
    simp [hcounts]

end Topology

/-- **A legal topology becomes an electrical grid**, whatever the number of its meters. -/
theorem ElectricalGrid.new_judges (α : Type) (t : Topology) (miscounted : Failure) :
    t.Judged True miscounted (ElectricalGrid.new t : Except Failure (ElectricalGrid α)) :=
  Topology.judged_map_validate trivial miscounted _

/-- **A legal topology with exactly one meter becomes a thermal grid.** -/
theorem ThermalGrid.new_judges (α : Type) (t : Topology) :
    t.Judged (t.meters.length = 1) (.thermalMeterCount t.meters.length)
      (ThermalGrid.new t : Except Failure (ThermalGrid α)) := by
  unfold ThermalGrid.new
  split
  · rename_i hone
    exact Topology.judged_map_validate hone _ _
  · rename_i hmany
    exact ⟨by simp [hmany], fun f => by simp [hmany, eq_comm]⟩

/-- An electrical grid judges as if it asked for a meter where there is one, and where the report of the missing
meter is that of an illegal topology. -/
theorem ElectricalGrid.judged_meters_iff (α : Type) (t : Topology) (miscounted : Failure) :
    t.Judged (t.meters ≠ []) miscounted (ElectricalGrid.new t : Except Failure (ElectricalGrid α)) ↔
      t.meters ≠ [] ∨ t.Refused miscounted := by
  have hnew := ElectricalGrid.new_judges α t miscounted
  by_cases hmeters : t.meters = []
  · constructor
    · intro h
      have hfails := (h.refused miscounted).mpr (Or.inl ⟨fun hsome => hsome hmeters, rfl⟩)
      exact Or.inr (by simpa using (hnew.refused miscounted).mp hfails)
    · intro h
      have hrefused : t.Refused miscounted := h.resolve_left fun hsome => hsome hmeters
      refine ⟨?_, fun f => ?_⟩
      · rw [hnew.accepted]
        simp [hrefused.not_legal, hmeters]
      · rw [hnew.refused f]
        simp only [not_true, false_and, true_and, false_or, ne_eq, hmeters, not_false_eq_true, or_false]
        exact ⟨fun hf => hf.eq hrefused, fun hf => hf ▸ hrefused⟩
  · refine iff_of_true ?_ (Or.inl hmeters)
    exact ⟨by rw [hnew.accepted]; simp [hmeters], fun f => by rw [hnew.refused f]; simp [hmeters]⟩

/-- **Grids accept the legal topologies, and report the first thing that is wrong with any other.** A thermal grid asks
for exactly one meter before. An electrical grid does not ask for any: it judges as if it did where there is a meter, or
where the lack of one would be reported in the same way. So all that it accepts beyond the legal topologies with a meter
are the legal ones without. -/
theorem grids_accept_legal_iff (α : Type) (t : Topology) :
    (∀ miscounted, t.Judged True miscounted
      (ElectricalGrid.new t : Except Failure (ElectricalGrid α))) ∧
    t.Judged (t.meters.length = 1) (.thermalMeterCount t.meters.length)
      (ThermalGrid.new t : Except Failure (ThermalGrid α)) ∧
    (∀ miscounted, t.Judged (t.meters ≠ []) miscounted
        (ElectricalGrid.new t : Except Failure (ElectricalGrid α)) ↔
      t.meters ≠ [] ∨ t.Refused miscounted) ∧
    (((∃ grid : ElectricalGrid α, ElectricalGrid.new t = .ok grid) ↔ t.meters ≠ [] ∧ t.Legal) ↔
      t.meters ≠ [] ∨ ¬t.Legal) := by
  refine ⟨ElectricalGrid.new_judges α t, ThermalGrid.new_judges α t,
    ElectricalGrid.judged_meters_iff α t, ?_⟩
  rw [(ElectricalGrid.new_judges α t .emptyProblem).accepted]
  by_cases hmeters : t.meters = []
  · by_cases hlegal : t.Legal <;> simp [hmeters, hlegal]
  · simp [hmeters]

def unmetered : Topology :=
  { meters := []
    relations := [{ active := .ofNat 1, passive := .ofNat 2, forward := .activePower, back := .activePower }]
    meterDevices := [] }

/-- An electrical grid does without a meter. -/
theorem unmetered_accepted :
    (∃ grid : ElectricalGrid Rat, ElectricalGrid.new unmetered = .ok grid) ∧
      ¬(unmetered.meters ≠ [] ∧ unmetered.Legal) :=
  ⟨⟨{ topology := unmetered, fastPath := true, run? := none }, rfl⟩, fun h => h.1 rfl⟩

end HomeEnergy

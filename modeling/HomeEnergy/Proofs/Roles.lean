import HomeEnergy.Proofs.Acceptance
import HomeEnergy.Proofs.Legality
import HomeEnergy.Proofs.Reduction

/-!
# Roles of the parts

The topologies of all grids together decide which parts are active and which are passive, and every grid is prepared
for the roles that result. A device with both roles is refused, whichever grids the two come from.

* `Problem.ActsIn`, `Problem.PassiveIn` — the two sides of the grids; `Problem.collision?_eq_some_iff` — what is
  reported is **the least device on both sides**.
* `Problem.Takes`, `Problem.takes_of_participant` — a participant is the part of its index, in its role.
* `Problem.build_links` — **a flow of a run joins parts in the roles that it needs**, along a relation of its
  topology.
* `Problem.HasRoles` — the roles of a problem and of its grids; `problem_roles_exact` — when there is a problem, and
  that it has its roles.
-/

namespace HomeEnergy

/-! ### Devices in order -/

theorem DeviceId.toNat_injective {d d' : DeviceId} (h : d.toNat = d'.toNat) : d = d' :=
  congrArg DeviceId.mk (BitVec.eq_of_toNat_eq h)

theorem pairwise_sortedIds (ids : List DeviceId) :
    (sortedIds ids).Pairwise fun a b => a.toNat ≤ b.toNat := by
  have hsorted : (ids.mergeSort fun a b => decide (a.toNat ≤ b.toNat)).Pairwise
      fun a b => decide (a.toNat ≤ b.toNat) = true :=
    List.pairwise_mergeSort (by simp; omega) (by simp; omega) ids
  exact (hsorted.imp (by simp)).sublist (sublist_eraseReps _)

namespace Problem

section Sides

variable {α : Type} {grids : List (Grid α)}

def ActsIn (grids : List (Grid α)) (d : DeviceId) : Prop :=
  ∃ g ∈ grids, ∃ r ∈ g.topology.relations, r.active = d

/-- Some grid has a relation with this passive end, or has this meter. -/
def PassiveIn (grids : List (Grid α)) (d : DeviceId) : Prop :=
  ∃ g ∈ grids, g.topology.MakesPassive d

def Collides (grids : List (Grid α)) (d : DeviceId) : Prop :=
  ActsIn grids d ∧ PassiveIn grids d

/-- The device with the least number among those on both sides. -/
def LeastCollision (grids : List (Grid α)) (d : DeviceId) : Prop :=
  Collides grids d ∧ ∀ d', Collides grids d' → d.toNat ≤ d'.toNat

theorem isPassive_iff {d : DeviceId} : isPassive grids d = true ↔ PassiveIn grids d := by
  simp only [isPassive, List.any_eq_true, Topology.isPassive_iff, PassiveIn]

theorem mem_activeEnds {d : DeviceId} :
    d ∈ sortedIds (grids.flatMap fun g => g.topology.relations.map fun r => r.active) ↔
      ActsIn grids d := by
  simp only [mem_sortedIds, List.mem_flatMap, List.mem_map, ActsIn]

theorem collision?_eq_find? : collision? grids
    = (sortedIds (grids.flatMap fun g => g.topology.relations.map fun r => r.active)).find?
        (isPassive grids) :=
  rfl

theorem collision?_eq_none_iff : collision? grids = none ↔ ∀ d, ¬Collides grids d := by
  simp only [collision?_eq_find?, List.find?_eq_none, mem_activeEnds, isPassive_iff, Collides, not_and]

theorem leastCollision_of_collision?_eq_some {d : DeviceId} (h : collision? grids = some d) :
    LeastCollision grids d := by
  rw [collision?_eq_find?] at h
  obtain ⟨hpassive, before, after, hsplit, hbefore⟩ := List.find?_eq_some_iff_append.mp h
  have hsorted := pairwise_sortedIds (grids.flatMap fun g => g.topology.relations.map fun r => r.active)
  have hacts : ∀ d', d' ∈ before ++ d :: after ↔ ActsIn grids d' := fun d' => by
    rw [← hsplit, mem_activeEnds]
  refine ⟨⟨(hacts d).mp (by simp), isPassive_iff.mp hpassive⟩, ?_⟩
  intro d' hd'
  rw [hsplit] at hsorted
  obtain ⟨-, hafter, -⟩ := List.pairwise_append.mp hsorted
  -- an active end in front of the one that is found is not passive, and the others are no less than it
  rcases List.mem_append.mp ((hacts d').mpr hd'.1) with hmem | hmem
  · have hnot := hbefore d' hmem
    rw [isPassive_iff.mpr hd'.2] at hnot
    exact absurd hnot (by decide)
  · rcases List.mem_cons.mp hmem with rfl | hmem
    · exact Nat.le_refl _
    · exact List.rel_of_pairwise_cons hafter hmem

/-- **The collision that is found is the least one.** -/
theorem collision?_eq_some_iff {d : DeviceId} : collision? grids = some d ↔ LeastCollision grids d := by
  refine ⟨leastCollision_of_collision?_eq_some, fun h => ?_⟩
  cases hfound : collision? grids with
  | none => exact absurd h.1 (collision?_eq_none_iff.mp hfound d)
  | some d' =>
    have h' := leastCollision_of_collision?_eq_some hfound
    have heq : d'.toNat = d.toNat := Nat.le_antisymm (h'.2 d h.1) (h.2 d' h'.1)
    rw [DeviceId.toNat_injective heq]

end Sides

/-! ### Participants and flows -/

variable {P α : Type} [Part P α] {parts : List P} {grids : List (Grid α)}

/-- The role of a part is decided by the grids together. -/
theorem roleOf_eq_iff {p : P} {role : Role} :
    roleOf grids p = role ↔ (role = .passive ↔ PassiveIn grids (Part.device p)) := by
  rw [← isPassive_iff]
  unfold roleOf
  split <;> cases role <;> simp [*]

/-- The part of an index takes part in runs: it belongs to a device, and has a role. It is passive if some grid makes
its device passive, and active otherwise. -/
def Takes (parts : List P) (grids : List (Grid α)) (role : Role) (d : DeviceId) (i : Nat) : Prop :=
  ∃ p, parts[i]? = some p ∧ Part.isStatic p = false ∧ Part.device p = d ∧
    (role = .passive ↔ PassiveIn grids d)

/-- **A participant is the part of its index**, in its role. -/
theorem takes_of_participant {d : DeviceId} {q : Participant}
    (h : (participants grids parts).of? d = some q) : Takes parts grids q.role d q.index := by
  have hdevice : q.device = d := by simpa using List.find?_some h
  obtain ⟨p, i, hp, hstatic, rfl⟩ := mem_participants (List.mem_of_find?_eq_some h)
  obtain rfl : Part.device p = d := hdevice
  exact ⟨p, hp, hstatic, rfl, roleOf_eq_iff.mp rfl⟩

/-- A participant that needs input is a part that reacts to it. -/
theorem reactsToInput_of_participant {d : DeviceId} {q : Participant}
    (h : (participants grids parts).of? d = some q) (hneeds : q.needsInput = true) :
    ∃ p, parts[q.index]? = some p ∧ Part.reactsToInput p = true := by
  obtain ⟨p, i, hp, -, rfl⟩ := mem_participants (List.mem_of_find?_eq_some h)
  simp only [participant, Participant.new, Bool.and_eq_true] at hneeds
  exact ⟨p, hp, hneeds.1⟩

/-- Where the passive end of a relation is: a meter of the topology, or a passive part that takes part. -/
inductive Ends (parts : List P) (grids : List (Grid α)) (t : Topology) (d : DeviceId) : Target → Prop where
  | meter {j : Nat} (h : t.meters[j]? = some d) : Ends parts grids t d (.meter j)
  | part {i : Nat} (h : Takes parts grids .passive d i) : Ends parts grids t d (.part i)

theorem ends_of_ending? {t : Topology} {d : DeviceId} {target : Target}
    (h : ending? t (participants grids parts) d = some target) : Ends parts grids t d target := by
  unfold ending? at h
  split at h
  · rename_i hmem
    obtain rfl := Option.some.inj h
    exact .meter (List.getElem?_eq_some_iff.mpr ⟨List.idxOf_lt_length_of_mem hmem, List.getElem_idxOf _⟩)
  · split at h
    · rename_i q hq
      split at h
      · rename_i hrole
        obtain rfl := Option.some.inj h
        exact .part (hrole ▸ takes_of_participant hq)
      · exact nomatch h
    · exact nomatch h

def LinksForward (parts : List P) (grids : List (Grid α)) (t : Topology)
    (x : Nat × Target × Commodity) : Prop :=
  ∃ r ∈ t.relations, Takes parts grids .active r.active x.1 ∧ Ends parts grids t r.passive x.2.1 ∧
    x.2.2 = r.forward

def LinksBack (parts : List P) (grids : List (Grid α)) (t : Topology) (x : Nat × Nat × Commodity) : Prop :=
  ∃ r ∈ t.relations, Takes parts grids .active r.active x.1 ∧
    (∃ p, parts[x.1]? = some p ∧ Part.reactsToInput p = true) ∧
    Takes parts grids .passive r.passive x.2.1 ∧ x.2.2 = r.back

theorem linksForward {t : Topology} {x : Nat × Target × Commodity}
    (hx : x ∈ t.relations.filterMap (ReducedRelations.forwardFlow? t (participants grids parts))) :
    LinksForward parts grids t x := by
  obtain ⟨r, hr, hflow⟩ := List.mem_filterMap.mp hx
  rw [ReducedRelations.forwardFlow?_eq] at hflow
  split at hflow
  · rename_i q target hq htarget
    split at hflow
    · rename_i hcarries
      obtain rfl := Option.some.inj hflow
      exact ⟨r, hr, hcarries.1 ▸ takes_of_participant hq, ends_of_ending? htarget, rfl⟩
    · exact nomatch hflow
  · exact nomatch hflow

theorem linksBack {t : Topology} {x : Nat × Nat × Commodity}
    (hx : x ∈ t.relations.filterMap (ReducedRelations.backFlow? (participants grids parts))) :
    LinksBack parts grids t x := by
  obtain ⟨r, hr, hflow⟩ := List.mem_filterMap.mp hx
  rw [ReducedRelations.backFlow?_eq] at hflow
  split at hflow
  · rename_i q q' hq hq'
    split at hflow
    · rename_i hcarries
      obtain rfl := Option.some.inj hflow
      obtain ⟨hrole, hneeds, hrole', -⟩ := hcarries
      exact ⟨r, hr, hrole ▸ takes_of_participant hq, reactsToInput_of_participant hq hneeds,
        hrole' ▸ takes_of_participant hq', rfl⟩
    · exact nomatch hflow
  · exact nomatch hflow

theorem mem_of_mem_groupByActive {β : Type} {flows : List (Nat × β)} {group : FlowGroup β}
    (hgroup : group ∈ groupByActive flows) {f : β} (hf : f ∈ group.flows) : (group.active, f) ∈ flows :=
  (groupByActive_perm flows).mem_iff.mp
    (List.mem_flatMap.mpr ⟨group, hgroup, List.mem_map.mpr ⟨f, hf, rfl⟩⟩)

/-- What the relations of a run join: each group has flows, and each flow goes along a relation of the topology, between
parts that take part in the roles it needs. -/
structure Links (parts : List P) (grids : List (Grid α)) (t : Topology) (relations : ReducedRelations) :
    Prop where
  forward : ∀ group ∈ relations.forward, group.flows ≠ [] ∧
    ∀ flow ∈ group.flows, LinksForward parts grids t (group.active, flow)
  back : ∀ group ∈ relations.back, group.flows ≠ [] ∧
    ∀ flow ∈ group.flows, LinksBack parts grids t (group.active, flow)

/-- **A flow of a run joins parts in the roles that it needs.** -/
theorem build_links (parts : List P) (grids : List (Grid α)) (t : Topology) :
    Links parts grids t (.build t (participants grids parts)) where
  forward _ hgroup := ⟨ReducedRelations.flows_ne_nil hgroup, fun _ hf =>
    linksForward (mem_of_mem_groupByActive hgroup hf)⟩
  back _ hgroup := ⟨ReducedRelations.flows_ne_nil hgroup, fun _ hf =>
    linksBack (mem_of_mem_groupByActive hgroup hf)⟩

/-! ### Problems with their roles -/

omit [Part P α] in
theorem pairwise_indicesWhere (parts : List P) (test : P → Bool) :
    (indicesWhere parts test).Pairwise (· < ·) :=
  List.pairwise_lt_range.sublist List.filter_sublist

/-- A grid of a problem is one that was given, ready for exchanges between the parts. -/
structure Prepared [Scalar α] (parts : List P) (grids : List (Grid α)) (given prepared : Grid α) : Prop where
  kind : prepared.kind = given.kind
  topology : prepared.topology = given.topology
  initialized : prepared.isInitialized = true
  links : ∀ relations ∈ prepared.relations?, Links parts grids given.topology relations

/-- The roles of the parts and the state of the grids of a problem. -/
structure HasRoles [Scalar α] (parts : List P) (grids : List (Grid α)) (problem : Problem P α) : Prop where
  indices : ∀ i : Nat, problem.parts[i]? = parts[i]?
  active_ascending : problem.active.Pairwise (· < ·)
  passive_ascending : problem.passive.Pairwise (· < ·)
  partition : (problem.active ++ problem.passive).Perm problem.taking
  mem_taking : ∀ i, i ∈ problem.taking ↔ ∃ p, parts[i]? = some p ∧ Part.isStatic p = false
  mem_active : ∀ i, i ∈ problem.active ↔ ∃ d, Takes parts grids .active d i
  mem_passive : ∀ i, i ∈ problem.passive ↔ ∃ d, Takes parts grids .passive d i
  needsInput_ascending : problem.needsInput.Pairwise (· < ·)
  mem_needsInput : ∀ i, i ∈ problem.needsInput ↔
    i ∈ problem.active ∧ ∃ p, parts[i]? = some p ∧ Part.reactsToInput p = true
  grids : List.Forall₂ (Prepared parts grids) grids problem.grids

/-- The parts that take part in a role. -/
theorem mem_indicesWhere_role {role : Role} {i : Nat} :
    (i ∈ indicesWhere parts fun p => !Part.isStatic p && roleOf grids p == role) ↔
      ∃ d, Takes parts grids role d i := by
  rw [mem_indicesWhere]
  constructor
  · rintro ⟨p, hp, htakes⟩
    simp only [Bool.and_eq_true, Bool.not_eq_true', beq_iff_eq] at htakes
    exact ⟨Part.device p, p, hp, htakes.1, rfl, roleOf_eq_iff.mp htakes.2⟩
  · rintro ⟨d, p, hp, hstatic, rfl, hrole⟩
    exact ⟨p, hp, by simp [hstatic, roleOf_eq_iff.mpr hrole]⟩

variable [Scalar α] {problem : Problem P α}

/-- Each part that takes part has one of the two roles. -/
theorem perm_taking (h : Problem.new parts grids = .ok problem) :
    (problem.active ++ problem.passive).Perm problem.taking := by
  have hsound := new_sound h
  have hnodup : (problem.active ++ problem.passive).Nodup := List.nodup_append'.mpr
    ⟨hsound.active_nodup, hsound.passive_nodup, fun i hi hi' => hsound.disjoint i hi hi'⟩
  refine (List.perm_ext_iff_of_nodup hnodup hsound.taking_nodup).mpr fun i => ?_
  rw [List.mem_append]
  constructor
  · rintro (hi | hi)
    · exact hsound.active_taking i hi
    · exact hsound.passive_taking i hi
  · exact fun hi => hsound.taking_role i hi

theorem prepared_prepare (g : Grid α) : Prepared parts grids g (g.prepare (participants grids parts)) := by
  cases g with
  | electrical e => exact ⟨rfl, rfl, rfl, fun _ h => Option.some.inj h ▸ build_links parts grids e.topology⟩
  | thermal e => exact ⟨rfl, rfl, rfl, fun _ h => Option.some.inj h ▸ build_links parts grids e.topology⟩

/-- **A problem has its roles.** -/
theorem new_hasRoles (h : Problem.new parts grids = .ok problem) :
    HasRoles parts grids problem := by
  have hpartition := perm_taking h
  rw [new_eq_ok h] at hpartition ⊢
  constructor
  case indices => exact fun i => List.getElem?_toArray
  case active_ascending => exact pairwise_indicesWhere ..
  case passive_ascending => exact pairwise_indicesWhere ..
  case needsInput_ascending => exact pairwise_indicesWhere ..
  case mem_active => exact fun i => mem_indicesWhere_role
  case mem_passive => exact fun i => mem_indicesWhere_role
  case partition => exact hpartition
  case mem_taking => exact fun i => by simp only [mem_indicesWhere, Bool.not_eq_true']
  case mem_needsInput =>
    intro i
    simp only [mem_indicesWhere, Bool.and_eq_true]
    constructor
    · rintro ⟨p, hp, hactive, hreacts⟩
      exact ⟨⟨p, hp, hactive⟩, p, hp, hreacts⟩
    · rintro ⟨⟨p, hp, hactive⟩, p', hp', hreacts⟩
      obtain rfl : p = p' := Option.some.inj (hp.symm.trans hp')
      exact ⟨p, hp, hactive, hreacts⟩
  case grids =>
    exact List.forall₂_map_right_iff.mpr (List.forall₂_same.mpr fun g _ => prepared_prepare g)

/-- When a list of parts makes no problem. -/
theorem new_eq_error_iff {failure : Failure} :
    (Problem.new parts grids : Except Failure (Problem P α)) = .error failure ↔
      (parts = [] ∧ failure = .emptyProblem) ∨
        (parts ≠ [] ∧ ∃ d, LeastCollision grids d ∧ failure = .activePassiveCollision d) := by
  unfold Problem.new
  cases parts with
  | nil => simp [eq_comm]
  | cons p parts =>
    simp only [← collision?_eq_some_iff]
    cases hcollision : collision? grids with
    | none => simp
    | some d => simp [eq_comm]

end Problem

/-- **The roles of a problem are exact.** Parts and grids make a problem if there is a part, and no device is an active
end in some grid and a passive end or a meter in the same or another one; the least such device is reported. The parts
of a problem have the roles that the grids give them, and its grids are prepared for exchanges between parts in these
roles. -/
theorem problem_roles_exact {P α : Type} [Part P α] [Scalar α] (parts : List P) (grids : List (Grid α)) :
    ((∃ problem : Problem P α, Problem.new parts grids = .ok problem) ↔
      parts ≠ [] ∧ ∀ d, ¬(Problem.ActsIn grids d ∧ Problem.PassiveIn grids d)) ∧
    (∀ failure, (Problem.new parts grids : Except Failure (Problem P α)) = .error failure ↔
      (parts = [] ∧ failure = .emptyProblem) ∨
        (parts ≠ [] ∧ ∃ d, Problem.LeastCollision grids d ∧ failure = .activePassiveCollision d)) ∧
    (∀ problem, Problem.new parts grids = .ok problem → problem.HasRoles parts grids) := by
  refine ⟨?_, fun failure => Problem.new_eq_error_iff, fun problem h => Problem.new_hasRoles h⟩
  rw [Problem.exists_new_iff, Problem.collision?_eq_none_iff]
  rfl

end HomeEnergy

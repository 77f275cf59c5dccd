import HomeEnergy.Proofs.Frames
import Mathlib.Data.List.Nodup

/-!
# A new problem is ready for runs

A problem assigns roles and prepares its grids for them. What a run relies on follows from how that is
done, and nothing else has to be assumed of the parts and grids that the problem is made of.

* `groupByActive_perm` — grouping the flows of a table neither loses nor repeats one.
* `Problem.mem_participants` — a participant is a part of the problem, in the role that the grids give it.
* `ReducedRelations.build_fits` — the relations of a run are in range.
* `Problem.new_sound`, `Problem.new_sized` — **every problem that is accepted is wired soundly**, whatever
  its parts do when they are stepped.
-/

namespace HomeEnergy

/-! ### Grouping -/

section Reps

variable {β : Type} [DecidableEq β]

/-- Dropping repetitions, one entry at a time. -/
theorem eraseReps_cons_cons (a b : β) (l : List β) :
    (a :: b :: l).eraseReps = if a = b then (a :: l).eraseReps else a :: (b :: l).eraseReps := by
  have hloop : ∀ (l : List β) (a : β) (acc : List β),
      List.eraseRepsBy.loop (· == ·) a l acc
        = acc.reverse ++ List.eraseRepsBy.loop (· == ·) a l [] := by
    intro l
    induction l with
    | nil => intro a acc; simp [List.eraseRepsBy.loop]
    | cons b l ih =>
      intro a acc
      simp only [List.eraseRepsBy.loop]
      split
      · exact ih a acc
      · rw [ih b (a :: acc), ih b [a]]
        simp
  show List.eraseRepsBy.loop (· == ·) a (b :: l) [] = _
  by_cases h : a = b
  · subst h
    simp [List.eraseRepsBy.loop, List.eraseReps, List.eraseRepsBy]
  · simp only [List.eraseRepsBy.loop, beq_eq_false_iff_ne.mpr h, if_neg h]
    rw [hloop]
    rfl

theorem mem_eraseReps (x : β) : ∀ l : List β, x ∈ l.eraseReps ↔ x ∈ l := by
  intro l
  match l with
  | [] => rfl
  | [a] => rfl
  | a :: b :: l =>
    rw [eraseReps_cons_cons]
    split
    · rename_i hab
      subst hab
      rw [mem_eraseReps x (a :: l)]
      simp
    · rw [List.mem_cons, mem_eraseReps x (b :: l), List.mem_cons (l := b :: l)]
termination_by l => l.length

/-- Dropping repetitions from an ascending list leaves each entry once. -/
theorem nodup_eraseReps : ∀ l : List Nat, l.Pairwise (· ≤ ·) → l.eraseReps.Nodup := by
  intro l hl
  match l with
  | [] => exact List.nodup_nil
  | [a] => exact List.nodup_singleton a
  | a :: b :: l =>
    have hrest := hl.tail
    rw [eraseReps_cons_cons]
    split
    · rename_i hab
      subst hab
      exact nodup_eraseReps (a :: l) hrest
    · rename_i hab
      refine List.nodup_cons.mpr ⟨?_, nodup_eraseReps (b :: l) hrest⟩
      rw [mem_eraseReps]
      intro hmem
      -- everything after the second entry is at least that entry, which is above the first one
      have hle : a ≤ b := List.rel_of_pairwise_cons hl (by simp)
      have hba : b ≤ a := by
        rcases List.mem_cons.mp hmem with h | h
        · exact h ▸ Nat.le_refl _
        · exact List.rel_of_pairwise_cons hrest h
      exact hab (Nat.le_antisymm hle hba)
termination_by l => l.length

end Reps

/-- Filtering a list by each of several distinct keys takes it apart. -/
theorem flatMap_filter_perm {β : Type} (key : β → Nat) (l : List β) :
    ∀ keys : List Nat, keys.Nodup → (∀ x ∈ l, key x ∈ keys) →
      (keys.flatMap fun k => l.filter fun x => decide (key x = k)).Perm l := by
  intro keys
  induction keys generalizing l with
  | nil =>
    intro _ hkeys
    have hl : l = [] := List.eq_nil_iff_forall_not_mem.mpr fun x hx => by simpa using hkeys x hx
    rw [hl]
    exact List.Perm.refl _
  | cons k keys ih =>
    intro hnodup hkeys
    obtain ⟨hk, hrest⟩ := List.nodup_cons.mp hnodup
    have hothers := ih (l.filter fun x => !decide (key x = k)) hrest (by
      intro x hx
      obtain ⟨hxl, hxk⟩ := List.mem_filter.mp hx
      have hne : key x ≠ k := by simpa using hxk
      exact (List.mem_cons.mp (hkeys x hxl)).resolve_left hne)
    have hsame : (keys.flatMap fun j => l.filter fun x => decide (key x = j))
        = keys.flatMap fun j => (l.filter fun x => !decide (key x = k)).filter
            fun x => decide (key x = j) := by
      refine List.flatMap_congr fun j hj => ?_
      rw [List.filter_filter]
      refine List.filter_congr fun x _ => ?_
      by_cases hxj : key x = j
      · have hne : j ≠ k := fun h => hk (h ▸ hj)
        simp [hxj, hne]
      · simp [hxj]
    rw [List.flatMap_cons, hsame]
    exact (hothers.append_left _).trans (List.filter_append_perm _ l)

/-- The flows of the group of an active part. -/
theorem map_group_eq_filter {β : Type} (flows : List (Nat × β)) (i : Nat) :
    ((flows.filterMap fun f => if f.1 = i then some f.2 else none).map fun f => (i, f))
      = flows.filter fun f => decide (f.1 = i) := by
  induction flows with
  | nil => rfl
  | cons f flows ih =>
    by_cases hf : f.1 = i
    · subst hf
      simp [ih]
    · simp [hf, ih]

/-- **Grouping neither loses nor repeats a flow.** -/
theorem groupByActive_perm {β : Type} (flows : List (Nat × β)) :
    ((groupByActive flows).flatMap fun g => g.flows.map fun f => (g.active, f)).Perm flows := by
  unfold groupByActive
  have hsorted : ((flows.map fun f => f.1).mergeSort fun a b => decide (a ≤ b)).Pairwise (· ≤ ·) := by
    have hle : ((flows.map fun f => f.1).mergeSort fun a b => decide (a ≤ b)).Pairwise
        fun a b => decide (a ≤ b) = true :=
      List.pairwise_mergeSort (by simp; omega) (by simp; omega) _
    simpa using hle
  rw [List.flatMap_map]
  simp only [map_group_eq_filter]
  refine flatMap_filter_perm (fun f => f.1) flows _ (nodup_eraseReps _ hsorted) ?_
  intro f hf
  rw [mem_eraseReps, List.mem_mergeSort]
  exact List.mem_map.mpr ⟨f, hf, rfl⟩

/-- A group belongs to some flow. -/
theorem exists_of_mem_groupByActive {β : Type} {flows : List (Nat × β)} {g : FlowGroup β}
    (hg : g ∈ groupByActive flows) : ∃ f ∈ flows, f.1 = g.active := by
  obtain ⟨i, hi, rfl⟩ := List.mem_map.mp hg
  rw [mem_eraseReps, List.mem_mergeSort] at hi
  obtain ⟨f, hf, hfi⟩ := List.mem_map.mp hi
  exact ⟨f, hf, hfi⟩

/-! ### The relations of a run -/

namespace ReducedRelations

theorem inRole?_eq_some {ps : Participants} {role : Role} {d : DeviceId} {p : Participant}
    (h : ps.inRole? role d = some p) : p ∈ ps.entries ∧ p.role = role := by
  obtain ⟨hfind, hrole⟩ := Option.filter_eq_some_iff.mp h
  exact ⟨List.mem_of_find?_eq_some hfind, by simpa using hrole⟩

/-- Where a flow can end: at a meter of the topology, or at a passive participant. -/
theorem target?_eq_some {t : Topology} {ps : Participants} {d : DeviceId} {target : Target}
    (h : target? t ps d = some target) :
    (∃ j < t.meters.length, target = .meter j) ∨
      ∃ p ∈ ps.entries, p.role = .passive ∧ target = .part p.index := by
  unfold target? at h
  split at h
  · rename_i j hj
    have hlt := (List.findIdx?_eq_some_iff_getElem.mp hj).1
    exact Or.inl ⟨j, hlt, (Option.some.inj h).symm⟩
  · obtain ⟨p, hp, rfl⟩ := Option.map_eq_some_iff.mp h
    obtain ⟨hmem, hrole⟩ := inRole?_eq_some hp
    exact Or.inr ⟨p, hmem, hrole, rfl⟩

/-- Where a forward flow comes from. -/
theorem forwardFlow?_eq_some {t : Topology} {ps : Participants} {r : Relation}
    {x : Nat × Target × Commodity} (h : forwardFlow? t ps r = some x) :
    ∃ p, ps.inRole? .active r.active = some p ∧ p.outputs.contains r.forward = true ∧
      ∃ target, target? t ps r.passive = some target ∧ x = (p.index, target, r.forward) := by
  obtain ⟨p, hp, h⟩ := Option.bind_eq_some_iff.mp h
  split at h
  · rename_i hout
    obtain ⟨target, htarget, h⟩ := Option.bind_eq_some_iff.mp h
    exact ⟨p, hp, hout, target, htarget, (Option.some.inj h).symm⟩
  · exact absurd h (by simp)

/-- Where a flow back comes from, and where it ends. -/
theorem backFlow?_eq_some {ps : Participants} {r : Relation} {x : Nat × Nat × Commodity}
    (h : backFlow? ps r = some x) :
    ∃ p ∈ ps.entries, p.needsInput = true ∧ ∃ q ∈ ps.entries, x = (p.index, q.index, r.back) := by
  obtain ⟨p, hp, h⟩ := Option.bind_eq_some_iff.mp h
  split at h
  · rename_i hneeds
    obtain ⟨q, hq, h⟩ := Option.bind_eq_some_iff.mp h
    split at h
    · exact ⟨p, (inRole?_eq_some hp).1, hneeds, q, (inRole?_eq_some hq).1,
        (Option.some.inj h).symm⟩
    · exact absurd h (by simp)
  · exact absurd h (by simp)

/-- **The forward flows of a run are those of its relations**, each of them once. -/
theorem forwardFlows_build_perm (t : Topology) (ps : Participants) :
    (build t ps).forwardFlows.Perm
      ((t.relations.filterMap (forwardFlow? t ps)).map fun x => ⟨x.1, x.2.1, x.2.2⟩) := by
  have hperm := (groupByActive_perm (t.relations.filterMap (forwardFlow? t ps))).map
    fun x => (⟨x.1, x.2.1, x.2.2⟩ : Flow)
  rw [List.map_flatMap] at hperm
  simp only [List.map_map] at hperm
  exact hperm

theorem backFlows_build_perm (t : Topology) (ps : Participants) :
    (build t ps).backFlows.Perm
      ((t.relations.filterMap (backFlow? ps)).map fun x => ⟨x.2.1, .part x.1, x.2.2⟩) := by
  have hperm := (groupByActive_perm (t.relations.filterMap (backFlow? ps))).map
    fun x => (⟨x.2.1, .part x.1, x.2.2⟩ : Flow)
  rw [List.map_flatMap] at hperm
  simp only [List.map_map] at hperm
  exact hperm

def Within (n : Nat) (ps : Participants) : Prop :=
  ∀ p ∈ ps.entries, p.index < n

/-- A forward flow starts at an active participant, and ends at a meter or at a passive one. -/
theorem mem_forwardFlows_build {t : Topology} {ps : Participants} {f : Flow}
    (hf : f ∈ (build t ps).forwardFlows) :
    (∃ p ∈ ps.entries, p.role = .active ∧ f.source = p.index) ∧
      ((∃ j < t.meters.length, f.target = .meter j) ∨
        ∃ p ∈ ps.entries, p.role = .passive ∧ f.target = .part p.index) := by
  obtain ⟨x, hx, rfl⟩ := List.mem_map.mp ((forwardFlows_build_perm t ps).mem_iff.mp hf)
  obtain ⟨r, -, hr⟩ := List.mem_filterMap.mp hx
  obtain ⟨p, hp, -, target, htarget, rfl⟩ := forwardFlow?_eq_some hr
  obtain ⟨hmem, hrole⟩ := inRole?_eq_some hp
  exact ⟨⟨p, hmem, hrole, rfl⟩, target?_eq_some htarget⟩

theorem mem_backFlows_build {t : Topology} {ps : Participants} {f : Flow}
    (hf : f ∈ (build t ps).backFlows) :
    (∃ q ∈ ps.entries, f.source = q.index) ∧
      ∃ p ∈ ps.entries, p.needsInput = true ∧ f.target = .part p.index := by
  obtain ⟨x, hx, rfl⟩ := List.mem_map.mp ((backFlows_build_perm t ps).mem_iff.mp hf)
  obtain ⟨r, -, hr⟩ := List.mem_filterMap.mp hx
  obtain ⟨p, hp, hneeds, q, hq, rfl⟩ := backFlow?_eq_some hr
  exact ⟨⟨q, hq, rfl⟩, p, hp, hneeds, rfl⟩

/-- **The relations of a run are in range.** -/
theorem build_fits {n : Nat} (t : Topology) {ps : Participants} (hps : Within n ps) :
    (build t ps).Fits n t.meters.length where
  active := by
    intro g hg
    obtain ⟨x, hx, hxg⟩ := exists_of_mem_groupByActive hg
    obtain ⟨r, -, hr⟩ := List.mem_filterMap.mp hx
    obtain ⟨p, hp, -, target, -, rfl⟩ := forwardFlow?_eq_some hr
    exact hxg ▸ hps p (inRole?_eq_some hp).1
  forward := by
    intro f hf
    obtain ⟨⟨p, hp, -, hsource⟩, htarget⟩ := mem_forwardFlows_build hf
    refine ⟨hsource ▸ hps p hp, ?_⟩
    rcases htarget with ⟨j, hj, ht⟩ | ⟨q, hq, -, ht⟩
    · exact ht ▸ hj
    · exact ht ▸ hps q hq
  back := by
    intro f hf
    obtain ⟨⟨q, hq, hsource⟩, p, hp, -, htarget⟩ := mem_backFlows_build hf
    refine ⟨hsource ▸ hps q hq, ?_⟩
    rw [htarget]
    exact hps p hp

end ReducedRelations

/-! ### Prepared grids -/

namespace Grid

variable {α : Type} [Scalar α]

@[simp] theorem forwardFlows_prepare (g : Grid α) (ps : Participants) :
    (g.prepare ps).forwardFlows = (ReducedRelations.build g.topology ps).forwardFlows := by
  cases g <;> rfl

@[simp] theorem backFlows_prepare (g : Grid α) (ps : Participants) :
    (g.prepare ps).backFlows = (ReducedRelations.build g.topology ps).backFlows := by
  cases g <;> rfl

/-- A grid prepared for participants among `n` parts is ready. -/
theorem ready_prepare {n : Nat} (g : Grid α) {ps : Participants}
    (hps : ReducedRelations.Within n ps) : (g.prepare ps).Ready n := by
  cases g with
  | electrical e =>
    refine ⟨_, rfl, ?_, ?_⟩
    · simpa using ReducedRelations.build_fits e.topology hps
    · intro m hm i hi
      obtain ⟨meter, -, rfl⟩ := List.mem_map.mp hm
      have hresolved : ∀ ids : List DeviceId, i ∈ ids.filterMap ps.activeIndex? → i < n := by
        intro ids hi
        obtain ⟨d, -, hd⟩ := List.mem_filterMap.mp hi
        obtain ⟨p, hp, rfl⟩ := Option.map_eq_some_iff.mp hd
        exact hps p (ReducedRelations.inRole?_eq_some hp).1
      simp only [ElectricalGrid.sourcesOf, List.mem_append, List.mem_flatMap] at hi
      rcases hi with (⟨_, -, hi⟩ | ⟨_, -, hi⟩) | ⟨_, -, hi⟩
      all_goals exact hresolved _ hi
  | thermal e =>
    refine ⟨_, rfl, ?_⟩
    have hfits := ReducedRelations.build_fits e.topology hps
    rw [e.oneMeter] at hfits
    exact hfits

end Grid

/-! ### Accepted problems -/

namespace Problem

variable {P α : Type} [Part P α]

/-- Taking participants in one after the other. -/
theorem mem_foldl_add {grids : List (Grid α)} {q : Participant} :
    ∀ (entries : List (P × Nat)) (ps : Participants),
      q ∈ (entries.foldl (fun ps e => ps.add (participant grids e.2 e.1)) ps).entries →
      q ∈ ps.entries ∨ ∃ e ∈ entries, q = participant grids e.2 e.1 := by
  intro entries
  induction entries with
  | nil => intro ps h; exact Or.inl h
  | cons e entries ih =>
    intro ps h
    rcases ih _ h with h | ⟨e', he', rfl⟩
    · simp only [Participants.add, List.mem_append, List.mem_filter, List.mem_singleton] at h
      rcases h with ⟨h, -⟩ | rfl
      · exact Or.inl h
      · exact Or.inr ⟨e, by simp, rfl⟩
    · exact Or.inr ⟨e', by simp [he'], rfl⟩

/-- **A participant is a part of the problem**, in the role that the grids give it. -/
theorem mem_participants {grids : List (Grid α)} {parts : List P} {q : Participant}
    (h : q ∈ (participants grids parts).entries) :
    ∃ p i, parts[i]? = some p ∧ Part.isStatic p = false ∧ q = participant grids i p := by
  rcases mem_foldl_add _ _ h with h | ⟨⟨p, i⟩, he, rfl⟩
  · exact absurd h (by simp [Participants.empty])
  · obtain ⟨he, hstatic⟩ := List.mem_filter.mp he
    exact ⟨p, i, List.mem_zipIdx_iff_getElem?.mp he, by simpa using hstatic, rfl⟩

/-- A later participant takes the place of earlier ones of its device, and of no others. -/
theorem find?_foldl_add (grids : List (Grid α)) (d : DeviceId) :
    ∀ (entries : List (P × Nat)) (ps : Participants),
      (entries.foldl (fun ps e => ps.add (participant grids e.2 e.1)) ps).entries.find?
          (fun q => q.device == d)
        = ((entries.filter fun x => Part.device x.1 == d).getLast?.map
            fun x => participant grids x.2 x.1).or (ps.entries.find? fun q => q.device == d) := by
  intro entries
  induction entries with
  | nil => intro ps; rfl
  | cons x entries ih =>
    intro ps
    have hdevice : (participant grids x.2 x.1).device = Part.device x.1 := rfl
    rw [List.foldl_cons, ih, Participants.add, List.find?_append]
    by_cases hd : Part.device x.1 = d
    · have hnone : (ps.entries.filter fun q => q.device != (participant grids x.2 x.1).device).find?
          (fun q => q.device == d) = none := by
        refine List.find?_eq_none.mpr ?_
        intro q hq
        have hne := (List.mem_filter.mp hq).2
        rw [hdevice, hd] at hne
        simpa using hne
      rw [hnone, List.filter_cons_of_pos (by simpa using hd), List.getLast?_cons]
      cases (entries.filter fun x => Part.device x.1 == d).getLast? <;>
        simp [hdevice, hd]
    · have hsame : (ps.entries.filter fun q => q.device != (participant grids x.2 x.1).device).find?
          (fun q => q.device == d) = ps.entries.find? fun q => q.device == d := by
        rw [List.find?_filter]
        congr 1
        funext q
        by_cases hq : q.device = d
        · simp [hdevice, hq, Ne.symm hd]
        · simp [hq]
      rw [hsame, List.filter_cons_of_neg (by simpa using hd)]
      simp [hdevice, hd]

/-- **The participant of a device is its last part that takes part.** -/
theorem find?_participants (grids : List (Grid α)) (parts : List P) (d : DeviceId) :
    (participants grids parts).entries.find? (fun q => q.device == d)
      = ((parts.zipIdx.filter fun x => !Part.isStatic x.1).filter fun x =>
          Part.device x.1 == d).getLast?.map fun x => participant grids x.2 x.1 := by
  rw [participants, find?_foldl_add]
  simp [Participants.empty]

omit [Part P α] in
theorem mem_indicesWhere {parts : List P} {test : P → Bool} {i : Nat} :
    i ∈ indicesWhere parts test ↔ ∃ p, parts[i]? = some p ∧ test p = true := by
  simp only [indicesWhere, List.mem_filter, List.mem_range]
  constructor
  · rintro ⟨-, h⟩
    split at h
    · rename_i p hp
      exact ⟨p, hp, h⟩
    · exact absurd h (by simp)
  · rintro ⟨p, hp, h⟩
    exact ⟨(List.getElem?_eq_some_iff.mp hp).1, by simpa [hp] using h⟩

omit [Part P α] in
theorem indicesWhere_eq (parts : List P) (test : P → Bool) :
    indicesWhere parts test = (parts.zipIdx.filter fun x => test x.1).map fun x => x.2 := by
  unfold indicesWhere
  rw [List.range_eq_range', ← List.zipIdx_map_snd 0 parts, List.filter_map]
  refine congrArg (List.map _) (List.filter_congr ?_)
  rintro ⟨p, i⟩ hx
  simp only [Function.comp_apply, List.mem_zipIdx_iff_getElem?.mp hx]

omit [Part P α] in
theorem lt_of_mem_indicesWhere {parts : List P} {test : P → Bool} {i : Nat}
    (h : i ∈ indicesWhere parts test) : i < parts.length := by
  obtain ⟨p, hp, -⟩ := mem_indicesWhere.mp h
  exact (List.getElem?_eq_some_iff.mp hp).1

omit [Part P α] in
theorem nodup_indicesWhere (parts : List P) (test : P → Bool) :
    (indicesWhere parts test).Nodup :=
  List.nodup_range.filter _

theorem participants_within (grids : List (Grid α)) (parts : List P) :
    ReducedRelations.Within parts.length (participants grids parts) := by
  intro q hq
  obtain ⟨p, i, hp, -, rfl⟩ := mem_participants hq
  exact (List.getElem?_eq_some_iff.mp hp).1

variable [Scalar α] {parts : List P} {grids : List (Grid α)} {problem : Problem P α}

/-- An accepted problem, written out. -/
theorem new_eq_ok (h : Problem.new parts grids = .ok problem) :
    problem =
      { parts := parts.toArray
        grids := grids.map fun g => g.prepare (participants grids parts)
        active := indicesWhere parts fun p => !Part.isStatic p && roleOf grids p == .active
        passive := indicesWhere parts fun p => !Part.isStatic p && roleOf grids p == .passive
        needsInput := indicesWhere parts fun p =>
          !Part.isStatic p && roleOf grids p == .active && Part.reactsToInput p
        taking := indicesWhere parts fun p => !Part.isStatic p
        activeOutputs := (parts.map fun p => FlowMap.limitedTo (Part.outputs p)).toArray
        passiveOutputs := (parts.map fun p => FlowMap.limitedTo (Part.outputs p)).toArray
        inputs := Array.replicate parts.length .unrestricted
        meter := .zero } := by
  unfold Problem.new at h
  split at h
  · exact absurd h (by simp)
  · split at h
    · exact absurd h (by simp)
    · exact (Except.ok.inj h).symm

/-- The grids of an accepted problem are those that were given, prepared for its participants. -/
theorem new_grids (h : Problem.new parts grids = .ok problem) {g : Grid α}
    (hg : g ∈ problem.wiring.grids) : ∃ g' ∈ grids, g = (g'.prepare (participants grids parts)).rinse := by
  rw [new_eq_ok h] at hg
  simp only [wiring, List.map_map, List.mem_map] at hg
  obtain ⟨g', hg', rfl⟩ := hg
  exact ⟨g', hg', rfl⟩

/-- Flows out of active parts end at meters and at passive parts. -/
theorem new_forward (h : Problem.new parts grids = .ok problem) {g : Grid α}
    (hg : g ∈ problem.wiring.grids) {f : Flow} (hf : f ∈ g.forwardFlows) {i : Nat}
    (hi : f.target = .part i) : i ∈ problem.wiring.passive := by
  obtain ⟨g', -, rfl⟩ := new_grids h hg
  rw [Grid.forwardFlows_rinse, Grid.forwardFlows_prepare] at hf
  rcases (ReducedRelations.mem_forwardFlows_build hf).2 with ⟨j, -, ht⟩ | ⟨q, hq, hrole, ht⟩
  · exact absurd (hi.symm.trans ht) (by simp)
  · obtain ⟨p, k, hp, hstatic, rfl⟩ := mem_participants hq
    obtain rfl : i = k := Target.part.inj (hi.symm.trans ht)
    rw [new_eq_ok h]
    have hpassive : roleOf grids p = .passive := hrole
    exact mem_indicesWhere.mpr ⟨p, hp, by simp [hstatic, hpassive]⟩

/-- Flows out of passive parts end at active parts that react to input. -/
theorem new_back (h : Problem.new parts grids = .ok problem) {g : Grid α}
    (hg : g ∈ problem.wiring.grids) {f : Flow} (hf : f ∈ g.backFlows) {i : Nat}
    (hi : f.target = .part i) : i ∈ problem.wiring.needsInput := by
  obtain ⟨g', -, rfl⟩ := new_grids h hg
  rw [Grid.backFlows_rinse, Grid.backFlows_prepare] at hf
  obtain ⟨-, q, hq, hneeds, ht⟩ := ReducedRelations.mem_backFlows_build hf
  obtain ⟨p, k, hp, hstatic, rfl⟩ := mem_participants hq
  obtain rfl : i = k := Target.part.inj (hi.symm.trans ht)
  rw [new_eq_ok h]
  refine mem_indicesWhere.mpr ⟨p, hp, ?_⟩
  simp only [participant, Participant.new, Bool.and_eq_true] at hneeds
  simp [hstatic, hneeds.1, hneeds.2]

/-- **Every accepted problem is wired soundly.** -/
theorem new_sound (h : Problem.new parts grids = .ok problem) : problem.wiring.Sound parts.length := by
  constructor
  case grids =>
    intro g hg
    obtain ⟨g', -, rfl⟩ := new_grids h hg
    exact Grid.ready_rinse.mpr (Grid.ready_prepare g' (participants_within grids parts))
  case forward => exact fun g hg f hf i hi => new_forward h hg hf hi
  case back => exact fun g hg f hf i hi => new_back h hg hf hi
  all_goals rw [new_eq_ok h]
  case active_lt => exact fun i hi => lt_of_mem_indicesWhere hi
  case passive_lt => exact fun i hi => lt_of_mem_indicesWhere hi
  case active_nodup => exact nodup_indicesWhere ..
  case passive_nodup => exact nodup_indicesWhere ..
  case taking_lt => exact fun i hi => lt_of_mem_indicesWhere hi
  case taking_nodup => exact nodup_indicesWhere ..
  case active_taking =>
    intro i hi
    obtain ⟨p, hp, hactive⟩ := mem_indicesWhere.mp hi
    exact mem_indicesWhere.mpr ⟨p, hp, (Bool.and_eq_true_iff.mp hactive).1⟩
  case passive_taking =>
    intro i hi
    obtain ⟨p, hp, hpassive⟩ := mem_indicesWhere.mp hi
    exact mem_indicesWhere.mpr ⟨p, hp, (Bool.and_eq_true_iff.mp hpassive).1⟩
  case taking_role =>
    intro i hi
    obtain ⟨p, hp, hstatic⟩ := mem_indicesWhere.mp hi
    cases hrole : roleOf grids p with
    | active => exact Or.inl (mem_indicesWhere.mpr ⟨p, hp, by simp [hstatic, hrole]⟩)
    | passive => exact Or.inr (mem_indicesWhere.mpr ⟨p, hp, by simp [hstatic, hrole]⟩)
  case disjoint =>
    intro i hi hi'
    obtain ⟨p, hp, hactive⟩ := mem_indicesWhere.mp hi
    obtain ⟨p', hp', hpassive⟩ := mem_indicesWhere.mp hi'
    obtain rfl : p = p' := Option.some.inj (hp.symm.trans hp')
    simp only [Bool.and_eq_true, beq_iff_eq] at hactive hpassive
    exact absurd (hactive.2.symm.trans hpassive.2) (by decide)
  case needsInput_active =>
    intro i hi
    obtain ⟨p, hp, hneeds⟩ := mem_indicesWhere.mp hi
    simp only [Bool.and_eq_true] at hneeds
    exact mem_indicesWhere.mpr ⟨p, hp, by simpa using hneeds.1⟩

/-- An accepted problem has its maps, and nothing in them. -/
theorem new_sized (h : Problem.new parts grids = .ok problem) : problem.Sized parts.length := by
  rw [new_eq_ok h]
  refine ⟨by simp, by simp, by simp, by simp, ?_⟩
  intro i
  by_cases hi : i < parts.length <;> simp [hi]

/-- The parts that are left out of runs are those without a role. -/
theorem new_taking (h : Problem.new parts grids = .ok problem) {i : Nat} {p : P}
    (hp : problem.parts[i]? = some p) : i ∈ problem.taking ↔ Part.isStatic p = false := by
  rw [new_eq_ok h] at hp ⊢
  have hp' : parts[i]? = some p := by simpa using hp
  rw [mem_indicesWhere]
  constructor
  · rintro ⟨q, hq, hstatic⟩
    obtain rfl : p = q := Option.some.inj (hp'.symm.trans hq)
    simpa using hstatic
  · intro hstatic
    exact ⟨p, hp', by simpa using hstatic⟩

end Problem

end HomeEnergy

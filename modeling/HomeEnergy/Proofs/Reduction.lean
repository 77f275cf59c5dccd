import HomeEnergy.Proofs.Readiness

/-!
# Reduction keeps the exchange

Before a run the relations of a topology are reduced to the flows that its participants can use, grouped by the
active part. This module says what the reduction stands for: a walk over the relations as they are written down,
where each one is asked anew whether it carries anything.

* `StablySorted` — what a stable sort by a key is; `StablySorted.unique` — **it is determined by the list**.
* `groupByActive_stablySorted` — grouping flows by the active part is a stable sort by its index.
* `carryForward`, `carryBack` — what one relation carries, decided from the participants and the maps of the
  moment; `walkForward`, `walkBack` — all relations, one after the other.
* `exchange_walks` — **an exchange over the reduced relations is the walk**, failures included.
-/

namespace HomeEnergy

/-! ### Stable sorts -/

section Sorting

variable {β γ : Type} {key : β → Nat}

/-- A list sorted by a key in which entries of one key keep the order of another list. -/
structure StablySorted (key : β → Nat) (l sorted : List β) : Prop where
  perm : sorted.Perm l
  ascending : sorted.Pairwise fun a b => key a ≤ key b
  stable : ∀ k, (l.filter fun x => decide (key x = k)).Sublist sorted

theorem StablySorted.filter_eq {l sorted : List β} (h : StablySorted key l sorted) (k : Nat) :
    (sorted.filter fun x => decide (key x = k)) = l.filter fun x => decide (key x = k) := by
  have hsub : (l.filter fun x => decide (key x = k)).Sublist
      (sorted.filter fun x => decide (key x = k)) := by
    have hfilter := (h.stable k).filter fun x => decide (key x = k)
    rwa [List.filter_filter, List.filter_congr (fun x _ => Bool.and_self _)] at hfilter
  exact (hsub.eq_of_length (h.perm.filter _).length_eq.symm).symm

theorem mem_iff_of_filter_key {l l' : List β}
    (h : ∀ k, (l.filter fun x => decide (key x = k)) = l'.filter fun x => decide (key x = k)) (x : β) :
    x ∈ l ↔ x ∈ l' := by
  have hx := congrArg (x ∈ ·) (h (key x))
  simpa using hx

/-- A list in ascending order of a key is known from its entries of each key. -/
theorem eq_of_filter_key {l l' : List β} (hl : l.Pairwise fun a b => key a ≤ key b)
    (hl' : l'.Pairwise fun a b => key a ≤ key b)
    (h : ∀ k, (l.filter fun x => decide (key x = k)) = l'.filter fun x => decide (key x = k)) :
    l = l' := by
  induction l generalizing l' with
  | nil =>
    refine (List.eq_nil_iff_forall_not_mem.mpr ?_).symm
    intro x hx
    exact List.not_mem_nil ((mem_iff_of_filter_key h x).mpr hx)
  | cons a l ih =>
    have hmem := mem_iff_of_filter_key h
    cases l' with
    | nil => exact absurd ((hmem a).mp (by simp)) List.not_mem_nil
    | cons b l' =>
      have hab : key a ≤ key b := by
        rcases List.mem_cons.mp ((hmem b).mpr (by simp)) with rfl | hb
        · exact Nat.le_refl _
        · exact List.rel_of_pairwise_cons hl hb
      have hba : key b ≤ key a := by
        rcases List.mem_cons.mp ((hmem a).mp (by simp)) with rfl | ha
        · exact Nat.le_refl _
        · exact List.rel_of_pairwise_cons hl' ha
      have hkey : key a = key b := Nat.le_antisymm hab hba
      have hheads := h (key a)
      rw [List.filter_cons_of_pos (by simp), List.filter_cons_of_pos (by simp [hkey])] at hheads
      obtain rfl : a = b := (List.cons.inj hheads).1
      have hrest : ∀ k, (l.filter fun x => decide (key x = k))
          = l'.filter fun x => decide (key x = k) := by
        intro k
        have hk := h k
        by_cases hak : key a = k
        · rw [List.filter_cons_of_pos (by simpa using hak),
            List.filter_cons_of_pos (by simpa using hak)] at hk
          exact (List.cons.inj hk).2
        · rwa [List.filter_cons_of_neg (by simpa using hak),
            List.filter_cons_of_neg (by simpa using hak)] at hk
      exact congrArg (a :: ·) (ih hl.tail hl'.tail hrest)

/-- **A stable sort is determined by the list.** -/
theorem StablySorted.unique {l sorted sorted' : List β} (h : StablySorted key l sorted)
    (h' : StablySorted key l sorted') : sorted = sorted' :=
  eq_of_filter_key h.ascending h'.ascending fun k => (h.filter_eq k).trans (h'.filter_eq k).symm

/-- Sorting by merging is stable. -/
theorem stablySorted_mergeSort (key : β → Nat) (l : List β) :
    StablySorted key l (l.mergeSort fun a b => decide (key a ≤ key b)) where
  perm := List.mergeSort_perm l _
  ascending := by
    have hsorted : (l.mergeSort fun a b => decide (key a ≤ key b)).Pairwise
        fun a b => decide (key a ≤ key b) = true :=
      List.pairwise_mergeSort (by simp; omega) (by simp; omega) _
    simpa using hsorted
  stable k := by
    refine List.sublist_mergeSort (by simp; omega) (by simp; omega) ?_ List.filter_sublist
    refine List.pairwise_filter.mpr (List.pairwise_of_forall ?_)
    intro a b ha hb
    simp only [decide_eq_true_eq] at ha hb ⊢
    omega

/-- What a partial function makes of a stably sorted list is stably sorted, if it keeps the keys. -/
theorem StablySorted.filterMap {l sorted : List β} (h : StablySorted key l sorted)
    {key' : γ → Nat} {f : β → Option γ} (hf : ∀ x y, f x = some y → key' y = key x) :
    StablySorted key' (l.filterMap f) (sorted.filterMap f) where
  perm := h.perm.filterMap f
  ascending := by
    refine List.pairwise_filterMap.mpr (h.ascending.imp ?_)
    intro a b hab x hx y hy
    rw [hf a x hx, hf b y hy]
    exact hab
  stable k := by
    have hclass : ((l.filterMap f).filter fun y => decide (key' y = k))
        = (l.filter fun x => decide (key x = k)).filterMap f := by
      rw [List.filter_filterMap, List.filterMap_filter]
      refine List.filterMap_congr fun x _ => ?_
      cases hx : f x with
      | none => by_cases hk : key x = k <;> simp [hk]
      | some y => by_cases hk : key x = k <;> simp [hf x y hx, hk, Option.filter]
    rw [hclass]
    exact (h.stable k).filterMap f

end Sorting

/-- Dropping repetitions only drops entries. -/
theorem sublist_eraseReps {β : Type} [DecidableEq β] : ∀ l : List β, l.eraseReps.Sublist l := by
  intro l
  match l with
  | [] => exact List.Sublist.refl _
  | [a] => exact List.Sublist.refl _
  | a :: b :: l =>
    rw [eraseReps_cons_cons]
    split
    · rename_i hab
      subst hab
      exact (sublist_eraseReps (a :: l)).trans (List.sublist_cons_self a (a :: l))
    · exact (sublist_eraseReps (b :: l)).cons_cons a
termination_by l => l.length

def groupedFlows {β : Type} (groups : List (FlowGroup β)) : List (Nat × β) :=
  groups.flatMap fun g => g.flows.map fun f => (g.active, f)

/-- **Grouping flows by the active part is a stable sort by its index.** -/
theorem groupByActive_stablySorted {β : Type} (flows : List (Nat × β)) :
    StablySorted (fun f => f.1) flows (groupedFlows (groupByActive flows)) where
  perm := groupByActive_perm flows
  ascending := by
    have hsorted := (stablySorted_mergeSort (fun i => i) (flows.map fun f => f.1)).ascending
    have hindices := hsorted.sublist (sublist_eraseReps _)
    refine List.pairwise_flatMap.mpr ⟨?_, ?_⟩
    · intro g _
      refine List.pairwise_map.mpr (List.pairwise_of_forall ?_)
      intro _ _
      exact Nat.le_refl _
    · refine List.pairwise_map.mpr (hindices.imp ?_)
      intro i j hij x hx y hy
      obtain ⟨_, -, rfl⟩ := List.mem_map.mp hx
      obtain ⟨_, -, rfl⟩ := List.mem_map.mp hy
      exact hij
  stable k := by
    by_cases hk : k ∈ flows.map fun f => f.1
    · have hgroup : k ∈ ((flows.map fun f => f.1).mergeSort fun a b => decide (a ≤ b)).eraseReps := by
        rwa [mem_eraseReps, List.mem_mergeSort]
      rw [← map_group_eq_filter]
      refine List.sublist_flatten_of_mem (List.mem_map.mpr ⟨_, List.mem_map.mpr ⟨k, hgroup, rfl⟩, rfl⟩)
    · have hnone : (flows.filter fun f => decide (f.1 = k)) = [] := by
        refine List.filter_eq_nil_iff.mpr ?_
        intro f hf hfk
        exact hk (List.mem_map.mpr ⟨f, hf, by simpa using hfk⟩)
      rw [hnone]
      exact List.nil_sublist _

/-! ### The walk -/

def Participants.of? (ps : Participants) (d : DeviceId) : Option Participant :=
  ps.entries.find? fun p => p.device == d

/-- The place of a relation in a walk: the index of its active end. A relation whose active end does not take
part as an active device carries nothing, so that its place does not matter. -/
def walkKey (ps : Participants) (r : Relation) : Nat :=
  match ps.of? r.active with
  | some p => if p.role = .active then p.index else 0
  | none => 0

/-- The relations of a topology, stably sorted by the index of the active end. -/
def walkOrder (t : Topology) (ps : Participants) : List Relation :=
  t.relations.mergeSort fun r r' => decide (walkKey ps r ≤ walkKey ps r')

/-- Where a passive end is: the first meter of this identity, or else a passive device that takes part. -/
def ending? (t : Topology) (ps : Participants) (d : DeviceId) : Option Target :=
  if d ∈ t.meters then some (.meter (t.meters.idxOf d))
  else
    match ps.of? d with
    | some q => if q.role = .passive then some (.part q.index) else none
    | none => none

section Walks

variable {α : Type} [Scalar α]

open ReducedRelations (Inbox deliver updateAt)

/-- Changes the map at a target, which has to be there. -/
def ReducedRelations.Inbox.change (box : Inbox α) (target : Target) (f : FlowMap α → FlowMap α) :
    Except Defect (Inbox α) :=
  match target with
  | .part i => (updateAt box.inputs i f).map fun inputs => { box with inputs }
  | .meter i => (updateAt box.meters i f).map fun meters => { box with meters }

/-- What one relation carries forward. Its active end takes part as an active device that declares the forward
commodity, its passive end is somewhere, and the commodity is among what the active device publishes; otherwise
it carries nothing. -/
def carryForward (t : Topology) (ps : Participants) (withTemperature : Bool)
    (outputs : Array (FlowMap α)) (box : Inbox α) (r : Relation) : Except Defect (Inbox α) :=
  match ps.of? r.active, ending? t ps r.passive with
  | some p, some target =>
    if p.role = .active ∧ r.forward ∈ p.outputs then
      match outputs[p.index]? with
      | none => .error .indexOutOfRange
      | some out =>
        if out.containsCommodity r.forward then
          box.change target (deliver withTemperature out r.forward)
        else .ok box
    else .ok box
  | _, _ => .ok box

/-- What one relation carries back. Its active end takes part as an active device that needs input, its passive
end takes part as a passive device that declares the commodity that flows back, and the commodity is among what
that one publishes; otherwise it carries nothing. -/
def carryBack (ps : Participants) (withTemperature : Bool) (outputs inputs : Array (FlowMap α))
    (r : Relation) : Except Defect (Array (FlowMap α)) :=
  match ps.of? r.active, ps.of? r.passive with
  | some p, some q =>
    if p.role = .active ∧ p.needsInput ∧ q.role = .passive ∧ r.back ∈ q.outputs then
      match outputs[q.index]? with
      | none => .error .indexOutOfRange
      | some out =>
        if out.containsCommodity r.back then
          updateAt inputs p.index (deliver withTemperature out r.back)
        else .ok inputs
    else .ok inputs
  | _, _ => .ok inputs

def walkForward (t : Topology) (ps : Participants) (withTemperature : Bool)
    (outputs : Array (FlowMap α)) (box : Inbox α) : Except Defect (Inbox α) :=
  (walkOrder t ps).foldlM (carryForward t ps withTemperature outputs) box

def walkBack (t : Topology) (ps : Participants) (withTemperature : Bool)
    (outputs inputs : Array (FlowMap α)) : Except Defect (Array (FlowMap α)) :=
  (walkOrder t ps).foldlM (carryBack ps withTemperature outputs) inputs

end Walks

/-! ### Relations and flows -/

namespace ReducedRelations

theorem inRole?_eq (ps : Participants) (role : Role) (d : DeviceId) :
    ps.inRole? role d = (ps.of? d).filter fun p => decide (p.role = role) := by
  simp only [Participants.inRole?, Participants.of?]
  congr 1

/-- The target of a passive end is where it is. -/
theorem target?_eq (t : Topology) (ps : Participants) (d : DeviceId) :
    target? t ps d = ending? t ps d := by
  unfold target? ending?
  by_cases hd : d ∈ t.meters
  · have hidx : (t.meters.findIdx? fun m => m == d) = some (t.meters.idxOf d) :=
      List.findIdx?_eq_some_of_exists ⟨d, hd, beq_self_eq_true d⟩
    rw [hidx, if_pos hd]
  · have hidx : (t.meters.findIdx? fun m => m == d) = none := by
      refine List.findIdx?_eq_none_iff.mpr ?_
      intro m hm
      exact beq_eq_false_iff_ne.mpr fun h => hd (h ▸ hm)
    rw [hidx, if_neg hd, inRole?_eq]
    cases ps.of? d with
    | none => rfl
    | some q => by_cases hrole : q.role = .passive <;> simp [hrole, Option.filter]

/-- The flow of a relation, said by its two ends. -/
theorem forwardFlow?_eq (t : Topology) (ps : Participants) (r : Relation) :
    forwardFlow? t ps r =
      match ps.of? r.active, ending? t ps r.passive with
      | some p, some target =>
        if p.role = .active ∧ r.forward ∈ p.outputs then some (p.index, target, r.forward) else none
      | _, _ => none := by
  unfold forwardFlow?
  rw [inRole?_eq, target?_eq]
  cases ps.of? r.active with
  | none => rfl
  | some p =>
    by_cases hrole : p.role = .active
    · by_cases hout : r.forward ∈ p.outputs
      · cases ending? t ps r.passive <;> simp [hrole, hout, Option.filter]
      · cases ending? t ps r.passive <;> simp [hrole, hout, Option.filter]
    · cases ending? t ps r.passive <;> simp [hrole, Option.filter]

theorem backFlow?_eq (ps : Participants) (r : Relation) :
    backFlow? ps r =
      match ps.of? r.active, ps.of? r.passive with
      | some p, some q =>
        if p.role = .active ∧ p.needsInput ∧ q.role = .passive ∧ r.back ∈ q.outputs then
          some (p.index, q.index, r.back)
        else none
      | _, _ => none := by
  unfold backFlow?
  rw [inRole?_eq, inRole?_eq]
  cases ps.of? r.active with
  | none => rfl
  | some p =>
    by_cases hp : p.role = .active ∧ p.needsInput = true
    · cases ps.of? r.passive with
      | none => simp [hp, Option.filter]
      | some q =>
        by_cases hrole : q.role = .passive
        · by_cases hout : r.back ∈ q.outputs <;> simp [hp, hrole, hout, Option.filter]
        · simp [hp, hrole, Option.filter]
    · by_cases hrole : p.role = .active
      · have hneeds : p.needsInput = false := by simpa [hrole] using hp
        cases ps.of? r.passive <;> simp [hneeds, Option.filter]
      · cases ps.of? r.passive <;> simp [hrole, Option.filter]

/-- The flow of a relation is sorted like the relation. -/
theorem key_forwardFlow? {t : Topology} {ps : Participants} {r : Relation}
    {x : Nat × Target × Commodity} (h : forwardFlow? t ps r = some x) : x.1 = walkKey ps r := by
  rw [forwardFlow?_eq] at h
  unfold walkKey
  split at h
  · rename_i p target hp _
    split at h
    · rename_i hcarries
      obtain rfl := Option.some.inj h
      simp only [hp, if_pos hcarries.1]
    · exact absurd h (by simp)
  · exact absurd h (by simp)

theorem key_backFlow? {ps : Participants} {r : Relation} {x : Nat × Nat × Commodity}
    (h : backFlow? ps r = some x) : x.1 = walkKey ps r := by
  rw [backFlow?_eq] at h
  unfold walkKey
  split at h
  · rename_i p q hp _
    split at h
    · rename_i hcarries
      obtain rfl := Option.some.inj h
      simp only [hp, if_pos hcarries.1]
    · exact absurd h (by simp)
  · exact absurd h (by simp)

/-- **The flows of the reduced relations are those of the relations in the order of the walk.** -/
theorem groupedFlows_forward (t : Topology) (ps : Participants) :
    groupedFlows (build t ps).forward = (walkOrder t ps).filterMap (forwardFlow? t ps) :=
  (groupByActive_stablySorted _).unique
    ((stablySorted_mergeSort (walkKey ps) t.relations).filterMap fun _ _ h => key_forwardFlow? h)

theorem groupedFlows_back (t : Topology) (ps : Participants) :
    groupedFlows (build t ps).back = (walkOrder t ps).filterMap (backFlow? ps) :=
  (groupByActive_stablySorted _).unique
    ((stablySorted_mergeSort (walkKey ps) t.relations).filterMap fun _ _ h => key_backFlow? h)

/-! ### Exchanges flow by flow -/

/-- A pass over a grouped table is a pass over its flows, if every group is one pass over its own. -/
theorem foldlM_groups {β σ ε : Type} {ofGroup : σ → FlowGroup β → Except ε σ}
    {ofFlow : σ → Nat × β → Except ε σ} :
    ∀ groups : List (FlowGroup β),
      (∀ g ∈ groups, ∀ s, ofGroup s g = g.flows.foldlM (fun s f => ofFlow s (g.active, f)) s) →
      ∀ s, groups.foldlM ofGroup s = (groupedFlows groups).foldlM ofFlow s := by
  intro groups
  induction groups with
  | nil => intro _ s; rfl
  | cons g groups ih =>
    intro hgroup s
    rw [List.foldlM_cons, hgroup g (by simp) s]
    show _ = (g.flows.map (fun f => (g.active, f)) ++ groupedFlows groups).foldlM ofFlow s
    rw [List.foldlM_append, List.foldlM_map]
    exact congrArg _ (funext (ih fun g hg => hgroup g (by simp [hg])))

theorem flows_ne_nil {β : Type} {flows : List (Nat × β)} {g : FlowGroup β}
    (hg : g ∈ groupByActive flows) : g.flows ≠ [] := by
  obtain ⟨f, hf, hactive⟩ := exists_of_mem_groupByActive hg
  obtain ⟨i, -, rfl⟩ := List.mem_map.mp hg
  refine List.ne_nil_of_mem (a := f.2) (List.mem_filterMap.mpr ⟨f, hf, ?_⟩)
  exact if_pos hactive

variable {α : Type} [Scalar α]

/-- One forward flow, from the part of the index. -/
def flowForward (wt : Bool) (outputs : Array (FlowMap α)) (box : Inbox α)
    (x : Nat × Target × Commodity) : Except Defect (Inbox α) :=
  match outputs[x.1]? with
  | none => .error .indexOutOfRange
  | some out => deliverTo wt out box x.2

/-- One flow back, to the part of the index. -/
def flowBack (wt : Bool) (outputs inputs : Array (FlowMap α)) (x : Nat × Nat × Commodity) :
    Except Defect (Array (FlowMap α)) :=
  match outputs[x.2.1]? with
  | none => .error .indexOutOfRange
  | some out =>
    if out.containsCommodity x.2.2 then updateAt inputs x.1 (deliver wt out x.2.2)
    else .ok inputs

/-- Passing over a part that publishes nothing makes no difference. -/
theorem deliverTo_of_isEmpty {out : FlowMap α} (h : out.isEmpty = true) (wt : Bool)
    (flows : List (Target × Commodity)) (box : Inbox α) :
    flows.foldlM (deliverTo wt out) box = .ok box := by
  induction flows with
  | nil => rfl
  | cons f flows ih =>
    have hskip : deliverTo wt out box f = .ok box := by
      simp [deliverTo, containsCommodity_of_isEmpty h]
    rw [List.foldlM_cons, hskip]
    exact ih

theorem exchangeForward_eq_flows (t : Topology) (ps : Participants) (wt : Bool)
    (outputs : Array (FlowMap α)) (box : Inbox α) :
    (build t ps).exchangeForward wt outputs box
      = (groupedFlows (build t ps).forward).foldlM (flowForward wt outputs) box := by
  refine foldlM_groups _ ?_ box
  intro g hg box
  cases hout : outputs[g.active]? with
  | none =>
    -- the table has a flow for this group, so reading the missing part fails on either side
    obtain ⟨f, flows, hflows⟩ := List.exists_cons_of_ne_nil (flows_ne_nil hg)
    simp only [hflows, List.foldlM_cons, flowForward, hout]
    rfl
  | some out =>
    simp only [flowForward, hout]
    split
    · rename_i hempty
      exact (deliverTo_of_isEmpty hempty wt g.flows box).symm
    · rfl

theorem exchangeBack_eq_flows (t : Topology) (ps : Participants) (wt : Bool)
    (outputs inputs : Array (FlowMap α)) :
    (build t ps).exchangeBack wt outputs inputs
      = (groupedFlows (build t ps).back).foldlM (flowBack wt outputs) inputs := by
  refine foldlM_groups _ ?_ inputs
  intro g _ inputs
  rfl

/-- A delivery changes the map at its target. -/
theorem deliverTo_eq_change (wt : Bool) (out : FlowMap α) (box : Inbox α) (target : Target)
    (c : Commodity) :
    deliverTo wt out box (target, c)
      = if out.containsCommodity c then box.change target (deliver wt out c) else .ok box := by
  unfold deliverTo Inbox.change
  split
  · cases target with
    | part i => cases updateAt box.inputs i (deliver wt out c) <;> rfl
    | meter i => cases updateAt box.meters i (deliver wt out c) <;> rfl
  · rfl

/-- A relation carries its forward flow. -/
theorem carryForward_eq (t : Topology) (ps : Participants) (wt : Bool) (outputs : Array (FlowMap α))
    (box : Inbox α) (r : Relation) :
    carryForward t ps wt outputs box r =
      match forwardFlow? t ps r with
      | some x => flowForward wt outputs box x
      | none => .ok box := by
  rw [forwardFlow?_eq]
  unfold carryForward
  split
  · split
    · simp only [flowForward, deliverTo_eq_change]
    · rfl
  · rfl

theorem carryBack_eq (ps : Participants) (wt : Bool) (outputs inputs : Array (FlowMap α))
    (r : Relation) :
    carryBack ps wt outputs inputs r =
      match backFlow? ps r with
      | some x => flowBack wt outputs inputs x
      | none => .ok inputs := by
  rw [backFlow?_eq]
  unfold carryBack
  split
  · split
    · rfl
    · rfl
  · rfl

end ReducedRelations

/-- **An exchange over the reduced relations is the walk over the relations**, in either direction. -/
theorem exchange_walks {α : Type} [Scalar α] (t : Topology) (ps : Participants) (wt : Bool)
    (outputs : Array (FlowMap α)) :
    (∀ box, (ReducedRelations.build t ps).exchangeForward wt outputs box
      = walkForward t ps wt outputs box) ∧
    (∀ inputs, (ReducedRelations.build t ps).exchangeBack wt outputs inputs
      = walkBack t ps wt outputs inputs) := by
  constructor
  · intro box
    rw [ReducedRelations.exchangeForward_eq_flows, ReducedRelations.groupedFlows_forward,
      List.foldlM_filterMap]
    refine congrArg (fun f => (walkOrder t ps).foldlM f box) (funext₂ fun box r => ?_)
    rw [ReducedRelations.carryForward_eq]
    cases ReducedRelations.forwardFlow? t ps r <;> rfl
  · intro inputs
    rw [ReducedRelations.exchangeBack_eq_flows, ReducedRelations.groupedFlows_back,
      List.foldlM_filterMap]
    refine congrArg (fun f => (walkOrder t ps).foldlM f inputs) (funext₂ fun inputs r => ?_)
    rw [ReducedRelations.carryBack_eq]
    cases ReducedRelations.backFlow? ps r <;> rfl

end HomeEnergy

import HomeEnergy.Proofs.Correspondence
import HomeEnergy.Proofs.Faithfulness
import HomeEnergy.Proofs.Reduction
import Mathlib.Order.Monotone.Basic
import Mathlib.Order.Nat

/-!
# Parts at other places

A prepared grid names parts by their index. Here the same devices take part at other indices, each part at its place,
and the flows and the sources behind the meters are compared.

* `Participants.Moved` — the same devices take part, each at its place; `forwardFlow?_moved`, `backFlow?_moved`,
  `sourcesOf_moved` — what becomes of a relation and of the sources behind a meter.
* `forwardFlows_moved` — **where the places keep their order, the flows keep theirs**;
  `forwardFlows_moved_perm` — at any places they are the same flows, and `backFlows_moved` — what flows back to one
  part keeps its order at any places.
* `Problem.Relocates` — a list of parts that holds those of another list at their places;
  `Problem.mirrors` — **the wirings of the two problems mirror each other**, as soon as the same arrives everywhere;
  `Problem.mirrors_of_strictMono` — it does where the places keep their order;
  `Problem.startOf_matches` — evaluations start from matching frames.
* `Evaluator.finished_runOn`, `Evaluator.scheduleAt_matches` — the schedules that an evaluation writes; matching
  frames lead to the same ones.
-/

namespace HomeEnergy

/-! ### Moving indices -/

def Target.move (place : Nat → Nat) : Target → Target
  | .part i => .part (place i)
  | .meter j => .meter j

def Flow.move (place : Nat → Nat) (f : Flow) : Flow :=
  { source := place f.source, target := f.target.move place, commodity := f.commodity }

def Participant.move (place : Nat → Nat) (p : Participant) : Participant :=
  { p with index := place p.index }

def MeterSources.move (place : Nat → Nat) (m : MeterSources) : MeterSources :=
  { pv := m.pv.map place, chp := m.chp.map place, battery := m.battery.map place }

/-- The same devices take part, each at its place. -/
def Participants.Moved (place : Nat → Nat) (ps ps' : Participants) : Prop :=
  ∀ d, ps'.of? d = (ps.of? d).map (Participant.move place)

theorem Target.move_injective {place : Nat → Nat} (h : Function.Injective place) :
    Function.Injective (Target.move place) := by
  intro s t hst
  cases s with
  | part i =>
    cases t with
    | part j => exact congrArg Target.part (h (Target.part.inj hst))
    | meter j => exact absurd hst (by simp [move])
  | meter i =>
    cases t with
    | part j => exact absurd hst (by simp [move])
    | meter j => exact hst

/-- A stable sort stays one when the keys change and keep their order. -/
theorem StablySorted.map {β γ : Type} {key : β → Nat} {l sorted : List β}
    (h : StablySorted key l sorted) {place : Nat → Nat} (hplace : StrictMono place) (key' : γ → Nat)
    (f : β → γ) (hf : ∀ x, key' (f x) = place (key x)) : StablySorted key' (l.map f) (sorted.map f) where
  perm := h.perm.map f
  ascending := by
    rw [List.pairwise_map]
    refine h.ascending.imp fun {a b} hab => ?_
    rw [hf, hf]
    exact hplace.monotone hab
  stable k := by
    rw [List.filter_map]
    by_cases hk : ∃ i, place i = k
    · obtain ⟨i, rfl⟩ := hk
      have hsame : l.filter ((fun y => decide (key' y = place i)) ∘ f)
          = l.filter fun x => decide (key x = i) := by
        refine List.filter_congr fun x _ => ?_
        simp only [Function.comp_apply, hf, hplace.injective.eq_iff]
      rw [hsame]
      exact (h.stable i).map f
    · have hnone : l.filter ((fun y => decide (key' y = k)) ∘ f) = [] := by
        refine List.filter_eq_nil_iff.mpr fun x _ hx => ?_
        simp only [Function.comp_apply, hf, decide_eq_true_eq] at hx
        exact hk ⟨_, hx⟩
      rw [hnone]
      exact List.nil_sublist _

namespace ReducedRelations

/-! ### Relations and sources -/

section Relations

variable {place : Nat → Nat} {ps ps' : Participants}

theorem ending?_moved (h : ps.Moved place ps') (t : Topology) (d : DeviceId) :
    ending? t ps' d = (ending? t ps d).map (Target.move place) := by
  unfold ending?
  rw [h d]
  split
  · rfl
  · cases ps.of? d with
    | none => rfl
    | some q => by_cases hrole : q.role = .passive <;> simp [Participant.move, hrole, Target.move]

/-- The flow of a relation moves with its ends. -/
theorem forwardFlow?_moved (h : ps.Moved place ps') (t : Topology) (r : Relation) :
    forwardFlow? t ps' r
      = (forwardFlow? t ps r).map fun x => (place x.1, x.2.1.move place, x.2.2) := by
  rw [forwardFlow?_eq, forwardFlow?_eq, h r.active, ending?_moved h]
  cases ps.of? r.active with
  | none => rfl
  | some p =>
    cases ending? t ps r.passive with
    | none => rfl
    | some target =>
      by_cases hcarries : p.role = .active ∧ r.forward ∈ p.outputs <;>
        simp [Participant.move, hcarries]

theorem backFlow?_moved (h : ps.Moved place ps') (r : Relation) :
    backFlow? ps' r = (backFlow? ps r).map fun x => (place x.1, place x.2.1, x.2.2) := by
  rw [backFlow?_eq, backFlow?_eq, h r.active, h r.passive]
  cases ps.of? r.active with
  | none => rfl
  | some p =>
    cases ps.of? r.passive with
    | none => rfl
    | some q =>
      by_cases hcarries : p.role = .active ∧ p.needsInput ∧ q.role = .passive ∧ r.back ∈ q.outputs <;>
        simp [Participant.move, hcarries]

theorem activeIndex?_moved (h : ps.Moved place ps') (d : DeviceId) :
    ps'.activeIndex? d = (ps.activeIndex? d).map place := by
  simp only [Participants.activeIndex?, inRole?_eq, h d]
  cases ps.of? d with
  | none => rfl
  | some p => by_cases hrole : p.role = .active <;> simp [Participant.move, hrole, Option.filter]

theorem sourcesOf_moved (h : ps.Moved place ps') (t : Topology) (meter : DeviceId) :
    ElectricalGrid.sourcesOf t ps' meter = (ElectricalGrid.sourcesOf t ps meter).move place := by
  have hresolve : ∀ ids : List DeviceId, ids.filterMap ps'.activeIndex?
      = (ids.filterMap ps.activeIndex?).map place := by
    intro ids
    rw [List.map_filterMap]
    exact List.filterMap_congr fun d _ => activeIndex?_moved h d
  simp only [ElectricalGrid.sourcesOf, MeterSources.move, List.map_flatMap, hresolve]

/-! ### Tables of flows -/

theorem forwardFlows_eq_map (r : ReducedRelations) :
    r.forwardFlows = (groupedFlows r.forward).map fun x => ⟨x.1, x.2.1, x.2.2⟩ := by
  rw [groupedFlows, List.map_flatMap]
  refine List.flatMap_congr fun g _ => ?_
  rw [groupFlows, List.map_map]
  rfl

theorem backFlows_eq_map (r : ReducedRelations) :
    r.backFlows = (groupedFlows r.back).map fun x => ⟨x.2.1, .part x.1, x.2.2⟩ := by
  rw [groupedFlows, List.map_flatMap]
  refine List.flatMap_congr fun g _ => ?_
  rw [groupBackFlows, List.map_map]
  rfl

theorem filterMap_forwardFlow?_moved (h : ps.Moved place ps') (t : Topology) :
    t.relations.filterMap (forwardFlow? t ps')
      = (t.relations.filterMap (forwardFlow? t ps)).map
          fun x => (place x.1, x.2.1.move place, x.2.2) := by
  rw [List.map_filterMap]
  exact List.filterMap_congr fun r _ => forwardFlow?_moved h t r

/-- **Where the places keep their order, the forward flows keep theirs.** -/
theorem forwardFlows_moved (h : ps.Moved place ps') (hplace : StrictMono place) (t : Topology) :
    (build t ps').forwardFlows = (build t ps).forwardFlows.map (Flow.move place) := by
  have hsorted := (groupByActive_stablySorted (t.relations.filterMap (forwardFlow? t ps))).map hplace
    (fun x : Nat × Target × Commodity => x.1) (fun x => (place x.1, x.2.1.move place, x.2.2)) fun _ => rfl
  rw [← filterMap_forwardFlow?_moved h t] at hsorted
  have hgrouped : groupedFlows (build t ps').forward = _ :=
    (groupByActive_stablySorted _).unique hsorted
  rw [forwardFlows_eq_map, hgrouped, forwardFlows_eq_map, List.map_map, List.map_map]
  rfl

theorem forwardFlows_moved_perm (h : ps.Moved place ps') (t : Topology) :
    (build t ps').forwardFlows.Perm ((build t ps).forwardFlows.map (Flow.move place)) := by
  have hperm := (forwardFlows_build_perm t ps).map (Flow.move place)
  refine (forwardFlows_build_perm t ps').trans (List.Perm.trans ?_ hperm.symm)
  rw [filterMap_forwardFlow?_moved h, List.map_map, List.map_map]
  exact List.Perm.refl _

/-- **What flows back to one part keeps its order at any places.** All of it belongs to one group of the table. -/
theorem backFlows_moved (h : ps.Moved place ps') (hplace : Function.Injective place) (t : Topology)
    (i : Nat) :
    ((build t ps').backFlows.filter fun f => decide (f.target = .part (place i)))
      = ((build t ps).backFlows.filter fun f => decide (f.target = .part i)).map (Flow.move place) := by
  have hgroup : ∀ (ps : Participants) (i : Nat),
      ((build t ps).backFlows.filter fun f => decide (f.target = .part i))
        = ((t.relations.filterMap (backFlow? ps)).filter fun x => decide (x.1 = i)).map
            fun x => ⟨x.2.1, .part x.1, x.2.2⟩ := by
    intro ps i
    rw [← (groupByActive_stablySorted (t.relations.filterMap (backFlow? ps))).filter_eq i,
      backFlows_eq_map, List.filter_map]
    congr 2
    funext x
    simp
  have hmoved : t.relations.filterMap (backFlow? ps')
      = (t.relations.filterMap (backFlow? ps)).map fun x => (place x.1, place x.2.1, x.2.2) := by
    rw [List.map_filterMap]
    exact List.filterMap_congr fun r _ => backFlow?_moved h r
  have hsame : (fun x : Nat × Nat × Commodity => decide (x.1 = place i)) ∘
      (fun x : Nat × Nat × Commodity => (place x.1, place x.2.1, x.2.2))
      = fun x => decide (x.1 = i) := by
    funext x
    simp [hplace.eq_iff]
  rw [hgroup ps', hgroup ps, hmoved, List.filter_map, hsame, List.map_map, List.map_map]
  rfl

end Relations

/-! ### What arrives -/

section Arrivals

variable {α : Type} [Scalar α] {place : Nat → Nat} {outputs outputs' : Array (FlowMap α)}

/-- Only the flows that end at a target matter to it. -/
theorem arrive_filter (wt : Bool) (outputs : Array (FlowMap α)) (flows : List Flow) (t : Target)
    (m : FlowMap α) :
    arrive wt outputs flows t m
      = arrive wt outputs (flows.filter fun f => decide (f.target = t)) t m := by
  induction flows generalizing m with
  | nil => rfl
  | cons f flows ih =>
    by_cases ht : f.target = t
    · rw [List.filter_cons_of_pos (by simpa using ht), arrive_cons, arrive_cons, ih]
    · rw [List.filter_cons_of_neg (by simpa using ht), arrive_cons, if_neg ht, ih]

/-- What is published at its place arrives at its place. -/
theorem arrive_move (wt : Bool) (hplace : Function.Injective place) {flows : List Flow}
    (hsource : ∀ f ∈ flows,
      outputs'.getD (place f.source) .unrestricted = outputs.getD f.source .unrestricted)
    (t : Target) (m : FlowMap α) :
    arrive wt outputs' (flows.map (Flow.move place)) (t.move place) m = arrive wt outputs flows t m := by
  induction flows generalizing m with
  | nil => rfl
  | cons f flows ih =>
    have htarget : (f.move place).target = t.move place ↔ f.target = t :=
      (Target.move_injective hplace).eq_iff
    rw [List.map_cons, arrive_cons, arrive_cons, ih fun g hg => hsource g (by simp [hg])]
    simp only [htarget]
    rw [show outputs'.getD (f.move place).source .unrestricted = _ from hsource f (by simp)]
    rfl

end Arrivals

end ReducedRelations

/-! ### Prepared grids -/

namespace Grid

variable {α : Type} [Scalar α] {place : Nat → Nat} {ps ps' : Participants}
  {outputs outputs' : Array (FlowMap α)}

/-- The same arrives everywhere, with the parts at their places. -/
def Delivers (g : Grid α) (place : Nat → Nat) (ps ps' : Participants)
    (outputs outputs' : Array (FlowMap α)) : Prop :=
  ∀ (t : Target) (m : FlowMap α),
    ReducedRelations.arrive g.carriesTemperature outputs'
        (ReducedRelations.build g.topology ps').forwardFlows (t.move place) m
      = ReducedRelations.arrive g.carriesTemperature outputs
          (ReducedRelations.build g.topology ps).forwardFlows t m

@[simp] theorem carriesTemperature_prepare (g : Grid α) (ps : Participants) :
    (g.prepare ps).carriesTemperature = g.carriesTemperature := by
  cases g <;> rfl

/-- The same reaches the meters. -/
theorem reached_moved {g : Grid α} (h : g.Delivers place ps ps' outputs outputs') :
    (g.prepare ps').reached outputs' = (g.prepare ps).reached outputs := by
  have hacc : (g.prepare ps').accumulators = (g.prepare ps).accumulators := by
    cases g with
    | electrical e => simp [prepare, ElectricalGrid.prepare, accumulators]
    | thermal e => rfl
  have hmeter : ∀ (j : Nat) (m : FlowMap α),
      ReducedRelations.arrive g.carriesTemperature outputs'
          (ReducedRelations.build g.topology ps').forwardFlows (.meter j) m
        = ReducedRelations.arrive g.carriesTemperature outputs
            (ReducedRelations.build g.topology ps).forwardFlows (.meter j) m :=
    fun j m => h (.meter j) m
  simp only [reached, hacc, carriesTemperature_prepare, forwardFlows_prepare, hmeter]

/-- Sources publish the same power at their places. -/
theorem sourcesPower_move (lookUp : Bool) {sources : List Nat}
    (h : ∀ i ∈ sources, outputs'.getD (place i) .unrestricted = outputs.getD i .unrestricted) :
    sourcesPower lookUp outputs' (sources.map place) = sourcesPower lookUp outputs sources := by
  cases sources with
  | nil => rfl
  | cons i rest =>
    simp only [sourcesPower, List.map_cons, List.foldl_cons, h i (by simp)]
    congr 2
    rw [List.foldl_map]
    exact List.foldl_ext _ _ _ fun acc j hj => by rw [h j (by simp [hj])]

theorem map_sourcesOf_moved (hmoved : ps.Moved place ps') (t : Topology) :
    t.meters.map (ElectricalGrid.sourcesOf t ps')
      = (t.meters.map (ElectricalGrid.sourcesOf t ps)).map (MeterSources.move place) := by
  rw [List.map_map]
  exact List.map_congr_left fun m _ => ReducedRelations.sourcesOf_moved hmoved t m

theorem looksUp_move (fast : Bool) (meters : List MeterSources) :
    ElectricalGrid.looksUp fast (meters.map (MeterSources.move place)) = ElectricalGrid.looksUp fast meters := by
  cases meters with
  | nil => rfl
  | cons m ms => cases ms <;> simp [ElectricalGrid.looksUp, MeterSources.atMostOneEach, MeterSources.move]

/-- The sources behind a meter are active parts. -/
theorem exists_of_mem_sourcesOf {t : Topology} {m : MeterSources}
    (hm : m ∈ t.meters.map (ElectricalGrid.sourcesOf t ps)) {i : Nat} (hi : i ∈ m.pv ++ m.chp ++ m.battery) :
    ∃ d, ps.activeIndex? d = some i := by
  obtain ⟨meter, -, rfl⟩ := List.mem_map.mp hm
  have hresolved : ∀ ids : List DeviceId, i ∈ ids.filterMap ps.activeIndex? → ∃ d, ps.activeIndex? d = some i := by
    intro ids hi
    obtain ⟨d, -, hd⟩ := List.mem_filterMap.mp hi
    exact ⟨d, hd⟩
  simp only [ElectricalGrid.sourcesOf, List.mem_append, List.mem_flatMap] at hi
  rcases hi with (⟨_, -, hi⟩ | ⟨_, -, hi⟩) | ⟨_, -, hi⟩
  all_goals exact hresolved _ hi

/-- **A grid measures the same**, if the active parts publish the same at their places. -/
theorem contributions_moved {g : Grid α} (hmoved : ps.Moved place ps')
    (hsources : ∀ d i, ps.activeIndex? d = some i →
      outputs'.getD (place i) .unrestricted = outputs.getD i .unrestricted)
    (h : g.Delivers place ps ps' outputs outputs') :
    (g.prepare ps').contributions outputs' = (g.prepare ps).contributions outputs := by
  have hreached := reached_moved h
  cases g with
  | thermal e =>
    simp only [prepare] at hreached
    simp only [prepare, contributions, hreached]
    rfl
  | electrical e =>
    simp only [prepare, ElectricalGrid.prepare] at hreached
    simp only [prepare, ElectricalGrid.prepare, contributions]
    rw [hreached, map_sourcesOf_moved hmoved, looksUp_move, List.zip_map_left, List.flatMap_map]
    refine List.flatMap_congr fun x hx => ?_
    have hbehind : ∀ i ∈ x.1.pv ++ x.1.chp ++ x.1.battery,
        outputs'.getD (place i) .unrestricted = outputs.getD i .unrestricted := by
      intro i hi
      obtain ⟨d, hd⟩ := exists_of_mem_sourcesOf (List.of_mem_zip hx).1 hi
      exact hsources d i hd
    simp only [Prod.map_fst, Prod.map_snd, id_eq, MeterSources.move]
    rw [sourcesPower_move _ fun i hi => hbehind i (by simp [hi]),
      sourcesPower_move _ fun i hi => hbehind i (by simp [hi]),
      sourcesPower_move _ fun i hi => hbehind i (by simp [hi])]

end Grid

/-! ### Problems -/

namespace Problem

variable {P α : Type} [Scalar α] [Part P α] {grids : List (Grid α)} {parts parts' : List P}
  {place : Nat → Nat} {m m' : Problem P α} {Sent : Nat → FlowMap α → Prop}

omit [Scalar α] in
def present (parts : List P) : List (P × Nat) :=
  parts.zipIdx.filter fun x => !Part.isStatic x.1

omit [Scalar α] in
theorem mem_present {x : P × Nat} :
    x ∈ present parts ↔ parts[x.2]? = some x.1 ∧ Part.isStatic x.1 = false := by
  rw [present, List.mem_filter, List.mem_zipIdx_iff_getElem?]
  simp

omit [Scalar α] in
/-- The participant of a device, among the parts that take part. -/
theorem of?_participants (grids : List (Grid α)) (parts : List P) (d : DeviceId) :
    (participants grids parts).of? d
      = ((present parts).filter fun x => Part.device x.1 == d).getLast?.map
          fun x => participant grids x.2 x.1 :=
  find?_participants grids parts d

theorem taking_new (hnew : Problem.new parts grids = .ok m) :
    m.wiring.taking = (present parts).map fun x => x.2 := by
  rw [new_eq_ok hnew]
  exact indicesWhere_eq parts _

theorem takingParts_new (hnew : Problem.new parts grids = .ok m) :
    m.takingParts = (present parts).map fun x => x.1 := by
  have htaking : m.taking = (present parts).map fun x => x.2 := taking_new hnew
  have hparts : m.parts = parts.toArray := by rw [new_eq_ok hnew]
  rw [takingParts, htaking, List.filterMap_map, hparts]
  rw [← List.filterMap_eq_map]
  refine List.filterMap_congr fun x hx => ?_
  simpa using (mem_present.mp hx).1

/-- A list of parts that holds those of another list that take part, at their places and in their roles, and nobody
else who takes part. -/
structure Relocates (grids : List (Grid α)) (place : Nat → Nat) (parts parts' : List P) : Prop where
  injective : Function.Injective place
  get : ∀ {i : Nat} {p : P}, parts[i]? = some p → Part.isStatic p = false → parts'[place i]? = some p
  moved : (participants grids parts).Moved place (participants grids parts')

theorem mem_taking_new (hnew : Problem.new parts grids = .ok m) {i : Nat} :
    i ∈ m.wiring.taking ↔ ∃ p, parts[i]? = some p ∧ Part.isStatic p = false := by
  rw [taking_new hnew, List.mem_map]
  constructor
  · rintro ⟨x, hx, rfl⟩
    exact ⟨x.1, mem_present.mp hx⟩
  · rintro ⟨p, hp⟩
    exact ⟨(p, i), mem_present.mpr hp, rfl⟩

theorem mem_indicesWhere_place {test : P → Bool} {i : Nat} {p : P} (hp : parts[i]? = some p)
    (hp' : parts'[place i]? = some p) :
    place i ∈ indicesWhere parts' test ↔ i ∈ indicesWhere parts test := by
  simp [mem_indicesWhere, hp, hp']

theorem index_mem_taking (hnew : Problem.new parts grids = .ok m) {q : Participant}
    (hq : q ∈ (participants grids parts).entries) : q.index ∈ m.wiring.taking := by
  obtain ⟨p, i, hp, hstatic, rfl⟩ := mem_participants hq
  exact (mem_taking_new hnew).mpr ⟨p, hp, hstatic⟩

/-- The same arrives back at the part with an index and at the part at its place. -/
theorem receiveBack_moved (hnew : Problem.new parts grids = .ok m) (h : Relocates grids place parts parts')
    {outputs outputs' : Array (FlowMap α)}
    (hpublished : Placed m.wiring.taking place (fun _ x y => x = y) outputs outputs') (g : Grid α) (i : Nat)
    (input : FlowMap α) :
    Grid.receiveBack outputs' (g.prepare (participants grids parts')) (place i) input
      = Grid.receiveBack outputs (g.prepare (participants grids parts)) i input := by
  simp only [Grid.receiveBack, Grid.backFlows_prepare, Grid.carriesTemperature_prepare]
  rw [ReducedRelations.arrive_filter, ReducedRelations.backFlows_moved h.moved h.injective,
    ReducedRelations.arrive_filter _ outputs]
  refine ReducedRelations.arrive_move _ h.injective ?_ (.part i) input
  intro f hf
  obtain ⟨⟨q, hq, hsource⟩, -⟩ := ReducedRelations.mem_backFlows_build (List.mem_of_mem_filter hf)
  exact hpublished.getD_eq (hsource ▸ index_mem_taking hnew hq) _

/-- **The wirings of two problems mirror each other** if the one holds the parts of the other at their places and the
same arrives everywhere. -/
theorem mirrors (hnew : Problem.new parts grids = .ok m) (hnew' : Problem.new parts' grids = .ok m')
    (h : Relocates grids place parts parts')
    (hdelivers : ∀ {outputs outputs' : Array (FlowMap α)},
      Placed m.wiring.taking place (Published m.wiring.active Sent) outputs outputs' →
      ∀ g ∈ grids, g.Delivers place (participants grids parts) (participants grids parts')
        outputs outputs') :
    m'.wiring.Mirrors m.wiring place Sent where
  active i hi := by
    obtain ⟨p, hp, hstatic⟩ := (mem_taking_new hnew).mp hi
    rw [new_eq_ok hnew, new_eq_ok hnew']
    exact mem_indicesWhere_place hp (h.get hp hstatic)
  passive i hi := by
    obtain ⟨p, hp, hstatic⟩ := (mem_taking_new hnew).mp hi
    rw [new_eq_ok hnew, new_eq_ok hnew']
    exact mem_indicesWhere_place hp (h.get hp hstatic)
  heard {outputs outputs'} hpublished i _ := by
    rw [heard_wiring, heard_wiring, new_eq_ok hnew, new_eq_ok hnew', Grid.receiveAllBack,
      Grid.receiveAllBack, List.foldl_map, List.foldl_map]
    exact List.foldl_ext _ _ _ fun input g _ => receiveBack_moved hnew h hpublished g i input
  told {outputs outputs'} hpublished i _ := by
    rw [told_wiring, told_wiring, new_eq_ok hnew, new_eq_ok hnew', Grid.receiveAll, Grid.receiveAll,
      List.foldl_map, List.foldl_map]
    refine List.foldl_ext _ _ _ fun input g hg => ?_
    simp only [Grid.receive, Grid.forwardFlows_prepare, Grid.carriesTemperature_prepare]
    exact hdelivers hpublished g hg (.part i) input
  measured {outputs outputs'} hpublished := by
    rw [measured_wiring, measured_wiring, new_eq_ok hnew, new_eq_ok hnew', Grid.allContributions,
      Grid.allContributions, List.flatMap_map, List.flatMap_map]
    refine congrArg _ (List.flatMap_congr fun g hg => ?_)
    refine Grid.contributions_moved h.moved ?_ (hdelivers hpublished g hg)
    intro d i hd
    obtain ⟨q, hq, rfl⟩ := Option.map_eq_some_iff.mp hd
    exact hpublished.of_published.getD_eq
      (index_mem_taking hnew (ReducedRelations.inRole?_eq_some hq).1) _

/-- The wirings of two problems mirror each other if the places keep their order, however the published powers are
rounded when they add up. -/
theorem mirrors_of_strictMono (hnew : Problem.new parts grids = .ok m)
    (hnew' : Problem.new parts' grids = .ok m') (h : Relocates grids place parts parts')
    (hplace : StrictMono place) : m'.wiring.Mirrors m.wiring place fun _ _ => True := by
  refine mirrors hnew hnew' h ?_
  intro outputs outputs' hpublished g _ t input
  rw [ReducedRelations.forwardFlows_moved h.moved hplace]
  refine ReducedRelations.arrive_move _ h.injective ?_ t input
  intro f hf
  obtain ⟨⟨q, hq, -, hsource⟩, -⟩ := ReducedRelations.mem_forwardFlows_build hf
  exact hpublished.of_published.getD_eq (hsource ▸ index_mem_taking hnew hq) _

omit [Scalar α] in
/-- A list holds its own parts at their indices. -/
theorem relocates_refl (grids : List (Grid α)) (parts : List P) :
    Relocates grids (fun i => i) parts parts where
  injective := Function.injective_id
  get := fun hp _ => hp
  moved := fun d => by
    have hself : Participant.move (fun i => i) = id := rfl
    rw [hself, Option.map_id]
    rfl

/-- Evaluations start from matching frames if what the parts are handed is related when it is started. -/
theorem startOf_matches {R : Nat → P → P → Prop} {e e' : Evaluator P α} {n n' : Nat}
    (hnew : Problem.new parts grids = .ok m) (hnew' : Problem.new parts' grids = .ok m')
    (h : Relocates grids place parts parts') (he : e.Serves m n) (he' : e'.Serves m' n')
    (hagrees : e'.Agrees e) {s s' : Solution α} {flags : EvaluationFlags}
    (hhanded : ∀ {i : Nat} {p : P}, parts[i]? = some p → Part.isStatic p = false → ∃ x y,
      ((Layout.ofParts parts).handOut s parts.toArray)[i]? = some x ∧
        ((Layout.ofParts parts').handOut s' parts'.toArray)[place i]? = some y ∧
        R i (Part.start x (e.settings flags)) (Part.start y (e.settings flags))) :
    Frame.Matches m.wiring place R (e.startOf m s flags) (e'.startOf m' s' flags) := by
  have hparts : m.parts = parts.toArray := by rw [Problem.new_eq_ok hnew]
  have hparts' : m'.parts = parts'.toArray := by rw [Problem.new_eq_ok hnew']
  have hsettings : e'.settings flags = e.settings flags := by
    simp only [Evaluator.settings, hagrees.window]
  have houtputs : Placed m.taking place (fun _ x y => x = y)
      (parts.map fun p => FlowMap.limitedTo (α := α) (Part.outputs p)).toArray
      (parts'.map fun p => FlowMap.limitedTo (α := α) (Part.outputs p)).toArray := by
    intro i hi
    obtain ⟨p, hp, hstatic⟩ := (mem_taking_new hnew).mp hi
    exact ⟨.limitedTo (Part.outputs p), _, by simp [hp], by simp [h.get hp hstatic], rfl⟩
  rw [Evaluator.startOf, Evaluator.startOf, hsettings, he.layout, he'.layout, hparts, hparts']
  refine started_matches ?_ ?_ ?_ ?_
  · intro i hi
    obtain ⟨p, hp, hstatic⟩ := (mem_taking_new hnew).mp hi
    exact (mem_taking_new hnew').mpr ⟨p, h.get hp hstatic, hstatic⟩
  · intro i hi
    obtain ⟨p, hp, hstatic⟩ := (mem_taking_new hnew).mp hi
    exact hhanded hp hstatic
  · rw [Problem.new_eq_ok hnew, Problem.new_eq_ok hnew']
    simpa only [Problem.new_eq_ok hnew] using houtputs
  · rw [Problem.new_eq_ok hnew, Problem.new_eq_ok hnew']
    simpa only [Problem.new_eq_ok hnew] using houtputs

end Problem

/-! ### Schedules -/

namespace Evaluator

variable {P α : Type} [Scalar α] [Part P α] {grids : List (Grid α)} {parts parts' : List P}
  {place : Nat → Nat} {m m' : Problem P α} {Sent : Nat → FlowMap α → Prop} {e e' : Evaluator P α} {n n' : Nat}
  {s s' : Solution α} {flags : EvaluationFlags}

/-- The schedule of a part with an index. It is empty if the load profile does not fit into a table. -/
def scheduleAt (e : Evaluator P α) (m : Problem P α) (s : Solution α) (flags : EvaluationFlags) (x : P × Nat) :
    Schedule α :=
  if e.Fits then e.scheduleOf m.wiring (e.startOf m s flags) x.2 x.1
  else .new (Part.device x.1) (Part.kind x.1) (Part.outputs x.1)

theorem device_scheduleAt (x : P × Nat) : (e.scheduleAt m s flags x).device = Part.device x.1 := by
  unfold scheduleAt
  split <;> rfl

/-- An evaluation writes the schedules of the parts that take part. -/
theorem finished_runOn [Part.Steady P] (hnew : Problem.new parts grids = .ok m) (he : e.Serves m n)
    (hs : e.layout.Accepts s) (flags : EvaluationFlags) (recording? : Option (Recording α)) :
    (e.runOn m s flags recording?).recording?.map Recording.finished
      = recording?.map fun _ => (Problem.present parts).map (e.scheduleAt m s flags) := by
  have hlike : m.Like m n := ⟨rfl, he.sized⟩
  by_cases hfits : e.Fits
  · rw [(runOn_eq he hlike hs hfits flags recording?).2.1, Option.map_map]
    congr 1
    funext r
    refine (finished_recordingOf hnew he s flags r).trans (List.map_congr_left fun x _ => ?_)
    rw [scheduleAt, if_pos hfits]
  · rw [(runOn_overflow he hlike hs hfits flags recording?).2.1, Option.map_map]
    congr 1
    funext r
    refine (finished_begin hnew s flags r).trans ?_
    have hpresent : parts.filter (fun p => !Part.isStatic p) = (Problem.present parts).map fun x => x.1 := by
      conv_lhs => rw [← List.zipIdx_map_fst 0 parts, List.filter_map]
      rfl
    rw [hpresent, List.map_map]
    refine List.map_congr_left fun x _ => ?_
    rw [scheduleAt, if_neg hfits]
    rfl

/-- Matching frames lead to the same schedules. -/
theorem scheduleAt_matches {R : Nat → P → P → Prop} (hR : Part.Inseparable R Sent)
    (hm : m'.wiring.Mirrors m.wiring place Sent) (hagrees : e'.Agrees e)
    (hnew : Problem.new parts grids = .ok m)
    (h : Frame.Matches m.wiring place R (e.startOf m s flags) (e'.startOf m' s' flags)) {x : P × Nat}
    (hx : x ∈ Problem.present parts) :
    e'.scheduleAt m' s' flags (x.1, place x.2) = e.scheduleAt m s flags x := by
  have hfits : e'.Fits ↔ e.Fits := by rw [Fits, Fits, hagrees.window]
  have hi : x.2 ∈ m.wiring.taking := (Problem.mem_taking_new hnew).mpr ⟨x.1, Problem.mem_present.mp hx⟩
  simp only [scheduleAt, hfits, scheduleOf_matches hR hm hagrees h hi]

end Evaluator

end HomeEnergy

import HomeEnergy.Proofs.Contents
import HomeEnergy.Proofs.Exact
import HomeEnergy.Proofs.Metering
import HomeEnergy.Proofs.Readiness

/-!
# What the meters show

The net active power of a meter is put together from flows that come in the order of a grouped table, into
accumulators that each see some of them, and the meter state adds up what several meters of several grids show. In
exact numbers all of this is one sum over the relations.

* `MeterState.power_addAll` — what a list of additions makes of one quantity.
* `ReducedRelations.power_arrive` — what a list of flows makes of one power.
* `meteredRelations` — the relations along which active power flows to a meter.
* `Problem.activeExternal_eq` — **the net active power is the sum over these relations** of what the device at the
  active end publishes.
-/

namespace HomeEnergy

section Additions

variable {α : Type} [Scalar α]

def additionsTo (q : MeterQuantity) (xs : List (MeterQuantity × α)) : List α :=
  (xs.filter fun x => decide (x.1 = q)).map fun x => x.2

omit [Scalar α] in
theorem additionsTo_append (q : MeterQuantity) (xs ys : List (MeterQuantity × α)) :
    additionsTo q (xs ++ ys) = additionsTo q xs ++ additionsTo q ys := by
  simp [additionsTo]

omit [Scalar α] in
theorem additionsTo_flatMap {β : Type} (q : MeterQuantity) (f : β → List (MeterQuantity × α))
    (l : List β) : additionsTo q (l.flatMap f) = l.flatMap fun x => additionsTo q (f x) := by
  induction l with
  | nil => rfl
  | cons x l ih => rw [List.flatMap_cons, additionsTo_append, ih, List.flatMap_cons]

/-- Of everything that a meter adds, only the net power counts as net power. -/
theorem additionsTo_meterShares (reached : FlowMap α) (pv chp battery : Option α) :
    additionsTo .activeExternal (meterShares reached pv chp battery)
      = [reached.power .activePower] := by
  have hsome : ∀ (q : MeterQuantity) (x? : Option α), q ≠ .activeExternal →
      additionsTo .activeExternal (someShare q x?) = [] := by
    intro q x? hq
    cases x? <;> simp [additionsTo, someShare, hq]
  have hexport : ∀ (net generation : α) (x? : Option α) (q q' : MeterQuantity),
      q ≠ .activeExternal → q' ≠ .activeExternal →
      additionsTo .activeExternal (exportShares net generation x? q q') = [] := by
    intro net generation x? q q' hq hq'
    cases x? <;> simp [additionsTo, exportShares, hq, hq']
  have hreactive : additionsTo .activeExternal (if reached.containsPower .reactivePower then
      [(.reactiveExternal, reached.power .reactivePower)] else []) = [] := by
    split <;> simp [additionsTo]
  have hnet : additionsTo .activeExternal
      [(MeterQuantity.activeExternal, reached.power .activePower)]
        = [reached.power .activePower] := rfl
  simp only [meterShares, additionsTo_append, hreactive, hnet]
  split
  · simp [additionsTo_append, hsome]
  · simp [additionsTo_append, hsome, hexport]

/-- What one grid adds to the net active power: one term per meter of an electrical grid. -/
theorem Grid.additionsTo_contributions (g : Grid α) (ps : Participants) (outputs : Array (FlowMap α)) :
    additionsTo .activeExternal ((g.prepare ps).contributions outputs)
      = match g with
        | .electrical _ => ((g.prepare ps).reached outputs).toList.map fun m => m.power .activePower
        | .thermal _ => [] := by
  cases g with
  | electrical e =>
    have hsize : (((Grid.electrical e).prepare ps).reached outputs).toList.length
        ≤ (e.topology.meters.map (ElectricalGrid.sourcesOf e.topology ps)).length := by
      simp [Grid.prepare, ElectricalGrid.prepare, Grid.reached, Grid.accumulators]
    have hzip := List.map_snd_zip hsize
    show additionsTo _ (List.flatMap _ _) = _
    rw [additionsTo_flatMap]
    simp only [additionsTo_meterShares]
    rw [← List.map_eq_flatMap]
    have hmap := congrArg (List.map fun m : FlowMap α => m.power .activePower) hzip
    rw [List.map_map] at hmap
    exact hmap
  | thermal e =>
    have hgas : ∀ gas : α,
        additionsTo .activeExternal (if 0 < gas then [(MeterQuantity.gasExternal, gas)] else []) = [] := by
      intro gas
      split <;> simp [additionsTo]
    exact hgas _

end Additions

/-! ### Exact sums -/

section Sums

variable {α : Type} [Scalar α] [Scalar.Exact α]

/-- What a list of additions makes of one quantity. -/
theorem MeterState.power_addAll (s : MeterState α) (q : MeterQuantity)
    (xs : List (MeterQuantity × α)) :
    (s.addAll xs).power q = s.power q + Scalar.sum (additionsTo q xs) := by
  induction xs generalizing s with
  | nil =>
    show s.power q = _
    rw [additionsTo, List.filter_nil, List.map_nil, Scalar.sum_nil, Scalar.add_zero]
  | cons x xs ih =>
    show ((s.add x.1 x.2).addAll xs).power q = _
    rw [ih, power_add]
    by_cases h : x.1 = q
    · have hhead : additionsTo q (x :: xs) = x.2 :: additionsTo q xs := by simp [additionsTo, h]
      rw [if_pos h, hhead, Scalar.sum_cons, Scalar.Exact.add_assoc]
    · have hhead : additionsTo q (x :: xs) = additionsTo q xs := by simp [additionsTo, h]
      rw [if_neg h, hhead]

/-- A power is added, whether or not there is one already. -/
theorem FlowMap.power_addPower {m : FlowMap α} {c : Commodity} (h : m.allows c = true) (x : α)
    (d : Commodity) : (m.addPower c x).power d = if c = d then m.power d + x else m.power d := by
  unfold addPower
  by_cases hcontains : m.containsPower c = true
  · rw [if_pos hcontains, power_setPower h]
    by_cases hcd : c = d
    · subst hcd
      simp [power, hcontains]
    · rw [if_neg hcd, if_neg hcd]
  · rw [if_neg hcontains, power_setPower h]
    by_cases hcd : c = d
    · subst hcd
      have hzero : m.power c = 0 := by simp [power, hcontains]
      rw [if_pos rfl, if_pos rfl, hzero, Scalar.Exact.zero_add]
    · rw [if_neg hcd, if_neg hcd]

namespace ReducedRelations

/-- What one flow makes of one power. -/
theorem power_deliver {source m : FlowMap α} (hm : m.clear = .unrestricted) (c d : Commodity) :
    (deliver false source c m).power d = if c = d then m.power d + source.power d else m.power d := by
  have hallows : m.allows c = true := by
    have hallowed := congrArg FlowMap.allowed hm
    simp only [FlowMap.clear, FlowMap.withAllowed, FlowMap.unrestricted] at hallowed
    simp [FlowMap.allows, hallowed]
  simp only [deliver, Bool.false_eq_true, if_false]
  by_cases hcontains : source.containsPower c = true
  · rw [if_pos hcontains, FlowMap.power_addPower hallows]
    by_cases hcd : c = d
    · subst hcd
      rfl
    · rw [if_neg hcd, if_neg hcd]
  · rw [if_neg hcontains]
    by_cases hcd : c = d
    · subst hcd
      have hzero : source.power c = 0 := by simp [FlowMap.power, hcontains]
      rw [if_pos rfl, hzero, Scalar.add_zero]
    · rw [if_neg hcd]

/-- **What a list of flows makes of one power.** -/
theorem power_arrive (outputs : Array (FlowMap α)) (t : Target) (c : Commodity) :
    ∀ (flows : List Flow) (m : FlowMap α), m.clear = .unrestricted →
      (arrive false outputs flows t m).power c
        = m.power c + Scalar.sum ((flows.filter fun f => decide (f.target = t ∧ f.commodity = c)).map
            fun f => (outputs.getD f.source .unrestricted).power c) := by
  intro flows
  induction flows with
  | nil => intro m _; exact (Scalar.add_zero _).symm.trans (congrArg _ Scalar.sum_nil.symm)
  | cons f flows ih =>
    intro m hm
    rw [arrive_cons]
    by_cases ht : f.target = t
    · rw [if_pos ht, ih _ (by rw [clear_deliver, hm]), power_deliver hm]
      by_cases hc : f.commodity = c
      · rw [if_pos hc, List.filter_cons_of_pos (by simp [ht, hc]), List.map_cons, Scalar.sum_cons,
          Scalar.Exact.add_assoc]
      · rw [if_neg hc, List.filter_cons_of_neg (by simp [hc])]
    · rw [if_neg ht, ih m hm, List.filter_cons_of_neg (by simp [ht])]

end ReducedRelations

/-! ### Relations to meters -/

omit [Scalar α] [Scalar.Exact α] in
def Topology.metered (t : Topology) : List Relation :=
  t.relations.filter fun r => r.forward == .activePower && t.meters.contains r.passive

omit [Scalar α] [Scalar.Exact α] in
/-- The relations of the electrical grids along which active power flows to a meter. -/
def meteredRelations (grids : List (Grid α)) : List Relation :=
  grids.flatMap fun g =>
    match g with
    | .electrical e => e.topology.metered
    | .thermal _ => []

omit [Scalar.Exact α] in
/-- The active power that a device publishes as an active participant, if it may. -/
def declaredPower (ps : Participants) (outputs : Array (FlowMap α)) (d : DeviceId) : α :=
  match ps.inRole? .active d with
  | some p =>
    if p.outputs.contains .activePower then (outputs.getD p.index .unrestricted).power .activePower
    else 0
  | none => 0

namespace ReducedRelations

/-- True of a flow of active power to a meter. -/
def toMeter (f : Flow) : Bool :=
  match f.target with
  | .meter _ => f.commodity == .activePower
  | .part _ => false

def meterIndex (f : Flow) : Nat :=
  match f.target with
  | .meter j => j
  | .part _ => 0

theorem filter_toMeter (flows : List Flow) (j : Nat) :
    (flows.filter toMeter).filter (fun f => decide (meterIndex f = j))
      = flows.filter fun f => decide (f.target = .meter j ∧ f.commodity = .activePower) := by
  rw [List.filter_filter]
  refine List.filter_congr ?_
  rintro ⟨source, target, commodity⟩ _
  cases target with
  | part i => simp [toMeter]
  | meter i =>
    simp only [toMeter, meterIndex, Target.meter.injEq, Bool.decide_and]
    rfl

/-- What the flows of a run carry to the meters is what the relations say. -/
theorem sum_toMeter (t : Topology) (ps : Participants) (outputs : Array (FlowMap α)) :
    Scalar.sum (((build t ps).forwardFlows.filter toMeter).map
        fun f => (outputs.getD f.source .unrestricted).power .activePower)
      = Scalar.sum (t.metered.map fun r => declaredPower ps outputs r.active) := by
  have hperm := ((forwardFlows_build_perm t ps).filter toMeter).map
    fun f => (outputs.getD f.source .unrestricted).power .activePower
  rw [Scalar.sum_perm hperm, Scalar.sum_filter, List.map_map, Scalar.sum_filterMap, Topology.metered,
    Scalar.sum_filter]
  congr 1
  refine List.map_congr_left ?_
  intro r _
  simp only [forwardFlow?, target?, declaredPower, bind, Option.bind]
  cases ps.inRole? .active r.active with
  | none => simp
  | some p =>
    cases hmeter : t.meters.findIdx? fun m => m == r.passive with
    | none =>
      have hcontains : t.meters.contains r.passive = false := by
        refine Bool.eq_false_iff.mpr fun h => ?_
        have hne := List.findIdx?_eq_none_iff.mp hmeter _ (List.contains_iff_mem.mp h)
        exact absurd hne (by simp)
      simp only [hcontains, Bool.and_false]
      split
      · cases ps.inRole? .passive r.passive <;> simp [toMeter]
      · simp
    | some j =>
      have hcontains : t.meters.contains r.passive = true := by
        obtain ⟨hj, hpassive, -⟩ := List.findIdx?_eq_some_iff_getElem.mp hmeter
        exact List.contains_iff_mem.mpr (by simpa using (by simpa using hpassive) ▸ List.getElem_mem hj)
      simp only [hcontains, Bool.and_true]
      by_cases hforward : r.forward = .activePower
      · simp only [hforward, beq_self_eq_true, if_true]
        split <;> simp [toMeter]
      · simp only [beq_eq_false_iff_ne.mpr hforward, Bool.false_eq_true, if_false]
        split <;> simp [toMeter, hforward]

end ReducedRelations

/-- What the meters of an electrical grid show together. -/
theorem Grid.sum_reached (e : ElectricalGrid α) (ps : Participants) (outputs : Array (FlowMap α)) :
    Scalar.sum ((((Grid.electrical e).prepare ps).reached outputs).toList.map
        fun m => m.power .activePower)
      = Scalar.sum (e.topology.metered.map fun r => declaredPower ps outputs r.active) := by
  rw [← ReducedRelations.sum_toMeter]
  have hreached : (((Grid.electrical e).prepare ps).reached outputs).toList.map
        (fun m => m.power .activePower)
      = (List.range e.topology.meters.length).map fun j =>
          (ReducedRelations.arrive false outputs (ReducedRelations.build e.topology ps).forwardFlows
            (.meter j) .unrestricted).power .activePower := by
    apply List.ext_getElem?
    intro j
    simp only [List.getElem?_map, Array.getElem?_toList, Grid.reached, Array.getElem?_mapIdx,
      Grid.forwardFlows_prepare]
    by_cases hj : j < e.topology.meters.length
    · simp [Grid.prepare, ElectricalGrid.prepare, Grid.accumulators, hj, Grid.topology,
        Grid.carriesTemperature]
    · simp [Grid.prepare, ElectricalGrid.prepare, Grid.accumulators, hj]
  have hpower : ∀ j, (ReducedRelations.arrive false outputs
        (ReducedRelations.build e.topology ps).forwardFlows (.meter j) .unrestricted).power .activePower
      = Scalar.sum ((((ReducedRelations.build e.topology ps).forwardFlows.filter
          ReducedRelations.toMeter).filter fun f => decide (ReducedRelations.meterIndex f = j)).map
            fun f => (outputs.getD f.source .unrestricted).power .activePower) := by
    intro j
    have hzero : (FlowMap.unrestricted : FlowMap α).power .activePower = 0 := by
      simp [FlowMap.power, FlowMap.containsPower, FlowMap.unrestricted, FlowMap.withAllowed]
    rw [ReducedRelations.power_arrive outputs (.meter j) .activePower _ _ FlowMap.clear_unrestricted,
      hzero, Scalar.Exact.zero_add, ReducedRelations.filter_toMeter]
  have hmeters : ∀ f ∈ (ReducedRelations.build e.topology ps).forwardFlows.filter
      ReducedRelations.toMeter, ReducedRelations.meterIndex f ∈ List.range e.topology.meters.length := by
    intro f hf
    obtain ⟨hmem, hmeter⟩ := List.mem_filter.mp hf
    rcases (ReducedRelations.mem_forwardFlows_build hmem).2 with ⟨j, hj, ht⟩ | ⟨p, -, -, ht⟩
    · simpa [ReducedRelations.meterIndex, ht] using hj
    · exact absurd hmeter (by simp [ReducedRelations.toMeter, ht])
  simp only [hreached, hpower]
  rw [← Scalar.sum_flatMap, ← List.map_flatMap]
  exact Scalar.sum_perm ((flatMap_filter_perm ReducedRelations.meterIndex _ _ List.nodup_range
    hmeters).map _)

/-- **The net active power of a tick is what the relations to meters carry**, whatever else the grids
measure. -/
theorem Problem.activeExternal_eq {P : Type} [Part P α] {parts : List P} {grids : List (Grid α)}
    {problem : Problem P α} (h : Problem.new parts grids = .ok problem) (outputs : Array (FlowMap α)) :
    (MeterState.zero.addAll (problem.grids.flatMap fun g => g.contributions outputs)).power
        .activeExternal
      = Scalar.sum ((meteredRelations grids).map fun r =>
          declaredPower (participants grids parts) outputs r.active) := by
  have hzero : (MeterState.zero : MeterState α).power .activeExternal = 0 := by
    simp [MeterState.power, MeterState.zero]
  rw [MeterState.power_addAll, hzero, Scalar.Exact.zero_add, new_eq_ok h, additionsTo_flatMap,
    Scalar.sum_flatMap, meteredRelations, List.map_flatMap, Scalar.sum_flatMap, List.map_map]
  congr 1
  refine List.map_congr_left ?_
  intro g _
  simp only [Function.comp_apply, Grid.additionsTo_contributions]
  cases g with
  | electrical e => exact Grid.sum_reached e _ outputs
  | thermal e => rfl

end Sums

end HomeEnergy

import HomeEnergy.Proofs.Balance
import HomeEnergy.Proofs.LookUp
import HomeEnergy.Proofs.Rational
import Mathlib.Algebra.Order.BigOperators.Group.List

/-!
# The split of a meter

A meter splits its net active power between the sources behind it. In exact numbers the split has a closed form, and
what it comes to can be read off that form.

* `MeterReading`, `MeterReading.gain` — what a meter reads, and what it adds to each quantity.
* `splitMeter_power` — the split adds just that, whatever the meter state is.
* `MeterReading.splitFairly` — **the split conserves the power of every source**, and shares an export out in
  proportion, up to half a watt for each source.
* `Topology.reading` — what a meter of a topology reads in an exchange.
* `exchange_power` — what an exchange adds is what all meters of an electrical grid gain, exchange after exchange.
* `meters_split_fairly` — all of this together.
-/

namespace HomeEnergy

/-! ### One meter -/

/-- What a meter reads: the powers that reached it, and the power of the sources of each type behind it, where there
are any. -/
structure MeterReading where
  net : Rat
  reactive : Rat
  pv : Option Rat
  chp : Option Rat
  battery : Option Rat

namespace MeterReading

/-- What a meter reads of the flows that reached it. -/
def of (reached : FlowMap Rat) (pv chp battery : Option Rat) : MeterReading :=
  { net := reached.power .activePower, reactive := reached.power .reactivePower, pv, chp, battery }

def discharge (m : MeterReading) : Option Rat :=
  m.battery.filter fun b => decide (b ≤ 0)

def generation (m : MeterReading) : Rat :=
  m.pv.getD 0 + m.chp.getD 0 + m.discharge.getD 0

/-- The share of a source in the export, in proportion to its power. -/
def share (m : MeterReading) (power : Rat) : Rat :=
  power / m.generation * m.net

def exported (m : MeterReading) (power : Rat) : Rat :=
  if m.net < 0 ∧ m.generation < 0 then Scalar.roundHalfUp (m.share power) else 0

/-- What the meter adds to each quantity. A source that is not there counts as one without power. -/
def gain (m : MeterReading) : MeterQuantity → Rat
  | .activeExternal => m.net
  | .reactiveExternal => m.reactive
  | .gasExternal => 0
  | .pvFeedIn => m.exported (m.pv.getD 0)
  | .pvAutoConsumption => m.pv.getD 0 - m.exported (m.pv.getD 0)
  | .chpFeedIn => m.exported (m.chp.getD 0)
  | .chpAutoConsumption => m.chp.getD 0 - m.exported (m.chp.getD 0)
  | .batteryFeedIn => m.exported (m.discharge.getD 0)
  | .batteryAutoConsumption => m.discharge.getD 0 - m.exported (m.discharge.getD 0)
  | .batteryConsumption => m.battery.getD 0 - m.discharge.getD 0

theorem exported_of_importing {m : MeterReading} (h : 0 ≤ m.net) (power : Rat) :
    m.exported power = 0 :=
  if_neg fun hexport => absurd hexport.1 (not_lt.mpr h)

@[simp] theorem exported_zero (m : MeterReading) : m.exported 0 = 0 := by
  unfold exported share
  split
  · rw [Scalar.roundHalfUp_rat, zero_div, zero_mul]
    norm_num
  · rfl

end MeterReading

section Gains

/-- What an addition that is made if there is a value comes to. -/
theorem sum_additionsTo_someShare (q r : MeterQuantity) (x? : Option Rat) :
    (additionsTo q (someShare r x?)).sum = if r = q then x?.getD 0 else 0 := by
  cases x? with
  | none => simp [additionsTo, someShare]
  | some x => by_cases h : r = q <;> simp [additionsTo, someShare, h]

/-- What the two additions for one source at an exporting meter come to. -/
theorem sum_additionsTo_exportShares {m : MeterReading} (hnet : m.net < 0) (q : MeterQuantity)
    {feedIn auto : MeterQuantity} (hne : feedIn ≠ auto) (x? : Option Rat) :
    (additionsTo q (exportShares m.net m.generation x? feedIn auto)).sum
      = if feedIn = q then m.exported (x?.getD 0)
        else if auto = q then x?.getD 0 - m.exported (x?.getD 0) else 0 := by
  cases x? with
  | none => simp [additionsTo, exportShares]
  | some x =>
    have hexported : (if m.generation < 0 then Scalar.roundHalfUp (x / m.generation * m.net) else 0)
        = m.exported x := by
      simp [MeterReading.exported, MeterReading.share, hnet]
    by_cases hfeed : feedIn = q
    · subst hfeed
      simp [additionsTo, exportShares, hne.symm, ← hexported]
    · by_cases hauto : auto = q
      · subst hauto
        simp [additionsTo, exportShares, hfeed, ← hexported]
      · simp [additionsTo, exportShares, hfeed, hauto]

/-- What charging batteries take is what is left of the battery power. -/
theorem MeterReading.charge_eq (m : MeterReading) :
    (m.battery.filter fun b => decide (0 < b)).getD 0 = m.battery.getD 0 - m.discharge.getD 0 := by
  unfold discharge
  cases m.battery with
  | none => simp
  | some b =>
    by_cases hb : 0 < b
    · simp [Option.filter, hb, not_le.mpr hb]
    · simp [Option.filter, hb, not_lt.mp hb]

/-- The additions of a meter, by what it reads. -/
theorem meterShares_eq {reached : FlowMap Rat} {pv chp battery : Option Rat} {m : MeterReading}
    (hm : MeterReading.of reached pv chp battery = m) :
    meterShares reached pv chp battery
      = (if reached.containsPower .reactivePower then
          [(.reactiveExternal, reached.power .reactivePower)] else [])
        ++ [(.activeExternal, m.net)]
        ++ someShare .batteryConsumption (m.battery.filter fun b => decide (0 < b))
        ++ if 0 ≤ m.net then
            someShare .pvAutoConsumption m.pv ++ someShare .chpAutoConsumption m.chp
              ++ someShare .batteryAutoConsumption m.discharge
          else
            exportShares m.net m.generation m.pv .pvFeedIn .pvAutoConsumption
              ++ exportShares m.net m.generation m.chp .chpFeedIn .chpAutoConsumption
              ++ exportShares m.net m.generation m.discharge .batteryFeedIn
                .batteryAutoConsumption := by
  rw [← hm]
  simp only [meterShares, MeterReading.of, MeterReading.discharge, MeterReading.generation,
    Scalar.rat_zero]
  rfl

/-- What the additions of a meter come to. -/
theorem sum_additionsTo_meterShares (reached : FlowMap Rat) (pv chp battery : Option Rat)
    (q : MeterQuantity) :
    (additionsTo q (meterShares reached pv chp battery)).sum
      = (MeterReading.of reached pv chp battery).gain q := by
  generalize hm : MeterReading.of reached pv chp battery = m
  have hreactive : (additionsTo q (if reached.containsPower .reactivePower then
      [(MeterQuantity.reactiveExternal, reached.power .reactivePower)] else [])).sum
        = if MeterQuantity.reactiveExternal = q then m.reactive else 0 := by
    rw [← hm]
    by_cases hthere : reached.containsPower .reactivePower = true
    · by_cases hq : MeterQuantity.reactiveExternal = q <;>
        simp [hthere, additionsTo, hq, MeterReading.of]
    · simp [hthere, additionsTo, FlowMap.power, MeterReading.of]
  have hexternal : (additionsTo q [(MeterQuantity.activeExternal, m.net)]).sum
      = if MeterQuantity.activeExternal = q then m.net else 0 := by
    by_cases hq : MeterQuantity.activeExternal = q <;> simp [additionsTo, hq]
  rw [meterShares_eq hm]
  simp only [additionsTo_append, List.sum_append, hreactive, hexternal, sum_additionsTo_someShare,
    m.charge_eq]
  by_cases himport : 0 ≤ m.net
  · have hnone := MeterReading.exported_of_importing himport
    rw [if_pos himport]
    simp only [additionsTo_append, List.sum_append, sum_additionsTo_someShare]
    cases q <;> simp [MeterReading.gain, hnone]
  · have hexport : m.net < 0 := not_le.mp himport
    rw [if_neg himport]
    simp only [additionsTo_append, List.sum_append,
      sum_additionsTo_exportShares hexport q (by decide : MeterQuantity.pvFeedIn ≠ .pvAutoConsumption),
      sum_additionsTo_exportShares hexport q (by decide : MeterQuantity.chpFeedIn ≠ .chpAutoConsumption),
      sum_additionsTo_exportShares hexport q (by decide : MeterQuantity.batteryFeedIn ≠ .batteryAutoConsumption)]
    cases q <;> simp [MeterReading.gain]

/-- **A meter adds its gains to whatever the meter state is.** -/
theorem splitMeter_power (reached : FlowMap Rat) (pv chp battery : Option Rat) (s : MeterState Rat)
    (q : MeterQuantity) :
    (splitMeter reached pv chp battery s).power q
      = s.power q + (MeterReading.of reached pv chp battery).gain q := by
  rw [splitMeter_eq, MeterState.power_addAll, Scalar.sum_rat, sum_additionsTo_meterShares]

end Gains

/-! ### What a split comes to -/

/-- A whole number of watts that is not positive and at most half a watt away from a share. -/
structure WholeShare (share exported : Rat) : Prop where
  whole : ∃ z : ℤ, exported = z
  nonpos : exported ≤ 0
  near : |exported - share| ≤ 1 / 2

/-- Rounding a share that is not positive. -/
theorem wholeShare_roundHalfUp {share : Rat} (h : share ≤ 0) :
    WholeShare share (Scalar.roundHalfUp share) := by
  rw [Scalar.roundHalfUp_rat]
  have hle := Int.floor_le (share + 1 / 2)
  have hlt := Int.lt_floor_add_one (share + 1 / 2)
  refine ⟨⟨_, rfl⟩, ?_, ?_⟩
  · have hone : ⌊share + 1 / 2⌋ < 1 := Int.floor_lt.mpr (by push_cast; linarith)
    exact_mod_cast Int.lt_add_one_iff.mp hone
  · rw [abs_le]
    constructor <;> linarith

namespace MeterReading

/-- The number of sources that generate, charging batteries left out. -/
def sources (m : MeterReading) : Nat :=
  (m.pv.toList ++ m.chp.toList ++ m.discharge.toList).length

/-- A split that conserves the power of the sources and shares an export out between them. -/
structure SplitFairly (m : MeterReading) (added : MeterQuantity → Rat) : Prop where
  external : added .activeExternal = m.net
  pv : added .pvFeedIn + added .pvAutoConsumption = m.pv.getD 0
  chp : added .chpFeedIn + added .chpAutoConsumption = m.chp.getD 0
  battery : added .batteryFeedIn + added .batteryAutoConsumption + added .batteryConsumption
    = m.battery.getD 0
  importing : 0 ≤ m.net →
    added .pvFeedIn = 0 ∧ added .chpFeedIn = 0 ∧ added .batteryFeedIn = 0
  exporting : m.net < 0 → m.generation < 0 →
    WholeShare (m.pv.getD 0 / m.generation * m.net) (added .pvFeedIn) ∧
    WholeShare (m.chp.getD 0 / m.generation * m.net) (added .chpFeedIn) ∧
    WholeShare (m.discharge.getD 0 / m.generation * m.net) (added .batteryFeedIn)
  together : m.net < 0 → m.generation < 0 →
    |added .pvFeedIn + added .chpFeedIn + added .batteryFeedIn - m.net| ≤ m.sources * (1 / 2)

theorem discharge_nonpos (m : MeterReading) : ∀ b ∈ m.discharge, b ≤ 0 := by
  intro b hb
  exact of_decide_eq_true (Option.filter_eq_some_iff.mp hb).2

theorem share_nonpos {m : MeterReading} (hnet : m.net < 0) (hgen : m.generation < 0) {power : Rat}
    (h : power ≤ 0) : m.share power ≤ 0 :=
  mul_nonpos_of_nonneg_of_nonpos (div_nonneg_of_nonpos h hgen.le) hnet.le

theorem getD_nonpos {x? : Option Rat} (h : ∀ x ∈ x?, x ≤ 0) : x?.getD 0 ≤ 0 := by
  cases x? with
  | none => exact le_rfl
  | some x => exact h x rfl

theorem exported_wholeShare {m : MeterReading} (hnet : m.net < 0) (hgen : m.generation < 0)
    {power : Rat} (h : power ≤ 0) : WholeShare (m.share power) (m.exported power) := by
  rw [exported, if_pos ⟨hnet, hgen⟩]
  exact wholeShare_roundHalfUp (share_nonpos hnet hgen h)

/-- What rounding makes of the export of the sources of one type. -/
theorem exported_near {m : MeterReading} (hnet : m.net < 0) (hgen : m.generation < 0)
    {x? : Option Rat} (h : ∀ x ∈ x?, x ≤ 0) :
    |m.exported (x?.getD 0) - m.share (x?.getD 0)| ≤ x?.toList.length * (1 / 2) := by
  cases x? with
  | none => simp [share]
  | some x => simpa using (exported_wholeShare hnet hgen (h x rfl)).near

theorem sum_share {m : MeterReading} (hgen : m.generation < 0) :
    m.share (m.pv.getD 0) + m.share (m.chp.getD 0) + m.share (m.discharge.getD 0) = m.net := by
  rw [share, share, share, ← add_mul, ← add_mul, ← add_div, ← add_div]
  exact (congrArg (· * m.net) (div_self hgen.ne)).trans (one_mul _)

/-- **The split conserves the power of every source and shares an export out.** -/
theorem splitFairly (m : MeterReading) (hpv : ∀ x ∈ m.pv, x ≤ 0) (hchp : ∀ x ∈ m.chp, x ≤ 0) :
    m.SplitFairly m.gain where
  external := rfl
  pv := add_sub_cancel ..
  chp := add_sub_cancel ..
  battery := by
    show m.exported _ + (_ - m.exported _) + _ = _
    rw [add_sub_cancel]
    exact add_sub_cancel ..
  importing himport :=
    ⟨exported_of_importing himport _, exported_of_importing himport _, exported_of_importing himport _⟩
  exporting hnet hgen :=
    ⟨exported_wholeShare hnet hgen (getD_nonpos hpv),
      exported_wholeShare hnet hgen (getD_nonpos hchp),
      exported_wholeShare hnet hgen (getD_nonpos m.discharge_nonpos)⟩
  together hnet hgen := by
    have hpv' := exported_near hnet hgen hpv
    have hchp' := exported_near hnet hgen hchp
    have hbattery' := exported_near hnet hgen m.discharge_nonpos
    have hsum := sum_share hgen
    rw [abs_le] at hpv' hchp' hbattery' ⊢
    simp only [gain, sources, List.length_append]
    push_cast
    constructor <;> linarith [hpv'.1, hpv'.2, hchp'.1, hchp'.2, hbattery'.1, hbattery'.2]

end MeterReading

/-! ### All meters of a grid -/

/-- What a device publishes of a commodity as an active participant, if it may. -/
def Participants.published (ps : Participants) (outputs : Array (FlowMap Rat)) (c : Commodity)
    (d : DeviceId) : Rat :=
  match ps.inRole? .active d with
  | some p => if p.outputs.contains c then (outputs.getD p.index .unrestricted).power c else 0
  | none => 0

/-- The power of some sources together, if there are any. -/
def combinedPower (outputs : Array (FlowMap Rat)) : List Nat → Option Rat
  | [] => none
  | i :: rest => some ((i :: rest).map fun i => (outputs.getD i .unrestricted).power .activePower).sum

namespace Topology

def flowTo (t : Topology) (ps : Participants) (outputs : Array (FlowMap Rat)) (d : DeviceId)
    (c : Commodity) : Rat :=
  ((t.relations.filter fun r => r.passive == d && r.forward == c).map fun r =>
    ps.published outputs c r.active).sum

def sourcesBehind (t : Topology) (ps : Participants) (d : DeviceId)
    (kind : MeterDevices → List DeviceId) : List Nat :=
  (t.meterDevices.filter fun m => m.meter == d).flatMap fun m => (kind m).filterMap ps.activeIndex?

def powerBehind (t : Topology) (ps : Participants) (outputs : Array (FlowMap Rat)) (d : DeviceId)
    (kind : MeterDevices → List DeviceId) : Option Rat :=
  combinedPower outputs (t.sourcesBehind ps d kind)

/-- What a meter reads in an exchange. -/
def reading (t : Topology) (ps : Participants) (outputs : Array (FlowMap Rat)) (d : DeviceId) :
    MeterReading where
  net := t.flowTo ps outputs d .activePower
  reactive := t.flowTo ps outputs d .reactivePower
  pv := t.powerBehind ps outputs d MeterDevices.pv
  chp := t.powerBehind ps outputs d MeterDevices.chp
  battery := t.powerBehind ps outputs d MeterDevices.battery

end Topology

section Exchanges

variable {t : Topology} {ps : Participants} {outputs : Array (FlowMap Rat)}

/-- Among distinct meters, a meter is found where it stands. -/
theorem findIdx?_eq_some_iff_of_nodup {meters : List DeviceId} (hnodup : meters.Nodup) {j : Nat}
    (hj : j < meters.length) (d : DeviceId) :
    (meters.findIdx? fun m => m == d) = some j ↔ d = meters[j] := by
  rw [List.findIdx?_eq_some_iff_getElem]
  constructor
  · rintro ⟨_, h, -⟩
    exact (beq_iff_eq.mp h).symm
  · rintro rfl
    refine ⟨hj, beq_self_eq_true _, ?_⟩
    intro i hi h
    have hsame := hnodup.getElem_inj_iff.mp (beq_iff_eq.mp h)
    omega

/-- A relation ends at a meter if it names it. -/
theorem target?_eq_meter_iff (ps : Participants) (hnodup : t.meters.Nodup) {j : Nat}
    (hj : j < t.meters.length) (d : DeviceId) :
    ReducedRelations.target? t ps d = some (.meter j) ↔ d = t.meters[j] := by
  rw [← findIdx?_eq_some_iff_of_nodup hnodup hj d]
  unfold ReducedRelations.target?
  cases t.meters.findIdx? fun m => m == d with
  | none => simp
  | some i => simp

/-- What a relation carries to a meter. -/
theorem forwardFlow?_toMeter (hnodup : t.meters.Nodup) {j : Nat} (hj : j < t.meters.length)
    (c : Commodity) (r : Relation) :
    (ReducedRelations.forwardFlow? t ps r).elim 0 (fun x =>
        if x.2.1 = .meter j ∧ x.2.2 = c then (outputs.getD x.1 .unrestricted).power c else 0)
      = if r.passive == t.meters[j] && r.forward == c then ps.published outputs c r.active else 0 := by
  have htarget := target?_eq_meter_iff ps hnodup hj r.passive
  unfold ReducedRelations.forwardFlow? Participants.published
  cases ps.inRole? .active r.active with
  | none => simp
  | some p =>
    by_cases hout : r.forward ∈ p.outputs
    · cases ht : ReducedRelations.target? t ps r.passive with
      | none =>
        have hne : r.passive ≠ t.meters[j] := fun h => by simp [htarget.mpr h] at ht
        simp [hne]
      | some target =>
        have hmeter : target = .meter j ↔ r.passive = t.meters[j] := by
          rw [← htarget, ht, Option.some.injEq]
        by_cases hforward : r.forward = c
        · subst hforward
          simp [hout, hmeter]
        · simp [hout, hforward]
    · by_cases hforward : r.forward = c
      · subst hforward
        simp [hout]
      · simp [hout, hforward]

/-- What reaches a meter is what flows to it along the relations. -/
theorem power_arrive_meter (hnodup : t.meters.Nodup) {j : Nat} (hj : j < t.meters.length)
    (c : Commodity) :
    (ReducedRelations.arrive false outputs (ReducedRelations.build t ps).forwardFlows (.meter j)
        .unrestricted).power c = t.flowTo ps outputs t.meters[j] c := by
  have hzero : (FlowMap.unrestricted : FlowMap Rat).power c = 0 := by
    simp [FlowMap.power, FlowMap.containsPower, FlowMap.unrestricted, FlowMap.withAllowed]
  have hperm := (((ReducedRelations.forwardFlows_build_perm t ps).filter fun f =>
    decide (f.target = .meter j ∧ f.commodity = c)).map
      fun f => (outputs.getD f.source .unrestricted).power c)
  rw [ReducedRelations.power_arrive outputs (.meter j) c _ _ FlowMap.clear_unrestricted, hzero,
    zero_add, Scalar.sum_perm hperm, Scalar.sum_filter, List.map_map, Scalar.sum_filterMap,
    Topology.flowTo, ← Scalar.sum_rat, Scalar.sum_filter]
  congr 1
  refine List.map_congr_left ?_
  intro r _
  rw [← forwardFlow?_toMeter hnodup hj c r]
  simp only [Function.comp_def, decide_eq_true_eq]

/-- Looking a source up is the same as summing, where there is at most one. -/
theorem sourcesPower_rat {lookUp : Bool} {sources : List Nat}
    (h : lookUp = true → sources.length ≤ 1) :
    sourcesPower lookUp outputs sources = combinedPower outputs sources := by
  cases sources with
  | nil => rfl
  | cons i rest =>
    have hfold : ∀ (l : List Nat) (x : Rat),
        l.foldl (fun acc i => acc + (outputs.getD i .unrestricted).power .activePower) x
          = x + (l.map fun i => (outputs.getD i .unrestricted).power .activePower).sum := by
      intro l
      induction l with
      | nil => intro x; simp
      | cons i l ih => intro x; rw [List.foldl_cons, ih, List.map_cons, List.sum_cons, add_assoc]
    cases lookUp with
    | true =>
      obtain rfl : rest = [] := by simpa using h rfl
      simp [sourcesPower, combinedPower]
    | false =>
      simp only [sourcesPower, combinedPower, Bool.false_eq_true, if_false]
      rw [hfold, Scalar.rat_zero, zero_add]

/-- What the split of a meter sees in an exchange is what the topology says. -/
theorem of_reached_eq (e : ElectricalGrid Rat) (hnodup : e.topology.meters.Nodup) {j : Nat}
    (hj : j < e.topology.meters.length)
    (hj' : j < (((Grid.electrical e).prepare ps).reached outputs).toList.length) :
    let sources := e.topology.meters.map (ElectricalGrid.sourcesOf e.topology ps)
    let behind := ElectricalGrid.sourcesOf e.topology ps e.topology.meters[j]
    let power := sourcesPower (ElectricalGrid.looksUp e.fastPath sources) outputs
    MeterReading.of ((((Grid.electrical e).prepare ps).reached outputs).toList[j])
        (power behind.pv) (power behind.chp) (power behind.battery)
      = e.topology.reading ps outputs e.topology.meters[j] := by
  intro sources behind power
  have hreached : (((Grid.electrical e).prepare ps).reached outputs).toList[j]
      = ReducedRelations.arrive false outputs (ReducedRelations.build e.topology ps).forwardFlows
          (.meter j) .unrestricted := by
    simp [Grid.reached, Grid.prepare, ElectricalGrid.prepare, Grid.accumulators,
      Grid.carriesTemperature, Grid.forwardFlows, Grid.relations?]
  have hone : ElectricalGrid.looksUp e.fastPath sources = true →
      behind.pv.length ≤ 1 ∧ behind.chp.length ≤ 1 ∧ behind.battery.length ≤ 1 := fun hlook =>
    MeterSources.length_le_one (Grid.atMostOneEach_of_looksUp hlook behind
      (List.mem_map_of_mem (List.getElem_mem hj)))
  have hpv : power behind.pv = e.topology.powerBehind ps outputs e.topology.meters[j] MeterDevices.pv :=
    sourcesPower_rat fun h => (hone h).1
  have hchp : power behind.chp
      = e.topology.powerBehind ps outputs e.topology.meters[j] MeterDevices.chp :=
    sourcesPower_rat fun h => (hone h).2.1
  have hbattery : power behind.battery
      = e.topology.powerBehind ps outputs e.topology.meters[j] MeterDevices.battery :=
    sourcesPower_rat fun h => (hone h).2.2
  rw [hreached, hpv, hchp, hbattery, MeterReading.of, power_arrive_meter hnodup hj,
    power_arrive_meter hnodup hj]
  rfl

/-- **What the meters of a prepared grid add together is what each of them gains.** -/
theorem sum_additionsTo_contributions (e : ElectricalGrid Rat)
    (hnodup : e.topology.meters.Nodup) (q : MeterQuantity) :
    (additionsTo q (((Grid.electrical e).prepare ps).contributions outputs)).sum
      = (e.topology.meters.map fun d => (e.topology.reading ps outputs d).gain q).sum := by
  show (additionsTo q (List.flatMap _ _)).sum = _
  rw [additionsTo_flatMap, ← Scalar.sum_rat, Scalar.sum_flatMap, Scalar.sum_rat]
  congr 1
  apply List.ext_getElem
  · simp [Grid.prepare, ElectricalGrid.prepare, Grid.reached, Grid.accumulators]
  · intro j hj₁ hj₂
    have hj : j < e.topology.meters.length := by simpa using hj₂
    simp only [List.getElem_map, List.getElem_zip]
    rw [Scalar.sum_rat, sum_additionsTo_meterShares]
    exact congrArg (fun m => MeterReading.gain m q) (of_reached_eq e hnodup hj _)

/-- **What an exchange adds to the meter state** is what each meter gains, whatever the grid has exchanged before. -/
theorem exchange_power (e : ElectricalGrid Rat) (hnodup : e.topology.meters.Nodup) {n : Nat}
    (hps : ReducedRelations.Within n ps) {g : Grid Rat}
    (hg : g.rinse = ((Grid.electrical e).prepare ps).rinse) {inputs : Array (FlowMap Rat)}
    (houtputs : outputs.size = n) (hinputs : inputs.size = n) (s : MeterState Rat) :
    ∃ g' inputs' s', g.exchangeForward outputs inputs s = .ok (g', inputs', s') ∧
      g'.rinse = ((Grid.electrical e).prepare ps).rinse ∧
      ∀ q, s'.power q
        = s.power q + (e.topology.meters.map fun d => (e.topology.reading ps outputs d).gain q).sum := by
  have hready : g.Ready n := by
    rw [← Grid.ready_rinse, hg, Grid.ready_rinse]
    exact Grid.ready_prepare _ hps
  refine ⟨_, _, _, Grid.exchangeForward_eq hready outputs inputs houtputs hinputs s, ?_, ?_⟩
  · rw [Grid.rinse_afterForward, hg]
  · intro q
    rw [MeterState.power_addAll, Scalar.sum_rat, ← Grid.contributions_rinse, hg,
      Grid.contributions_rinse, sum_additionsTo_contributions e hnodup]

end Exchanges

/-- **The split of the meters.** What a meter adds to the meter state does not depend on it. The net power is added as
it is, every source adds as much feed-in and consumption as it has power, an importing meter feeds nothing in, and an
exporting one shares the export out in whole watts, in proportion and up to half a watt for each source. A forward
exchange of a grid with distinct meters succeeds and adds what its meters add, read off the topology, whichever way the
sources are found and whatever the grid has exchanged before. -/
theorem meters_split_fairly :
    (∀ (reached : FlowMap Rat) (pv chp battery : Option Rat) (s : MeterState Rat) (q : MeterQuantity),
      (splitMeter reached pv chp battery s).power q
        = s.power q + (MeterReading.of reached pv chp battery).gain q) ∧
    (∀ m : MeterReading, (∀ x ∈ m.pv, x ≤ 0) → (∀ x ∈ m.chp, x ≤ 0) → m.SplitFairly m.gain) ∧
    ∀ (e : ElectricalGrid Rat) (ps : Participants) (n : Nat) (g : Grid Rat)
      (outputs inputs : Array (FlowMap Rat)) (s : MeterState Rat),
      e.topology.meters.Nodup → ReducedRelations.Within n ps →
      g.rinse = ((Grid.electrical e).prepare ps).rinse → outputs.size = n → inputs.size = n →
      ∃ g' inputs' s', g.exchangeForward outputs inputs s = .ok (g', inputs', s') ∧
        g'.rinse = ((Grid.electrical e).prepare ps).rinse ∧
        ∀ q, s'.power q = s.power q
          + (e.topology.meters.map fun d => (e.topology.reading ps outputs d).gain q).sum := by
  refine ⟨splitMeter_power, MeterReading.splitFairly, ?_⟩
  intro e ps n g outputs inputs s hnodup hps hg houtputs hinputs
  exact exchange_power e hnodup hps hg houtputs hinputs s

namespace TwoMeters

/-- A house with photovoltaics and a load, and a barn with photovoltaics of its own. -/
def topology : Topology where
  meters := [⟨8⟩, ⟨9⟩]
  relations := [⟨⟨1⟩, ⟨8⟩, .activePower, .activePower⟩, ⟨⟨2⟩, ⟨8⟩, .activePower, .activePower⟩,
    ⟨⟨3⟩, ⟨9⟩, .activePower, .activePower⟩]
  meterDevices := [⟨⟨8⟩, [⟨1⟩], [], []⟩, ⟨⟨9⟩, [⟨3⟩], [], []⟩]

def participants : Participants :=
  ⟨[.new ⟨1⟩ 0 .active false [.activePower], .new ⟨2⟩ 1 .active false [.activePower],
    .new ⟨3⟩ 2 .active false [.activePower]]⟩

def outputs : Array (FlowMap Rat) :=
  #[FlowMap.unrestricted.setPower .activePower (-100.4), FlowMap.unrestricted.setPower .activePower 150,
    FlowMap.unrestricted.setPower .activePower (-100.4)]

end TwoMeters

/-- The barn exports while the house consumes, and a meter splits its export beside a battery that charges. -/
theorem meters_split_fairly_twoMeters :
    let e : ElectricalGrid Rat := ⟨TwoMeters.topology, true, none⟩
    let g := (Grid.electrical e).prepare TwoMeters.participants
    (∃ g' inputs' s', g.exchangeForward TwoMeters.outputs (Array.replicate 3 .unrestricted) .zero
        = .ok (g', inputs', s') ∧
      s'.power .activeExternal = -50.8 ∧ s'.power .pvFeedIn = -100 ∧
      s'.power .pvAutoConsumption = -100.8) ∧
    let m : MeterReading := ⟨-300.5, 0, some (-500.5), none, some 200⟩
    (∀ x ∈ m.pv, x ≤ 0) ∧ (∀ x ∈ m.chp, x ≤ 0) ∧ m.SplitFairly m.gain := by
  intro e g
  obtain ⟨-, hsplit, hgrid⟩ := meters_split_fairly
  refine ⟨?_, ?_⟩
  · have hwithin : ∀ p ∈ TwoMeters.participants.entries, p.index < 3 := by decide
    obtain ⟨g', inputs', s', hexchange, -, hpower⟩ := hgrid e TwoMeters.participants 3 g
      TwoMeters.outputs (Array.replicate 3 .unrestricted) .zero (by decide) hwithin rfl rfl (by simp)
    refine ⟨g', inputs', s', hexchange, ?_, ?_, ?_⟩
    · rw [hpower]; decide +kernel
    · rw [hpower]; decide +kernel
    · rw [hpower]; decide +kernel
  · have hpv : ∀ x ∈ some (-500.5 : Rat), x ≤ 0 := by decide +kernel
    have hchp : ∀ x ∈ (none : Option Rat), x ≤ 0 := by simp
    exact ⟨hpv, hchp, hsplit _ hpv hchp⟩

end HomeEnergy

import HomeEnergy.Kpi
import HomeEnergy.Proofs.Split
import Mathlib.Data.List.Perm.Subperm

/-!
# Photovoltaic self-consumption

The share of photovoltaic generation that stays in the house is computed from the feed-in and the consumption that a
meter adds tick by tick. The feed-in is rounded to whole watts and the consumption is what is left, so the two need
not lie between the generation and zero. This module says how far off they can be, and when.

* `MeterReading.Overdrawn` — rounding takes more photovoltaic power to the public grid than there is.
* `MeterReading.pvBounded` — the bounds of the feed-in and the consumption at a meter that exports no more than is
  generated behind it.
* `Topology.reading_generating` — a meter is one of these if its sources are connected once and nothing else
  generates.
* `Kpi.pvSelfConsumption_eq` — the share as a quotient of two sums.
* `selfConsumption_bounded` — **the share is at most one, and it is a share unless some tick is overdrawn.**
-/

namespace HomeEnergy

/-! ### One meter -/

namespace MeterReading

/-- A meter whose sources do not consume and that exports no more than they generate. -/
structure Generating (m : MeterReading) : Prop where
  pv : m.pv.getD 0 ≤ 0
  chp : m.chp.getD 0 ≤ 0
  net : m.generation ≤ m.net

/-- Rounding takes more photovoltaic power to the public grid than there is: it ends below the last whole number of
watts that is not above the power. -/
def Overdrawn (m : MeterReading) : Prop :=
  m.net < 0 ∧ m.generation < 0 ∧ m.share (m.pv.getD 0) + 1 / 2 < ⌈m.pv.getD 0⌉

/-- What is known of the photovoltaic feed-in and consumption. -/
structure PvBounded (m : MeterReading) (feedIn auto : Rat) : Prop where
  together : feedIn + auto = m.pv.getD 0
  feedIn_nonpos : feedIn ≤ 0
  power_le_auto : m.pv.getD 0 ≤ auto
  power_lt_feedIn : m.pv.getD 0 - 1 / 2 < feedIn
  auto_lt : auto < 1 / 2
  auto_le_neg : auto ≤ -m.pv.getD 0
  between_iff : (m.pv.getD 0 ≤ feedIn ∧ auto ≤ 0) ↔ ¬ m.Overdrawn
  not_overdrawn_of_whole : (∃ z : ℤ, m.pv.getD 0 = z) → ¬ m.Overdrawn

variable {m : MeterReading}

theorem le_share (hgen : m.generation < 0) (hle : m.generation ≤ m.net)
    {power : Rat} (h : power ≤ 0) : power ≤ m.share power := by
  have hpart : m.net / m.generation ≤ 1 := (div_le_one_of_neg hgen).mpr hle
  calc power = power * 1 := (mul_one power).symm
    _ ≤ power * (m.net / m.generation) := mul_le_mul_of_nonpos_left hpart h
    _ = m.share power := by rw [share]; ring

/-- A source is exported beyond its power just if rounding goes that far. -/
theorem exported_lt_iff (hpv : m.pv.getD 0 ≤ 0) :
    m.exported (m.pv.getD 0) < m.pv.getD 0 ↔ m.Overdrawn := by
  unfold exported Overdrawn
  by_cases hexport : m.net < 0 ∧ m.generation < 0
  · rw [if_pos hexport, Scalar.roundHalfUp_rat, ← Int.lt_ceil, Int.floor_lt]
    exact ⟨fun h => ⟨hexport.1, hexport.2, h⟩, fun h => h.2.2⟩
  · rw [if_neg hexport]
    exact ⟨fun h => absurd h (not_lt.mpr hpv), fun h => absurd ⟨h.1, h.2.1⟩ hexport⟩

/-- An export is a watt at least. -/
theorem exported_le_neg_one {power : Rat} (h : m.exported power < 0) : m.exported power ≤ -1 := by
  unfold exported at h ⊢
  split at h
  · rename_i hexport
    rw [if_pos hexport, Scalar.roundHalfUp_rat]
    rw [Scalar.roundHalfUp_rat] at h
    have hfloor : ⌊m.share power + 1 / 2⌋ < 0 := by exact_mod_cast h
    exact_mod_cast Int.le_sub_one_of_lt hfloor
  · exact absurd h (lt_irrefl _)

/-- A whole number of watts is never overdrawn. -/
theorem not_overdrawn_of_whole (h : m.Generating) :
    (∃ z : ℤ, m.pv.getD 0 = z) → ¬ m.Overdrawn := by
  rintro ⟨z, hz⟩ ⟨-, hgen, hlt⟩
  have hle := le_share hgen h.net h.pv
  rw [hz, Int.ceil_intCast, ← hz] at hlt
  linarith

/-- **The bounds of the feed-in and the consumption.** -/
theorem pvBounded (h : m.Generating) : m.PvBounded (m.gain .pvFeedIn) (m.gain .pvAutoConsumption) := by
  have hbounds : m.exported (m.pv.getD 0) ≤ 0 ∧ m.pv.getD 0 - 1 / 2 < m.exported (m.pv.getD 0) := by
    by_cases hexport : m.net < 0 ∧ m.generation < 0
    · have hle := le_share hexport.2 h.net h.pv
      have hlt := Int.lt_floor_add_one (m.share (m.pv.getD 0) + 1 / 2)
      refine ⟨(exported_wholeShare hexport.1 hexport.2 h.pv).nonpos, ?_⟩
      rw [exported, if_pos hexport, Scalar.roundHalfUp_rat]
      linarith
    · rw [exported, if_neg hexport]
      exact ⟨le_rfl, by linarith [h.pv]⟩
  have hover := exported_lt_iff h.pv
  refine ⟨add_sub_cancel .., hbounds.1, ?_, hbounds.2, ?_, ?_, ?_, not_overdrawn_of_whole h⟩
  · show _ ≤ m.pv.getD 0 - m.exported _
    linarith [hbounds.1]
  · show m.pv.getD 0 - m.exported _ < _
    linarith [hbounds.2]
  · show m.pv.getD 0 - m.exported _ ≤ _
    by_cases hlt : m.exported (m.pv.getD 0) < m.pv.getD 0
    · -- what is exported is a whole number below zero, so more than half a watt is generated
      have hone := exported_le_neg_one (lt_of_lt_of_le hlt h.pv)
      linarith [hbounds.2]
    · linarith [h.pv]
  · rw [← hover, not_lt]
    show _ ∧ m.pv.getD 0 - m.exported _ ≤ 0 ↔ _
    rw [sub_nonpos]
    exact and_self_iff

end MeterReading

/-! ### A meter of a topology -/

/-- Leaving terms out of a sum of terms that are not positive. -/
theorem sum_le_sum_of_subperm {β : Type} {f : β → Rat} {l l' : List β} (h : l.Subperm l')
    (hf : ∀ x ∈ l', f x ≤ 0) : (l'.map f).sum ≤ (l.map f).sum := by
  obtain ⟨k, hperm, hsub⟩ := h
  rw [← (hperm.map f).sum_eq]
  clear hperm
  induction hsub with
  | slnil => exact le_rfl
  | cons x _ ih =>
    have hrest := ih fun y hy => hf y (List.mem_cons_of_mem _ hy)
    have hx := hf x List.mem_cons_self
    rw [List.map_cons, List.sum_cons]
    linarith
  | cons_cons x _ ih =>
    have hrest := ih fun y hy => hf y (List.mem_cons_of_mem _ hy)
    rw [List.map_cons, List.sum_cons, List.map_cons, List.sum_cons]
    linarith

namespace Topology

def attached (t : Topology) (d : DeviceId) (kind : MeterDevices → List DeviceId) : List DeviceId :=
  (t.meterDevices.filter fun m => m.meter == d).flatMap kind

def attachedSources (t : Topology) (d : DeviceId) : List DeviceId :=
  t.attached d MeterDevices.pv ++ t.attached d MeterDevices.chp ++ t.attached d MeterDevices.battery

def feeders (t : Topology) (d : DeviceId) : List Relation :=
  t.relations.filter fun r => r.passive == d && r.forward == .activePower

/-- No source is connected to its meter twice. -/
def ConnectedOnce (t : Topology) (d : DeviceId) : Prop :=
  (((t.feeders d).map fun r => r.active).filter fun x => x ∈ t.attachedSources d).Nodup

/-- The power of a source that takes part. -/
def sourcePower (ps : Participants) (outputs : Array (FlowMap Rat)) (d : DeviceId) : Rat :=
  (ps.activeIndex? d).elim 0 fun i => (outputs.getD i .unrestricted).power .activePower

/-- A tick in which no source behind a meter consumes, and nothing else at the meter generates. -/
structure OneWay (t : Topology) (ps : Participants) (outputs : Array (FlowMap Rat)) (d : DeviceId) :
    Prop where
  sources : ∀ x ∈ t.attachedSources d, sourcePower ps outputs x ≤ 0
  others : ∀ r ∈ t.feeders d, r.active ∉ t.attachedSources d →
    0 ≤ ps.published outputs .activePower r.active

variable {t : Topology} {ps : Participants} {outputs : Array (FlowMap Rat)} {d : DeviceId}

theorem getD_powerBehind (t : Topology) (ps : Participants) (outputs : Array (FlowMap Rat))
    (d : DeviceId) (kind : MeterDevices → List DeviceId) :
    (t.powerBehind ps outputs d kind).getD 0 = ((t.attached d kind).map (sourcePower ps outputs)).sum := by
  have hcombined : ∀ is : List Nat, (combinedPower outputs is).getD 0
      = (is.map fun i => (outputs.getD i .unrestricted).power .activePower).sum := by
    intro is
    cases is <;> rfl
  have hbehind : t.sourcesBehind ps d kind = (t.attached d kind).filterMap ps.activeIndex? := by
    rw [sourcesBehind, attached, List.filterMap_flatMap]
  rw [powerBehind, hcombined, hbehind, ← Scalar.sum_rat, Scalar.sum_filterMap, Scalar.sum_rat]
  rfl

/-- A source publishes its power to its meter, or nothing. -/
theorem sourcePower_le_published (h : sourcePower ps outputs d ≤ 0) :
    sourcePower ps outputs d ≤ ps.published outputs .activePower d := by
  unfold sourcePower Participants.activeIndex? Participants.published at *
  cases hrole : ps.inRole? .active d with
  | none => simp
  | some p =>
    rw [hrole] at h
    have h' : (outputs.getD p.index .unrestricted).power .activePower ≤ 0 := h
    show (outputs.getD p.index .unrestricted).power .activePower ≤ if _ then _ else _
    split
    · exact le_refl ((outputs.getD p.index .unrestricted).power .activePower)
    · exact h'

/-- **What a meter exports is no more than what the sources behind it generate.** -/
theorem sum_sources_le_flowTo (honce : t.ConnectedOnce d) (hway : t.OneWay ps outputs d) :
    ((t.attachedSources d).map (sourcePower ps outputs)).sum ≤ t.flowTo ps outputs d .activePower := by
  set own := ((t.feeders d).map fun r => r.active).filter fun x => x ∈ t.attachedSources d with hown
  have hsubset : own.Subperm (t.attachedSources d) :=
    honce.subperm fun x hx => of_decide_eq_true (List.mem_filter.mp hx).2
  have hterm : ∀ r ∈ t.feeders d,
      (if r.active ∈ t.attachedSources d then sourcePower ps outputs r.active else 0)
        ≤ ps.published outputs .activePower r.active := by
    intro r hr
    split
    · rename_i hsource
      exact sourcePower_le_published (hway.sources _ hsource)
    · rename_i hother
      exact hway.others r hr hother
  calc ((t.attachedSources d).map (sourcePower ps outputs)).sum
      ≤ (own.map (sourcePower ps outputs)).sum := sum_le_sum_of_subperm hsubset hway.sources
    _ = ((t.feeders d).map fun r =>
          if r.active ∈ t.attachedSources d then sourcePower ps outputs r.active else 0).sum := by
        rw [hown, ← Scalar.sum_rat, Scalar.sum_filter, Scalar.sum_rat, List.map_map]
        simp only [Function.comp_def, decide_eq_true_eq]
    _ ≤ ((t.feeders d).map fun r => ps.published outputs .activePower r.active).sum :=
        List.sum_le_sum hterm
    _ = t.flowTo ps outputs d .activePower := rfl

/-- A meter whose sources are connected once exports no more than they generate, if nothing else does. -/
theorem reading_generating (honce : t.ConnectedOnce d) (hway : t.OneWay ps outputs d) :
    (t.reading ps outputs d).Generating := by
  have hnonpos : ∀ kind, (∀ x ∈ t.attached d kind, x ∈ t.attachedSources d) →
      (t.powerBehind ps outputs d kind).getD 0 ≤ 0 := by
    intro kind hkind
    rw [getD_powerBehind]
    simpa using sum_le_sum_of_subperm (f := sourcePower ps outputs) List.nil_subperm
      fun x hx => hway.sources x (hkind x hx)
  have hpv := hnonpos MeterDevices.pv fun x hx => by simp [attachedSources, hx]
  have hchp := hnonpos MeterDevices.chp fun x hx => by simp [attachedSources, hx]
  have hbattery := hnonpos MeterDevices.battery fun x hx => by simp [attachedSources, hx]
  refine ⟨hpv, hchp, ?_⟩
  have hdischarge : (t.reading ps outputs d).discharge.getD 0
      = (t.powerBehind ps outputs d MeterDevices.battery).getD 0 := by
    show (Option.filter _ (t.powerBehind ps outputs d MeterDevices.battery)).getD 0 = _
    cases hb : t.powerBehind ps outputs d MeterDevices.battery with
    | none => rfl
    | some b =>
      rw [hb] at hbattery
      have hb' : b ≤ 0 := hbattery
      simp [Option.filter, hb']
  have hsum := sum_sources_le_flowTo honce hway
  rw [attachedSources, List.map_append, List.map_append, List.sum_append, List.sum_append,
    ← getD_powerBehind, ← getD_powerBehind, ← getD_powerBehind] at hsum
  rw [MeterReading.generation, hdischarge]
  exact hsum

end Topology

/-! ### A series of exchanges -/

/-- The meter states of a series of exchanges, each measured from zero on. -/
def Grid.measure {α : Type} [Scalar α] (g : Grid α) :
    List (Array (FlowMap α) × Array (FlowMap α)) → Except Failure (List (MeterState α))
  | [] => .ok []
  | x :: rest => do
    let (g, _, s) ← g.exchangeForward x.1 x.2 .zero
    return s :: (← g.measure rest)

/-- **A grid with one meter measures what this meter gains**, exchange after exchange. -/
theorem Grid.measure_eq {e : ElectricalGrid Rat} {ps : Participants} {d : DeviceId} {n : Nat}
    (hmeters : e.topology.meters = [d]) (hps : ReducedRelations.Within n ps)
    (ticks : List (Array (FlowMap Rat) × Array (FlowMap Rat))) {g : Grid Rat}
    (hg : g.rinse = ((Grid.electrical e).prepare ps).rinse)
    (hsize : ∀ x ∈ ticks, x.1.size = n ∧ x.2.size = n) :
    ∃ states, g.measure ticks = .ok states ∧
      List.Forall₂ (fun x s => ∀ q, s.power q = (e.topology.reading ps x.1 d).gain q) ticks states := by
  induction ticks generalizing g with
  | nil => exact ⟨[], rfl, .nil⟩
  | cons x ticks ih =>
    obtain ⟨houtputs, hinputs⟩ := hsize x List.mem_cons_self
    obtain ⟨g', inputs', s, hexchange, hg', hpower⟩ := exchange_power e
      (by rw [hmeters]; exact List.nodup_singleton d) hps hg houtputs hinputs .zero
    obtain ⟨states, hstates, hrest⟩ := ih hg' fun y hy => hsize y (List.mem_cons_of_mem _ hy)
    refine ⟨s :: states, ?_, .cons ?_ hrest⟩
    · simp only [measure, hexchange, bind, Except.bind, hstates]
      rfl
    · intro q
      have hzero : (MeterState.zero : MeterState Rat).power q = 0 := by
        simp [MeterState.power, MeterState.zero]
      rw [hpower, hmeters, hzero]
      simp

/-! ### The key figure -/

namespace Kpi

/-- What the entries of a profile make of the two totals of photovoltaic energy. -/
theorem foldl_add_pv (profile : LoadProfile Rat) (prices : List (MeterQuantity × PriceSignal Rat))
    (kwh : Rat) (indices : List Nat) (t : Totals Rat) :
    let total := indices.foldl (fun t i =>
      t.add prices kwh (profile.tickAt i) fun q => profile.powerAtIndex q i) t
    total.pvAutoKwh = t.pvAutoKwh
        - (indices.map fun i => profile.powerAtIndex .pvAutoConsumption i).sum * kwh ∧
      total.pvFeedInKwh = t.pvFeedInKwh
        - (indices.map fun i => profile.powerAtIndex .pvFeedIn i).sum * kwh := by
  induction indices generalizing t with
  | nil => simp
  | cons i indices ih =>
    have hrest := ih (t.add prices kwh (profile.tickAt i) fun q => profile.powerAtIndex q i)
    simp only [List.foldl_cons, List.map_cons, List.sum_cons]
    refine ⟨hrest.1.trans ?_, hrest.2.trans ?_⟩
    · simp only [Totals.add]
      ring
    · simp only [Totals.add]
      ring

theorem map_powerAtIndex (profile : LoadProfile Rat) (q : MeterQuantity) :
    (List.range profile.size).map (fun i => profile.powerAtIndex q i) = profile.series q := by
  apply List.ext_getElem
  · simp [LoadProfile.series, LoadProfile.size]
  · intro i h₁ h₂
    have hi : i < profile.entries.size := by simpa [LoadProfile.size] using h₁
    simp [LoadProfile.series, LoadProfile.powerAtIndex, hi]

/-- **The share of photovoltaic generation that is consumed in the house**, as a quotient of two sums. -/
theorem pvSelfConsumption_eq {profile : LoadProfile Rat} (hstep : 0 < profile.step)
    (prices : ByQuantity (PriceSignal Rat)) :
    let auto := (profile.series .pvAutoConsumption).sum
    let generated := auto + (profile.series .pvFeedIn).sum
    (ofProfile profile prices).pvSelfConsumption = if generated < 0 then auto / generated else 0 := by
  intro auto generated
  generalize hk : (kwhPerWatt profile.step : Rat) = kwh
  have hkwh : 0 < kwh := by
    rw [← hk]
    have hnat : (0 : ℚ) < profile.step.toNat := by exact_mod_cast UInt64.lt_iff_toNat_lt.mp hstep
    exact div_pos hnat (by norm_num)
  have htotals := foldl_add_pv profile prices.toList kwh (List.range profile.size)
    ⟨0, 0, 0, 0, 0, 0, 0, 0⟩
  rw [map_powerAtIndex, map_powerAtIndex] at htotals
  obtain ⟨hauto, hfeedIn⟩ := htotals
  unfold ofProfile Totals.toKpi
  rw [hk]
  dsimp only
  rw [hauto, hfeedIn]
  have htotal : (0 : ℚ) - auto * kwh + (0 - (profile.series .pvFeedIn).sum * kwh)
      = -generated * kwh := by ring
  show (if (0 : ℚ) < 0 - auto * kwh + (0 - (profile.series .pvFeedIn).sum * kwh)
    then (0 - auto * kwh) / (0 - auto * kwh + (0 - (profile.series .pvFeedIn).sum * kwh)) else 0) = _
  rw [htotal]
  by_cases hgen : generated < 0
  · have hpos : 0 < -generated * kwh := mul_pos (neg_pos.mpr hgen) hkwh
    rw [if_pos hpos, if_pos hgen, zero_sub, ← neg_mul, mul_div_mul_right _ _ hkwh.ne', neg_div_neg_eq]
  · have hneg : ¬ 0 < -generated * kwh := by
      rw [not_lt]
      exact mul_nonpos_of_nonpos_of_nonneg (neg_nonpos.mpr (not_lt.mp hgen)) hkwh.le
    rw [if_neg hneg, if_neg hgen]

end Kpi

/-! ### The documented range -/

theorem exists_of_forall₂ {β γ : Type} {R : β → γ → Prop} {l : List β} {k : List γ}
    (h : List.Forall₂ R l k) : ∀ y ∈ k, ∃ x ∈ l, R x y := by
  induction h with
  | nil => simp
  | cons hxy _ ih =>
    intro y hy
    rcases List.mem_cons.mp hy with rfl | hy
    · exact ⟨_, List.mem_cons_self, hxy⟩
    · obtain ⟨x, hx, hR⟩ := ih y hy
      exact ⟨x, List.mem_cons_of_mem _ hx, hR⟩

/-- What holds of the feed-in and the consumption of each tick holds of their sums. -/
theorem sum_feedIn_auto {states : List (MeterState Rat)}
    (h : ∀ s ∈ states, s.power .pvFeedIn ≤ 0 ∧
      s.power .pvAutoConsumption ≤ -(s.power .pvAutoConsumption + s.power .pvFeedIn)) :
    let auto := (states.map fun s => s.power .pvAutoConsumption).sum
    let feedIn := (states.map fun s => s.power .pvFeedIn).sum
    feedIn ≤ 0 ∧ auto ≤ -(auto + feedIn) := by
  induction states with
  | nil => simp
  | cons s states ih =>
    have hs := h s List.mem_cons_self
    have hrest := ih fun x hx => h x (List.mem_cons_of_mem _ hx)
    simp only [List.map_cons, List.sum_cons]
    constructor <;> linarith [hs.1, hs.2, hrest.1, hrest.2]

/-- The bounds of a share of a generation that is made up of a feed-in and a consumption. -/
theorem share_bounds {auto feedIn : Rat} (hfeedIn : feedIn ≤ 0) (hauto : auto ≤ -(auto + feedIn)) :
    let share := if auto + feedIn < 0 then auto / (auto + feedIn) else 0
    share ≤ 1 ∧ -1 ≤ share ∧ (0 ≤ share ↔ auto ≤ 0) := by
  intro share
  by_cases hgen : auto + feedIn < 0
  · have hshare : share = auto / (auto + feedIn) := if_pos hgen
    rw [hshare, div_le_one_of_neg hgen, le_div_iff_of_neg hgen, le_div_iff_of_neg hgen, zero_mul]
    exact ⟨by linarith, by linarith, Iff.rfl⟩
  · have hshare : share = 0 := if_neg hgen
    rw [hshare]
    exact ⟨by norm_num, by norm_num, fun _ => by linarith, fun _ => le_rfl⟩

/-- **The share of photovoltaic generation that is consumed in the house.** At a meter whose sources generate and are
connected once, and at which nothing else generates, the feed-in is not positive and the consumption not beyond the
generation, in every tick. Both lie between the generation and zero just if the tick is not overdrawn, which takes a
power that is not a whole number of watts, and they are off by less than half a watt then. So the share is at most
one. It is not negative just if the consumption of all ticks together is not, and in any case if no tick is
overdrawn. -/
theorem selfConsumption_bounded (e : ElectricalGrid Rat) (ps : Participants) (d : DeviceId) (n : Nat)
    (ticks : List (Array (FlowMap Rat) × Array (FlowMap Rat))) (hmeters : e.topology.meters = [d])
    (honce : e.topology.ConnectedOnce d) (hps : ReducedRelations.Within n ps)
    (hsize : ∀ x ∈ ticks, x.1.size = n ∧ x.2.size = n)
    (hway : ∀ x ∈ ticks, e.topology.OneWay ps x.1 d) :
    ∃ states, ((Grid.electrical e).prepare ps).measure ticks = .ok states ∧
      List.Forall₂ (fun x s => (e.topology.reading ps x.1 d).PvBounded (s.power .pvFeedIn)
        (s.power .pvAutoConsumption)) ticks states ∧
      ∀ (profile : LoadProfile Rat) (prices : ByQuantity (PriceSignal Rat)),
        profile.entries.toList = states → 0 < profile.step →
        let share := (Kpi.ofProfile profile prices).pvSelfConsumption
        share ≤ 1 ∧ -1 ≤ share ∧
        (0 ≤ share ↔ (states.map fun s => s.power .pvAutoConsumption).sum ≤ 0) ∧
        ((∀ x ∈ ticks, ¬ (e.topology.reading ps x.1 d).Overdrawn) → 0 ≤ share) := by
  obtain ⟨states, hstates, hgains⟩ := Grid.measure_eq (g := (Grid.electrical e).prepare ps) hmeters hps
    ticks rfl hsize
  have hbounded : List.Forall₂ (fun x s => (e.topology.reading ps x.1 d).PvBounded
      (s.power .pvFeedIn) (s.power .pvAutoConsumption)) ticks states := by
    refine (List.forall₂_and_left _ _ |>.mpr ⟨hway, hgains⟩).imp ?_
    rintro x s ⟨hx, hs⟩
    rw [hs, hs]
    exact MeterReading.pvBounded (Topology.reading_generating honce hx)
  refine ⟨states, hstates, hbounded, ?_⟩
  intro profile prices hentries hstep share
  have hseries : ∀ q, profile.series q = states.map fun s => s.power q := by
    intro q
    rw [LoadProfile.series, hentries]
  set auto := (states.map fun s => s.power .pvAutoConsumption).sum with hauto
  set feedIn := (states.map fun s => s.power .pvFeedIn).sum with hfeedIn
  have hshare : share = if auto + feedIn < 0 then auto / (auto + feedIn) else 0 := by
    have hquotient := Kpi.pvSelfConsumption_eq hstep prices
    rwa [hseries, hseries] at hquotient
  obtain ⟨hfeedIn_nonpos, hauto_le⟩ : feedIn ≤ 0 ∧ auto ≤ -(auto + feedIn) := by
    refine sum_feedIn_auto fun s hs => ?_
    obtain ⟨x, -, hx⟩ := exists_of_forall₂ hbounded s hs
    have htogether := hx.together
    have hneg := hx.auto_le_neg
    exact ⟨hx.feedIn_nonpos, by linarith⟩
  obtain ⟨hle, hge, hiff⟩ := share_bounds hfeedIn_nonpos hauto_le
  rw [← hshare] at hle hge hiff
  refine ⟨hle, hge, hiff, ?_⟩
  intro hnone
  have hterm : ∀ s ∈ states, s.power .pvAutoConsumption ≤ 0 := by
    intro s hs
    obtain ⟨x, hx, hb⟩ := exists_of_forall₂ hbounded s hs
    exact (hb.between_iff.mpr (hnone x hx)).2
  rw [hiff]
  simpa using sum_le_sum_of_subperm (f := fun s : MeterState Rat => s.power .pvAutoConsumption)
    List.nil_subperm hterm

/-! ### A power that is not whole -/

namespace LoneRoof

def topology : Topology where
  meters := [⟨9⟩]
  relations := [⟨⟨1⟩, ⟨9⟩, .activePower, .activePower⟩]
  meterDevices := [⟨⟨9⟩, [⟨1⟩], [], []⟩]

def grid : ElectricalGrid Rat := ⟨topology, true, none⟩

def participants : Participants :=
  ⟨[.new ⟨1⟩ 0 .active false [.activePower]]⟩

def tick (power : Rat) : Array (FlowMap Rat) × Array (FlowMap Rat) :=
  (#[FlowMap.unrestricted.setPower .activePower power], #[.unrestricted])

theorem connectedOnce : topology.ConnectedOnce ⟨9⟩ := by
  unfold Topology.ConnectedOnce
  decide

theorem sourcePower_tick (power : Rat) :
    Topology.sourcePower participants (tick power).1 ⟨1⟩ = power := by
  show (FlowMap.unrestricted.setPower .activePower power).power .activePower = power
  rw [FlowMap.power_setPower (by decide), if_pos rfl]

/-- Nothing else is connected to the meter. -/
theorem oneWay {power : Rat} (h : power ≤ 0) : topology.OneWay participants (tick power).1 ⟨9⟩ where
  sources x hx := by
    obtain rfl : x = ⟨1⟩ := by simpa [Topology.attachedSources, Topology.attached, topology] using hx
    rw [sourcePower_tick]
    exact h
  others r hr hother := by
    obtain rfl : r = ⟨⟨1⟩, ⟨9⟩, .activePower, .activePower⟩ := by
      simpa [Topology.feeders, topology] using hr
    exact absurd hother (by decide)

end LoneRoof

/-- The bounds, for a tick that is overdrawn and one that is not. -/
theorem selfConsumption_bounded_loneRoof :
    ∃ states, ((Grid.electrical LoneRoof.grid).prepare LoneRoof.participants).measure
        [LoneRoof.tick (-100.6), LoneRoof.tick (-20)] = .ok states ∧
      ∀ (profile : LoadProfile Rat) (prices : ByQuantity (PriceSignal Rat)),
        profile.entries.toList = states → 0 < profile.step →
        (Kpi.ofProfile profile prices).pvSelfConsumption ≤ 1 ∧
          -1 ≤ (Kpi.ofProfile profile prices).pvSelfConsumption := by
  have hwithin : ∀ p ∈ LoneRoof.participants.entries, p.index < 1 := by decide
  have hway : ∀ x ∈ [LoneRoof.tick (-100.6), LoneRoof.tick (-20)],
      LoneRoof.grid.topology.OneWay LoneRoof.participants x.1 ⟨9⟩ := by
    intro x hx
    rcases List.mem_pair.mp hx with rfl | rfl
    · exact LoneRoof.oneWay (by norm_num)
    · exact LoneRoof.oneWay (by norm_num)
  have hsize : ∀ x ∈ [LoneRoof.tick (-100.6), LoneRoof.tick (-20)], x.1.size = 1 ∧ x.2.size = 1 := by
    intro x hx
    rcases List.mem_pair.mp hx with rfl | rfl <;> exact ⟨rfl, rfl⟩
  obtain ⟨states, hstates, -, hshare⟩ := selfConsumption_bounded LoneRoof.grid LoneRoof.participants ⟨9⟩ 1
    [LoneRoof.tick (-100.6), LoneRoof.tick (-20)] rfl LoneRoof.connectedOnce hwithin hsize hway
  refine ⟨states, hstates, ?_⟩
  intro profile prices hentries hstep
  obtain ⟨hle, hge, -⟩ := hshare profile prices hentries hstep
  exact ⟨hle, hge⟩

/-- **A share below zero.** A photovoltaic system that generates 100.6 W, all of it exported, feeds in 101 W and
consumes 0.4 W less than nothing. -/
theorem loneRoof_overdrawn :
    ∃ s, ((Grid.electrical LoneRoof.grid).prepare LoneRoof.participants).measure
        [LoneRoof.tick (-100.6)] = .ok [s] ∧
      LoneRoof.topology.OneWay LoneRoof.participants (LoneRoof.tick (-100.6)).1 ⟨9⟩ ∧
      s.power .pvFeedIn = -101 ∧ s.power .pvAutoConsumption = 0.4 ∧
      ∀ (profile : LoadProfile Rat) (prices : ByQuantity (PriceSignal Rat)),
        profile.entries.toList = [s] → 0 < profile.step →
        (Kpi.ofProfile profile prices).pvSelfConsumption < 0 := by
  have hwithin : ∀ p ∈ LoneRoof.participants.entries, p.index < 1 := by decide
  obtain ⟨states, hstates, hgains⟩ := Grid.measure_eq
    (g := (Grid.electrical LoneRoof.grid).prepare LoneRoof.participants)
    (d := ⟨9⟩) rfl hwithin [LoneRoof.tick (-100.6)] rfl (by simp [LoneRoof.tick])
  obtain ⟨s, _, hs, hnil, rfl⟩ := List.forall₂_cons_left_iff.mp hgains
  obtain rfl := List.forall₂_nil_left_iff.mp hnil
  have hfeedIn : s.power .pvFeedIn = -101 := by
    rw [hs]
    decide +kernel
  have hauto : s.power .pvAutoConsumption = 0.4 := by
    rw [hs]
    decide +kernel
  refine ⟨s, hstates, LoneRoof.oneWay (by norm_num), hfeedIn, hauto, ?_⟩
  intro profile prices hentries hstep
  rw [Kpi.pvSelfConsumption_eq hstep]
  simp only [LoadProfile.series, hentries, List.map_cons, List.map_nil, List.sum_cons, List.sum_nil,
    hfeedIn, hauto]
  norm_num

end HomeEnergy

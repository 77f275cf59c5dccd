import HomeEnergy.Proofs.Metering
import HomeEnergy.Proofs.Outcomes
import HomeEnergy.Proofs.Zeros

/-!
# Looking sources up

A grid with a single meter and at most one source of each type looks the sources up where other grids sum
them. A sum that starts at zero is not quite the number it is a sum of, and this module shows that the
difference goes no further than the sign of a zero.

* `meterShares_zero_add` — **a meter adds interchangeable shares, whether the powers behind it are those of
  single sources or sums**; `MeterState.addAll_same`, `MeterState.addAll_eq` — what such shares come to, from
  numerically equal meter states and from a plain one.
* `Grid.Linked` — grids that differ in looking sources up, and do so only where that is harmless;
  `Grid.exchangeForward_linked` — **their forward exchanges deliver the same and leave numerically equal meter
  states**, or fail alike.
* `Grid.Session` — a grid in use by a caller who prepares, finalizes and exchanges as they please;
  `Grid.Session.trace_linked` — **the caller of one such grid sees what the caller of the other one sees**.
-/

namespace HomeEnergy

open Double (Interchangeable Same)

/-! ### Shares and meter states -/

/-- Additions of interchangeable numbers to one quantity. -/
def Matching (x y : MeterQuantity × Double) : Prop :=
  x.1 = y.1 ∧ Interchangeable x.2 y.2

theorem Matching.refl (x : MeterQuantity × Double) : Matching x x :=
  ⟨rfl, Interchangeable.refl x.2⟩

theorem Matching.symm {x y : MeterQuantity × Double} (h : Matching x y) : Matching y x :=
  ⟨h.1.symm, h.2.symm⟩

theorem forall₂_matching_refl (xs : List (MeterQuantity × Double)) : List.Forall₂ Matching xs xs :=
  List.forall₂_same.mpr fun x _ => Matching.refl x

theorem forall₂_matching_symm {xs ys : List (MeterQuantity × Double)} (h : List.Forall₂ Matching xs ys) :
    List.Forall₂ Matching ys xs :=
  h.flip.imp fun _ _ hxy => Matching.symm hxy

theorem forall₂_flatMap {β γ : Type} {R : γ → γ → Prop} {l : List β} {f g : β → List γ}
    (h : ∀ x ∈ l, List.Forall₂ R (f x) (g x)) : List.Forall₂ R (l.flatMap f) (l.flatMap g) := by
  induction l with
  | nil => exact .nil
  | cons x l ih => exact List.rel_append (h x (by simp)) (ih fun y hy => h y (by simp [hy]))

namespace MeterState

/-- Meter states whose quantities are numerically equal. -/
def Same (s t : MeterState Double) : Prop :=
  ∀ q, Double.Same (s.power q) (t.power q)

/-- A meter state without a negative zero. -/
def Plain (s : MeterState Double) : Prop :=
  ∀ q, (s.power q).Plain

theorem Same.refl (s : MeterState Double) : s.Same s :=
  fun q => Double.Same.refl (s.power q)

theorem Same.symm {s t : MeterState Double} (h : s.Same t) : t.Same s :=
  fun q => (h q).symm

theorem plain_zero : (zero : MeterState Double).Plain := by
  intro q
  cases q <;> exact fun h => nomatch h

/-- Matching additions keep numerically equal meter states numerically equal. -/
theorem addAll_same {s t : MeterState Double} (h : s.Same t) {xs ys : List (MeterQuantity × Double)}
    (hxy : List.Forall₂ Matching xs ys) : (s.addAll xs).Same (t.addAll ys) := by
  induction hxy generalizing s t with
  | nil => exact h
  | @cons x y xs ys hhead _ ih =>
    obtain ⟨hq, hx⟩ := hhead
    have hadd : (s.add x.1 x.2).Same (t.add y.1 y.2) := by
      intro r
      rw [← hq, power_add, power_add]
      split
      · exact (h _).add hx.same
      · exact h r
    exact ih hadd

/-- **Matching additions to a plain meter state come to the same.** -/
theorem addAll_eq {s : MeterState Double} (hs : s.Plain) {xs ys : List (MeterQuantity × Double)}
    (hxy : List.Forall₂ Matching xs ys) : s.addAll xs = s.addAll ys := by
  induction hxy generalizing s with
  | nil => rfl
  | @cons x y xs ys hhead _ ih =>
    obtain ⟨hq, hx⟩ := hhead
    have hadd : s.add x.1 x.2 = s.add y.1 y.2 := by
      rw [add, add, ← hq, hx.add _ (hs x.1)]
    have hplain : (s.add y.1 y.2).Plain := by
      intro r
      rw [power_add]
      split
      · exact Double.plain_add (hs _) _
      · exact hs r
    show (s.add x.1 x.2).addAll xs = (s.add y.1 y.2).addAll ys
    rw [hadd]
    exact ih hplain

end MeterState

/-! ### The shares of a meter -/

def summed (x? : Option Double) : Option Double :=
  x?.map fun x => 0 + x

theorem someShare_summed (q : MeterQuantity) (x? : Option Double) :
    List.Forall₂ Matching (someShare q x?) (someShare q (summed x?)) := by
  cases x? with
  | none => exact .nil
  | some x => exact .cons ⟨rfl, Double.interchangeable_zero_add x⟩ .nil

theorem getD_summed (x? : Option Double) : Same (x?.getD 0) ((summed x?).getD 0) := by
  cases x? with
  | none => exact Same.refl 0
  | some x => exact (Double.interchangeable_zero_add x).same

/-- A test that numerically equal powers pass alike passes sums like their only addend. -/
theorem filter_summed {p : Double → Bool} (hp : ∀ x y, Same x y → p x = p y) (x? : Option Double) :
    (summed x?).filter p = summed (x?.filter p) := by
  cases x? with
  | none => rfl
  | some x =>
    have hx : p (0 + x) = p x := (hp x (0 + x) (Double.interchangeable_zero_add x).same).symm
    cases h : p x <;> simp [summed, Option.filter, h, hx]

theorem exportShares_summed {g g' : Double} (hg : Same g g') (net : Double) (x? : Option Double)
    (feedIn auto : MeterQuantity) :
    List.Forall₂ Matching (exportShares net g x? feedIn auto)
      (exportShares net g' (summed x?) feedIn auto) := by
  cases x? with
  | none => exact .nil
  | some x =>
    have hexported := Double.exported_zero_add hg net x
    refine .cons ⟨rfl, ?_⟩ (.cons ⟨rfl, Double.interchangeable_rest hg net x⟩ .nil)
    show Interchangeable (Double.exported net g x) (Double.exported net g' (0 + x))
    rw [hexported]
    exact Interchangeable.refl _

/-- **A meter adds interchangeable shares, whether the powers behind it are those of single sources or
sums.** -/
theorem meterShares_zero_add (reached : FlowMap Double) (pv chp battery : Option Double) :
    List.Forall₂ Matching (meterShares reached pv chp battery)
      (meterShares reached (summed pv) (summed chp) (summed battery)) := by
  have hcharge : (summed battery).filter (fun b => decide (0 < b))
      = summed (battery.filter fun b => decide (0 < b)) :=
    filter_summed (fun _ _ h => decide_eq_decide.mpr ((Same.refl 0).lt_iff h)) battery
  have hdischarge : (summed battery).filter (fun b => decide (b ≤ 0))
      = summed (battery.filter fun b => decide (b ≤ 0)) :=
    filter_summed (fun _ _ h => decide_eq_decide.mpr (h.le_iff (Same.refl 0))) battery
  unfold meterShares
  simp only [hcharge, hdischarge]
  generalize battery.filter (fun b => decide (b ≤ 0)) = discharge
  have hgeneration : Same (pv.getD 0 + chp.getD 0 + discharge.getD 0)
      ((summed pv).getD 0 + (summed chp).getD 0 + (summed discharge).getD 0) :=
    ((getD_summed pv).add (getD_summed chp)).add (getD_summed discharge)
  refine List.rel_append (List.rel_append (forall₂_matching_refl _) (someShare_summed _ _)) ?_
  split
  · exact List.rel_append (List.rel_append (someShare_summed _ _) (someShare_summed _ _))
      (someShare_summed _ _)
  · exact List.rel_append (List.rel_append (exportShares_summed hgeneration _ _ _ _)
      (exportShares_summed hgeneration _ _ _ _)) (exportShares_summed hgeneration _ _ _ _)

/-! ### Single sources -/

/-- The sum of at most one source is what is looked up, as a sum that starts at zero. -/
theorem totalPower_of_length_le_one (outputs : Array (FlowMap Double)) {sources : List Nat}
    (h : sources.length ≤ 1) : totalPower outputs sources = (firstPower outputs sources).map summed := by
  match sources, h with
  | [], _ => rfl
  | [i], _ =>
    show ((publishedPower outputs i).map _ >>= pure).map _ = ((publishedPower outputs i).map _).map _
    cases publishedPower outputs i <;> rfl

theorem sourcesPower_of_length_le_one (outputs : Array (FlowMap Double)) {sources : List Nat}
    (h : sources.length ≤ 1) :
    sourcesPower false outputs sources = summed (sourcesPower true outputs sources) := by
  match sources, h with
  | [], _ => rfl
  | [_], _ => rfl

theorem MeterSources.length_le_one {m : MeterSources} (h : m.atMostOneEach = true) :
    m.pv.length ≤ 1 ∧ m.chp.length ≤ 1 ∧ m.battery.length ≤ 1 := by
  simpa [atMostOneEach, and_assoc] using h

/-- What a meter adds, with the powers behind it looked up or summed. -/
def metered (lookUp : Bool) (outputs : Array (FlowMap Double)) (m : MeterSources)
    (reached : FlowMap Double) : List (MeterQuantity × Double) :=
  meterShares reached (sourcesPower lookUp outputs m.pv) (sourcesPower lookUp outputs m.chp)
    (sourcesPower lookUp outputs m.battery)

/-- A meter adds interchangeable shares in the same way or with single sources. -/
theorem metered_matching {lookUp lookUp' : Bool} {m : MeterSources}
    (hm : lookUp = lookUp' ∨ m.atMostOneEach = true) (outputs : Array (FlowMap Double))
    (reached : FlowMap Double) :
    List.Forall₂ Matching (metered lookUp outputs m reached) (metered lookUp' outputs m reached) := by
  rcases hm with rfl | hm
  · exact forall₂_matching_refl _
  · obtain ⟨hpv, hchp, hbattery⟩ := MeterSources.length_le_one hm
    have hshares : List.Forall₂ Matching (metered true outputs m reached)
        (metered false outputs m reached) := by
      unfold metered
      rw [sourcesPower_of_length_le_one outputs hpv, sourcesPower_of_length_le_one outputs hchp,
        sourcesPower_of_length_le_one outputs hbattery]
      exact meterShares_zero_add ..
    cases lookUp with
    | false =>
      cases lookUp' with
      | false => exact forall₂_matching_refl _
      | true => exact forall₂_matching_symm hshares
    | true =>
      cases lookUp' with
      | false => exact hshares
      | true => exact forall₂_matching_refl _

def powerOf (lookUp : Bool) (outputs : Array (FlowMap Double)) :
    List Nat → Except Defect (Option Double) :=
  if lookUp then firstPower outputs else totalPower outputs

/-- A meter is added alike from numerically equal meter states, if the powers behind it are found alike. -/
theorem addMeter_of_powers {sourcePower sourcePower' : List Nat → Except Defect (Option Double)}
    {R : Option Double → Option Double → Prop} {m : MeterSources} {reached : FlowMap Double}
    (hshares : ∀ {pv pv' chp chp' battery battery'}, R pv pv' → R chp chp' → R battery battery' →
      List.Forall₂ Matching (meterShares reached pv chp battery) (meterShares reached pv' chp' battery'))
    (hpv : Agree R (sourcePower m.pv) (sourcePower' m.pv))
    (hchp : Agree R (sourcePower m.chp) (sourcePower' m.chp))
    (hbattery : Agree R (sourcePower m.battery) (sourcePower' m.battery))
    {s t : MeterState Double} (h : s.Same t) :
    Agree MeterState.Same (addMeter sourcePower m reached s) (addMeter sourcePower' m reached t) := by
  unfold addMeter
  refine hpv.bind fun pv pv' h₁ => hchp.bind fun chp chp' h₂ => hbattery.bind fun battery battery' h₃ => ?_
  rw [splitMeter_eq, splitMeter_eq]
  exact .ok (MeterState.addAll_same h (hshares h₁ h₂ h₃))

theorem addMeter_same (sourcePower : List Nat → Except Defect (Option Double)) (m : MeterSources)
    (reached : FlowMap Double) {s t : MeterState Double} (h : s.Same t) :
    Agree MeterState.Same (addMeter sourcePower m reached s) (addMeter sourcePower m reached t) := by
  refine addMeter_of_powers ?_ (.refl (fun _ => rfl) _) (.refl (fun _ => rfl) _)
    (.refl (fun _ => rfl) _) h
  rintro pv _ chp _ battery _ rfl rfl rfl
  exact forall₂_matching_refl _

/-- Looking single sources up and summing them agree. -/
theorem addMeter_lookUp {m : MeterSources} (hm : m.atMostOneEach = true)
    (outputs : Array (FlowMap Double)) (reached : FlowMap Double) {s t : MeterState Double}
    (h : s.Same t) :
    Agree MeterState.Same (addMeter (firstPower outputs) m reached s)
      (addMeter (totalPower outputs) m reached t) := by
  obtain ⟨hpv, hchp, hbattery⟩ := MeterSources.length_le_one hm
  have hpowers : ∀ {sources : List Nat}, sources.length ≤ 1 →
      Agree (fun x y => y = summed x) (firstPower outputs sources) (totalPower outputs sources) := by
    intro sources hlength
    rw [totalPower_of_length_le_one outputs hlength]
    exact .map_right summed _
  refine addMeter_of_powers ?_ (hpowers hpv) (hpowers hchp) (hpowers hbattery) h
  rintro pv _ chp _ battery _ rfl rfl rfl
  exact meterShares_zero_add reached pv chp battery

/-- A meter is added alike from numerically equal meter states, in the same way or with single sources. -/
theorem addMeter_agree {lookUp lookUp' : Bool} {m : MeterSources}
    (hm : lookUp = lookUp' ∨ m.atMostOneEach = true) (outputs : Array (FlowMap Double))
    (reached : FlowMap Double) {s t : MeterState Double} (h : s.Same t) :
    Agree MeterState.Same (addMeter (powerOf lookUp outputs) m reached s)
      (addMeter (powerOf lookUp' outputs) m reached t) := by
  rcases hm with rfl | hm
  · exact addMeter_same _ m reached h
  · cases lookUp with
    | false =>
      cases lookUp' with
      | false => exact addMeter_same _ m reached h
      | true => exact (addMeter_lookUp hm outputs reached h.symm).symm.mono fun _ _ h => h.symm
    | true =>
      cases lookUp' with
      | false => exact addMeter_lookUp hm outputs reached h
      | true => exact addMeter_same _ m reached h

/-! ### Linked grids -/

/-- Runs that differ in looking sources up, and do so only if no meter has two sources of a type. -/
structure ElectricalRun.Linked (run run' : ElectricalRun Double) : Prop where
  relations : run.relations = run'.relations
  meters : run.meters = run'.meters
  accumulators : run.accumulators = run'.accumulators
  single : ∀ m ∈ run.meters, run.singleMeter = run'.singleMeter ∨ m.atMostOneEach = true

namespace ElectricalRun

theorem Linked.refl (run : ElectricalRun Double) : run.Linked run where
  relations := rfl
  meters := rfl
  accumulators := rfl
  single _ _ := Or.inl rfl

theorem addMeters_linked {run run' : ElectricalRun Double} (h : run.Linked run')
    (outputs accumulators : Array (FlowMap Double)) {s t : MeterState Double} (hst : s.Same t) :
    Agree MeterState.Same (run.addMeters outputs accumulators s)
      (run'.addMeters outputs accumulators t) := by
  unfold addMeters
  rw [← h.meters]
  refine Agree.foldlM _ ?_ s t hst
  intro m hm s t hst
  exact addMeter_agree (h.single m.1 (List.of_mem_zip hm).1) outputs m.2 hst

/-- **Linked runs deliver the same and measure numerically equal meter states**, or fail alike. -/
theorem exchange_linked {run run' : ElectricalRun Double} (h : run.Linked run')
    (outputs inputs : Array (FlowMap Double)) {s t : MeterState Double} (hst : s.Same t) :
    Agree (fun r r' => r.1.Linked r'.1 ∧ r.2.1 = r'.2.1 ∧ r.2.2.Same r'.2.2)
      (run.exchange outputs inputs s) (run'.exchange outputs inputs t) := by
  unfold exchange
  rw [← h.relations, ← h.accumulators]
  cases run.relations.exchangeForward false outputs
      { inputs, meters := run.accumulators.map FlowMap.clear } with
  | error e => exact .error e
  | ok box =>
    refine (addMeters_linked h outputs box.meters hst).bind ?_
    intro s t hst
    exact .ok ⟨⟨rfl, h.meters, rfl, h.single⟩, rfl, hst⟩

end ElectricalRun

theorem ThermalRun.addGas_same (reached : FlowMap Double) {s t : MeterState Double} (h : s.Same t) :
    (addGas reached s).Same (addGas reached t) := by
  simp only [addGas]
  split
  · exact MeterState.addAll_same h (forall₂_matching_refl [(.gasExternal, reached.power .naturalGas)])
  · exact h

namespace Grid

/-- Grids of one topology that differ in looking sources up, and do so only where that is harmless. -/
inductive Linked : Grid Double → Grid Double → Prop where
  | idle (topology : Topology) (on on' : Bool) :
    Linked (.electrical ⟨topology, on, none⟩) (.electrical ⟨topology, on', none⟩)
  | running (topology : Topology) (on on' : Bool) {run run' : ElectricalRun Double} (h : run.Linked run') :
    Linked (.electrical ⟨topology, on, some run⟩) (.electrical ⟨topology, on', some run'⟩)
  | thermal (e : ThermalGrid Double) : Linked (.thermal e) (.thermal e)

def lookingUp {α : Type} (enabled : Bool) : Grid α → Grid α
  | electrical e => electrical (e.withFastPath enabled)
  | thermal e => thermal e

/-- The permission to look sources up is not used before a run is prepared. -/
theorem lookingUp_linked (g : Grid Double) (on on' : Bool) : (g.lookingUp on).Linked (g.lookingUp on') := by
  match g with
  | electrical ⟨topology, _, none⟩ => exact .idle topology on on'
  | electrical ⟨topology, _, some run⟩ => exact .running topology on on' (.refl run)
  | thermal e => exact .thermal e

theorem Linked.kind_eq {g g' : Grid Double} (h : g.Linked g') : g.kind = g'.kind := by
  cases h <;> rfl

theorem Linked.topology_eq {g g' : Grid Double} (h : g.Linked g') : g.topology = g'.topology := by
  cases h <;> rfl

theorem Linked.relations?_eq {g g' : Grid Double} (h : g.Linked g') : g.relations? = g'.relations? := by
  cases h with
  | idle _ _ _ => rfl
  | running _ _ _ h => exact congrArg some h.relations
  | thermal _ => rfl

theorem finalize_linked {g g' : Grid Double} (h : g.Linked g') : g.finalize.Linked g'.finalize := by
  cases h with
  | idle topology on on' => exact .idle topology on on'
  | running topology on on' _ => exact .idle topology on on'
  | thermal _ => exact .thermal _

/-- Sources are looked up only where no meter has two of a type. -/
theorem atMostOneEach_of_looksUp {enabled : Bool} {meters : List MeterSources}
    (h : ElectricalGrid.looksUp enabled meters = true) : ∀ m ∈ meters, m.atMostOneEach = true := by
  match meters, h with
  | [m], h =>
    have hm : enabled = true ∧ m.atMostOneEach = true := by simpa [ElectricalGrid.looksUp] using h
    simpa using hm.2

/-- **Whether a run looks sources up is harmless, whoever takes part in it.** -/
theorem prepare_electrical_linked (topology : Topology) (on on' : Bool)
    (run? run?' : Option (ElectricalRun Double)) (ps : Participants) :
    ((electrical ⟨topology, on, run?⟩).prepare ps).Linked
      ((electrical ⟨topology, on', run?'⟩).prepare ps) := by
  refine .running topology on on' ⟨rfl, rfl, rfl, ?_⟩
  intro m hm
  show ElectricalGrid.looksUp on _ = ElectricalGrid.looksUp on' _ ∨ _
  cases hlook : ElectricalGrid.looksUp on
      (topology.meters.map (ElectricalGrid.sourcesOf topology ps)) with
  | true => exact Or.inr (atMostOneEach_of_looksUp hlook m hm)
  | false =>
    cases hlook' : ElectricalGrid.looksUp on'
        (topology.meters.map (ElectricalGrid.sourcesOf topology ps)) with
    | true => exact Or.inr (atMostOneEach_of_looksUp hlook' m hm)
    | false => exact Or.inl rfl

theorem prepare_linked {g g' : Grid Double} (h : g.Linked g') (ps : Participants) :
    (g.prepare ps).Linked (g'.prepare ps) := by
  cases h with
  | idle topology on on' => exact prepare_electrical_linked ..
  | running topology on on' _ => exact prepare_electrical_linked ..
  | thermal _ => exact .thermal _

/-- **Forward exchanges of linked grids deliver the same and leave numerically equal meter states**, or fail
alike. -/
theorem exchangeForward_linked {g g' : Grid Double} (h : g.Linked g')
    (outputs inputs : Array (FlowMap Double)) {s t : MeterState Double} (hst : s.Same t) :
    Agree (fun r r' => r.1.Linked r'.1 ∧ r.2.1 = r'.2.1 ∧ r.2.2.Same r'.2.2)
      (g.exchangeForward outputs inputs s) (g'.exchangeForward outputs inputs t) := by
  cases h with
  | idle _ _ _ => exact .error _
  | @running topology on on' run run' h =>
    have hexchange := ElectricalRun.exchange_linked h outputs inputs hst
    simp only [exchangeForward]
    generalize run.exchange outputs inputs s = r, run'.exchange outputs inputs t = r' at hexchange
    cases hexchange with
    | error e => exact .error _
    | ok hr => exact .ok ⟨.running topology on on' hr.1, hr.2⟩
  | thermal e =>
    obtain ⟨topology, oneMeter, _ | run⟩ := e
    · exact .error _
    · simp only [exchangeForward, ThermalRun.exchange]
      cases run.relations.exchangeForward true outputs
          { inputs, meters := run.accumulators.map FlowMap.clear } with
      | error e => exact .error _
      | ok box =>
        exact .ok ⟨.thermal _, rfl, ThermalRun.addGas_same _ hst⟩

theorem exchangeBack_linked {g g' : Grid Double} (h : g.Linked g')
    (outputs inputs : Array (FlowMap Double)) :
    g.exchangeBack outputs inputs = g'.exchangeBack outputs inputs := by
  unfold exchangeBack
  rw [h.relations?_eq, h.kind_eq]

/-- **Linked grids contribute matching additions.** -/
theorem contributions_linked {g g' : Grid Double} (h : g.Linked g') (outputs : Array (FlowMap Double)) :
    List.Forall₂ Matching (g.contributions outputs) (g'.contributions outputs) := by
  cases h with
  | idle _ _ _ => exact .nil
  | @running topology on on' run run' h =>
    have hreached : (electrical ⟨topology, on, some run⟩).reached outputs
        = (electrical ⟨topology, on', some run'⟩).reached outputs := by
      simp only [reached, accumulators, forwardFlows, relations?, Option.map_some, carriesTemperature,
        h.relations, h.accumulators]
    simp only [contributions, hreached, ← h.meters]
    refine forall₂_flatMap fun m hm => ?_
    exact metered_matching (h.single m.1 (List.of_mem_zip hm).1) outputs m.2
  | thermal e => exact forall₂_matching_refl _

/-! ### A grid in use -/

structure Session where
  grid : Grid Double
  inputs : Array (FlowMap Double)
  meter : MeterState Double

namespace Session

/-- What a caller can do. -/
inductive Move where
  | prepare (ps : Participants)
  | finalize
  | load (inputs : Array (FlowMap Double)) (meter : MeterState Double)
  | forward (outputs : Array (FlowMap Double))
  | back (outputs : Array (FlowMap Double))

/-- One move, and how it fails if it does. A move that fails changes nothing. -/
def step (s : Session) : Move → Session × Option Failure
  | .prepare ps => ({ s with grid := s.grid.prepare ps }, none)
  | .finalize => ({ s with grid := s.grid.finalize }, none)
  | .load inputs meter => ({ s with inputs, meter }, none)
  | .forward outputs =>
    match s.grid.exchangeForward outputs s.inputs s.meter with
    | .error e => (s, some e)
    | .ok (grid, inputs, meter) => ({ grid, inputs, meter }, none)
  | .back outputs =>
    match s.grid.exchangeBack outputs s.inputs with
    | .error e => (s, some e)
    | .ok inputs => ({ s with inputs }, none)

def trace (s : Session) : List Move → List (Session × Option Failure)
  | [] => []
  | move :: moves => s.step move :: (s.step move).1.trace moves

/-- Sessions with linked grids, equal inputs and numerically equal meter states. -/
structure Linked (s s' : Session) : Prop where
  grid : s.grid.Linked s'.grid
  inputs : s.inputs = s'.inputs
  meter : s.meter.Same s'.meter

/-- **A move keeps sessions linked**, and fails alike. -/
theorem step_linked {s s' : Session} (h : s.Linked s') (move : Move) :
    (s.step move).1.Linked (s'.step move).1 ∧ (s.step move).2 = (s'.step move).2 := by
  cases move with
  | prepare ps => exact ⟨⟨prepare_linked h.grid ps, h.inputs, h.meter⟩, rfl⟩
  | finalize => exact ⟨⟨finalize_linked h.grid, h.inputs, h.meter⟩, rfl⟩
  | load inputs meter => exact ⟨⟨h.grid, rfl, MeterState.Same.refl meter⟩, rfl⟩
  | forward outputs =>
    have hexchange := exchangeForward_linked h.grid outputs s.inputs h.meter
    simp only [step, ← h.inputs]
    generalize s.grid.exchangeForward outputs s.inputs s.meter = r,
      s'.grid.exchangeForward outputs s.inputs s'.meter = r' at hexchange
    cases hexchange with
    | error e => exact ⟨h, rfl⟩
    | ok hr => exact ⟨⟨hr.1, hr.2.1, hr.2.2⟩, rfl⟩
  | back outputs =>
    simp only [step, ← h.inputs, ← exchangeBack_linked h.grid]
    cases s.grid.exchangeBack outputs s.inputs with
    | error e => exact ⟨h, rfl⟩
    | ok inputs => exact ⟨⟨h.grid, rfl, h.meter⟩, rfl⟩

/-- **The callers of linked grids see the same, whatever they do.** -/
theorem trace_linked (moves : List Move) {s s' : Session} (h : s.Linked s') :
    List.Forall₂ (fun r r' => r.1.Linked r'.1 ∧ r.2 = r'.2) (s.trace moves) (s'.trace moves) := by
  induction moves generalizing s s' with
  | nil => exact .nil
  | cons move moves ih =>
    have hstep := step_linked h move
    exact .cons hstep (ih hstep.1)

end Session

end Grid

end HomeEnergy

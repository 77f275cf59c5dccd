import HomeEnergy.Proofs.Exchange

/-!
# What grids deliver and measure

A forward exchange of a grid does three things: it fills the accumulators of its meters, it delivers to
the inputs of the passive parts and it adds to the meter state. This module separates the three and says
what each of them reads.

* `meterShares`, `Grid.contributions` — what a meter and a grid add to the meter state, as a list that the
  meter state has no part in; `MeterState.addAll` — the meter state after such a list.
* `Grid.exchangeForward_eq`, `Grid.exchangeBack_eq` — **both exchanges of a ready grid succeed**, and what
  they come to.
* `Grid.deliverForward_eq`, `Grid.deliverBack_eq` — the same for all grids of a problem.
* `Grid.rinse` — a grid with emptied accumulators; nothing that an exchange delivers or measures tells a
  grid from its rinsed self, and an exchange leaves the rinsed self alone.
-/

namespace HomeEnergy

/-! ### What a meter adds to the meter state -/

def MeterState.addAll {α : Type} [Scalar α] (s : MeterState α) (xs : List (MeterQuantity × α)) :
    MeterState α :=
  xs.foldl (fun s x => s.add x.1 x.2) s

section Shares

variable {α : Type} [Scalar α]

theorem MeterState.power_add (s : MeterState α) (q r : MeterQuantity) (x : α) :
    (s.add q x).power r = if q = r then s.power r + x else s.power r := by
  unfold add
  by_cases h : q = r
  · subst h
    rw [if_pos rfl, power_set_self]
  · rw [if_neg h, power_set_of_ne s h]

theorem MeterState.addAll_append (s : MeterState α) (xs ys : List (MeterQuantity × α)) :
    s.addAll (xs ++ ys) = (s.addAll xs).addAll ys :=
  List.foldl_append

/-- The feed-in and the auto-consumption of one source at an exporting meter. -/
def exportShares (net generation : α) (source? : Option α) (feedIn auto : MeterQuantity) :
    List (MeterQuantity × α) :=
  match source? with
  | none => []
  | some power =>
    let exported :=
      if generation < 0 then Scalar.roundHalfUp (power / generation * net) else 0
    [(feedIn, exported), (auto, power - exported)]

def someShare (q : MeterQuantity) (x? : Option α) : List (MeterQuantity × α) :=
  match x? with
  | some x => [(q, x)]
  | none => []

/-- What one meter adds: the flows that reached it, split by the powers of the sources behind it. -/
def meterShares (reached : FlowMap α) (pv chp battery : Option α) : List (MeterQuantity × α) :=
  let net := reached.power .activePower
  let discharge := battery.filter fun b => decide (b ≤ 0)
  let generation := pv.getD 0 + chp.getD 0 + discharge.getD 0
  (if reached.containsPower .reactivePower then
      [(.reactiveExternal, reached.power .reactivePower)]
    else [])
    ++ [(.activeExternal, net)]
    ++ someShare .batteryConsumption (battery.filter fun b => decide (0 < b))
    ++ if 0 ≤ net then
        someShare .pvAutoConsumption pv ++ someShare .chpAutoConsumption chp
          ++ someShare .batteryAutoConsumption discharge
      else
        exportShares net generation pv .pvFeedIn .pvAutoConsumption
          ++ exportShares net generation chp .chpFeedIn .chpAutoConsumption
          ++ exportShares net generation discharge .batteryFeedIn .batteryAutoConsumption

theorem addExportShare_eq (net generation : α) (source? : Option α) (feedIn auto : MeterQuantity)
    (s : MeterState α) :
    addExportShare net generation source? feedIn auto s
      = s.addAll (exportShares net generation source? feedIn auto) := by
  cases source? <;> rfl

theorem addSome_eq (q : MeterQuantity) (x? : Option α) (s : MeterState α) :
    addSome q x? s = s.addAll (someShare q x?) := by
  cases x? <;> rfl

/-- **A meter adds its shares to whatever the meter state is.** -/
theorem splitMeter_eq (reached : FlowMap α) (pv chp battery : Option α) (s : MeterState α) :
    splitMeter reached pv chp battery s = s.addAll (meterShares reached pv chp battery) := by
  have hreactive : (if reached.containsPower .reactivePower then
        s.add .reactiveExternal (reached.power .reactivePower) else s)
      = s.addAll (if reached.containsPower .reactivePower then
          [(.reactiveExternal, reached.power .reactivePower)] else []) := by
    split <;> rfl
  have hnet : ∀ (s : MeterState α) (x : α), s.add .activeExternal x
      = s.addAll [(.activeExternal, x)] := fun _ _ => rfl
  simp only [splitMeter, meterShares, hreactive, hnet, addSome_eq, addExportShare_eq,
    MeterState.addAll_append]
  split <;> simp only [MeterState.addAll_append]

def gasShares (reached : FlowMap α) : List (MeterQuantity × α) :=
  if 0 < reached.power .naturalGas then [(.gasExternal, reached.power .naturalGas)] else []

theorem ThermalRun.addGas_eq (reached : FlowMap α) (s : MeterState α) :
    addGas reached s = s.addAll (gasShares reached) := by
  simp only [addGas, gasShares]
  split <;> rfl

/-- The power of the sources of a list, which is there if the list has a source. -/
def sourcesPower (lookUp : Bool) (outputs : Array (FlowMap α)) : List Nat → Option α
  | [] => none
  | i :: rest =>
    let published := fun i => (outputs.getD i .unrestricted).power .activePower
    some (if lookUp then published i
      else (i :: rest).foldl (fun acc i => acc + published i) 0)

theorem publishedPower_eq {outputs : Array (FlowMap α)} {i : Nat} (h : i < outputs.size) :
    publishedPower outputs i = .ok ((outputs.getD i .unrestricted).power .activePower) := by
  simp [publishedPower, Array.getD, h]

/-- Looking sources up or summing them succeeds for sources in range. -/
theorem sourcesPower_eq {outputs : Array (FlowMap α)} {sources : List Nat}
    (h : ∀ i ∈ sources, i < outputs.size) (lookUp : Bool) :
    (if lookUp then firstPower outputs else totalPower outputs) sources
      = .ok (sourcesPower lookUp outputs sources) := by
  have hsum : ∀ (sources : List Nat) (acc : α), (∀ i ∈ sources, i < outputs.size) →
      sources.foldlM (fun acc i => (publishedPower outputs i).map fun x => acc + x) acc
        = .ok (sources.foldl
            (fun acc i => acc + (outputs.getD i .unrestricted).power .activePower) acc) := by
    intro sources
    induction sources with
    | nil => intro acc _; rfl
    | cons i sources ih =>
      intro acc h
      rw [List.foldlM_cons, publishedPower_eq (h i (by simp))]
      exact ih _ (fun i hi => h i (by simp [hi]))
  cases lookUp with
  | true =>
    cases sources with
    | nil => rfl
    | cons i sources =>
      simp only [if_true, firstPower, publishedPower_eq (h i (by simp))]
      rfl
  | false =>
    cases sources with
    | nil => rfl
    | cons i sources =>
      simp only [Bool.false_eq_true, if_false, totalPower, hsum (i :: sources) 0 h]
      rfl

end Shares

/-! ### A grid -/

namespace Grid

variable {α : Type} [Scalar α]

section Parts

omit [Scalar α]

def forwardFlows (g : Grid α) : List Flow :=
  match g.relations? with
  | some r => r.forwardFlows
  | none => []

def backFlows (g : Grid α) : List Flow :=
  match g.relations? with
  | some r => r.backFlows
  | none => []

def carriesTemperature : Grid α → Bool
  | electrical _ => false
  | thermal _ => true

/-- What the meters of the current run hold. -/
def accumulators : Grid α → Array (FlowMap α)
  | electrical g => match g.run? with
    | some run => run.accumulators
    | none => #[]
  | thermal g => match g.run? with
    | some run => run.accumulators
    | none => #[]

def withAccumulators (g : Grid α) (accumulators : Array (FlowMap α)) : Grid α :=
  match g with
  | electrical g => electrical { g with run? := g.run?.map fun run => { run with accumulators } }
  | thermal g => thermal { g with run? := g.run?.map fun run => { run with accumulators } }

/-- A grid in the middle of a run over `n` parts, with every index in range. -/
def Ready (n : Nat) : Grid α → Prop
  | electrical g => ∃ run, g.run? = some run ∧
      run.relations.Fits n run.accumulators.size ∧
      ∀ m ∈ run.meters, ∀ i ∈ m.pv ++ m.chp ++ m.battery, i < n
  | thermal g => ∃ run, g.run? = some run ∧ run.relations.Fits n run.accumulators.size

end Parts

/-- The grid with emptied accumulators. -/
def rinse (g : Grid α) : Grid α :=
  g.withAccumulators (g.accumulators.map FlowMap.clear)

def reached (g : Grid α) (outputs : Array (FlowMap α)) : Array (FlowMap α) :=
  (g.accumulators.map FlowMap.clear).mapIdx fun j m =>
    ReducedRelations.arrive g.carriesTemperature outputs g.forwardFlows (.meter j) m

/-- What a grid adds to the meter state in one forward exchange. -/
def contributions (g : Grid α) (outputs : Array (FlowMap α)) : List (MeterQuantity × α) :=
  match g with
  | electrical e =>
    match e.run? with
    | some run =>
      let power := sourcesPower run.singleMeter outputs
      (run.meters.zip (g.reached outputs).toList).flatMap fun m =>
        meterShares m.2 (power m.1.pv) (power m.1.chp) (power m.1.battery)
    | none => []
  | thermal _ =>
    let gas := ((g.reached outputs).getD 0 .unrestricted).power .naturalGas
    if 0 < gas then [(.gasExternal, gas)] else []

def receive (outputs : Array (FlowMap α)) (g : Grid α) (i : Nat) (m : FlowMap α) : FlowMap α :=
  ReducedRelations.arrive g.carriesTemperature outputs g.forwardFlows (.part i) m

def receiveBack (outputs : Array (FlowMap α)) (g : Grid α) (i : Nat) (m : FlowMap α) : FlowMap α :=
  ReducedRelations.arrive g.carriesTemperature outputs g.backFlows (.part i) m

/-- Adding the meters of an electrical run one after the other adds all their shares. -/
theorem addMeters_eq {run : ElectricalRun α} {outputs : Array (FlowMap α)}
    (h : ∀ m ∈ run.meters, ∀ i ∈ m.pv ++ m.chp ++ m.battery, i < outputs.size)
    (reached : Array (FlowMap α)) (s : MeterState α) :
    run.addMeters outputs reached s
      = .ok (s.addAll ((run.meters.zip reached.toList).flatMap fun m =>
          meterShares m.2 (sourcesPower run.singleMeter outputs m.1.pv)
            (sourcesPower run.singleMeter outputs m.1.chp)
            (sourcesPower run.singleMeter outputs m.1.battery))) := by
  have hmeters : ∀ m ∈ run.meters.zip reached.toList,
      ∀ i ∈ m.1.pv ++ m.1.chp ++ m.1.battery, i < outputs.size := by
    intro m hm
    exact h m.1 (List.of_mem_zip hm).1
  unfold ElectricalRun.addMeters
  generalize run.meters.zip reached.toList = metered at hmeters ⊢
  induction metered generalizing s with
  | nil => rfl
  | cons m ms ih =>
    have hm := hmeters m (by simp)
    have hadd : addMeter (if run.singleMeter then firstPower outputs else totalPower outputs) m.1 m.2 s
        = .ok (s.addAll (meterShares m.2 (sourcesPower run.singleMeter outputs m.1.pv)
            (sourcesPower run.singleMeter outputs m.1.chp)
            (sourcesPower run.singleMeter outputs m.1.battery))) := by
      unfold addMeter
      rw [sourcesPower_eq (fun i hi => hm i (by simp [hi])),
        sourcesPower_eq (fun i hi => hm i (by simp [hi])),
        sourcesPower_eq (fun i hi => hm i (by simp [hi])), ← splitMeter_eq]
      rfl
    rw [List.foldlM_cons, hadd, List.flatMap_cons, MeterState.addAll_append]
    exact ih _ (fun m hm => hmeters m (by simp [hm]))

/-- **A forward exchange of a ready grid succeeds.** -/
theorem exchangeForward_eq {g : Grid α} {n : Nat} (hg : g.Ready n)
    (outputs inputs : Array (FlowMap α)) (houtputs : outputs.size = n) (hinputs : inputs.size = n)
    (s : MeterState α) :
    g.exchangeForward outputs inputs s
      = .ok (g.withAccumulators (g.reached outputs),
          inputs.mapIdx fun i m => receive outputs g i m, s.addAll (g.contributions outputs)) := by
  cases g with
  | electrical e =>
    obtain ⟨run, hrun, hfits, hsources⟩ := hg
    have hwalk := ReducedRelations.exchangeForward_eq hfits false outputs
      { inputs, meters := run.accumulators.map FlowMap.clear } houtputs
      ⟨hinputs, by simp⟩
    have hadd := addMeters_eq (houtputs ▸ hsources)
      ((run.accumulators.map FlowMap.clear).mapIdx fun j m =>
        ReducedRelations.arrive false outputs run.relations.forwardFlows (.meter j) m) s
    simp only [exchangeForward, hrun, ElectricalRun.exchange, hwalk, bind, Except.bind,
      ReducedRelations.Inbox.after, hadd, pure, Except.pure]
    simp only [withAccumulators, reached, contributions, receive, accumulators, forwardFlows,
      relations?, carriesTemperature, hrun, Option.map_some]
  | thermal e =>
    obtain ⟨run, hrun, hfits⟩ := hg
    have hwalk := ReducedRelations.exchangeForward_eq hfits true outputs
      { inputs, meters := run.accumulators.map FlowMap.clear } houtputs
      ⟨hinputs, by simp⟩
    simp only [exchangeForward, hrun, ThermalRun.exchange, hwalk, bind, Except.bind,
      ReducedRelations.Inbox.after, pure, Except.pure, ThermalRun.addGas_eq, gasShares]
    simp only [withAccumulators, reached, contributions, receive, accumulators, forwardFlows,
      relations?, carriesTemperature, hrun, Option.map_some]

/-- **An exchange back of a ready grid succeeds.** -/
theorem exchangeBack_eq {g : Grid α} {n : Nat} (hg : g.Ready n)
    (outputs inputs : Array (FlowMap α)) (houtputs : outputs.size = n)
    (hinputs : inputs.size = n) :
    g.exchangeBack outputs inputs = .ok (inputs.mapIdx fun i m => receiveBack outputs g i m) := by
  cases g with
  | electrical e =>
    obtain ⟨run, hrun, hfits, -⟩ := hg
    have hwalk := ReducedRelations.exchangeBack_eq hfits false outputs inputs houtputs hinputs
    simp only [exchangeBack, relations?, hrun, Option.map_some, receiveBack, backFlows]
    show (run.relations.exchangeBack false outputs inputs).mapError _ = _
    rw [hwalk]
    rfl
  | thermal e =>
    obtain ⟨run, hrun, hfits⟩ := hg
    have hwalk := ReducedRelations.exchangeBack_eq hfits true outputs inputs houtputs hinputs
    simp only [exchangeBack, relations?, hrun, Option.map_some, receiveBack, backFlows]
    show (run.relations.exchangeBack true outputs inputs).mapError _ = _
    rw [hwalk]
    rfl

/-! ### What an accumulator leaves behind -/

omit [Scalar α] in
@[simp] theorem forwardFlows_withAccumulators (g : Grid α) (acc : Array (FlowMap α)) :
    (g.withAccumulators acc).forwardFlows = g.forwardFlows := by
  rcases g with e | e <;> cases h : e.run? <;> simp [withAccumulators, forwardFlows, relations?, h]

omit [Scalar α] in
@[simp] theorem backFlows_withAccumulators (g : Grid α) (acc : Array (FlowMap α)) :
    (g.withAccumulators acc).backFlows = g.backFlows := by
  rcases g with e | e <;> cases h : e.run? <;> simp [withAccumulators, backFlows, relations?, h]

omit [Scalar α] in
@[simp] theorem carriesTemperature_withAccumulators (g : Grid α) (acc : Array (FlowMap α)) :
    (g.withAccumulators acc).carriesTemperature = g.carriesTemperature := by
  cases g <;> rfl

@[simp] theorem forwardFlows_rinse (g : Grid α) : g.rinse.forwardFlows = g.forwardFlows :=
  forwardFlows_withAccumulators ..

@[simp] theorem backFlows_rinse (g : Grid α) : g.rinse.backFlows = g.backFlows :=
  backFlows_withAccumulators ..

theorem rinse_withAccumulators {g : Grid α} {acc : Array (FlowMap α)}
    (h : acc.map FlowMap.clear = g.accumulators.map FlowMap.clear) :
    (g.withAccumulators acc).rinse = g.rinse := by
  rcases g with e | e <;> cases hrun : e.run? <;>
    simp_all [rinse, withAccumulators, accumulators]

omit [Scalar α] in
theorem ready_withAccumulators {n : Nat} {g : Grid α} {acc : Array (FlowMap α)}
    (h : acc.size = g.accumulators.size) : (g.withAccumulators acc).Ready n ↔ g.Ready n := by
  rcases g with e | e <;> cases hrun : e.run? <;>
    simp_all [withAccumulators, accumulators, Ready]

@[simp] theorem ready_rinse {n : Nat} {g : Grid α} : g.rinse.Ready n ↔ g.Ready n :=
  ready_withAccumulators (by simp)

@[simp] theorem reached_rinse (g : Grid α) (outputs : Array (FlowMap α)) :
    g.rinse.reached outputs = g.reached outputs := by
  have hacc : g.rinse.accumulators.map FlowMap.clear = g.accumulators.map FlowMap.clear := by
    rcases g with e | e <;> cases hrun : e.run? <;>
      simp [rinse, withAccumulators, accumulators, hrun, Function.comp_def]
  simp only [reached, hacc]
  simp only [rinse, forwardFlows_withAccumulators, carriesTemperature_withAccumulators]

@[simp] theorem contributions_rinse (g : Grid α) (outputs : Array (FlowMap α)) :
    g.rinse.contributions outputs = g.contributions outputs := by
  have hreached := reached_rinse g outputs
  rcases g with e | e <;> cases hrun : e.run? <;>
    simp_all [rinse, withAccumulators, contributions]

@[simp] theorem receive_rinse (outputs : Array (FlowMap α)) (g : Grid α) :
    receive outputs g.rinse = receive outputs g := by
  funext i m
  simp [receive, rinse]

@[simp] theorem receiveBack_rinse (outputs : Array (FlowMap α)) (g : Grid α) :
    receiveBack outputs g.rinse = receiveBack outputs g := by
  funext i m
  simp [receiveBack, rinse]

theorem map_clear_reached (g : Grid α) (outputs : Array (FlowMap α)) :
    (g.reached outputs).map FlowMap.clear = g.accumulators.map FlowMap.clear := by
  apply Array.ext
  · simp [reached]
  · intro j h₁ h₂
    simp [reached]

@[simp] theorem rinse_afterForward (g : Grid α) (outputs : Array (FlowMap α)) :
    (g.withAccumulators (g.reached outputs)).rinse = g.rinse :=
  rinse_withAccumulators (map_clear_reached g outputs)

/-! ### All grids of a problem -/

def receiveAll (outputs : Array (FlowMap α)) (grids : List (Grid α)) (i : Nat) (m : FlowMap α) :
    FlowMap α :=
  grids.foldl (fun m g => receive outputs g i m) m

def receiveAllBack (outputs : Array (FlowMap α)) (grids : List (Grid α)) (i : Nat) (m : FlowMap α) :
    FlowMap α :=
  grids.foldl (fun m g => receiveBack outputs g i m) m

def afterForward (outputs : Array (FlowMap α)) (grids : List (Grid α)) : List (Grid α) :=
  grids.map fun g => g.withAccumulators (g.reached outputs)

def allContributions (outputs : Array (FlowMap α)) (grids : List (Grid α)) :
    List (MeterQuantity × α) :=
  grids.flatMap fun g => g.contributions outputs

/-- **The forward exchanges of ready grids succeed.** -/
theorem deliverForward_eq {n : Nat} (outputs : Array (FlowMap α)) (houtputs : outputs.size = n) :
    ∀ (grids : List (Grid α)) (inputs : Array (FlowMap α)) (s : MeterState α),
      (∀ g ∈ grids, g.Ready n) → inputs.size = n →
      deliverForward outputs grids inputs s
        = .ok (afterForward outputs grids, inputs.mapIdx fun i m => receiveAll outputs grids i m,
            s.addAll (allContributions outputs grids)) := by
  intro grids
  induction grids with
  | nil =>
    intro inputs s _ _
    simp only [deliverForward, afterForward, receiveAll, allContributions, List.foldl_nil,
      ReducedRelations.mapIdx_same, List.map_nil, List.flatMap_nil]
    rfl
  | cons g grids ih =>
    intro inputs s hready hinputs
    have hfirst := exchangeForward_eq (hready g (by simp)) outputs inputs houtputs hinputs s
    have hrest := ih (inputs.mapIdx fun i m => receive outputs g i m)
      (s.addAll (g.contributions outputs)) (fun g hg => hready g (by simp [hg]))
      (by simpa using hinputs)
    simp only [deliverForward, hfirst, bind, Except.bind, hrest, pure, Except.pure, afterForward,
      allContributions, List.map_cons, List.flatMap_cons, MeterState.addAll_append,
      Array.mapIdx_mapIdx]
    rfl

/-- **The exchanges back of ready grids succeed.** -/
theorem deliverBack_eq {n : Nat} (outputs : Array (FlowMap α)) (houtputs : outputs.size = n) :
    ∀ (grids : List (Grid α)) (inputs : Array (FlowMap α)),
      (∀ g ∈ grids, g.Ready n) → inputs.size = n →
      deliverBack outputs grids inputs
        = .ok (inputs.mapIdx fun i m => receiveAllBack outputs grids i m) := by
  intro grids
  induction grids with
  | nil =>
    intro inputs _ _
    simp only [receiveAllBack, List.foldl_nil, ReducedRelations.mapIdx_same]
    rfl
  | cons g grids ih =>
    intro inputs hready hinputs
    have hfirst := exchangeBack_eq (hready g (by simp)) outputs inputs houtputs hinputs
    have hrest := ih (inputs.mapIdx fun i m => receiveBack outputs g i m)
      (fun g hg => hready g (by simp [hg])) (by simpa using hinputs)
    unfold deliverBack at hrest ⊢
    rw [List.foldlM_cons, hfirst]
    simp only [bind, Except.bind, hrest, Array.mapIdx_mapIdx]
    rfl

theorem receiveAll_map_rinse (outputs : Array (FlowMap α)) (grids : List (Grid α)) :
    receiveAll outputs (grids.map rinse) = receiveAll outputs grids := by
  funext i m
  simp only [receiveAll, List.foldl_map, receive_rinse]

theorem receiveAllBack_map_rinse (outputs : Array (FlowMap α)) (grids : List (Grid α)) :
    receiveAllBack outputs (grids.map rinse) = receiveAllBack outputs grids := by
  funext i m
  simp only [receiveAllBack, List.foldl_map, receiveBack_rinse]

theorem allContributions_map_rinse (outputs : Array (FlowMap α)) (grids : List (Grid α)) :
    allContributions outputs (grids.map rinse) = allContributions outputs grids := by
  simp only [allContributions, List.flatMap_map, contributions_rinse]

theorem map_rinse_afterForward (outputs : Array (FlowMap α)) (grids : List (Grid α)) :
    (afterForward outputs grids).map rinse = grids.map rinse := by
  simp only [afterForward, List.map_map, Function.comp_def, rinse_afterForward]

/-! ### Inputs keep what they allow -/

@[simp] theorem clear_receiveAll (outputs : Array (FlowMap α)) (grids : List (Grid α)) (i : Nat)
    (m : FlowMap α) : (receiveAll outputs grids i m).clear = m.clear := by
  induction grids generalizing m with
  | nil => rfl
  | cons g grids ih =>
    exact (ih (receive outputs g i m)).trans (ReducedRelations.clear_arrive ..)

@[simp] theorem clear_receiveAllBack (outputs : Array (FlowMap α)) (grids : List (Grid α)) (i : Nat)
    (m : FlowMap α) : (receiveAllBack outputs grids i m).clear = m.clear := by
  induction grids generalizing m with
  | nil => rfl
  | cons g grids ih =>
    exact (ih (receiveBack outputs g i m)).trans (ReducedRelations.clear_arrive ..)

/-- Nothing arrives at a part that no flow of a grid ends at. -/
theorem receiveAll_of_forall_ne {outputs : Array (FlowMap α)} {grids : List (Grid α)} {i : Nat}
    (h : ∀ g ∈ grids, ∀ f ∈ g.forwardFlows, f.target ≠ .part i) (m : FlowMap α) :
    receiveAll outputs grids i m = m := by
  induction grids generalizing m with
  | nil => rfl
  | cons g grids ih =>
    have hg : receive outputs g i m = m :=
      ReducedRelations.arrive_of_forall_ne (h g (by simp)) m
    show receiveAll outputs grids i (receive outputs g i m) = m
    rw [hg]
    exact ih (fun g hg => h g (by simp [hg])) m

theorem receiveAllBack_of_forall_ne {outputs : Array (FlowMap α)} {grids : List (Grid α)} {i : Nat}
    (h : ∀ g ∈ grids, ∀ f ∈ g.backFlows, f.target ≠ .part i) (m : FlowMap α) :
    receiveAllBack outputs grids i m = m := by
  induction grids generalizing m with
  | nil => rfl
  | cons g grids ih =>
    have hg : receiveBack outputs g i m = m :=
      ReducedRelations.arrive_of_forall_ne (h g (by simp)) m
    show receiveAllBack outputs grids i (receiveBack outputs g i m) = m
    rw [hg]
    exact ih (fun g hg => h g (by simp [hg])) m

end Grid

end HomeEnergy

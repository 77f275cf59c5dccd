import HomeEnergy.Proofs.Acceptance
import HomeEnergy.Proofs.Metering
import HomeEnergy.Proofs.Outcomes
import HomeEnergy.Scalar.Rational
import Mathlib.Data.List.Forall2

/-!
# The life of a grid

A grid is prepared, used, finalized and copied as its users please. What it does then depends on what it was prepared
for last, and on nothing else that happened to it: the accumulators are all that an exchange leaves behind, and the
next one empties them before it reads them.

* `ReducedRelations.exchangeForward_keeps`, `ReducedRelations.exchangeBack_keeps` — **an exchange changes the inputs
  that its relations lead to, and no others.**
* `Grid.exchangeForward_eq_bind` — what a forward exchange does in a grid of either kind; `Grid.exists_amounts` — **it
  delivers and adds what the meter state has no part in.**
* `Grid.exchangeForward_rinse`, `Grid.rinse_of_exchangeForward` — accumulators are neither read nor lost.
* `Grid.Bench` — grids and their copies in use, with the inputs and the meter state of their users;
  `Grid.Bench.step_stands` — one move keeps every grid in line with what was done to it.
* `grid_lifecycle` — what this makes of a grid and all its copies.
-/

namespace HomeEnergy

variable {α : Type} [Scalar α]

/-! ### What an exchange leaves alone -/

namespace ReducedRelations

def Feeds (r : ReducedRelations) (i : Nat) : Prop :=
  ∃ group ∈ r.forward, ∃ flow ∈ group.flows, flow.1 = .part i

def FeedsBack (r : ReducedRelations) (i : Nat) : Prop :=
  ∃ group ∈ r.back, group.flows ≠ [] ∧ group.active = i

section Tables

omit [Scalar α]

variable {table table' : Array (FlowMap α)} {i : Nat} {f : FlowMap α → FlowMap α}

theorem modify_of_updateAt (h : updateAt table i f = .ok table') : table' = table.modify i f := by
  unfold updateAt at h
  split at h
  · exact (Except.ok.inj h).symm
  · exact nomatch h

theorem getElem?_of_updateAt (h : updateAt table i f = .ok table') {j : Nat} (hj : i ≠ j) :
    table'[j]? = table[j]? := by
  rw [modify_of_updateAt h, Array.getElem?_modify, if_neg hj]

end Tables

theorem map_clear_of_updateAt {table table' : Array (FlowMap α)} {i : Nat} {f : FlowMap α → FlowMap α}
    (h : updateAt table i f = .ok table') (hf : ∀ m, (f m).clear = m.clear) :
    table'.map FlowMap.clear = table.map FlowMap.clear := by
  rw [modify_of_updateAt h]
  apply Array.ext
  · simp
  · intro j h₁ h₂
    simp only [Array.getElem_map, Array.getElem_modify]
    split
    · exact hf _
    · rfl

/-- An inbox differs from another one in the inputs that the relations lead to and in what the accumulators hold, at
most. -/
structure Keeps (r : ReducedRelations) (box box' : Inbox α) : Prop where
  inputs : ∀ i, ¬r.Feeds i → box'.inputs[i]? = box.inputs[i]?
  meters : box'.meters.map FlowMap.clear = box.meters.map FlowMap.clear

theorem Keeps.refl (r : ReducedRelations) (box : Inbox α) : r.Keeps box box :=
  ⟨fun _ _ => rfl, rfl⟩

theorem Keeps.trans {r : ReducedRelations} {box₁ box₂ box₃ : Inbox α} (h : r.Keeps box₁ box₂)
    (h' : r.Keeps box₂ box₃) : r.Keeps box₁ box₃ :=
  ⟨fun i hi => (h'.inputs i hi).trans (h.inputs i hi), h'.meters.trans h.meters⟩

theorem deliverTo_keeps {r : ReducedRelations} {wt : Bool} {out : FlowMap α} {box box' : Inbox α}
    {flow : Target × Commodity} (hflow : ∀ i, flow.1 = .part i → r.Feeds i)
    (h : deliverTo wt out box flow = .ok box') : r.Keeps box box' := by
  obtain ⟨target, c⟩ := flow
  unfold deliverTo at h
  split at h
  · cases target with
    | part j =>
      obtain ⟨inputs, hinputs, h⟩ := exists_of_bind_eq_ok h
      obtain rfl := Except.ok.inj h
      exact ⟨fun i hi => getElem?_of_updateAt hinputs fun hji => hi (hflow i (congrArg Target.part hji)), rfl⟩
    | meter j =>
      obtain ⟨meters, hmeters, h⟩ := exists_of_bind_eq_ok h
      obtain rfl := Except.ok.inj h
      exact ⟨fun _ _ => rfl, map_clear_of_updateAt hmeters (clear_deliver wt out c)⟩
  · obtain rfl := Except.ok.inj h
    exact .refl r box

/-- **A forward exchange changes the inputs that its relations lead to, and no others.** -/
theorem exchangeForward_keeps {r : ReducedRelations} {wt : Bool} {outputs : Array (FlowMap α)}
    {box box' : Inbox α} (h : r.exchangeForward wt outputs box = .ok box') : r.Keeps box box' := by
  refine foldlM_keeps (r.Keeps box) ?_ (.refl r box) h
  intro group hgroup s s' hs hstep
  split at hstep
  · exact nomatch hstep
  · split at hstep
    · obtain rfl := Except.ok.inj hstep
      exact hs
    · refine foldlM_keeps (r.Keeps box) ?_ hs hstep
      intro flow hflow t t' ht hdeliver
      exact ht.trans (deliverTo_keeps (fun i hi => ⟨group, hgroup, flow, hflow, hi⟩) hdeliver)

/-- **An exchange back changes the inputs that its relations lead to, and no others.** -/
theorem exchangeBack_keeps {r : ReducedRelations} {wt : Bool} {outputs inputs inputs' : Array (FlowMap α)}
    (h : r.exchangeBack wt outputs inputs = .ok inputs') {i : Nat} (hi : ¬r.FeedsBack i) :
    inputs'[i]? = inputs[i]? := by
  refine foldlM_keeps (fun t => t[i]? = inputs[i]?) ?_ rfl h
  intro group hgroup s s' hs hstep
  refine foldlM_keeps (fun t => t[i]? = inputs[i]?) ?_ hs hstep
  intro flow hflow t t' ht hdeliver
  have hne : group.active ≠ i := fun hactive =>
    hi ⟨group, hgroup, List.ne_nil_of_mem hflow, hactive⟩
  split at hdeliver
  · exact nomatch hdeliver
  · split at hdeliver
    · exact (getElem?_of_updateAt hdeliver hne).trans ht
    · obtain rfl := Except.ok.inj hdeliver
      exact ht

end ReducedRelations

/-! ### What an exchange adds -/

/-- The shares of one meter, if the powers of its sources are there. -/
def sharesOf (sourcePower : List Nat → Except Defect (Option α)) (m : MeterSources × FlowMap α) :
    Except Defect (List (MeterQuantity × α)) := do
  let pv ← sourcePower m.1.pv
  let chp ← sourcePower m.1.chp
  let battery ← sourcePower m.1.battery
  return meterShares m.2 pv chp battery

/-- A meter adds its shares, or fails whatever the meter state is. -/
theorem addMeter_eq_map (sourcePower : List Nat → Except Defect (Option α))
    (m : MeterSources × FlowMap α) (s : MeterState α) :
    addMeter sourcePower m.1 m.2 s = (sharesOf sourcePower m).map s.addAll := by
  unfold addMeter sharesOf
  cases sourcePower m.1.pv with
  | error e => rfl
  | ok pv =>
    cases sourcePower m.1.chp with
    | error e => rfl
    | ok chp =>
      cases sourcePower m.1.battery with
      | error e => rfl
      | ok battery => exact congrArg Except.ok (splitMeter_eq m.2 pv chp battery s)

/-- The shares of all meters. -/
def ElectricalRun.amounts (run : ElectricalRun α) (outputs reached : Array (FlowMap α)) :
    Except Defect (List (MeterQuantity × α)) :=
  let sourcePower := if run.singleMeter then firstPower outputs else totalPower outputs
  (run.meters.zip reached.toList).foldlM
    (fun xs m => (sharesOf sourcePower m).map fun ys => xs ++ ys) []

/-- The meters add their shares, or fail whatever the meter state is. -/
theorem ElectricalRun.addMeters_eq_map (run : ElectricalRun α) (outputs reached : Array (FlowMap α))
    (s : MeterState α) :
    run.addMeters outputs reached s = (run.amounts outputs reached).map s.addAll := by
  unfold addMeters amounts
  have hagree := Agree.foldlM (R := fun (s' : MeterState α) xs => s' = s.addAll xs)
    (f := fun s' m => addMeter (if run.singleMeter then firstPower outputs else totalPower outputs)
      m.1 m.2 s')
    (g := fun xs m => (sharesOf (if run.singleMeter then firstPower outputs else totalPower outputs)
      m).map fun ys => xs ++ ys)
    (run.meters.zip reached.toList) ?_ s [] rfl
  · rcases hagree.exists_of with ⟨e, hx, hy⟩ | ⟨s', xs, hx, hy, rfl⟩
    · simp only [hx, hy]
      rfl
    · simp only [hx, hy]
      rfl
  · rintro m - s' xs rfl
    show Agree _ (addMeter _ m.1 m.2 _) _
    rw [addMeter_eq_map]
    cases sharesOf (if run.singleMeter then firstPower outputs else totalPower outputs) m with
    | error e => exact .error e
    | ok ys => exact .ok (MeterState.addAll_append s xs ys).symm

namespace Grid

/-- What the meters of a grid add for what reached them. -/
def amounts (g : Grid α) (outputs reached : Array (FlowMap α)) : Except Defect (List (MeterQuantity × α)) :=
  match g with
  | electrical e =>
    match e.run? with
    | some run => run.amounts outputs reached
    | none => .ok []
  | thermal _ => .ok (gasShares (reached.getD 0 .unrestricted))

/-- **What a forward exchange does**: it delivers from emptied accumulators on, keeps what they hold afterwards, and
adds what the meters make of it. -/
theorem exchangeForward_eq_bind {g : Grid α} {r : ReducedRelations} (h : g.relations? = some r)
    (outputs inputs : Array (FlowMap α)) (meter : MeterState α) :
    g.exchangeForward outputs inputs meter =
      (r.exchangeForward g.carriesTemperature outputs
          { inputs, meters := g.accumulators.map FlowMap.clear } >>= fun box =>
        (g.amounts outputs box.meters).map fun xs =>
          (g.withAccumulators box.meters, box.inputs, meter.addAll xs)).mapError .defect := by
  cases g with
  | electrical e =>
    obtain ⟨run, hrun, rfl⟩ := Option.map_eq_some_iff.mp h
    simp only [exchangeForward, hrun, ElectricalRun.exchange, ElectricalRun.addMeters_eq_map,
      carriesTemperature, accumulators, amounts, withAccumulators, Option.map_some]
    cases run.relations.exchangeForward false outputs
        { inputs, meters := run.accumulators.map FlowMap.clear } with
    | error e => rfl
    | ok box =>
      simp only [bind, Except.bind]
      cases run.amounts outputs box.meters <;> rfl
  | thermal e =>
    obtain ⟨run, hrun, rfl⟩ := Option.map_eq_some_iff.mp h
    simp only [exchangeForward, hrun, ThermalRun.exchange, ThermalRun.addGas_eq, carriesTemperature,
      accumulators, amounts, withAccumulators, Option.map_some]
    cases run.relations.exchangeForward true outputs
        { inputs, meters := run.accumulators.map FlowMap.clear } <;> rfl

/-- A grid without a run exchanges nothing. -/
theorem exchange_of_idle {g : Grid α} (h : g.relations? = none) (outputs inputs : Array (FlowMap α))
    (meter : MeterState α) :
    g.exchangeForward outputs inputs meter = .error (.gridNotInitialized g.kind) ∧
      g.exchangeBack outputs inputs = .error (.gridNotInitialized g.kind) := by
  refine ⟨?_, by simp only [exchangeBack, h]⟩
  cases g with
  | electrical e =>
    have hrun : e.run? = none := Option.map_eq_none_iff.mp h
    simp only [exchangeForward, hrun, kind]
  | thermal e =>
    have hrun : e.run? = none := Option.map_eq_none_iff.mp h
    simp only [exchangeForward, hrun, kind]

/-- **A forward exchange delivers and adds what the meter state has no part in.** -/
theorem exists_amounts (g : Grid α) (outputs inputs : Array (FlowMap α)) :
    ∃ result : Except Failure (Array (FlowMap α) × List (MeterQuantity × α)), ∀ meter,
      (g.exchangeForward outputs inputs meter).map Prod.snd
        = result.map fun x => (x.1, meter.addAll x.2) := by
  cases hr : g.relations? with
  | none =>
    refine ⟨.error (.gridNotInitialized g.kind), fun meter => ?_⟩
    rw [(exchange_of_idle hr outputs inputs meter).1]
    rfl
  | some r =>
    refine ⟨(r.exchangeForward g.carriesTemperature outputs
        { inputs, meters := g.accumulators.map FlowMap.clear } >>= fun box =>
      (g.amounts outputs box.meters).map fun xs => (box.inputs, xs)).mapError .defect, fun meter => ?_⟩
    rw [exchangeForward_eq_bind hr]
    cases r.exchangeForward g.carriesTemperature outputs
        { inputs, meters := g.accumulators.map FlowMap.clear } with
    | error e => rfl
    | ok box =>
      simp only [bind, Except.bind]
      cases g.amounts outputs box.meters <;> rfl

/-- A forward exchange that succeeds delivers along the relations of the run, and keeps the grid but for what its
accumulators hold. -/
theorem exists_of_exchangeForward {g g' : Grid α} {outputs inputs inputs' : Array (FlowMap α)}
    {meter meter' : MeterState α} (h : g.exchangeForward outputs inputs meter = .ok (g', inputs', meter')) :
    ∃ r box, g.relations? = some r ∧
      r.exchangeForward g.carriesTemperature outputs
        { inputs, meters := g.accumulators.map FlowMap.clear } = .ok box ∧
      g' = g.withAccumulators box.meters ∧ inputs' = box.inputs := by
  cases hr : g.relations? with
  | none =>
    rw [(exchange_of_idle hr outputs inputs meter).1] at h
    exact absurd h (by simp)
  | some r =>
    rw [exchangeForward_eq_bind hr] at h
    cases hbox : r.exchangeForward g.carriesTemperature outputs
        { inputs, meters := g.accumulators.map FlowMap.clear } with
    | error e =>
      rw [hbox] at h
      exact absurd h (by simp [bind, Except.bind, Except.mapError])
    | ok box =>
      rw [hbox] at h
      cases hamounts : g.amounts outputs box.meters with
      | error e =>
        simp only [bind, Except.bind, hamounts] at h
        exact absurd h (by simp [Except.map, Except.mapError])
      | ok xs =>
        simp only [bind, Except.bind, hamounts] at h
        have hpair := (Prod.mk.inj (Except.ok.inj h))
        exact ⟨r, box, rfl, hbox, hpair.1.symm, (Prod.mk.inj hpair.2).1.symm⟩

/-! ### What the accumulators leave behind -/

omit [Scalar α] in
@[simp] theorem relations?_withAccumulators (g : Grid α) (acc : Array (FlowMap α)) :
    (g.withAccumulators acc).relations? = g.relations? := by
  rcases g with e | e <;> cases h : e.run? <;> simp [withAccumulators, relations?, h]

@[simp] theorem relations?_rinse (g : Grid α) : g.rinse.relations? = g.relations? :=
  relations?_withAccumulators ..

@[simp] theorem kind_rinse (g : Grid α) : g.rinse.kind = g.kind := by
  cases g <;> rfl

/-- **An exchange does not read what the accumulators hold.** -/
theorem exchangeForward_rinse (g : Grid α) (outputs inputs : Array (FlowMap α)) (meter : MeterState α) :
    g.rinse.exchangeForward outputs inputs meter = g.exchangeForward outputs inputs meter := by
  rcases g with e | e <;> cases hrun : e.run?
  · simp [rinse, withAccumulators, exchangeForward, hrun]
  · simp [rinse, withAccumulators, accumulators, exchangeForward, hrun, ElectricalRun.exchange,
      ElectricalRun.addMeters, Function.comp_def]
  · simp [rinse, withAccumulators, exchangeForward, hrun]
  · simp [rinse, withAccumulators, accumulators, exchangeForward, hrun, ThermalRun.exchange,
      Function.comp_def]

theorem exchangeBack_rinse (g : Grid α) (outputs inputs : Array (FlowMap α)) :
    g.rinse.exchangeBack outputs inputs = g.exchangeBack outputs inputs := by
  unfold exchangeBack
  rw [relations?_rinse, kind_rinse]

theorem prepare_rinse (g : Grid α) (ps : Participants) : g.rinse.prepare ps = g.prepare ps := by
  cases g <;> rfl

theorem finalize_rinse (g : Grid α) : g.rinse.finalize = g.finalize := by
  cases g <;> rfl

theorem prepare_prepare (g : Grid α) (ps ps' : Participants) : (g.prepare ps).prepare ps' = g.prepare ps' := by
  cases g <;> rfl

theorem finalize_prepare (g : Grid α) (ps : Participants) : (g.prepare ps).finalize = g.finalize := by
  cases g <;> rfl

omit [Scalar α] in
theorem finalize_finalize (g : Grid α) : g.finalize.finalize = g.finalize := by
  cases g <;> rfl

theorem prepare_finalize (g : Grid α) (ps : Participants) : g.finalize.prepare ps = g.prepare ps := by
  cases g <;> rfl

/-- **A forward exchange leaves the rinsed grid alone.** -/
theorem rinse_of_exchangeForward {g g' : Grid α} {outputs inputs inputs' : Array (FlowMap α)}
    {meter meter' : MeterState α} (h : g.exchangeForward outputs inputs meter = .ok (g', inputs', meter')) :
    g'.rinse = g.rinse := by
  obtain ⟨r, box, -, hbox, rfl, -⟩ := exists_of_exchangeForward h
  refine rinse_withAccumulators ?_
  rw [(ReducedRelations.exchangeForward_keeps hbox).meters]
  simp [Function.comp_def]

/-! ### Prepared, finalized, copied -/

inductive Setup where
  | prepare (ps : Participants)
  | finalize
deriving DecidableEq

/-- The participants of the run that a series of setups leaves, if the last one of them began a run. -/
def running? (life : List Setup) : Option Participants :=
  match life.getLast? with
  | some (.prepare ps) => some ps
  | _ => none

/-- The grid of a topology after a series of setups, as if only the last of them had been made. -/
def after (g₀ : Grid α) (life : List Setup) : Grid α :=
  match running? life with
  | some ps => g₀.prepare ps
  | none => g₀.finalize

/-- A grid is what its setups make of it, but for what its accumulators hold. -/
def Stands (g₀ : Grid α) (life : List Setup) (g : Grid α) : Prop :=
  g.rinse = (g₀.after life).rinse

section Setups

variable {g₀ g : Grid α} {life : List Setup}

theorem after_prepare (ps : Participants) : g₀.after (life ++ [.prepare ps]) = g₀.prepare ps := by
  simp [after, running?]

theorem after_finalize : g₀.after (life ++ [.finalize]) = g₀.finalize := by
  simp [after, running?]

theorem prepare_after (ps : Participants) : (g₀.after life).prepare ps = g₀.prepare ps := by
  unfold after
  split
  · exact prepare_prepare ..
  · exact prepare_finalize ..

theorem finalize_after : (g₀.after life).finalize = g₀.finalize := by
  unfold after
  split
  · exact finalize_prepare ..
  · exact finalize_finalize ..

theorem Stands.prepare (h : Stands g₀ life g) (ps : Participants) :
    Stands g₀ (life ++ [.prepare ps]) (g.prepare ps) := by
  have hprepare : g.prepare ps = g₀.prepare ps := by
    rw [← prepare_rinse, h, prepare_rinse, prepare_after]
  rw [Stands, hprepare, after_prepare]

theorem Stands.finalize (h : Stands g₀ life g) : Stands g₀ (life ++ [.finalize]) g.finalize := by
  have hfinalize : g.finalize = g₀.finalize := by
    rw [← finalize_rinse, h, finalize_rinse, finalize_after]
  rw [Stands, hfinalize, after_finalize]

end Setups

/-! ### Grids in use -/

structure Bench (α : Type) where
  grids : List (Grid α)
  inputs : Array (FlowMap α)
  meter : MeterState α

namespace Bench

/-- What a user can do with one of the grids. -/
inductive Move (α : Type) where
  | prepare (k : Nat) (ps : Participants)
  | finalize (k : Nat)
  | duplicate (k : Nat)
  | load (inputs : Array (FlowMap α)) (meter : MeterState α)
  | forward (k : Nat) (outputs : Array (FlowMap α))
  | back (k : Nat) (outputs : Array (FlowMap α))

/-- One move, and how it fails if it does. A move that fails changes nothing, and neither does one with a grid that is
not there. -/
def step (bench : Bench α) : Move α → Bench α × Option Failure
  | .prepare k ps => ({ bench with grids := bench.grids.modify k fun g => g.prepare ps }, none)
  | .finalize k => ({ bench with grids := bench.grids.modify k Grid.finalize }, none)
  | .duplicate k => ({ bench with grids := bench.grids ++ bench.grids[k]?.toList }, none)
  | .load inputs meter => ({ bench with inputs, meter }, none)
  | .forward k outputs =>
    match bench.grids[k]? with
    | none => (bench, none)
    | some g =>
      match g.exchangeForward outputs bench.inputs bench.meter with
      | .error e => (bench, some e)
      | .ok (g, inputs, meter) => ({ grids := bench.grids.set k g, inputs, meter }, none)
  | .back k outputs =>
    match bench.grids[k]? with
    | none => (bench, none)
    | some g =>
      match g.exchangeBack outputs bench.inputs with
      | .error e => (bench, some e)
      | .ok inputs => ({ bench with inputs }, none)

def run (bench : Bench α) (moves : List (Move α)) : Bench α :=
  moves.foldl (fun bench move => (bench.step move).1) bench

omit [Scalar α] in
/-- What a move adds to the setups of each grid. A copy shares the past of the grid that it is made of, and goes its own
way from there. -/
def Move.record (lives : List (List Setup)) : Move α → List (List Setup)
  | .prepare k ps => lives.modify k fun life => life ++ [.prepare ps]
  | .finalize k => lives.modify k fun life => life ++ [.finalize]
  | .duplicate k => lives ++ lives[k]?.toList
  | .load .. | .forward .. | .back .. => lives

omit [Scalar α] in
def lives (moves : List (Move α)) : List (List Setup) :=
  moves.foldl Move.record [[]]

section Tables

variable {β γ : Type} {R : β → γ → Prop}

theorem forall₂_modify {l : List β} {l' : List γ} (h : List.Forall₂ R l l') {f : β → β} {f' : γ → γ}
    (hf : ∀ b c, R b c → R (f b) (f' c)) (k : Nat) : List.Forall₂ R (l.modify k f) (l'.modify k f') := by
  induction h generalizing k with
  | nil => simp
  | cons hbc hrest ih =>
    cases k with
    | zero => exact .cons (hf _ _ hbc) hrest
    | succ k => exact .cons hbc (ih k)

theorem forall₂_set {l : List β} {l' : List γ} (h : List.Forall₂ R l l') {k : Nat} {c c' : γ}
    (hc : l'[k]? = some c) (hR : ∀ b, R b c → R b c') : List.Forall₂ R l (l'.set k c') := by
  induction h generalizing k with
  | nil => simp
  | cons hbc hrest ih =>
    cases k with
    | zero =>
      obtain rfl := Option.some.inj hc
      exact .cons (hR _ hbc) hrest
    | succ k => exact .cons hbc (ih hc)

theorem forall₂_toList_getElem? {l : List β} {l' : List γ} (h : List.Forall₂ R l l') (k : Nat) :
    List.Forall₂ R l[k]?.toList l'[k]?.toList := by
  induction h generalizing k with
  | nil => simp
  | cons hbc hrest ih =>
    cases k with
    | zero => exact .cons hbc .nil
    | succ k => exact ih k

end Tables

/-- **A move keeps every grid in line with its setups.** -/
theorem step_stands {g₀ : Grid α} {lives : List (List Setup)} {bench : Bench α}
    (h : List.Forall₂ (Stands g₀) lives bench.grids) (move : Move α) :
    List.Forall₂ (Stands g₀) (move.record lives) (bench.step move).1.grids := by
  cases move with
  | prepare k ps => exact forall₂_modify h (fun _ _ hg => hg.prepare ps) k
  | finalize k => exact forall₂_modify h (fun _ _ hg => hg.finalize) k
  | duplicate k => exact List.rel_append h (forall₂_toList_getElem? h k)
  | load inputs meter => exact h
  | forward k outputs =>
    simp only [step, Move.record]
    split
    · exact h
    · rename_i g hg
      split
      · exact h
      · rename_i g' inputs meter hexchange
        exact forall₂_set h hg fun _ hstands => (rinse_of_exchangeForward hexchange).trans hstands
  | back k outputs =>
    simp only [step, Move.record]
    split
    · exact h
    · split <;> exact h

/-- **A series of moves keeps every grid in line with its setups.** -/
theorem run_stands {g₀ : Grid α} (moves : List (Move α)) {lives : List (List Setup)} {bench : Bench α}
    (h : List.Forall₂ (Stands g₀) lives bench.grids) :
    List.Forall₂ (Stands g₀) (moves.foldl Move.record lives) (bench.run moves).grids := by
  induction moves generalizing lives bench with
  | nil => exact h
  | cons move moves ih => exact ih (step_stands h move)

end Bench

/-! ### What a grid does -/

/-- What a grid does after a series of setups, whatever else has been done to it. The grid `g₀` stands for its kind, its
topology and whether sources may be looked up. -/
structure Behaves (g₀ : Grid α) (life : List Setup) (g : Grid α) : Prop where
  initialized : g.isInitialized = true ↔ ∃ ps, life.getLast? = some (.prepare ps)
  relations : g.relations? = (running? life).map (ReducedRelations.build g₀.topology)
  forward : ∀ ps ∈ running? life, ∀ outputs inputs meter,
    g.exchangeForward outputs inputs meter = (g₀.prepare ps).exchangeForward outputs inputs meter
  back : ∀ ps ∈ running? life, ∀ outputs inputs,
    g.exchangeBack outputs inputs = (g₀.prepare ps).exchangeBack outputs inputs
  -- the amounts do not depend on the meter state
  adds : ∀ outputs inputs, ∃ result : Except Failure (Array (FlowMap α) × List (MeterQuantity × α)),
    ∀ meter, (g.exchangeForward outputs inputs meter).map Prod.snd
      = result.map fun x => (x.1, meter.addAll x.2)
  feeds : ∀ r ∈ g.relations?, ∀ outputs inputs meter g' inputs' meter',
    g.exchangeForward outputs inputs meter = .ok (g', inputs', meter') →
      ∀ i, ¬r.Feeds i → inputs'[i]? = inputs[i]?
  feedsBack : ∀ r ∈ g.relations?, ∀ outputs inputs inputs',
    g.exchangeBack outputs inputs = .ok inputs' → ∀ i, ¬r.FeedsBack i → inputs'[i]? = inputs[i]?
  idle : running? life = none → ∀ outputs inputs meter,
    g.exchangeForward outputs inputs meter = .error (.gridNotInitialized g₀.kind) ∧
      g.exchangeBack outputs inputs = .error (.gridNotInitialized g₀.kind)

section Behaviour

variable {g₀ g : Grid α} {life : List Setup}

theorem running?_eq_some {ps : Participants} : running? life = some ps ↔ life.getLast? = some (.prepare ps) := by
  unfold running?
  split <;> simp_all

theorem relations?_after : (g₀.after life).relations? = (running? life).map (.build g₀.topology) := by
  unfold after
  cases running? life <;> cases g₀ <;> rfl

theorem kind_after : (g₀.after life).kind = g₀.kind := by
  unfold after
  cases running? life <;> cases g₀ <;> rfl

/-- **A grid in line with its setups does what they say.** -/
theorem Stands.behaves (h : Stands g₀ life g) : Behaves g₀ life g := by
  have hrelations : g.relations? = (running? life).map (.build g₀.topology) := by
    rw [← relations?_rinse, h, relations?_rinse, relations?_after]
  have hkind : g.kind = g₀.kind := by rw [← kind_rinse, h, kind_rinse, kind_after]
  have hafter : ∀ ps ∈ running? life, g₀.after life = g₀.prepare ps := by
    intro ps hps
    simp only [after, Option.mem_def.mp hps]
  constructor
  case initialized =>
    rw [isInitialized, hrelations, Option.isSome_map, Option.isSome_iff_exists]
    simp only [running?_eq_some]
  case relations => exact hrelations
  case forward =>
    intro ps hps outputs inputs meter
    rw [← exchangeForward_rinse, h, exchangeForward_rinse, hafter ps hps]
  case back =>
    intro ps hps outputs inputs
    rw [← exchangeBack_rinse, h, exchangeBack_rinse, hafter ps hps]
  case adds => exact exists_amounts g
  case feeds =>
    intro r hr outputs inputs meter g' inputs' meter' hexchange i hi
    obtain ⟨r', box, hr', hbox, -, rfl⟩ := exists_of_exchangeForward hexchange
    obtain rfl : r = r' := Option.some.inj (hr.symm.trans hr')
    exact (ReducedRelations.exchangeForward_keeps hbox).inputs i hi
  case feedsBack =>
    intro r hr outputs inputs inputs' hexchange i hi
    simp only [exchangeBack, Option.mem_def.mp hr] at hexchange
    have hback : r.exchangeBack (g.kind == .thermal) outputs inputs = .ok inputs' := by
      cases hback : r.exchangeBack (g.kind == .thermal) outputs inputs with
      | error e =>
        rw [hback] at hexchange
        exact absurd hexchange (by simp [Except.mapError])
      | ok t =>
        rw [hback] at hexchange
        exact congrArg Except.ok (Except.ok.inj hexchange)
    exact ReducedRelations.exchangeBack_keeps hback hi
  case idle =>
    intro hidle outputs inputs meter
    rw [hidle] at hrelations
    exact hkind ▸ exchange_of_idle hrelations outputs inputs meter

omit [Scalar α] in
/-- A grid without a run is its own finalized grid. -/
theorem finalize_of_idle (h : g₀.isInitialized = false) : g₀.finalize = g₀ := by
  cases g₀ with
  | electrical e =>
    obtain ⟨topology, fastPath, run?⟩ := e
    obtain rfl : run? = none := by simpa [isInitialized, relations?] using h
    rfl
  | thermal e =>
    obtain ⟨topology, oneMeter, run?⟩ := e
    obtain rfl : run? = none := by simpa [isInitialized, relations?] using h
    rfl

theorem stands_nil (h : g₀.isInitialized = false) : Stands g₀ [] g₀ :=
  congrArg rinse (finalize_of_idle h).symm

end Behaviour

namespace Bench

/-- **An exchange with a grid without a run fails, and changes nothing.** -/
theorem step_of_idle {bench : Bench α} {k : Nat} {g : Grid α} (hg : bench.grids[k]? = some g)
    (h : g.isInitialized = false) (outputs : Array (FlowMap α)) :
    bench.step (.forward k outputs) = (bench, some (.gridNotInitialized g.kind)) ∧
      bench.step (.back k outputs) = (bench, some (.gridNotInitialized g.kind)) := by
  have hrelations : g.relations? = none := by simpa [isInitialized] using h
  obtain ⟨hforward, hback⟩ := exchange_of_idle hrelations outputs bench.inputs bench.meter
  simp only [step, hg, hforward, hback, and_self]

end Bench

end Grid

/-- **What a grid does depends on what it was prepared for last**, and on nothing else that was done to it or to a grid
that it is a copy of. An exchange with a grid that is not prepared fails, and changes nothing. -/
theorem grid_lifecycle (g₀ : Grid α) (h : g₀.isInitialized = false) (inputs : Array (FlowMap α))
    (meter : MeterState α) (moves : List (Grid.Bench.Move α)) :
    let bench := Grid.Bench.run ⟨[g₀], inputs, meter⟩ moves
    List.Forall₂ (Grid.Behaves g₀) (Grid.Bench.lives moves) bench.grids ∧
      ∀ k, ∀ g ∈ bench.grids[k]?, g.isInitialized = false → ∀ outputs,
        bench.step (.forward k outputs) = (bench, some (.gridNotInitialized g.kind)) ∧
        bench.step (.back k outputs) = (bench, some (.gridNotInitialized g.kind)) := by
  intro bench
  have hstart : List.Forall₂ (Grid.Stands g₀) [[]] [g₀] := .cons (Grid.stands_nil h) .nil
  exact ⟨(Grid.Bench.run_stands moves hstart).imp fun _ _ hg => hg.behaves,
    fun k g hg hidle outputs => Grid.Bench.step_of_idle hg hidle outputs⟩

def Household.idleGrid : Grid Rat :=
  .electrical { topology := Household.electricalTopology, fastPath := true, run? := none }

def Household.loadAlone : Participants :=
  .add .empty (.new (Household.deviceId 1) 0 .active false [.activePower])

def Household.gridMoves : List (Grid.Bench.Move Rat) :=
  [.prepare 0 Household.loadAlone, .forward 0 #[.unrestricted], .duplicate 0, .finalize 0,
    .forward 1 #[.unrestricted], .forward 0 #[.unrestricted]]

/-- The copy of the grid goes on when the grid itself is finalized. -/
theorem grid_lifecycle_household :
    Household.idleGrid.isInitialized = false ∧
      List.Forall₂ (Grid.Behaves Household.idleGrid)
        [[.prepare Household.loadAlone, .finalize], [.prepare Household.loadAlone]]
        (Grid.Bench.run ⟨[Household.idleGrid], #[.unrestricted], .zero⟩ Household.gridMoves).grids :=
  ⟨rfl, (grid_lifecycle (α := Rat) Household.idleGrid rfl #[.unrestricted] .zero Household.gridMoves).1⟩

end HomeEnergy

import HomeEnergy.Proofs.Records
import Mathlib.Data.List.Forall2

/-!
# Runs that correspond

Two problems may hold their parts at different places, or hold parts that differ in what nobody sees. This module says
when the run of one is the run of the other: each part with a role has a part in its place that no step tells from
it, and the grids deliver and measure the same on both sides.

* `Placed` — what stands at some indices of one array stands at their places in another one.
* `Part.Inseparable` — a relation between parts that no step breaks.
* `Wiring.Mirrors` — what the grids of the two problems have to agree on; a wiring mirrors itself.
* `next_matches` — **frames that match are followed by frames that match**; `frames_matches`, `last_matches` —
  so it is with all ticks of a run.
* `Evaluator.runOn_matches` — **evaluations that start from matching frames have one result**, and
  `Evaluator.scheduleOf_matches` — their recordings hold the same schedules.
-/

namespace HomeEnergy

/-! ### Places -/

/-- What stands at the given indices of one array has its counterpart at their places in another one. -/
def Placed {β : Type} (indices : List Nat) (place : Nat → Nat) (R : Nat → β → β → Prop)
    (xs ys : Array β) : Prop :=
  ∀ i ∈ indices, ∃ x y, xs[i]? = some x ∧ ys[place i]? = some y ∧ R i x y

theorem Placed.mono {β : Type} {indices : List Nat} {place : Nat → Nat} {R S : Nat → β → β → Prop}
    {xs ys : Array β} (h : Placed indices place R xs ys) (hRS : ∀ i ∈ indices, ∀ x y, R i x y → S i x y) :
    Placed indices place S xs ys := by
  intro i hi
  obtain ⟨x, y, hx, hy, hR⟩ := h i hi
  exact ⟨x, y, hx, hy, hRS i hi x y hR⟩

theorem Placed.getD_eq {β : Type} {indices : List Nat} {place : Nat → Nat} {xs ys : Array β}
    (h : Placed indices place (fun _ x y => x = y) xs ys) {i : Nat} (hi : i ∈ indices) (d : β) :
    ys.getD (place i) d = xs.getD i d := by
  obtain ⟨x, y, hx, hy, rfl⟩ := h i hi
  rw [Array.getD_eq_getD_getElem?, Array.getD_eq_getD_getElem?, hx, hy]

section Runs

variable {P α : Type} [Scalar α] [Part P α]

/-- A relation between the parts at an index and at its place that no run breaks: they publish the same, what they
publish passes a test, they stay related, and they cost the same in the end. -/
structure Part.Inseparable (R : Nat → P → P → Prop) (Sent : Nat → FlowMap α → Prop) : Prop where
  publish : ∀ {i p q}, R i p q → ∀ (x : StepInput α) (out : FlowMap α),
    (Part.step p x out).1 = (Part.step q x out).1
  sent : ∀ {i p q}, R i p q → ∀ (x : StepInput α) (out : FlowMap α),
    Sent i (Part.step p x out.clear).1
  step : ∀ {i p q}, R i p q → ∀ (x : StepInput α) (out : FlowMap α),
    R i (Part.step p x out).2 (Part.step q x out).2
  cost : ∀ {i p q}, R i p q →
    (Part.terminalCost (Part.settle p : P) : α) = Part.terminalCost (Part.settle q : P)

/-- A relation between what two parts publish: it is the same, and passes the test if it is new. -/
def Published (indices : List Nat) (Sent : Nat → FlowMap α → Prop) (i : Nat) (x y : FlowMap α) : Prop :=
  x = y ∧ (i ∈ indices → Sent i x)

variable {R : Nat → P → P → Prop} {Sent : Nat → FlowMap α → Prop} {place : Nat → Nat}

/-- Related parts that read the same stay related when they are stepped, and publish the same. -/
theorem stepTogether_placed (hR : Part.Inseparable R Sent) {taking indices indices' : List Nat}
    (hmem : ∀ i ∈ taking, place i ∈ indices' ↔ i ∈ indices) (received received' : Nat → FlowMap α)
    (hreceived : ∀ i ∈ taking, i ∈ indices → received' (place i) = received i) (tick : UInt64)
    (meter : MeterState α) {parts parts' : Array P} (hparts : Placed taking place R parts parts')
    {outputs outputs' : Array (FlowMap α)}
    (houtputs : Placed taking place (fun _ x y => x = y) outputs outputs') :
    Placed taking place R (stepTogether indices tick meter received parts outputs).1
        (stepTogether indices' tick meter received' parts' outputs').1 ∧
      Placed taking place (Published indices Sent)
        (stepTogether indices tick meter received parts outputs).2
        (stepTogether indices' tick meter received' parts' outputs').2 := by
  constructor
  · intro i hi
    obtain ⟨p, q, hp, hq, hpq⟩ := hparts i hi
    have hout := houtputs.getD_eq hi .unrestricted
    simp only [stepTogether, Array.getElem?_mapIdx, hp, hq, Option.map_some, Option.some.injEq,
      hmem i hi, hout]
    refine ⟨_, _, rfl, rfl, ?_⟩
    by_cases hstep : i ∈ indices
    · simp only [if_pos hstep, hreceived i hi hstep, stepAlone]
      exact hR.step hpq _ _
    · simp only [if_neg hstep]
      exact hpq
  · intro i hi
    obtain ⟨p, q, hp, hq, hpq⟩ := hparts i hi
    obtain ⟨out, _, hout, hout', rfl⟩ := houtputs i hi
    simp only [stepTogether, Array.getElem?_mapIdx, hp, hq, hout, hout', Option.map_some,
      Option.some.injEq, hmem i hi]
    refine ⟨_, _, rfl, rfl, ?_⟩
    by_cases hstep : i ∈ indices
    · simp only [if_pos hstep, hreceived i hi hstep, stepAlone]
      exact ⟨hR.publish hpq _ _, fun _ => hR.sent hpq _ _⟩
    · simp only [if_neg hstep]
      exact ⟨rfl, fun h => absurd h hstep⟩

/-! ### Wirings -/

/-- What the grids of two problems have to agree on, where the parts of the one have their places in the other: the
roles, and what is delivered and measured when the same is published in the same places. -/
structure Wiring.Mirrors (w' w : Wiring α) (place : Nat → Nat) (Sent : Nat → FlowMap α → Prop) : Prop where
  active : ∀ i ∈ w.taking, place i ∈ w'.active ↔ i ∈ w.active
  passive : ∀ i ∈ w.taking, place i ∈ w'.passive ↔ i ∈ w.passive
  heard : ∀ {outputs outputs' : Array (FlowMap α)},
    Placed w.taking place (fun _ x y => x = y) outputs outputs' →
    ∀ i ∈ w.active, w'.heard outputs' (place i) = w.heard outputs i
  told : ∀ {outputs outputs' : Array (FlowMap α)},
    Placed w.taking place (Published w.active Sent) outputs outputs' →
    ∀ i ∈ w.passive, w'.told outputs' (place i) = w.told outputs i
  measured : ∀ {outputs outputs' : Array (FlowMap α)},
    Placed w.taking place (Published w.active Sent) outputs outputs' →
    w'.measured outputs' = w.measured outputs

/-- Two frames of which the second one holds related parts, and what they publish, in their places. -/
structure Frame.Matches (w : Wiring α) (place : Nat → Nat) (R : Nat → P → P → Prop) (f g : Frame P α) :
    Prop where
  parts : Placed w.taking place R f.parts g.parts
  activeOutputs : Placed w.taking place (fun _ x y => x = y) f.activeOutputs g.activeOutputs
  passiveOutputs : Placed w.taking place (fun _ x y => x = y) f.passiveOutputs g.passiveOutputs
  meter : f.meter = g.meter

omit [Scalar α] in
theorem Placed.of_published {taking indices : List Nat} {outputs outputs' : Array (FlowMap α)}
    (h : Placed taking place (Published indices Sent) outputs outputs') :
    Placed taking place (fun _ x y => x = y) outputs outputs' :=
  h.mono fun _ _ _ _ hxy => hxy.1

namespace Wiring

variable {w w' : Wiring α} {f g : Frame P α}

/-- **Frames that match are followed by frames that match.** -/
theorem next_matches (hR : Part.Inseparable R Sent) (hm : w'.Mirrors w place Sent)
    (h : Frame.Matches w place R f g) (t : UInt64) :
    Frame.Matches w place R (w.next f t) (w'.next g t) := by
  obtain ⟨hparts₁, hactive⟩ := stepTogether_placed hR hm.active _ _
    (fun i _ hi => hm.heard h.passiveOutputs i hi) t f.meter h.parts h.activeOutputs
  have hmeter := hm.measured hactive
  obtain ⟨hparts₂, hpassive⟩ := stepTogether_placed hR hm.passive _ _
    (fun i _ hi => hm.told hactive i hi) t _ hparts₁ h.passiveOutputs
  simp only [next, ← h.meter, hmeter]
  exact ⟨hparts₂, hactive.of_published, hpassive.of_published, rfl⟩

/-- Frames that match do so after the passive parts have published for the first time. -/
theorem first_matches (hR : Part.Inseparable R Sent) (hm : w'.Mirrors w place Sent)
    (h : Frame.Matches w place R f g) (t : UInt64) :
    Frame.Matches w place R (w.first f t) (w'.first g t) := by
  obtain ⟨hparts, hpassive⟩ := stepTogether_placed hR hm.passive
    (fun _ => .unrestricted) (fun _ => .unrestricted) (fun _ _ _ => rfl)
    t .zero h.parts h.passiveOutputs
  exact ⟨hparts, h.activeOutputs, hpassive.of_published, rfl⟩

theorem last_matches (hR : Part.Inseparable R Sent) (hm : w'.Mirrors w place Sent)
    (h : Frame.Matches w place R f g) (ts : List UInt64) :
    Frame.Matches w place R (w.last f ts) (w'.last g ts) := by
  induction ts generalizing f g with
  | nil => exact h
  | cons t ts ih => exact ih (next_matches hR hm h t)

/-- **The frames of a run match tick by tick.** -/
theorem frames_matches (hR : Part.Inseparable R Sent) (hm : w'.Mirrors w place Sent)
    (h : Frame.Matches w place R f g) (ts : List UInt64) :
    List.Forall₂ (fun x y => x.1 = y.1 ∧ Frame.Matches w place R x.2 y.2)
      (w.frames f ts) (w'.frames g ts) := by
  induction ts generalizing f g with
  | nil => exact .nil
  | cons t ts ih =>
    have hnext := next_matches hR hm h t
    exact .cons ⟨rfl, hnext⟩ (ih hnext)

omit [Part P α] in
theorem published_matches (hm : w'.Mirrors w place Sent) (h : Frame.Matches w place R f g) {i : Nat}
    (hi : i ∈ w.taking) : w'.published g (place i) = w.published f i := by
  simp only [published, hm.active i hi, h.activeOutputs.getD_eq hi, h.passiveOutputs.getD_eq hi]

end Wiring

/-! ### Evaluations -/

namespace Evaluator

variable {e e' : Evaluator P α} {w w' : Wiring α} {f g : Frame P α} {n n' : Nat}

/-- Two evaluators that differ at most in the problems they work on. -/
structure Agrees (e' e : Evaluator P α) : Prop where
  window : e'.window = e.window
  signals : e'.signals = e.signals
  penalty : e'.penaltyPerKwh = e.penaltyPerKwh

omit [Part P α] in
theorem Agrees.bill (h : e'.Agrees e) : e'.bill = e.bill := by
  funext profile
  simp only [Evaluator.bill, h.window, h.signals, h.penalty]

theorem begun_matches (hR : Part.Inseparable R Sent) (hm : w'.Mirrors w place Sent)
    (he : e'.Agrees e) (h : Frame.Matches w place R f g) :
    Frame.Matches w place R (e.begun w f) (e'.begun w' g) := by
  simp only [begun, he.window]
  exact Wiring.first_matches hR hm h _

theorem ended_matches (hR : Part.Inseparable R Sent) (hm : w'.Mirrors w place Sent)
    (he : e'.Agrees e) (h : Frame.Matches w place R f g) :
    Frame.Matches w place R (e.ended w f) (e'.ended w' g) := by
  simp only [ended, he.window]
  exact Wiring.last_matches hR hm (begun_matches hR hm he h) _

theorem frames_matches (hR : Part.Inseparable R Sent) (hm : w'.Mirrors w place Sent)
    (he : e'.Agrees e) (h : Frame.Matches w place R f g) :
    List.Forall₂ (fun x y => x.1 = y.1 ∧ Frame.Matches w place R x.2 y.2)
      (e.frames w f) (e'.frames w' g) := by
  simp only [frames, he.window]
  exact Wiring.frames_matches hR hm (begun_matches hR hm he h) _

theorem profileOf_matches (hR : Part.Inseparable R Sent)
    (hm : w'.Mirrors w place Sent) (he : e'.Agrees e) (h : Frame.Matches w place R f g) :
    e'.profileOf w' g = e.profileOf w f := by
  have hmeters : (e.frames w f).map (fun x => x.2.meter) = (e'.frames w' g).map fun x => x.2.meter := by
    rw [← List.forall₂_eq_eq_eq, List.forall₂_map_left_iff, List.forall₂_map_right_iff]
    exact (frames_matches hR hm he h).imp fun x y hxy => hxy.2.meter
  simp only [profileOf, he.window, hmeters]

theorem cost_matches (hR : Part.Inseparable R Sent) (h : Frame.Matches w place R f g) {i : Nat}
    (hi : i ∈ w.taking) : (Run.cost g.parts (place i) : α) = Run.cost f.parts i := by
  obtain ⟨p, q, hp, hq, hpq⟩ := h.parts i hi
  simp only [Run.cost, hp, hq]
  exact (hR.cost hpq).symm

/-- **The schedule of a part is that of the part in its place**, if both describe themselves alike. -/
theorem scheduleOf_matches (hR : Part.Inseparable R Sent)
    (hm : w'.Mirrors w place Sent) (he : e'.Agrees e) (h : Frame.Matches w place R f g) {i : Nat}
    (hi : i ∈ w.taking) (p : P) : e'.scheduleOf w' g (place i) p = e.scheduleOf w f i p := by
  have hframes : (e.frames w f).map (fun x => (x.1, w.published x.2 i))
      = (e'.frames w' g).map fun x => (x.1, w'.published x.2 (place i)) := by
    rw [← List.forall₂_eq_eq_eq, List.forall₂_map_left_iff, List.forall₂_map_right_iff]
    refine (frames_matches hR hm he h).imp fun x y hxy => ?_
    rw [hxy.1, Wiring.published_matches hm hxy.2 hi]
  have hcost := cost_matches hR (ended_matches hR hm he h) hi
  simp only [scheduleOf, hframes, hcost]

/-- Evaluations of matching frames add up what their parts cost. The order in which that is done is a matter of the
places. -/
theorem fitnessOf_matches (hR : Part.Inseparable R Sent)
    (hm : w'.Mirrors w place Sent) (he : e'.Agrees e) (h : Frame.Matches w place R f g)
    (htaking : ∀ (cost : Nat → α) (total : α), w'.taking.foldl (fun total i => total + cost i) total
      = (w.taking.map place).foldl (fun total i => total + cost i) total) :
    e'.fitnessOf w' g = e.fitnessOf w f := by
  have hended := ended_matches hR hm he h
  have hcosts : ∀ (indices : List Nat), (∀ i ∈ indices, i ∈ w.taking) → ∀ total : α,
      (indices.map place).foldl (fun total i => total + Run.cost (e'.ended w' g).parts i) total
        = indices.foldl (fun total i => total + Run.cost (e.ended w f).parts i) total := by
    intro indices
    induction indices with
    | nil => intro _ total; rfl
    | cons i indices ih =>
      intro hmem total
      rw [List.map_cons, List.foldl_cons, List.foldl_cons, cost_matches hR hended (hmem i (by simp))]
      exact ih (fun j hj => hmem j (by simp [hj])) _
  rw [fitnessOf, fitnessOf, htaking, profileOf_matches hR hm he h, he.bill]
  exact hcosts _ (fun i hi => hi) _

variable {m m' : Problem P α} {s s' : Solution α}

/-- **Evaluations that start from matching frames have one result.** -/
theorem runOn_matches (hs : e.Serves m n) (hs' : e'.Serves m' n') (he : e'.Agrees e)
    (hR : Part.Inseparable R Sent) (hm : m'.wiring.Mirrors m.wiring place Sent) (flags : EvaluationFlags)
    (h : Frame.Matches m.wiring place R (e.startOf m s flags) (e'.startOf m' s' flags))
    (htaking : ∀ (cost : Nat → α) (total : α),
      m'.wiring.taking.foldl (fun total i => total + cost i) total
        = (m.wiring.taking.map place).foldl (fun total i => total + cost i) total)
    (haccepts : e.layout.Accepts s) (haccepts' : e'.layout.Accepts s')
    (recording? recording?' : Option (Recording α)) :
    (e'.runOn m' s' flags recording?').result = (e.runOn m s flags recording?).result := by
  have hlike : m.Like m n := ⟨rfl, hs.sized⟩
  have hlike' : m'.Like m' n' := ⟨rfl, hs'.sized⟩
  by_cases hfits : e.Fits
  · have hfits' : e'.Fits := by rwa [Fits, he.window]
    rw [(runOn_eq hs hlike haccepts hfits flags recording?).1,
      (runOn_eq hs' hlike' haccepts' hfits' flags recording?').1,
      fitnessOf_matches hR hm he h htaking, profileOf_matches hR hm he h]
  · have hfits' : ¬ e'.Fits := by rwa [Fits, he.window]
    rw [(runOn_overflow hs hlike haccepts hfits flags recording?).1,
      (runOn_overflow hs' hlike' haccepts' hfits' flags recording?').1]

end Evaluator

/-- Runs start from matching frames if their parts are related when they are started. -/
theorem Problem.started_matches {m m' : Problem P α} {parts parts' : Array P} {settings : RunSettings}
    (htaking : ∀ i ∈ m.taking, place i ∈ m'.taking)
    (hparts : Placed m.taking place
      (fun i p q => R i (Part.start p settings) (Part.start q settings)) parts parts')
    (hactive : Placed m.taking place (fun _ x y => x = y) m.activeOutputs m'.activeOutputs)
    (hpassive : Placed m.taking place (fun _ x y => x = y) m.passiveOutputs m'.passiveOutputs) :
    Frame.Matches m.wiring place R (m.started parts settings) (m'.started parts' settings) := by
  have hclear : ∀ {xs ys : Array (FlowMap α)}, Placed m.taking place (fun _ x y => x = y) xs ys →
      Placed m.taking place (fun _ x y => x = y) (xs.map FlowMap.clear) (ys.map FlowMap.clear) := by
    intro xs ys h i hi
    obtain ⟨x, _, hx, hy, rfl⟩ := h i hi
    exact ⟨x.clear, x.clear, by simp [hx], by simp [hy], rfl⟩
  refine ⟨?_, hclear hactive, hclear hpassive, rfl⟩
  intro i hi
  obtain ⟨p, q, hp, hq, hpq⟩ := hparts i hi
  exact ⟨Part.start p settings, Part.start q settings, by
    simp [started, hp, show i ∈ m.taking from hi], by simp [started, hq, htaking i hi], hpq⟩

end Runs

end HomeEnergy

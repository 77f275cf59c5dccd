import HomeEnergy.Proofs.LookUp
import HomeEnergy.Proofs.Traffic

/-!
# Looking sources up cannot be seen

A grid may be told to sum its sources always. This module shows that nobody notices: neither a caller who
exchanges through the grid, nor one who evaluates solutions of a problem with such grids.

* `Wiring.Twin` — wirings of linked grids: what parts hear and are told is the same, and so is **what the grids
  measure from zero on**, because a meter state that starts at zero holds no negative zero.
* `Problem.Paired`, `Evaluator.runOn_paired` — **an evaluation answers alike on containers of linked grids**,
  and leaves such containers.
* `Plan.answers_linked` — **so do all evaluations that an evaluator is asked for**, one after the other.
* `fastPath_unobservable` — **grids that may look sources up and grids that may not are indistinguishable**: over
  any series of preparations and exchanges up to the sign of zeros, and in the fitness, the load profile and the
  recording of every evaluation without exception.
-/

namespace HomeEnergy

/-! ### Wirings of linked grids -/

namespace Grid

theorem Linked.carriesTemperature_eq {g g' : Grid Double} (h : g.Linked g') :
    g.carriesTemperature = g'.carriesTemperature := by
  cases h <;> rfl

theorem receive_linked {g g' : Grid Double} (h : g.Linked g') (outputs : Array (FlowMap Double)) :
    receive outputs g = receive outputs g' := by
  funext i m
  simp only [receive, forwardFlows, h.relations?_eq, h.carriesTemperature_eq]

theorem receiveBack_linked {g g' : Grid Double} (h : g.Linked g') (outputs : Array (FlowMap Double)) :
    receiveBack outputs g = receiveBack outputs g' := by
  funext i m
  simp only [receiveBack, backFlows, h.relations?_eq, h.carriesTemperature_eq]

section Lists

variable {grids grids' : List (Grid Double)} (h : List.Forall₂ Linked grids grids')
  (outputs : Array (FlowMap Double))
include h

theorem map_topology_linked : grids.map topology = grids'.map topology := by
  induction h with
  | nil => rfl
  | cons hg _ ih => rw [List.map_cons, List.map_cons, hg.topology_eq, ih]

theorem receiveAll_linked : receiveAll outputs grids = receiveAll outputs grids' := by
  funext i m
  induction h generalizing m with
  | nil => rfl
  | @cons g g' grids grids' hg _ ih =>
    show receiveAll outputs grids i (receive outputs g i m)
      = receiveAll outputs grids' i (receive outputs g' i m)
    rw [receive_linked hg, ih]

theorem receiveAllBack_linked : receiveAllBack outputs grids = receiveAllBack outputs grids' := by
  funext i m
  induction h generalizing m with
  | nil => rfl
  | @cons g g' grids grids' hg _ ih =>
    show receiveAllBack outputs grids i (receiveBack outputs g i m)
      = receiveAllBack outputs grids' i (receiveBack outputs g' i m)
    rw [receiveBack_linked hg, ih]

theorem allContributions_linked :
    List.Forall₂ Matching (allContributions outputs grids) (allContributions outputs grids') := by
  induction h with
  | nil => exact .nil
  | cons hg _ ih => exact List.rel_append (contributions_linked hg outputs) ih

end Lists

end Grid

/-- Wirings that deliver and measure the same. -/
structure Wiring.Twin {α : Type} [Scalar α] (w w' : Wiring α) : Prop where
  active : w.active = w'.active
  passive : w.passive = w'.passive
  taking : w.taking = w'.taking
  heard : w.heard = w'.heard
  told : w.told = w'.told
  measured : w.measured = w'.measured

structure Problem.Linked {P : Type} (p p' : Problem P Double) : Prop where
  same : p' = { p with grids := p'.grids }
  grids : List.Forall₂ Grid.Linked p.grids p'.grids

/-- **Linked grids measure the same from zero on**, and deliver the same. -/
theorem Problem.Linked.twin {P : Type} {p p' : Problem P Double} (h : p.Linked p') :
    p.wiring.Twin p'.wiring := by
  obtain ⟨hsame, hgrids⟩ := h
  refine ⟨by rw [hsame]; rfl, by rw [hsame]; rfl, by rw [hsame]; rfl, ?_, ?_, ?_⟩
  · funext outputs i
    rw [heard_wiring, heard_wiring, Grid.receiveAllBack_linked hgrids]
  · funext outputs i
    rw [told_wiring, told_wiring, Grid.receiveAll_linked hgrids]
  · funext outputs
    rw [measured_wiring, measured_wiring]
    exact MeterState.addAll_eq MeterState.plain_zero (Grid.allContributions_linked hgrids outputs)

/-! ### Runs of twin wirings -/

section Runs

variable {P α : Type} [Scalar α] [Part P α]

namespace Wiring

variable {w w' : Wiring α}

theorem next_twin (h : w.Twin w') (f : Frame P α) (t : UInt64) : w.next f t = w'.next f t := by
  simp only [next, h.active, h.passive, h.heard, h.told, h.measured]

theorem first_twin (h : w.Twin w') (f : Frame P α) (t : UInt64) : w.first f t = w'.first f t := by
  simp only [first, h.passive]

theorem frames_twin (h : w.Twin w') (ts : List UInt64) (f : Frame P α) :
    w.frames f ts = w'.frames f ts := by
  induction ts generalizing f with
  | nil => rfl
  | cons t ts ih => simp only [frames, next_twin h, ih]

theorem last_twin (h : w.Twin w') (ts : List UInt64) (f : Frame P α) : w.last f ts = w'.last f ts := by
  induction ts generalizing f with
  | nil => rfl
  | cons t ts ih =>
    show w.last (w.next f t) ts = w'.last (w'.next f t) ts
    rw [next_twin h, ih]

omit [Part P α] in
theorem record_twin (h : w.Twin w') : w.record (P := P) = w'.record := by
  funext r x
  simp only [record, h.active, h.passive]

end Wiring

namespace Evaluator

variable {e : Evaluator P α} {w w' : Wiring α}

theorem begun_twin (h : w.Twin w') (f : Frame P α) : e.begun w f = e.begun w' f :=
  Wiring.first_twin h f _

theorem ended_twin (h : w.Twin w') (f : Frame P α) : e.ended w f = e.ended w' f := by
  rw [ended, ended, begun_twin h, Wiring.last_twin h]

theorem frames_twin (h : w.Twin w') (f : Frame P α) : e.frames w f = e.frames w' f := by
  rw [frames, frames, begun_twin h, Wiring.frames_twin h]

theorem profileOf_twin (h : w.Twin w') (f : Frame P α) : e.profileOf w f = e.profileOf w' f := by
  rw [profileOf, profileOf, frames_twin h]

theorem fitnessOf_twin (h : w.Twin w') (f : Frame P α) : e.fitnessOf w f = e.fitnessOf w' f := by
  rw [fitnessOf, fitnessOf, profileOf_twin h, ended_twin h, h.taking]

theorem recordingOf_twin (h : w.Twin w') (f : Frame P α) : e.recordingOf w f = e.recordingOf w' f := by
  funext r
  rw [recordingOf, recordingOf, frames_twin h, ended_twin h, h.taking, Wiring.record_twin h]

end Evaluator

/-! ### Containers of twin masters -/

/-- Containers of two masters that hold the same frame. -/
structure Problem.Paired (m m' : Problem P α) (n : Nat) (c c' : Problem P α) : Prop where
  left : c.Like m n
  right : c'.Like m' n
  frame : c.frame = c'.frame

namespace Evaluator

variable {e : Evaluator P α} {m m' c c' : Problem P α} {n : Nat}

theorem startOf_paired (hm : m.wiring.Twin m'.wiring) (h : m.Paired m' n c c') (s : Solution α)
    (flags : EvaluationFlags) : e.startOf c s flags = e.startOf c' s flags := by
  have hparts : c.parts = c'.parts := congrArg Frame.parts h.frame
  have hactive : c.activeOutputs = c'.activeOutputs := congrArg Frame.activeOutputs h.frame
  have hpassive : c.passiveOutputs = c'.passiveOutputs := congrArg Frame.passiveOutputs h.frame
  have htaking : c.taking = c'.taking :=
    (congrArg Wiring.taking h.left.wiring).trans
      (hm.taking.trans (congrArg Wiring.taking h.right.wiring).symm)
  simp only [startOf, Problem.started, hparts, hactive, hpassive, htaking]

/-- **An evaluation answers alike on containers of twin masters, and leaves such containers.** -/
theorem runOn_paired (he : e.Serves m n) (he' : e.Serves m' n) (hm : m.wiring.Twin m'.wiring)
    (h : m.Paired m' n c c') (s : Solution α) (flags : EvaluationFlags)
    (recording? : Option (Recording α)) :
    (e.runOn c s flags recording?).result = (e.runOn c' s flags recording?).result ∧
      (e.runOn c s flags recording?).recording? = (e.runOn c' s flags recording?).recording? ∧
      m.Paired m' n (e.runOn c s flags recording?).problem (e.runOn c' s flags recording?).problem := by
  have hstart : e.startOf c s flags = e.startOf c' s flags := startOf_paired hm h s flags
  have htaking : m.taking = m'.taking := hm.taking
  have hlike := runOn_like he h.left s flags recording?
  have hlike' := runOn_like he' h.right s flags recording?
  by_cases haccepts : e.layout.Accepts s
  · by_cases hfits : e.Fits
    · obtain ⟨hresult, hrecording, -, hframe⟩ := runOn_eq he h.left haccepts hfits flags recording?
      obtain ⟨hresult', hrecording', -, hframe'⟩ :=
        runOn_eq he' h.right haccepts hfits flags recording?
      rw [hstart, fitnessOf_twin hm, profileOf_twin hm] at hresult
      rw [hstart, recordingOf_twin hm] at hrecording
      rw [hstart, ended_twin hm, htaking] at hframe
      exact ⟨hresult.trans hresult'.symm, hrecording.trans hrecording'.symm, hlike, hlike',
        hframe.trans hframe'.symm⟩
    · obtain ⟨hresult, hrecording, -, hframe⟩ :=
        runOn_overflow he h.left haccepts hfits flags recording?
      obtain ⟨hresult', hrecording', -, hframe'⟩ :=
        runOn_overflow he' h.right haccepts hfits flags recording?
      rw [hstart] at hrecording
      rw [hstart, begun_twin hm] at hframe
      exact ⟨hresult.trans hresult'.symm, hrecording.trans hrecording'.symm, hlike, hlike',
        hframe.trans hframe'.symm⟩
  · rw [runOn_refused he h.left haccepts] at hlike ⊢
    rw [runOn_refused he' h.right haccepts] at hlike' ⊢
    refine ⟨rfl, rfl, hlike, hlike', ?_⟩
    have hparts : c.parts = c'.parts := congrArg Frame.parts h.frame
    have hactive : c.activeOutputs = c'.activeOutputs := congrArg Frame.activeOutputs h.frame
    have hpassive : c.passiveOutputs = c'.passiveOutputs := congrArg Frame.passiveOutputs h.frame
    simp only [Problem.clearExchange, Problem.frame, hparts, hactive, hpassive]

end Evaluator

end Runs

/-! ### Pools -/

/-- Pools of one shape with related containers. -/
inductive Pool.Related {C : Type} (R : C → C → Prop) : Pool C → Pool C → Prop where
  | shared {c c' : C} (h : R c c') : Related R (.shared c) (.shared c')
  | pooled {master master' : C} {idle idle' : List (Loan C)} (created : Nat) (h : R master master')
      (hidle : List.Forall₂ (fun l l' => l.number = l'.number ∧ R l.container l'.container) idle idle') :
    Related R (.pooled master idle created) (.pooled master' idle' created)

namespace Pool

variable {C : Type} {R : C → C → Prop}

theorem new_related {c c' : C} (h : R c c') (pooled : Bool) : Related R (.new c pooled) (.new c' pooled) := by
  cases pooled with
  | true => exact .pooled 0 h .nil
  | false => exact .shared h

theorem acquire_related {p p' : Pool C} (h : Related R p p') :
    p.acquire.1.number = p'.acquire.1.number ∧ R p.acquire.1.container p'.acquire.1.container ∧
      Related R p.acquire.2 p'.acquire.2 := by
  cases h with
  | shared h => exact ⟨rfl, h, .shared h⟩
  | pooled created h hidle =>
    cases hidle with
    | nil => exact ⟨rfl, h, .pooled _ h .nil⟩
    | cons hfirst hrest => exact ⟨hfirst.1, hfirst.2, .pooled _ h hrest⟩

theorem release_related {p p' : Pool C} (h : Related R p p') {loan loan' : Loan C}
    (hnumber : loan.number = loan'.number) (hc : R loan.container loan'.container) :
    Related R (p.release loan) (p'.release loan') := by
  cases h with
  | shared _ => exact .shared hc
  | pooled created h hidle => exact .pooled _ h (List.rel_append hidle (.cons ⟨hnumber, hc⟩ .nil))

end Pool

/-! ### Evaluations one after the other -/

section Answers

variable {P α : Type} [Scalar α] [Part P α]

structure Request (α : Type) where
  solution : Solution α
  flags : EvaluationFlags
  recording? : Option (Recording α)

/-- The results and recordings of evaluations one after the other. -/
def Evaluator.answers (e : Evaluator P α) :
    List (Request α) → List (Except Failure (Outcome α) × Option (Recording α))
  | [] => []
  | r :: rs =>
    let answer := e.run r.solution r.flags r.recording?
    (answer.1, answer.2.1) :: answer.2.2.answers rs

def Plan.answers (plan : Plan P α) (requests : List (Request α)) :
    Except Failure (List (Except Failure (Outcome α) × Option (Recording α))) :=
  plan.evaluator.map fun x => x.2.answers requests

namespace Evaluator

variable {m m' : Problem P α} {n : Nat}

/-- Evaluators with related pools answer alike, and keep related pools. -/
theorem run_paired (hm : m.wiring.Twin m'.wiring) {e : Evaluator P α} (he : e.Serves m n)
    (he' : e.Serves m' n) {pool : Pool (Problem P α)} (hpool : Pool.Related (m.Paired m' n) e.pool pool)
    (s : Solution α) (flags : EvaluationFlags) (recording? : Option (Recording α)) :
    let answer := e.run s flags recording?
    let answer' := ({ e with pool } : Evaluator P α).run s flags recording?
    answer.1 = answer'.1 ∧ answer.2.1 = answer'.2.1 ∧
      ∃ after after', answer.2.2 = { e with pool := after } ∧ answer'.2.2 = { e with pool := after' } ∧
        Pool.Related (m.Paired m' n) after after' := by
  obtain ⟨hnumber, hloan, hrest⟩ := Pool.acquire_related hpool
  obtain ⟨hresult, hrecording, hproblem⟩ := runOn_paired he he' hm hloan s flags recording?
  exact ⟨hresult, hrecording, _, _, rfl, rfl, Pool.release_related hrest hnumber hproblem⟩

/-- **Evaluators of twin masters give the same answers.** -/
theorem answers_paired (hm : m.wiring.Twin m'.wiring) (requests : List (Request α)) {e : Evaluator P α}
    (he : e.Serves m n) (he' : e.Serves m' n) {pool : Pool (Problem P α)}
    (hpool : Pool.Related (m.Paired m' n) e.pool pool) :
    e.answers requests = ({ e with pool } : Evaluator P α).answers requests := by
  induction requests generalizing e pool with
  | nil => rfl
  | cons r requests ih =>
    obtain ⟨hresult, hrecording, after, after', hafter, hafter', hrelated⟩ :=
      run_paired hm he he' hpool r.solution r.flags r.recording?
    have hserves : ({ e with pool := after } : Evaluator P α).Serves m n :=
      ⟨he.sound, he.sized, he.step, he.layout, he.taking⟩
    have hserves' : ({ e with pool := after } : Evaluator P α).Serves m' n :=
      ⟨he'.sound, he'.sized, he'.step, he'.layout, he'.taking⟩
    simp only [answers]
    rw [hresult, hrecording, hafter, hafter']
    exact congrArg _ (ih hserves hserves' hrelated)

end Evaluator

end Answers

/-! ### Plans -/

section Plans

variable {P : Type} [Part P Double]

omit [Part P Double] in
theorem Problem.collision?_linked {grids grids' : List (Grid Double)}
    (h : List.Forall₂ Grid.Linked grids grids') : collision? grids = collision? grids' := by
  have htopologies := Grid.map_topology_linked h
  have hcollision : ∀ grids : List (Grid Double), collision? grids
      = (sortedIds ((grids.map Grid.topology).flatMap fun t => t.relations.map fun r => r.active)).find?
          fun d => (grids.map Grid.topology).any fun t => t.isPassive d := by
    intro grids
    simp only [collision?, List.flatMap_map, List.any_map]
    rfl
  rw [hcollision, hcollision, htopologies]

theorem Problem.roleOf_linked {grids grids' : List (Grid Double)}
    (h : List.Forall₂ Grid.Linked grids grids') : roleOf grids (P := P) = roleOf grids' := by
  have hpassive : ∀ d, isPassive grids d = isPassive grids' d := by
    intro d
    have hany : ∀ grids : List (Grid Double),
        isPassive grids d = (grids.map Grid.topology).any fun t => t.isPassive d := by
      intro grids
      rw [isPassive, List.any_map]
      rfl
    rw [hany, hany, Grid.map_topology_linked h]
  funext p
  rw [roleOf, roleOf, hpassive]

/-- **Problems with linked grids differ in linked grids**, or are refused alike. -/
theorem Problem.new_linked (parts : List P) {grids grids' : List (Grid Double)}
    (h : List.Forall₂ Grid.Linked grids grids') :
    Agree Problem.Linked (Problem.new parts grids) (Problem.new parts grids') := by
  have hparticipants : participants grids parts = participants grids' parts := by
    have hparticipant : participant grids (P := P) = participant grids' := by
      funext i p
      rw [participant, participant, roleOf_linked h]
    rw [participants, participants, hparticipant]
  unfold Problem.new
  rw [← collision?_linked h, ← roleOf_linked h, ← hparticipants]
  split
  · exact .error _
  · split
    · exact .error _
    · exact .ok ⟨rfl, List.forall₂_map_left_iff.mpr (List.forall₂_map_right_iff.mpr
        (h.imp fun _ _ hg => Grid.prepare_linked hg _))⟩

namespace Plan

/-- The evaluators of plans with linked grids differ in their pools. -/
theorem evaluator_linked (plan : Plan P Double) {grids : List (Grid Double)}
    (h : List.Forall₂ Grid.Linked plan.grids grids) :
    Agree (fun x x' => x.1.Linked x'.1 ∧ x.2.pool = .new x.1 plan.multithreaded ∧
        x'.2 = { x.2 with pool := .new x'.1 plan.multithreaded })
      plan.evaluator ({ plan with grids } : Plan P Double).evaluator := by
  unfold evaluator
  refine (Problem.new_linked plan.parts h).bind ?_
  intro p p' hp
  refine .ok ⟨hp, rfl, ?_⟩
  have hreference : p'.referenceTime = p.referenceTime := by rw [hp.same]; rfl
  have hhorizon : p'.horizon = p.horizon := by rw [hp.same]; rfl
  rw [hreference, hhorizon]

/-- **A plan with linked grids gives the same answers.** -/
theorem answers_linked (plan : Plan P Double) {grids : List (Grid Double)}
    (h : List.Forall₂ Grid.Linked plan.grids grids) (requests : List (Request Double)) :
    plan.answers requests = ({ plan with grids } : Plan P Double).answers requests := by
  rcases (evaluator_linked plan h).exists_of with ⟨e, hx, hx'⟩ | ⟨x, x', hx, hx', hlinked, hpool, hsame⟩
  · rw [answers, answers, hx, hx']
  · have hserves := serves hx
    have hserves' : x.2.Serves x'.1 plan.parts.length := by
      have hserved := serves hx'
      rw [hsame] at hserved
      exact ⟨hserved.sound, hserved.sized, hserved.step, hserved.layout, hserved.taking⟩
    have hpaired : x.1.Paired x'.1 plan.parts.length x.1 x'.1 := by
      refine ⟨⟨rfl, hserves.sized⟩, ⟨rfl, hserves'.sized⟩, ?_⟩
      rw [hlinked.same]
      rfl
    have hrelated : Pool.Related (x.1.Paired x'.1 plan.parts.length) x.2.pool
        (.new x'.1 plan.multithreaded) := by
      rw [hpool]
      exact Pool.new_related hpaired _
    rw [answers, answers, hx, hx']
    show Except.ok (x.2.answers requests) = Except.ok (x'.2.answers requests)
    rw [hsame, Evaluator.answers_paired hlinked.twin requests hserves hserves' hrelated]

/-- A plan whose grids may look sources up, or may not, each as it is told. -/
def lookingUp (on : Nat → Bool) (plan : Plan P Double) : Plan P Double :=
  { plan with grids := plan.grids.mapIdx fun i g => g.lookingUp (on i) }

omit [Part P Double] in
theorem lookingUp_linked (on on' : Nat → Bool) (grids : List (Grid Double)) :
    List.Forall₂ Grid.Linked (grids.mapIdx fun i g => g.lookingUp (on i))
      (grids.mapIdx fun i g => g.lookingUp (on' i)) := by
  induction grids generalizing on on' with
  | nil => exact .nil
  | cons g grids ih =>
    rw [List.mapIdx_cons, List.mapIdx_cons]
    exact .cons (Grid.lookingUp_linked g (on 0) (on' 0)) (ih (fun i => on (i + 1)) fun i => on' (i + 1))

end Plan

end Plans

/-! ### What can be seen -/

/-- **Grids that may look sources up and grids that may not are indistinguishable.**

The caller of an electrical grid who goes through any moves, and has any inputs and any meter state in place at
the start and whenever they like, gets after every move the same inputs and failures, and numerically equal meter
states. Whoever evaluates solutions of a plan one after the other gets the same load profiles, fitnesses and
recordings, or failures. -/
theorem fastPath_unobservable :
    (∀ (g : ElectricalGrid Double) (on on' : Bool) (inputs : Array (FlowMap Double))
        (meter : MeterState Double) (moves : List Grid.Session.Move),
      List.Forall₂ (fun r r' =>
          r.1.inputs = r'.1.inputs ∧
            (∀ q, Double.Same (r.1.meter.power q) (r'.1.meter.power q)) ∧ r.2 = r'.2)
        (Grid.Session.trace ⟨.electrical (g.withFastPath on), inputs, meter⟩ moves)
        (Grid.Session.trace ⟨.electrical (g.withFastPath on'), inputs, meter⟩ moves)) ∧
    ∀ (P : Type) [Part P Double] (plan : Plan P Double) (on on' : Nat → Bool)
      (requests : List (Request Double)),
      (plan.lookingUp on).answers requests = (plan.lookingUp on').answers requests := by
  constructor
  · intro g on on' inputs meter moves
    have hsessions : Grid.Session.Linked ⟨.electrical (g.withFastPath on), inputs, meter⟩
        ⟨.electrical (g.withFastPath on'), inputs, meter⟩ :=
      ⟨Grid.lookingUp_linked (.electrical g) on on', rfl, MeterState.Same.refl meter⟩
    refine (Grid.Session.trace_linked moves hsessions).imp ?_
    intro r r' h
    exact ⟨h.1.inputs, h.1.meter, h.2⟩
  · intro P _ plan on on' requests
    exact Plan.answers_linked (plan.lookingUp on) (Plan.lookingUp_linked on on' plan.grids) requests

/-- The meter of the household looks up its photovoltaic system, if it may. -/
example (on : Bool) :
    ((⟨Household.electricalTopology, on, none⟩ : ElectricalGrid Double).prepare
      ⟨[.new (Household.deviceId 2) 1 .active false [.activePower]]⟩).usesFastPath = on := by
  cases on <;> decide

end HomeEnergy

import HomeEnergy.Grid
import HomeEnergy.Proofs.Restart

/-!
# What an exchange delivers

An exchange walks a table of relations and writes into shared maps, entry after entry. This module says
what that comes to for one map alone, so that nobody has to follow the walk again.

* `Flow` — one entry of the table: source, target and commodity; `arrive` — what a list of flows makes
  of the map at one target, a fold that reads no other target.
* `deliverTo_eq` — a single delivery writes to its target and leaves every other map.
* `walk_eq` — a walk does what its joined stages do, once and for all walks of this module.
* `exchangeForward_eq`, `exchangeBack_eq` — **an exchange whose flows are in range succeeds, and every
  map becomes what arrives at it**.
-/

namespace HomeEnergy

/-- One flow: where it comes from, where it ends and what it carries. -/
structure Flow where
  source : Nat
  target : Target
  commodity : Commodity
deriving DecidableEq

def Target.InRange (n k : Nat) : Target → Prop
  | .part i => i < n
  | .meter i => i < k

def Flow.InRange (n k : Nat) (f : Flow) : Prop :=
  f.source < n ∧ f.target.InRange n k

namespace ReducedRelations

variable {α : Type} [Scalar α]

/-- What a list of flows makes of the map at a target. -/
def arrive (withTemperature : Bool) (outputs : Array (FlowMap α)) (flows : List Flow) (t : Target)
    (m : FlowMap α) : FlowMap α :=
  flows.foldl (fun m f =>
    if f.target = t then
      deliver withTemperature (outputs.getD f.source .unrestricted) f.commodity m
    else m) m

/-! ### One flow -/

theorem deliver_of_not_contains {wt : Bool} {source : FlowMap α} {c : Commodity}
    (h : source.containsCommodity c = false) (m : FlowMap α) : deliver wt source c m = m := by
  simp only [FlowMap.containsCommodity, Bool.or_eq_false_iff] at h
  simp [deliver, FlowMap.temperature?, h.1, h.2]

/-- A destination keeps the commodities it allows. -/
@[simp] theorem clear_deliver (wt : Bool) (source : FlowMap α) (c : Commodity) (m : FlowMap α) :
    (deliver wt source c m).clear = m.clear := by
  have hpower : (if source.containsPower c then m.addPower c (source.power c) else m).clear
      = m.clear := by
    split
    · exact FlowMap.clear_addPower ..
    · rfl
  simp only [deliver]
  split
  · split
    · rw [FlowMap.clear_setTemperature, hpower]
    · exact hpower
  · exact hpower

theorem arrive_cons (wt : Bool) (outputs : Array (FlowMap α)) (f : Flow) (flows : List Flow)
    (t : Target) (m : FlowMap α) :
    arrive wt outputs (f :: flows) t m =
      arrive wt outputs flows t
        (if f.target = t then deliver wt (outputs.getD f.source .unrestricted) f.commodity m
         else m) := rfl

@[simp] theorem clear_arrive (wt : Bool) (outputs : Array (FlowMap α)) (flows : List Flow)
    (t : Target) (m : FlowMap α) : (arrive wt outputs flows t m).clear = m.clear := by
  induction flows generalizing m with
  | nil => rfl
  | cons f flows ih =>
    rw [arrive_cons, ih]
    split
    · exact clear_deliver ..
    · rfl

/-- Nothing arrives where no flow ends. -/
theorem arrive_of_forall_ne {wt : Bool} {outputs : Array (FlowMap α)} {flows : List Flow}
    {t : Target} (h : ∀ f ∈ flows, f.target ≠ t) (m : FlowMap α) :
    arrive wt outputs flows t m = m := by
  induction flows generalizing m with
  | nil => rfl
  | cons f flows ih =>
    rw [arrive_cons, if_neg (h f (by simp))]
    exact ih (fun g hg => h g (by simp [hg])) m

/-! ### A whole table -/

def Inbox.after (wt : Bool) (outputs : Array (FlowMap α)) (flows : List Flow) (box : Inbox α) :
    Inbox α :=
  { inputs := box.inputs.mapIdx fun i m => arrive wt outputs flows (.part i) m
    meters := box.meters.mapIdx fun i m => arrive wt outputs flows (.meter i) m }

omit [Scalar α] in
theorem mapIdx_same (table : Array (FlowMap α)) : table.mapIdx (fun _ m => m) = table := by
  apply Array.ext <;> simp

theorem Inbox.after_nil (wt : Bool) (outputs : Array (FlowMap α)) (box : Inbox α) :
    box.after wt outputs [] = box := by
  show Inbox.mk _ _ = box
  simp only [arrive, List.foldl_nil, mapIdx_same]

theorem arrive_append (wt : Bool) (outputs : Array (FlowMap α)) (fs gs : List Flow) (t : Target)
    (m : FlowMap α) :
    arrive wt outputs (fs ++ gs) t m = arrive wt outputs gs t (arrive wt outputs fs t m) :=
  List.foldl_append

theorem Inbox.after_append (wt : Bool) (outputs : Array (FlowMap α)) (fs gs : List Flow)
    (box : Inbox α) :
    box.after wt outputs (fs ++ gs) = (box.after wt outputs fs).after wt outputs gs := by
  simp only [Inbox.after, Array.mapIdx_mapIdx, arrive_append]
  rfl

def inputsAfter (wt : Bool) (outputs : Array (FlowMap α)) (flows : List Flow)
    (inputs : Array (FlowMap α)) : Array (FlowMap α) :=
  inputs.mapIdx fun i m => arrive wt outputs flows (.part i) m

omit [Scalar α] in
/-- A write to one entry, said for every entry. -/
theorem modify_eq_mapIdx (table : Array (FlowMap α)) (i : Nat) (g : FlowMap α → FlowMap α) :
    table.modify i g = table.mapIdx fun j m => if i = j then g m else m := by
  apply Array.ext
  · simp
  · intro j h₁ h₂
    simp only [Array.getElem_modify, Array.getElem_mapIdx]

/-- A single flow in range is delivered, and no other map changes. -/
theorem deliverTo_eq (wt : Bool) (outputs : Array (FlowMap α)) (box : Inbox α) (f : Flow)
    (hf : f.target.InRange box.inputs.size box.meters.size) :
    deliverTo wt (outputs.getD f.source .unrestricted) box (f.target, f.commodity)
      = .ok (box.after wt outputs [f]) := by
  obtain ⟨source, target, c⟩ := f
  unfold deliverTo
  by_cases hc : (outputs.getD source .unrestricted).containsCommodity c = true
  · simp only [hc, if_true]
    have hsame : ∀ (table : Array (FlowMap α)) (put : Nat → Target), (∀ j, target ≠ put j) →
        table.mapIdx (fun j m => arrive wt outputs [⟨source, target, c⟩] (put j) m) = table := by
      intro table put hput
      apply Array.ext
      · simp
      · intro j h₁ h₂
        rw [Array.getElem_mapIdx]
        exact arrive_of_forall_ne (by simpa using hput j) _
    cases target with
    | part i =>
      have hi : i < box.inputs.size := hf
      simp only [updateAt, hi, if_true, Inbox.after, hsame box.meters Target.meter (by simp),
        modify_eq_mapIdx, bind, Except.bind, pure, Except.pure]
      congr 3
      funext j m
      simp [arrive]
    | meter i =>
      have hi : i < box.meters.size := hf
      simp only [updateAt, hi, if_true, Inbox.after, hsame box.inputs Target.part (by simp),
        modify_eq_mapIdx, bind, Except.bind, pure, Except.pure]
      congr 3
      funext j m
      simp [arrive]
  · have hidle : ∀ (t : Target) (m : FlowMap α),
        arrive wt outputs [⟨source, target, c⟩] t m = m := by
      intro t m
      rw [arrive_cons]
      split
      · exact deliver_of_not_contains (Bool.eq_false_iff.mpr hc) m
      · rfl
    have hskip : box.after wt outputs [⟨source, target, c⟩] = box := by
      show Inbox.mk _ _ = box
      simp only [hidle, mapIdx_same]
    simp only [hc, hskip]
    rfl

omit [Scalar α] in
theorem containsCommodity_of_isEmpty {m : FlowMap α} (h : m.isEmpty = true) (c : Commodity) :
    m.containsCommodity c = false := by
  simp only [FlowMap.isEmpty, Bool.and_eq_true, CommoditySet.isEmpty_iff] at h
  simp [FlowMap.containsCommodity, FlowMap.containsPower, FlowMap.containsTemperature, h.1, h.2]

/-- Nothing arrives from a source that publishes nothing. -/
theorem arrive_of_isEmpty {wt : Bool} {outputs : Array (FlowMap α)} {flows : List Flow}
    (h : ∀ f ∈ flows, (outputs.getD f.source .unrestricted).isEmpty = true) (t : Target)
    (m : FlowMap α) : arrive wt outputs flows t m = m := by
  induction flows generalizing m with
  | nil => rfl
  | cons f flows ih =>
    have hf : (if f.target = t then deliver wt (outputs.getD f.source .unrestricted) f.commodity m
        else m) = m := by
      split
      · exact deliver_of_not_contains (containsCommodity_of_isEmpty (h f (by simp)) _) m
      · rfl
    rw [arrive_cons, hf]
    exact ih (fun g hg => h g (by simp [hg])) m

/-! ### Walks over a table -/

/-- A walk whose single stages are known: if each of them does what a list of flows does, then all of
them do what the joined lists do. -/
theorem walk_eq {σ β ε : Type} (Sized : σ → Prop) (after : List Flow → σ → σ)
    (hnil : ∀ s, after [] s = s)
    (happend : ∀ fs gs s, after (fs ++ gs) s = after gs (after fs s))
    (hsized : ∀ fs s, Sized s → Sized (after fs s))
    (stage : σ → β → Except ε σ) (flowsOf : β → List Flow) :
    ∀ bs : List β, (∀ b ∈ bs, ∀ s, Sized s → stage s b = .ok (after (flowsOf b) s)) →
      ∀ s, Sized s → bs.foldlM stage s = .ok (after (bs.flatMap flowsOf) s) := by
  intro bs
  induction bs with
  | nil =>
    intro _ s _
    rw [List.flatMap_nil, hnil]
    rfl
  | cons b bs ih =>
    intro hstage s hs
    have hrest := ih (fun b hb => hstage b (by simp [hb])) (after (flowsOf b) s) (hsized _ s hs)
    rw [List.foldlM_cons, hstage b (by simp) s hs, List.flatMap_cons, happend]
    exact hrest

def groupFlows (g : FlowGroup (Target × Commodity)) : List Flow :=
  g.flows.map fun f => ⟨g.active, f.1, f.2⟩

def groupBackFlows (g : FlowGroup (Nat × Commodity)) : List Flow :=
  g.flows.map fun f => ⟨f.1, .part g.active, f.2⟩

def forwardFlows (r : ReducedRelations) : List Flow :=
  r.forward.flatMap groupFlows

def backFlows (r : ReducedRelations) : List Flow :=
  r.back.flatMap groupBackFlows

def Inbox.Sized (n k : Nat) (box : Inbox α) : Prop :=
  box.inputs.size = n ∧ box.meters.size = k

/-- The flows of a group, delivered one after the other. -/
theorem deliverFlows_eq {n k : Nat} (wt : Bool) (outputs : Array (FlowMap α))
    (g : FlowGroup (Target × Commodity)) (box : Inbox α) (hbox : box.Sized n k)
    (hflows : ∀ f ∈ groupFlows g, f.target.InRange n k) :
    g.flows.foldlM (deliverTo wt (outputs.getD g.active .unrestricted)) box
      = .ok (box.after wt outputs (groupFlows g)) := by
  have hwalk := walk_eq (Inbox.Sized n k) (fun fs box => box.after wt outputs fs)
    (Inbox.after_nil wt outputs) (Inbox.after_append wt outputs)
    (by intro fs box hbox; simpa [Inbox.Sized, Inbox.after] using hbox)
    (deliverTo wt (outputs.getD g.active .unrestricted)) (fun f => [⟨g.active, f.1, f.2⟩]) g.flows
  rw [hwalk _ box hbox, ← List.map_eq_flatMap]
  · rfl
  · intro f hf box hbox
    refine deliverTo_eq wt outputs box ⟨g.active, f.1, f.2⟩ ?_
    rw [hbox.1, hbox.2]
    exact hflows _ (List.mem_map.mpr ⟨f, hf, rfl⟩)

/-- What an active part publishes is delivered; one that publishes nothing is passed over. -/
theorem deliverGroup_eq {n k : Nat} (wt : Bool) (outputs : Array (FlowMap α))
    (g : FlowGroup (Target × Commodity)) (box : Inbox α) (hbox : box.Sized n k)
    (hflows : ∀ f ∈ groupFlows g, f.target.InRange n k) :
    (if (outputs.getD g.active .unrestricted).isEmpty then .ok box
      else g.flows.foldlM (deliverTo wt (outputs.getD g.active .unrestricted)) box)
      = .ok (box.after wt outputs (groupFlows g)) := by
  by_cases hempty : (outputs.getD g.active .unrestricted).isEmpty = true
  · have hidle : ∀ (t : Target) (m : FlowMap α), arrive wt outputs (groupFlows g) t m = m := by
      refine fun t m => arrive_of_isEmpty ?_ t m
      intro f hf
      obtain ⟨_, -, rfl⟩ := List.mem_map.mp hf
      exact hempty
    rw [if_pos hempty]
    simp only [Inbox.after, hidle, mapIdx_same]
  · rw [if_neg hempty]
    exact deliverFlows_eq wt outputs g box hbox hflows

/-- A single flow back is a delivery into the inputs. -/
theorem deliverBackTo_eq (wt : Bool) (outputs inputs : Array (FlowMap α)) (active : Nat)
    (flow : Nat × Commodity) (hactive : active < inputs.size) (hflow : flow.1 < outputs.size) :
    (match outputs[flow.1]? with
      | none => Except.error Defect.indexOutOfRange
      | some out =>
        if out.containsCommodity flow.2 then updateAt inputs active (deliver wt out flow.2)
        else .ok inputs)
      = .ok (inputsAfter wt outputs [⟨flow.1, .part active, flow.2⟩] inputs) := by
  have hout : outputs.getD flow.1 .unrestricted = outputs[flow.1] := by
    simp [Array.getD, hflow]
  have hdeliver := deliverTo_eq wt outputs { inputs, meters := #[] }
    ⟨flow.1, .part active, flow.2⟩ hactive
  rw [hout] at hdeliver
  rw [Array.getElem?_eq_getElem hflow]
  by_cases hc : outputs[flow.1].containsCommodity flow.2 = true
  · simp only [deliverTo, hc, if_true, updateAt, hactive, bind, Except.bind, pure, Except.pure,
      Inbox.after, Except.ok.injEq, Inbox.mk.injEq] at hdeliver ⊢
    exact hdeliver.1
  · simp only [deliverTo, hc, Bool.false_eq_true, if_false, Inbox.after, Except.ok.injEq,
      Inbox.mk.injEq] at hdeliver ⊢
    exact hdeliver.1

/-- A relation table among `n` parts and `k` meters. -/
structure Fits (r : ReducedRelations) (n k : Nat) : Prop where
  active : ∀ g ∈ r.forward, g.active < n
  forward : ∀ f ∈ r.forwardFlows, f.InRange n k
  back : ∀ f ∈ r.backFlows, f.InRange n k

/-- **A forward exchange in range succeeds, and every map becomes what arrives at it.** -/
theorem exchangeForward_eq {r : ReducedRelations} {n k : Nat} (hr : r.Fits n k) (wt : Bool)
    (outputs : Array (FlowMap α)) (box : Inbox α) (hn : outputs.size = n) (hbox : box.Sized n k) :
    r.exchangeForward wt outputs box = .ok (box.after wt outputs r.forwardFlows) := by
  refine walk_eq (Inbox.Sized n k) (fun fs box => box.after wt outputs fs)
    (Inbox.after_nil wt outputs) (Inbox.after_append wt outputs)
    (by intro fs box hbox; simpa [Inbox.Sized, Inbox.after] using hbox) _ groupFlows r.forward ?_
    box hbox
  intro g hg box hbox
  have hactive : g.active < outputs.size := hn ▸ hr.active g hg
  have hout : outputs[g.active]? = some (outputs.getD g.active .unrestricted) := by
    simp [Array.getD, hactive]
  simp only [hout]
  refine deliverGroup_eq wt outputs g box hbox ?_
  intro f hf
  exact (hr.forward f (List.mem_flatMap.mpr ⟨g, hg, hf⟩)).2

/-- **An exchange back in range succeeds, and every input becomes what arrives at it.** -/
theorem exchangeBack_eq {r : ReducedRelations} {n k : Nat} (hr : r.Fits n k) (wt : Bool)
    (outputs inputs : Array (FlowMap α)) (hn : outputs.size = n) (hinputs : inputs.size = n) :
    r.exchangeBack wt outputs inputs = .ok (inputsAfter wt outputs r.backFlows inputs) := by
  have hnil : ∀ inputs : Array (FlowMap α), inputsAfter wt outputs [] inputs = inputs :=
    mapIdx_same
  have happend : ∀ (fs gs : List Flow) (inputs : Array (FlowMap α)),
      inputsAfter wt outputs (fs ++ gs) inputs
        = inputsAfter wt outputs gs (inputsAfter wt outputs fs inputs) := by
    intro fs gs inputs
    simp only [inputsAfter, Array.mapIdx_mapIdx, arrive_append]
    rfl
  have hsized : ∀ (fs : List Flow) (inputs : Array (FlowMap α)), inputs.size = n →
      (inputsAfter wt outputs fs inputs).size = n := by
    intro fs inputs hinputs
    simpa [inputsAfter] using hinputs
  refine walk_eq (fun inputs : Array (FlowMap α) => inputs.size = n) (inputsAfter wt outputs) hnil
    happend hsized _ groupBackFlows r.back ?_ inputs hinputs
  intro g hg inputs hinputs
  have hflows : groupBackFlows g = g.flows.flatMap fun f => [⟨f.1, .part g.active, f.2⟩] :=
    List.map_eq_flatMap
  rw [hflows]
  refine walk_eq (fun inputs : Array (FlowMap α) => inputs.size = n) (inputsAfter wt outputs) hnil
    happend hsized _ _ g.flows ?_ inputs hinputs
  intro f hf inputs hinputs
  have hrange := hr.back ⟨f.1, .part g.active, f.2⟩
    (List.mem_flatMap.mpr ⟨g, hg, List.mem_map.mpr ⟨f, hf, rfl⟩⟩)
  exact deliverBackTo_eq wt outputs inputs g.active f (hinputs ▸ hrange.2) (hn ▸ hrange.1)

end ReducedRelations

end HomeEnergy

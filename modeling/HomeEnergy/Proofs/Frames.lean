import HomeEnergy.Evaluation
import HomeEnergy.Proofs.Metering

/-!
# The frames of a run

A run writes into maps that it uses again and again. What it comes to is a chain of frames, each computed
from the one before it and from nothing else: the parts, what they publish, and the meter state.

* `Wiring` — what a run reads and never changes: the roles of the parts and the rinsed grids.
* `stepTogether_eq` — stepping parts one after the other steps each of them once, on its own input.
* `Wiring.next` — a frame from the frame before it, with every input taken from an empty map.
* `Problem.Shows` — the invariant that ties a problem in the middle of a run to a frame; `tick_shows` —
  **a tick of the problem is a step of the frames**.
* `simulate_eq` — **a whole run is the chain of its frames**, with the load profile and the recording read
  off them.
-/

namespace HomeEnergy

/-! ### Stepping parts -/

section Steps

variable {P α : Type} [Scalar α] [Part P α]

def stepAlone (tick : UInt64) (meter : MeterState α) (flows : FlowMap α) (p : P) (out : FlowMap α) :
    FlowMap α × P :=
  Part.step p { tick, flows, meter } out.clear

/-- The parts and outputs after the parts with the given indices have been stepped, each on its own
input. -/
def stepTogether (indices : List Nat) (tick : UInt64) (meter : MeterState α)
    (received : Nat → FlowMap α) (parts : Array P) (outputs : Array (FlowMap α)) :
    Array P × Array (FlowMap α) :=
  (parts.mapIdx fun i p =>
      if i ∈ indices then (stepAlone tick meter (received i) p (outputs.getD i .unrestricted)).2
      else p,
    outputs.mapIdx fun i out =>
      match parts[i]? with
      | some p => if i ∈ indices then (stepAlone tick meter (received i) p out).1 else out
      | none => out)

@[simp] theorem size_stepTogether_fst (indices : List Nat) (tick : UInt64) (meter : MeterState α)
    (received : Nat → FlowMap α) (parts : Array P) (outputs : Array (FlowMap α)) :
    (stepTogether indices tick meter received parts outputs).1.size = parts.size := by
  simp [stepTogether]

@[simp] theorem size_stepTogether_snd (indices : List Nat) (tick : UInt64) (meter : MeterState α)
    (received : Nat → FlowMap α) (parts : Array P) (outputs : Array (FlowMap α)) :
    (stepTogether indices tick meter received parts outputs).2.size = outputs.size := by
  simp [stepTogether]

/-- What becomes of a part that is stepped, and what it publishes. -/
theorem getElem?_stepTogether {indices : List Nat} {i : Nat} (hi : i ∈ indices) {parts : Array P} {p : P}
    (hp : parts[i]? = some p) {outputs : Array (FlowMap α)} {out : FlowMap α} (hout : outputs[i]? = some out)
    (tick : UInt64) (meter : MeterState α) (received : Nat → FlowMap α) :
    (stepTogether indices tick meter received parts outputs).1[i]?
        = some (stepAlone tick meter (received i) p out).2 ∧
      (stepTogether indices tick meter received parts outputs).2[i]?
        = some (stepAlone tick meter (received i) p out).1 := by
  constructor
  · simp only [stepTogether, Array.getElem?_mapIdx, hp, Option.map_some, if_pos hi,
      Array.getD_eq_getD_getElem?, hout, Option.getD_some]
  · simp only [stepTogether, Array.getElem?_mapIdx, hp, hout, Option.map_some, if_pos hi]

theorem getElem?_stepTogether_of_not_mem {indices : List Nat} {i : Nat} (hi : i ∉ indices) (tick : UInt64)
    (meter : MeterState α) (received : Nat → FlowMap α) (parts : Array P) (outputs : Array (FlowMap α)) :
    (stepTogether indices tick meter received parts outputs).1[i]? = parts[i]? := by
  simp [stepTogether, Array.getElem?_mapIdx, hi]

/-- Parts that read the same inputs are stepped alike. -/
theorem stepTogether_congr {indices : List Nat} {received received' : Nat → FlowMap α}
    (h : ∀ i ∈ indices, received i = received' i) (tick : UInt64) (meter : MeterState α)
    (parts : Array P) (outputs : Array (FlowMap α)) :
    stepTogether indices tick meter received parts outputs
      = stepTogether indices tick meter received' parts outputs := by
  simp only [stepTogether, Prod.mk.injEq]
  constructor
  · congr 1
    funext i p
    by_cases hi : i ∈ indices
    · simp only [if_pos hi, h i hi]
    · simp only [if_neg hi]
  · congr 1
    funext i out
    by_cases hi : i ∈ indices
    · simp only [if_pos hi, h i hi]
    · simp only [if_neg hi]

/-- The first of several parts is stepped before the others, which do not notice. -/
theorem stepTogether_cons {i : Nat} {indices : List Nat} (hi : i ∉ indices) (tick : UInt64)
    (meter : MeterState α) (received : Nat → FlowMap α) {parts : Array P}
    {outputs : Array (FlowMap α)} {p : P} (hp : parts[i]? = some p) :
    stepTogether (i :: indices) tick meter received parts outputs
      = stepTogether indices tick meter received
          (parts.setIfInBounds i
            (stepAlone tick meter (received i) p (outputs.getD i .unrestricted)).2)
          (outputs.setIfInBounds i
            (stepAlone tick meter (received i) p (outputs.getD i .unrestricted)).1) := by
  obtain ⟨hlt, hget⟩ := Array.getElem?_eq_some_iff.mp hp
  refine Prod.ext (Array.ext (by simp) ?_) (Array.ext (by simp) ?_)
  · intro j h₁ h₂
    have hjp : j < parts.size := by simpa using h₁
    simp only [stepTogether, Array.getElem_mapIdx, List.mem_cons]
    by_cases hj : j = i
    · subst hj
      simp [hi, hget]
    · simp [hj, Array.getElem_setIfInBounds_ne hjp (Ne.symm hj), Ne.symm hj]
  · intro j h₁ h₂
    have hjo : j < outputs.size := by simpa using h₁
    simp only [stepTogether, Array.getElem_mapIdx, List.mem_cons]
    by_cases hj : j = i
    · subst hj
      simp [hi, hget, hlt, hjo]
    · simp [hj, Array.getElem_setIfInBounds_ne hjo (Ne.symm hj), Ne.symm hj]

theorem stepTogether_nil (tick : UInt64) (meter : MeterState α) (received : Nat → FlowMap α)
    (parts : Array P) (outputs : Array (FlowMap α)) :
    stepTogether [] tick meter received parts outputs = (parts, outputs) := by
  refine Prod.ext (Array.ext (by simp) ?_) (Array.ext (by simp) ?_)
  · intro j h₁ h₂
    simp [stepTogether]
  · intro j h₁ h₂
    simp only [stepTogether, Array.getElem_mapIdx]
    split <;> simp

/-- **Stepping parts one after the other steps each of them once.** No part sees what another one of the
same turn does, because a step writes to the part and its output alone. -/
theorem stepTogether_eq (tick : UInt64) (meter : MeterState α) (inputs : Array (FlowMap α)) :
    ∀ (indices : List Nat), indices.Nodup → ∀ (parts : Array P) (outputs : Array (FlowMap α)),
      (∀ i ∈ indices, i < parts.size) →
      stepParts indices tick meter inputs (parts, outputs)
        = stepTogether indices tick meter (fun i => inputs.getD i .unrestricted) parts outputs := by
  intro indices
  induction indices with
  | nil =>
    intro _ parts outputs _
    exact (stepTogether_nil ..).symm
  | cons i indices ih =>
    intro hnodup parts outputs hlt
    obtain ⟨hi, hrest⟩ := List.nodup_cons.mp hnodup
    have hilt : i < parts.size := hlt i (by simp)
    have hp : parts[i]? = some parts[i] := Array.getElem?_eq_getElem hilt
    rw [stepTogether_cons hi tick meter _ hp, ← ih hrest]
    · show List.foldl _ _ (i :: indices) = List.foldl _ _ indices
      rw [List.foldl_cons]
      simp only [hp]
      rfl
    · intro j hj
      simpa using hlt j (by simp [hj])

end Steps

/-! ### Emptying maps -/

section Clear

variable {α : Type} [Scalar α]

/-- Emptying some maps, said for every map. -/
theorem clearAt_eq (indices : List Nat) (maps : Array (FlowMap α)) :
    clearAt indices maps = maps.mapIdx fun i m => if i ∈ indices then m.clear else m := by
  unfold clearAt
  induction indices generalizing maps with
  | nil =>
    apply Array.ext <;> simp
  | cons j indices ih =>
    rw [List.foldl_cons, ih]
    apply Array.ext
    · simp
    · intro i h₁ h₂
      simp only [Array.getElem_mapIdx, Array.getElem_modify, List.mem_cons]
      by_cases hij : j = i
      · subst hij
        by_cases hmem : j ∈ indices <;> simp [hmem]
      · simp [hij, Ne.symm hij]

omit [Scalar α] in
theorem getD_mapIdx {maps : Array (FlowMap α)} {i : Nat} (h : i < maps.size)
    (g : Nat → FlowMap α → FlowMap α) (d : FlowMap α) :
    (maps.mapIdx g).getD i d = g i (maps.getD i d) := by
  simp [Array.getD, h]

end Clear

/-! ### Frames -/

/-- What a run reads and never changes: the roles of the parts, and the grids with emptied
accumulators. -/
structure Wiring (α : Type) where
  active : List Nat
  passive : List Nat
  needsInput : List Nat
  taking : List Nat
  -- rinsed
  grids : List (Grid α)

/-- What there is at the end of a tick. -/
structure Frame (P α : Type) where
  parts : Array P
  activeOutputs : Array (FlowMap α)
  passiveOutputs : Array (FlowMap α)
  meter : MeterState α

namespace Wiring

variable {P α : Type} [Scalar α]

/-- The wiring of `n` parts: every index is in range, the parts that take part have one role each, forward flows
end at passive parts and flows back at parts that react to input. -/
structure Sound (w : Wiring α) (n : Nat) : Prop where
  grids : ∀ g ∈ w.grids, g.Ready n
  active_lt : ∀ i ∈ w.active, i < n
  passive_lt : ∀ i ∈ w.passive, i < n
  active_nodup : w.active.Nodup
  passive_nodup : w.passive.Nodup
  taking_lt : ∀ i ∈ w.taking, i < n
  taking_nodup : w.taking.Nodup
  active_taking : ∀ i ∈ w.active, i ∈ w.taking
  passive_taking : ∀ i ∈ w.passive, i ∈ w.taking
  taking_role : ∀ i ∈ w.taking, i ∈ w.active ∨ i ∈ w.passive
  disjoint : ∀ i ∈ w.active, i ∉ w.passive
  needsInput_active : ∀ i ∈ w.needsInput, i ∈ w.active
  forward : ∀ g ∈ w.grids, ∀ f ∈ g.forwardFlows, ∀ i, f.target = .part i → i ∈ w.passive
  back : ∀ g ∈ w.grids, ∀ f ∈ g.backFlows, ∀ i, f.target = .part i → i ∈ w.needsInput

/-- What an active part receives: what the passive parts publish, delivered into an empty map. -/
def heard (w : Wiring α) (passiveOutputs : Array (FlowMap α)) (i : Nat) : FlowMap α :=
  Grid.receiveAllBack passiveOutputs w.grids i .unrestricted

/-- What a passive part receives: what the active parts publish, delivered into an empty map. -/
def told (w : Wiring α) (activeOutputs : Array (FlowMap α)) (i : Nat) : FlowMap α :=
  Grid.receiveAll activeOutputs w.grids i .unrestricted

def measured (w : Wiring α) (activeOutputs : Array (FlowMap α)) : MeterState α :=
  MeterState.zero.addAll (Grid.allContributions activeOutputs w.grids)

theorem heard_of_not_mem {w : Wiring α} {n : Nat} (hw : w.Sound n) {i : Nat}
    (hi : i ∉ w.needsInput) (passiveOutputs : Array (FlowMap α)) :
    w.heard passiveOutputs i = .unrestricted :=
  Grid.receiveAllBack_of_forall_ne (fun g hg f hf ht => hi (hw.back g hg f hf i ht)) _

variable [Part P α]

/-- The frame of a tick, computed from the frame before it. -/
def next (w : Wiring α) (f : Frame P α) (tick : UInt64) : Frame P α :=
  let active := stepTogether w.active tick f.meter (w.heard f.passiveOutputs) f.parts f.activeOutputs
  let meter := w.measured active.2
  let passive := stepTogether w.passive tick meter (w.told active.2) active.1 f.passiveOutputs
  { parts := passive.1, activeOutputs := active.2, passiveOutputs := passive.2, meter }

/-- The frame before the first tick: the passive parts have published from empty inputs. -/
def first (w : Wiring α) (f : Frame P α) (tick : UInt64) : Frame P α :=
  let passive := stepTogether w.passive tick .zero (fun _ => .unrestricted) f.parts f.passiveOutputs
  { f with parts := passive.1, passiveOutputs := passive.2, meter := .zero }

def frames (w : Wiring α) (f : Frame P α) : List UInt64 → List (UInt64 × Frame P α)
  | [] => []
  | t :: ts => (t, w.next f t) :: w.frames (w.next f t) ts

def last (w : Wiring α) (f : Frame P α) (ts : List UInt64) : Frame P α :=
  ts.foldl w.next f

end Wiring

/-! ### A problem in the middle of a run -/

namespace Problem

variable {P α : Type} [Scalar α]

def wiring (problem : Problem P α) : Wiring α :=
  { active := problem.active, passive := problem.passive, needsInput := problem.needsInput,
    taking := problem.taking, grids := problem.grids.map Grid.rinse }

def frame (problem : Problem P α) : Frame P α :=
  { parts := problem.parts, activeOutputs := problem.activeOutputs,
    passiveOutputs := problem.passiveOutputs, meter := problem.meter }

/-- A problem with one map of each kind per part, whose inputs accept every commodity. -/
structure Sized (problem : Problem P α) (n : Nat) : Prop where
  parts : problem.parts.size = n
  activeOutputs : problem.activeOutputs.size = n
  passiveOutputs : problem.passiveOutputs.size = n
  inputs : problem.inputs.size = n
  unrestricted : ∀ i, (problem.inputs.getD i .unrestricted).clear = .unrestricted

/-- The invariant of a run: the problem is wired as at the start, and whoever is not passive holds as its
input what the passive parts of this frame deliver to an empty map. -/
structure Shows (problem : Problem P α) (w : Wiring α) (f : Frame P α) (n : Nat) : Prop where
  wiring : problem.wiring = w
  frame : problem.frame = f
  sized : problem.Sized n
  heard : ∀ i < n, i ∉ w.passive →
    problem.inputs.getD i .unrestricted = w.heard f.passiveOutputs i

theorem ready_of_sound {problem : Problem P α} {n : Nat} (h : problem.wiring.Sound n) :
    ∀ g ∈ problem.grids, g.Ready n := by
  intro g hg
  exact Grid.ready_rinse.mp (h.grids g.rinse (List.mem_map.mpr ⟨g, hg, rfl⟩))

theorem told_wiring (problem : Problem P α) (outputs : Array (FlowMap α)) (i : Nat) :
    problem.wiring.told outputs i = Grid.receiveAll outputs problem.grids i .unrestricted := by
  simp only [Wiring.told, wiring, Grid.receiveAll_map_rinse]

theorem heard_wiring (problem : Problem P α) (outputs : Array (FlowMap α)) (i : Nat) :
    problem.wiring.heard outputs i = Grid.receiveAllBack outputs problem.grids i .unrestricted := by
  simp only [Wiring.heard, wiring, Grid.receiveAllBack_map_rinse]

theorem measured_wiring (problem : Problem P α) (outputs : Array (FlowMap α)) :
    problem.wiring.measured outputs
      = MeterState.zero.addAll (Grid.allContributions outputs problem.grids) := by
  simp only [Wiring.measured, wiring, Grid.allContributions_map_rinse]

theorem sized_parts {problem : Problem P α} {n : Nat} (hn : problem.Sized n) {parts : Array P}
    (h : parts.size = problem.parts.size) : Sized { problem with parts } n :=
  ⟨h.trans hn.parts, hn.activeOutputs, hn.passiveOutputs, hn.inputs, hn.unrestricted⟩

/-! ### The stages of a tick -/

/-- A forward exchange measures, tells the passive parts and leaves everything else. -/
theorem deliverForward_spec {problem : Problem P α} {w : Wiring α} {n : Nat}
    (hwiring : problem.wiring = w) (hw : w.Sound n) (hn : problem.Sized n) :
    ∃ problem' : Problem P α, problem.deliverForward = .ok problem' ∧
      problem'.wiring = w ∧
      problem'.frame = { problem.frame with meter := w.measured problem.activeOutputs } ∧
      problem'.Sized n ∧
      (∀ i < n, i ∈ w.passive →
        problem'.inputs.getD i .unrestricted = w.told problem.activeOutputs i) ∧
      ∀ i < n, i ∉ w.passive →
        problem'.inputs.getD i .unrestricted = problem.inputs.getD i .unrestricted := by
  subst hwiring
  have hdeliver := Grid.deliverForward_eq problem.activeOutputs hn.activeOutputs problem.grids
    (clearAt problem.passive problem.inputs) .zero (ready_of_sound hw)
    (by rw [clearAt_eq]; simpa using hn.inputs)
  have hinputs : ∀ i < n,
      ((clearAt problem.passive problem.inputs).mapIdx fun i m =>
        Grid.receiveAll problem.activeOutputs problem.grids i m).getD i .unrestricted
      = Grid.receiveAll problem.activeOutputs problem.grids i
          (if i ∈ problem.passive then .unrestricted else problem.inputs.getD i .unrestricted) := by
    intro i hi
    rw [clearAt_eq, Array.mapIdx_mapIdx, getD_mapIdx (hn.inputs.symm ▸ hi)]
    simp only [Function.comp_def, hn.unrestricted i]
  refine ⟨_, by simp only [deliverForward, hdeliver]; rfl, ?_, ?_, ?_, ?_, ?_⟩
  · simp only [wiring, Grid.map_rinse_afterForward]
  · simp only [frame, measured_wiring]
  · refine ⟨hn.parts, hn.activeOutputs, hn.passiveOutputs, ?_, ?_⟩
    · simpa [clearAt_eq] using hn.inputs
    · intro i
      by_cases hi : i < n
      · rw [hinputs i hi, Grid.clear_receiveAll]
        split
        · rfl
        · exact hn.unrestricted i
      · simp [clearAt_eq, hn.inputs, hi]
  · intro i hi hpassive
    rw [hinputs i hi, if_pos (show i ∈ problem.passive from hpassive), told_wiring]
  · intro i hi hpassive
    rw [hinputs i hi, if_neg (show i ∉ problem.passive from hpassive)]
    refine Grid.receiveAll_of_forall_ne ?_ _
    intro g hg f hf ht
    refine hpassive (hw.forward g.rinse (List.mem_map.mpr ⟨g, hg, rfl⟩) f ?_ i ht)
    rwa [Grid.forwardFlows_rinse]

/-- An exchange back into empty inputs is what the next frame hears. -/
theorem deliverBack_shows {problem : Problem P α} {w : Wiring α} {n : Nat}
    (hn : problem.Sized n) (hwiring : problem.wiring = w) (hw : w.Sound n)
    (hempty : ∀ i < n, i ∉ w.passive → problem.inputs.getD i .unrestricted = .unrestricted) :
    ∃ problem' : Problem P α, problem.deliverBack = .ok problem' ∧
      problem'.Shows w problem.frame n := by
  subst hwiring
  have hdeliver := Grid.deliverBack_eq problem.passiveOutputs hn.passiveOutputs problem.grids
    problem.inputs (ready_of_sound hw) hn.inputs
  have hback : problem.deliverBack = .ok { problem with
      inputs := problem.inputs.mapIdx fun i m =>
        Grid.receiveAllBack problem.passiveOutputs problem.grids i m } := by
    simp only [deliverBack, hdeliver]
  have hinputs : ∀ i < n,
      (problem.inputs.mapIdx fun i m =>
        Grid.receiveAllBack problem.passiveOutputs problem.grids i m).getD i .unrestricted
      = Grid.receiveAllBack problem.passiveOutputs problem.grids i
          (problem.inputs.getD i .unrestricted) := by
    intro i hi
    rw [getD_mapIdx (hn.inputs.symm ▸ hi)]
  refine ⟨_, hback, rfl, rfl, ?_, ?_⟩
  · refine ⟨hn.parts, hn.activeOutputs, hn.passiveOutputs, by simpa using hn.inputs, ?_⟩
    intro i
    by_cases hi : i < n
    · rw [hinputs i hi, Grid.clear_receiveAllBack]
      exact hn.unrestricted i
    · simp [hn.inputs, hi]
  · intro i hi hpassive
    rw [hinputs i hi, hempty i hi hpassive, heard_wiring]
    rfl

/-- Emptying some inputs keeps their number and what they accept. -/
theorem clearAt_spec {problem : Problem P α} {n : Nat} (hn : problem.Sized n)
    (indices : List Nat) :
    Sized { problem with inputs := clearAt indices problem.inputs } n ∧
      ∀ i < n, (clearAt indices problem.inputs).getD i .unrestricted
        = if i ∈ indices then .unrestricted else problem.inputs.getD i .unrestricted := by
  have hget : ∀ i < n, (clearAt indices problem.inputs).getD i .unrestricted
      = if i ∈ indices then .unrestricted else problem.inputs.getD i .unrestricted := by
    intro i hi
    rw [clearAt_eq, getD_mapIdx (hn.inputs.symm ▸ hi)]
    simp only [hn.unrestricted i]
  refine ⟨⟨hn.parts, hn.activeOutputs, hn.passiveOutputs, ?_, ?_⟩, hget⟩
  · simpa [clearAt_eq] using hn.inputs
  · intro i
    by_cases hi : i < n
    · rw [hget i hi]
      split
      · rfl
      · exact hn.unrestricted i
    · simp [clearAt_eq, hn.inputs, hi]

variable [Part P α]

/-- What a frame measures is the sum of what the grids contribute in its tick. -/
theorem meter_of_mem_frames (m : Problem P α) (ts : List UInt64) (f : Frame P α) :
    ∀ x ∈ m.wiring.frames f ts, x.2.meter = MeterState.zero.addAll
      (m.grids.flatMap fun g => g.contributions x.2.activeOutputs) := by
  induction ts generalizing f with
  | nil => intro x hx; exact absurd hx (by simp [Wiring.frames])
  | cons t ts ih =>
    intro x hx
    rcases List.mem_cons.mp hx with rfl | hx
    · exact measured_wiring m _
    · exact ih _ x hx

/-- The active parts are stepped on what they hear of the frame before. -/
theorem stepActive_spec {problem : Problem P α} {w : Wiring α} {f : Frame P α} {n : Nat}
    (hw : w.Sound n) (h : problem.Shows w f n) (t : UInt64) :
    let active := stepTogether w.active t f.meter (w.heard f.passiveOutputs) f.parts f.activeOutputs
    (problem.stepActive t).wiring = w ∧
      (problem.stepActive t).frame = { f with parts := active.1, activeOutputs := active.2 } ∧
      (problem.stepActive t).Sized n ∧
      (problem.stepActive t).inputs = problem.inputs := by
  obtain ⟨rfl, rfl, hn, hheard⟩ := h
  have hlt : ∀ i ∈ problem.active, i < problem.parts.size := hn.parts ▸ hw.active_lt
  have hstep := stepTogether_eq t problem.meter problem.inputs problem.active hw.active_nodup
    problem.parts problem.activeOutputs hlt
  have hcongr : ∀ i ∈ problem.active,
      problem.inputs.getD i .unrestricted = problem.wiring.heard problem.passiveOutputs i :=
    fun i hi => hheard i (hw.active_lt i hi) (hw.disjoint i hi)
  rw [stepTogether_congr hcongr] at hstep
  simp only [stepActive, hstep]
  refine ⟨rfl, rfl, ⟨?_, ?_, hn.passiveOutputs, hn.inputs, hn.unrestricted⟩, trivial⟩
  · simpa using hn.parts
  · simpa using hn.activeOutputs

/-- The passive parts are stepped on the inputs of the problem. -/
theorem stepPassive_spec {problem : Problem P α} {w : Wiring α} {f : Frame P α} {n : Nat}
    (hwiring : problem.wiring = w) (hframe : problem.frame = f) (hw : w.Sound n)
    (hn : problem.Sized n) (received : Nat → FlowMap α)
    (hreceived : ∀ i < n, i ∈ w.passive → problem.inputs.getD i .unrestricted = received i)
    (t : UInt64) (meter : MeterState α) :
    let passive := stepTogether w.passive t meter received f.parts f.passiveOutputs
    (problem.stepPassive t meter).wiring = w ∧
      (problem.stepPassive t meter).frame
        = { f with parts := passive.1, passiveOutputs := passive.2 } ∧
      (problem.stepPassive t meter).Sized n ∧
      (problem.stepPassive t meter).inputs = problem.inputs := by
  subst hwiring hframe
  have hlt : ∀ i ∈ problem.passive, i < problem.parts.size := hn.parts ▸ hw.passive_lt
  have hstep := stepTogether_eq t meter problem.inputs problem.passive hw.passive_nodup
    problem.parts problem.passiveOutputs hlt
  have hcongr : ∀ i ∈ problem.passive, problem.inputs.getD i .unrestricted = received i :=
    fun i hi => hreceived i (hw.passive_lt i hi) hi
  rw [stepTogether_congr hcongr] at hstep
  simp only [stepPassive, hstep]
  refine ⟨rfl, rfl, ⟨?_, hn.activeOutputs, ?_, hn.inputs, hn.unrestricted⟩, trivial⟩
  · simpa using hn.parts
  · simpa using hn.passiveOutputs

/-- **A tick of the problem is a step of the frames.** -/
theorem tick_shows {problem : Problem P α} {w : Wiring α} {f : Frame P α} {n : Nat}
    (hw : w.Sound n) (h : problem.Shows w f n) (t : UInt64) :
    ∃ problem' : Problem P α, problem.tick t = .ok problem' ∧ problem'.Shows w (w.next f t) n := by
  obtain ⟨hw₁, hf₁, hn₁, hi₁⟩ := stepActive_spec hw h t
  obtain ⟨q, hq, hw₂, hf₂, hn₂, htold, hkept⟩ := deliverForward_spec hw₁ hw hn₁
  have houtputs := congrArg Frame.activeOutputs hf₁
  simp only [frame] at houtputs
  rw [hf₁, houtputs] at hf₂
  rw [houtputs] at htold
  have hmeter := congrArg Frame.meter hf₂
  obtain ⟨hw₃, hf₃, hn₃, hi₃⟩ := stepPassive_spec hw₂ hf₂ hw hn₂ _ htold t q.meter
  obtain ⟨hn₄, hget⟩ := clearAt_spec hn₃ (q.stepPassive t q.meter).needsInput
  have hneeds : (q.stepPassive t q.meter).needsInput = w.needsInput := by rw [← hw₃]; rfl
  have hempty : ∀ i < n, i ∉ w.passive →
      (clearAt (q.stepPassive t q.meter).needsInput (q.stepPassive t q.meter).inputs).getD i
        .unrestricted = .unrestricted := by
    intro i hi hpassive
    rw [hget i hi, hneeds]
    split
    · rfl
    · -- nobody delivers to a part that does not react to input
      rename_i hidle
      rw [hi₃, hkept i hi hpassive, hi₁, h.heard i hi hpassive]
      exact Wiring.heard_of_not_mem hw hidle _
  obtain ⟨problem', hback, hshows⟩ := deliverBack_shows hn₄ hw₃ hw hempty
  refine ⟨problem', by simp only [tick, hq, bind, Except.bind, hback], ?_⟩
  have hnext : (q.stepPassive t q.meter).frame = w.next f t := by
    rw [hf₃, show q.meter = _ from hmeter]
    rfl
  exact hnext ▸ hshows

/-- Before the first tick the passive parts publish, and the problem shows the first frame. -/
theorem publishFirst_shows {problem : Problem P α} {w : Wiring α} {n : Nat}
    (hwiring : problem.wiring = w) (hw : w.Sound n) (hn : problem.Sized n)
    (hinputs : ∀ i < n, problem.inputs.getD i .unrestricted = .unrestricted)
    (hmeter : problem.meter = .zero) (t : UInt64) :
    ∃ problem' : Problem P α, problem.publishFirst t = .ok problem' ∧
      problem'.Shows w (w.first problem.frame t) n := by
  obtain ⟨hw₁, hf₁, hn₁, hi₁⟩ := stepPassive_spec hwiring rfl hw hn
    (fun _ => .unrestricted) (fun i hi _ => hinputs i hi) t .zero
  obtain ⟨problem', hback, hshows⟩ := deliverBack_shows hn₁ hw₁ hw
    (fun i hi _ => hi₁ ▸ hinputs i hi)
  refine ⟨problem', hback, ?_⟩
  have hfirst : (problem.stepPassive t .zero).frame = w.first problem.frame t := by
    rw [hf₁, Wiring.first, ← hmeter]
    rfl
  exact hfirst ▸ hshows

end Problem

/-! ### A whole run -/

section Runs

variable {P α : Type} [Scalar α]

/-- A recording with one more frame written down: the meter state, and the outputs of the active and of
the passive parts. -/
def Wiring.record (w : Wiring α) (r : Recording α) (x : UInt64 × Frame P α) : Recording α :=
  ((r.pushMeter x.1 x.2.meter).pushOutputs x.1 x.2.activeOutputs w.active).pushOutputs x.1
    x.2.passiveOutputs w.passive

variable [Part P α]

/-- The ticks of a run, one after the other: the problem shows the last frame, and every frame is written
down once. -/
theorem Run.ticks_shows {w : Wiring α} {n : Nat} (hw : w.Sound n) :
    ∀ (ts : List UInt64) (run : Run P α) (f : Frame P α), run.problem.Shows w f n →
      run.profile.stop? = none →
      ∃ run' : Run P α, run.ticks ts = .ok run' ∧ run'.problem.Shows w (w.last f ts) n ∧
        run'.profile = { run.profile with
          entries := run.profile.entries ++ ((w.frames f ts).map fun x => x.2.meter).toArray } ∧
        run'.recording? = run.recording?.map fun r => (w.frames f ts).foldl w.record r := by
  intro ts
  induction ts with
  | nil =>
    intro run f h _
    refine ⟨run, rfl, h, by simp [Wiring.frames], ?_⟩
    simp [Wiring.frames]
  | cons t ts ih =>
    intro run f h hopen
    obtain ⟨problem', htick, hshows⟩ := Problem.tick_shows hw h t
    have hwiring := hshows.wiring
    have hframe := hshows.frame
    have hrun : run.tick t = .ok (({ run with problem := problem' } : Run P α).note t) := by
      simp only [Run.tick, htick, Interruption.lift, bind, Except.bind, pure, Except.pure]
    obtain ⟨run', hrest, hlast, hprofile, hrecording⟩ :=
      ih (({ run with problem := problem' } : Run P α).note t) (w.next f t) hshows
        (by simp [Run.note, LoadProfile.push, LoadProfile.isClosed, hopen])
    refine ⟨run', ?_, hlast, ?_, ?_⟩
    · simp only [Run.ticks, hrun, bind, Except.bind, hrest]
    · rw [hprofile]
      have hmeter : problem'.meter = (w.next f t).meter := congrArg Frame.meter hframe
      simp [Run.note, LoadProfile.push, LoadProfile.isClosed, hopen, Wiring.frames, hmeter]
    · rw [hrecording]
      have hnote : (({ run with problem := problem' } : Run P α).note t).recording?
          = run.recording?.map fun r => w.record r (t, w.next f t) := by
        rw [← hframe]
        subst hwiring
        rfl
      rw [hnote, Option.map_map]
      rfl

/-- **A whole run is the chain of its frames.** It starts from a problem with empty inputs, and the load
profile and the recording are read off the frames. -/
theorem simulate_eq {problem : Problem P α} {w : Wiring α} {n : Nat} {window : Window}
    (hwiring : problem.wiring = w) (hw : w.Sound n) (hn : problem.Sized n)
    (hinputs : ∀ i < n, problem.inputs.getD i .unrestricted = .unrestricted)
    (hmeter : problem.meter = .zero) (hstep : window.step ≠ 0)
    (hroom : window.overflows = false) (recording? : Option (Recording α)) :
    let begun := w.first problem.frame window.referenceTime
    let frames := w.frames begun window.clock.ticks
    ∃ run : Run P α, simulate window problem recording? = .ok run ∧
      run.problem.Shows w (w.last begun window.clock.ticks) n ∧
      run.profile =
        { start := window.referenceTime
          step := window.step
          entries := (frames.map fun x => x.2.meter).toArray
          stop? := some window.stop } ∧
      run.recording? = recording?.map fun r => frames.foldl w.record r := by
  obtain ⟨problem', hfirst, hshows⟩ :=
    Problem.publishFirst_shows hwiring hw hn hinputs hmeter window.referenceTime
  obtain ⟨run, hticks, hlast, hprofile, hrecording⟩ := Run.ticks_shows hw window.clock.ticks
    { problem := problem'
      profile :=
        { start := window.referenceTime, step := window.step, entries := #[], stop? := none }
      recording? } _ hshows rfl
  refine ⟨{ run with profile := run.profile.close window.stop }, ?_, hlast, ?_, hrecording⟩
  · simp only [simulate, hfirst, LoadProfile.new, if_neg hstep, hroom, Bool.false_eq_true, if_false, hticks]
  · simp [hprofile, LoadProfile.close]

/-- A run whose profile does not fit into a table stops before its first tick. -/
theorem simulate_overflow {problem : Problem P α} {w : Wiring α} {n : Nat} {window : Window}
    (hwiring : problem.wiring = w) (hw : w.Sound n) (hn : problem.Sized n)
    (hinputs : ∀ i < n, problem.inputs.getD i .unrestricted = .unrestricted)
    (hmeter : problem.meter = .zero) (hstep : window.step ≠ 0)
    (hfull : window.overflows = true) (recording? : Option (Recording α)) :
    ∃ problem' : Problem P α,
      simulate window problem recording?
        = .error { failure := .defect .capacityExceeded, state := (problem', recording?) } ∧
      problem'.Shows w (w.first problem.frame window.referenceTime) n := by
  obtain ⟨problem', hfirst, hshows⟩ :=
    Problem.publishFirst_shows hwiring hw hn hinputs hmeter window.referenceTime
  refine ⟨problem', ?_, hshows⟩
  simp only [simulate, hfirst, LoadProfile.new, if_neg hstep, hfull, if_true]

end Runs

end HomeEnergy

import HomeEnergy.Proofs.Distribution
import HomeEnergy.Proofs.Frames
import HomeEnergy.Proofs.Ticks

/-!
# The course of an evaluation

An evaluation hands a solution out, starts the parts, runs the ticks and settles the parts that took part.
This module puts the frames of the run into that setting.

* `Problem.started` — the frame that a run starts from.
* `Run.settle_eq` — settling the parts one after the other settles each of them once.
* `Evaluator.Serves` — a problem that is the master of an evaluator; `Problem.Like` — a container that is
  wired like it.
* `Evaluator.runOn_eq` — **an evaluation of a solution that the parts accept is the chain of its frames**:
  its fitness, load profile and recording are read off them.
* `Evaluator.runOn_refused`, `Evaluator.runOn_overflow` — the two ways in which there is no run.
* `Evaluator.runOn_like` — an evaluation leaves a container that is wired like the master.
-/

namespace HomeEnergy

/-! ### Starting and settling -/

section Parts

variable {P : Type}

/-- Changing the entries with the given indices, one after the other, said for every entry. -/
theorem foldl_modify_eq (g : Nat → P → P) :
    ∀ (indices : List Nat), indices.Nodup → ∀ parts : Array P,
      indices.foldl (fun parts i => parts.modify i (g i)) parts
        = parts.mapIdx fun i p => if i ∈ indices then g i p else p := by
  intro indices
  induction indices with
  | nil => intro _ parts; apply Array.ext <;> simp
  | cons j indices ih =>
    intro hnodup parts
    obtain ⟨hj, hrest⟩ := List.nodup_cons.mp hnodup
    rw [List.foldl_cons, ih hrest]
    apply Array.ext
    · simp
    · intro i h₁ h₂
      simp only [Array.getElem_mapIdx, Array.getElem_modify, List.mem_cons]
      by_cases hij : j = i
      · subst hij
        simp [hj]
      · simp [hij, Ne.symm hij]

end Parts

namespace Problem

variable {P α : Type} [Scalar α] [Part P α]

/-- The frame that a run starts from: started parts, and nothing published or measured. -/
def started (problem : Problem P α) (parts : Array P) (settings : RunSettings) : Frame P α :=
  { parts := parts.mapIdx fun i p => if i ∈ problem.taking then Part.start p settings else p
    activeOutputs := problem.activeOutputs.map FlowMap.clear
    passiveOutputs := problem.passiveOutputs.map FlowMap.clear
    meter := .zero }

/-- A problem at the start of a run. -/
theorem startParts_spec {problem : Problem P α} {n : Nat} (hw : problem.wiring.Sound n)
    (hn : problem.Sized n) {parts : Array P} (hparts : parts.size = n) (settings : RunSettings) :
    let begun := ({ problem.clearExchange with parts } : Problem P α).startParts settings
    begun.wiring = problem.wiring ∧ begun.frame = problem.started parts settings ∧
      begun.Sized n ∧ ∀ i < n, begun.inputs.getD i .unrestricted = .unrestricted := by
  have hinputs : ∀ i, (problem.inputs.map FlowMap.clear).getD i .unrestricted = .unrestricted := by
    intro i
    by_cases hi : i < problem.inputs.size
    · have hget := hn.unrestricted i
      simpa [hi] using hget
    · simp [hi]
  have hstart := foldl_modify_eq (fun _ p => Part.start p settings) problem.taking hw.taking_nodup parts
  refine ⟨rfl, ?_, ?_, fun i _ => hinputs i⟩
  · simp only [frame, startParts, clearExchange, started, hstart]
  · refine ⟨?_, ?_, ?_, ?_, ?_⟩
    · simp [startParts, clearExchange, hstart, hparts]
    · simpa [startParts, clearExchange] using hn.activeOutputs
    · simpa [startParts, clearExchange] using hn.passiveOutputs
    · simpa [startParts, clearExchange] using hn.inputs
    · intro i
      have hi := hinputs i
      simp only [startParts, clearExchange]
      rw [hi]
      rfl

end Problem

namespace Run

variable {P α : Type} [Scalar α] [Part P α]

def cost (parts : Array P) (i : Nat) : α :=
  match parts[i]? with
  | some p => Part.terminalCost (Part.settle p : P)
  | none => 0

def settledParts (parts : Array P) (indices : List Nat) : Array P :=
  parts.mapIdx fun i p => if i ∈ indices then Part.settle p else p

def recordCosts (parts : Array P) (indices : List Nat) (r : Recording α) : Recording α :=
  indices.foldl (fun r i => r.setTerminalCost i (cost parts i)) r

theorem cost_setIfInBounds {i j : Nat} (h : i ≠ j) (parts : Array P) (p : P) :
    cost (parts.setIfInBounds i p) j = cost parts j := by
  simp [cost, h]

theorem foldl_cost_congr {indices : List Nat} {i : Nat} (hi : i ∉ indices) {β : Type}
    (g : β → Nat → α → β) (parts : Array P) (p : P) (b : β) :
    indices.foldl (fun b j => g b j (cost (parts.setIfInBounds i p) j)) b
      = indices.foldl (fun b j => g b j (cost parts j)) b := by
  induction indices generalizing b with
  | nil => rfl
  | cons j indices ih =>
    have hij : i ≠ j := fun h => hi (by simp [h])
    rw [List.foldl_cons, List.foldl_cons, cost_setIfInBounds hij]
    exact ih (fun h => hi (by simp [h])) _

omit [Scalar α] in
/-- Settling a part, and then others, settles all of them. -/
theorem settledParts_cons {parts : Array P} {i : Nat} (hlt : i < parts.size) {indices : List Nat}
    (hi : i ∉ indices) :
    settledParts (parts.setIfInBounds i (Part.settle parts[i])) indices
      = settledParts parts (i :: indices) := by
  apply Array.ext
  · simp [settledParts]
  · intro j h₁ h₂
    have hjp : j < parts.size := by simpa [settledParts] using h₂
    simp only [settledParts, Array.getElem_mapIdx, List.mem_cons]
    by_cases hj : j = i
    · subst hj
      simp [hi]
    · simp [hj, Array.getElem_setIfInBounds_ne hjp (Ne.symm hj)]

/-- Settling one part. -/
theorem settle_one (run : Run P α) (total : α) {i : Nat} (hlt : i < run.problem.parts.size) :
    Run.settle (run, total) i
      = ({ run with
            problem := { run.problem with
              parts := run.problem.parts.setIfInBounds i (Part.settle run.problem.parts[i]) }
            recording? := run.recording?.map fun r =>
              r.setTerminalCost i (cost run.problem.parts i) },
          total + cost run.problem.parts i) := by
  have hp : run.problem.parts[i]? = some run.problem.parts[i] := Array.getElem?_eq_getElem hlt
  have hcost : (Part.terminalCost (Part.settle run.problem.parts[i]) : α)
      = cost run.problem.parts i := by
    simp only [cost, hp]
  simp only [Run.settle, hp, hcost]

/-- **Settling parts one after the other settles each of them once.** -/
theorem settle_eq :
    ∀ (indices : List Nat), indices.Nodup → ∀ (run : Run P α) (total : α),
      (∀ i ∈ indices, i < run.problem.parts.size) →
      indices.foldl Run.settle (run, total)
        = ({ run with
              problem := { run.problem with parts := settledParts run.problem.parts indices }
              recording? := run.recording?.map (recordCosts run.problem.parts indices) },
            indices.foldl (fun total i => total + cost run.problem.parts i) total) := by
  intro indices
  induction indices with
  | nil =>
    intro _ run total _
    have hparts : settledParts run.problem.parts [] = run.problem.parts := by
      apply Array.ext <;> simp [settledParts]
    have hrecording : run.recording?.map (recordCosts run.problem.parts []) = run.recording? := by
      cases run.recording? <;> rfl
    simp only [List.foldl_nil, hparts, hrecording]
  | cons i indices ih =>
    intro hnodup run total hlt
    obtain ⟨hi, hrest⟩ := List.nodup_cons.mp hnodup
    have hilt : i < run.problem.parts.size := hlt i (by simp)
    have hrecord : (recordCosts
          (run.problem.parts.setIfInBounds i (Part.settle run.problem.parts[i])) indices ∘
          fun r => r.setTerminalCost i (cost run.problem.parts i))
        = recordCosts run.problem.parts (i :: indices) := by
      funext r
      exact foldl_cost_congr hi (fun r j c => Recording.setTerminalCost r j c) ..
    rw [List.foldl_cons, settle_one run total hilt, ih hrest]
    · simp only [settledParts_cons hilt hi, Option.map_map, hrecord, List.foldl_cons]
      rw [foldl_cost_congr hi fun total _ c => total + c]
    · intro j hj
      simpa using hlt j (by simp [hj])

end Run

/-! ### An evaluation -/

/-- A window has too many ticks for a table if the clock hands out too many: it never hands out fewer than it
counts. -/
theorem Window.overflows_iff {w : Window} (hstep : w.step ≠ 0) :
    w.overflows = true ↔ maxTableBytes < 80 * w.clock.ticks.length := by
  have hle : w.tickCount ≤ w.clock.ticks.length :=
    Clock.remaining_le_length_ticks (toNat_pos_of_ne_zero hstep)
  rw [overflows, Bool.or_eq_true, decide_eq_true_iff, decide_eq_true_iff]
  omega

variable {P α : Type} [Scalar α] [Part P α]

namespace Evaluator

def begun (e : Evaluator P α) (w : Wiring α) (f : Frame P α) : Frame P α :=
  w.first f e.window.referenceTime

def frames (e : Evaluator P α) (w : Wiring α) (f : Frame P α) : List (UInt64 × Frame P α) :=
  w.frames (e.begun w f) e.window.clock.ticks

def ended (e : Evaluator P α) (w : Wiring α) (f : Frame P α) : Frame P α :=
  w.last (e.begun w f) e.window.clock.ticks

/-- The load profile of an evaluation. -/
def profileOf (e : Evaluator P α) (w : Wiring α) (f : Frame P α) : LoadProfile α :=
  { start := e.window.referenceTime
    step := e.window.step
    entries := ((e.frames w f).map fun x => x.2.meter).toArray
    stop? := some e.window.stop }

/-- The fitness of an evaluation: the bill, and on top of it what settling the parts costs. -/
def fitnessOf (e : Evaluator P α) (w : Wiring α) (f : Frame P α) : α :=
  w.taking.foldl (fun total i => total + Run.cost (e.ended w f).parts i) (e.bill (e.profileOf w f))

def recordingOf (e : Evaluator P α) (w : Wiring α) (f : Frame P α) (r : Recording α) : Recording α :=
  Run.recordCosts (e.ended w f).parts w.taking
    ((e.frames w f).foldl w.record (r.begin f.parts.toList))

/-- Whether the load profile of an evaluation fits into a table. -/
def Fits (e : Evaluator P α) : Prop :=
  80 * e.window.clock.ticks.length ≤ maxTableBytes

instance (e : Evaluator P α) : Decidable e.Fits :=
  inferInstanceAs (Decidable (_ ≤ _))

omit [Scalar α] [Part P α] in
theorem fits_iff {e : Evaluator P α} (hstep : e.window.step ≠ 0) :
    e.Fits ↔ e.window.overflows = false := by
  rw [Fits, ← Bool.not_eq_true, Window.overflows_iff hstep, Nat.not_lt]

end Evaluator

/-! ### Containers -/

/-- The master of an evaluator: it is ready for runs, and the evaluator shares solutions out by its parts. -/
structure Evaluator.Serves (e : Evaluator P α) (m : Problem P α) (n : Nat) : Prop where
  sound : m.wiring.Sound n
  sized : m.Sized n
  step : e.window.step ≠ 0
  layout : e.layout = .ofParts m.parts.toList
  taking : ∀ (i : Nat) (p : P), m.parts[i]? = some p → (i ∈ m.taking ↔ Part.isStatic p = false)

/-- A container that is wired like the master, whatever has become of its parts. -/
structure Problem.Like (c m : Problem P α) (n : Nat) : Prop where
  wiring : c.wiring = m.wiring
  sized : c.Sized n

omit [Part P α] in
/-- Emptying the maps of a container does not change how it is wired. -/
theorem Problem.Like.clearExchange {c m : Problem P α} {n : Nat} (h : c.Like m n) :
    c.clearExchange.Like m n := by
  refine ⟨h.wiring, h.sized.parts, ?_, ?_, ?_, ?_⟩
  · simpa [Problem.clearExchange] using h.sized.activeOutputs
  · simpa [Problem.clearExchange] using h.sized.passiveOutputs
  · simpa [Problem.clearExchange] using h.sized.inputs
  · intro i
    have hi := h.sized.unrestricted i
    by_cases hlt : i < c.inputs.size
    · simpa [Problem.clearExchange, hlt] using hi
    · simp [Problem.clearExchange, hlt]

namespace Evaluator

variable {e : Evaluator P α} {m c : Problem P α} {n : Nat}

/-- Whether a container accepts a solution is decided by the solution alone. -/
theorem distribute_like (he : e.Serves m n) (h : c.Like m n) (s : Solution α) :
    e.layout.distribute s c.parts = if e.layout.Accepts s then .ok (e.layout.handOut s c.parts)
      else .error (e.layout.refusal s) := by
  refine Layout.distribute_eq ?_
  rw [h.sized.parts, he.layout, Layout.size_shares_ofParts]
  simpa using he.sized.parts.symm

def startOf (e : Evaluator P α) (c : Problem P α) (s : Solution α) (flags : EvaluationFlags) :
    Frame P α :=
  c.started (e.layout.handOut s c.parts) (e.settings flags)

/-- A container at the start of a run. -/
theorem startParts_like (he : e.Serves m n) (h : c.Like m n) (s : Solution α)
    (flags : EvaluationFlags) :
    let begun := ({ c.clearExchange with parts := e.layout.handOut s c.parts } : Problem P α).startParts
      (e.settings flags)
    begun.wiring = m.wiring ∧ begun.frame = e.startOf c s flags ∧ begun.Sized n ∧
      ∀ i < n, begun.inputs.getD i .unrestricted = .unrestricted := by
  have hsize : (e.layout.handOut s c.parts).size = n := by
    simpa [Layout.handOut] using h.sized.parts
  have hsound : c.wiring.Sound n := h.wiring ▸ he.sound
  have hstart := Problem.startParts_spec hsound h.sized hsize (e.settings flags)
  rw [h.wiring] at hstart
  exact hstart

/-- **An evaluation of a solution that the parts accept is the chain of its frames.** -/
theorem runOn_eq (he : e.Serves m n) (h : c.Like m n) {s : Solution α} (hs : e.layout.Accepts s)
    (hfits : e.Fits) (flags : EvaluationFlags) (recording? : Option (Recording α)) :
    let f := e.startOf c s flags
    let answer := e.runOn c s flags recording?
    answer.result = .ok { fitness := e.fitnessOf m.wiring f, profile := e.profileOf m.wiring f } ∧
      answer.recording? = recording?.map (e.recordingOf m.wiring f) ∧
      answer.problem.Like m n ∧
      answer.problem.frame = { e.ended m.wiring f with
        parts := Run.settledParts (e.ended m.wiring f).parts m.taking } := by
  intro f
  have haccepted := distribute_like he h s
  rw [if_pos hs] at haccepted
  obtain ⟨hwiring, hframe, hsized, hinputs⟩ := startParts_like he h s flags
  obtain ⟨run, hrun, hshows, hprofile, hrecording⟩ := simulate_eq hwiring he.sound hsized hinputs rfl
    he.step ((fits_iff he.step).mp hfits) (recording?.map fun r => r.begin f.parts.toList)
  rw [hframe] at hshows hprofile hrecording
  have hended : run.problem.frame = e.ended m.wiring f := hshows.frame
  have hlast : run.problem.parts = (e.ended m.wiring f).parts := congrArg Frame.parts hended
  have htaking : c.taking = m.taking := congrArg Wiring.taking h.wiring
  have hsettle := Run.settle_eq m.taking he.sound.taking_nodup run (e.bill run.profile) (by
    intro i hi
    rw [hshows.sized.parts]
    exact he.sound.taking_lt i hi)
  have hrunOn : e.runOn c s flags recording?
      = { result := .ok
            { fitness := m.taking.foldl (fun total i => total + Run.cost run.problem.parts i)
                (e.bill run.profile)
              profile := run.profile }
          problem := { run.problem with parts := Run.settledParts run.problem.parts m.taking }
          recording? := run.recording?.map (Run.recordCosts run.problem.parts m.taking) } := by
    have hbegun : (({ c.clearExchange with parts := e.layout.handOut s c.parts } :
        Problem P α).startParts (e.settings flags)).parts = f.parts := congrArg Frame.parts hframe
    have haccepted' : e.layout.distribute s c.clearExchange.parts
        = .ok (e.layout.handOut s c.parts) := haccepted
    have htaking' : (({ c.clearExchange with parts := e.layout.handOut s c.parts } :
        Problem P α).startParts (e.settings flags)).taking = m.taking := htaking
    simp only [runOn, haccepted', hbegun, hrun]
    show Answer.mk _ _ _ = _
    simp only [htaking', hsettle]
  rw [hrunOn]
  refine ⟨?_, ?_, ⟨hshows.wiring, ?_⟩, ?_⟩
  · rw [hlast, hprofile]
    rfl
  · rw [hrecording, hlast]
    cases recording? <;> rfl
  · exact Problem.sized_parts hshows.sized (by simp [Run.settledParts])
  · rw [← hended]
    rfl

/-- A solution that the parts refuse starts no run. -/
theorem runOn_refused (he : e.Serves m n) (h : c.Like m n) {s : Solution α}
    (hs : ¬ e.layout.Accepts s) (flags : EvaluationFlags) (recording? : Option (Recording α)) :
    e.runOn c s flags recording?
      = { result := .error (e.layout.refusal s), problem := c.clearExchange, recording? } := by
  have hrefused := distribute_like he h s
  rw [if_neg hs] at hrefused
  have hrefused' : e.layout.distribute s c.clearExchange.parts = .error (e.layout.refusal s) :=
    hrefused
  simp only [runOn, hrefused']

/-- A load profile that does not fit into a table ends the run before its first tick. -/
theorem runOn_overflow (he : e.Serves m n) (h : c.Like m n) {s : Solution α}
    (hs : e.layout.Accepts s) (hfits : ¬ e.Fits) (flags : EvaluationFlags)
    (recording? : Option (Recording α)) :
    let f := e.startOf c s flags
    let answer := e.runOn c s flags recording?
    answer.result = .error (.defect .capacityExceeded) ∧
      answer.recording? = recording?.map (fun r => r.begin f.parts.toList) ∧
      answer.problem.Like m n ∧
      answer.problem.frame = e.begun m.wiring f := by
  intro f
  have haccepted := distribute_like he h s
  rw [if_pos hs] at haccepted
  obtain ⟨hwiring, hframe, hsized, hinputs⟩ := startParts_like he h s flags
  obtain ⟨problem', hrun, hshows⟩ := simulate_overflow hwiring he.sound hsized hinputs rfl he.step
    (by rwa [fits_iff he.step, Bool.not_eq_false] at hfits) (recording?.map fun r => r.begin f.parts.toList)
  rw [hframe] at hshows
  have hrunOn : e.runOn c s flags recording?
      = { result := .error (.defect .capacityExceeded), problem := problem'
          recording? := recording?.map fun r => r.begin f.parts.toList } := by
    have hbegun : (({ c.clearExchange with parts := e.layout.handOut s c.parts } :
        Problem P α).startParts (e.settings flags)).parts = f.parts := congrArg Frame.parts hframe
    have haccepted' : e.layout.distribute s c.clearExchange.parts
        = .ok (e.layout.handOut s c.parts) := haccepted
    simp only [runOn, haccepted', hbegun, hrun]
  rw [hrunOn]
  exact ⟨rfl, rfl, ⟨hshows.wiring, hshows.sized⟩, hshows.frame⟩

/-- Whatever an evaluation comes to, the container stays wired like the master. -/
theorem runOn_like (he : e.Serves m n) (h : c.Like m n) (s : Solution α) (flags : EvaluationFlags)
    (recording? : Option (Recording α)) : (e.runOn c s flags recording?).problem.Like m n := by
  by_cases hs : e.layout.Accepts s
  · by_cases hfits : e.Fits
    · exact (runOn_eq he h hs hfits flags recording?).2.2.1
    · exact (runOn_overflow he h hs hfits flags recording?).2.2.1
  · rw [runOn_refused he h hs]
    exact h.clearExchange

end Evaluator

end HomeEnergy

import HomeEnergy.Proofs.Traffic

/-!
# The synchronous reading of a run

What a run computes can be read without its maps. Time goes in ticks, and between two ticks there are only the
parts, what they publish and the meter state. In a tick every active part sees the meter state of the tick
before and, if it reacts to input, what the passive parts published in the tick before. Every passive part sees
the meter state of the tick itself and what the active parts publish in it. All exchanges go into empty maps,
over grids that nothing has passed through.

The parts of this module are arbitrary: a step may do anything that depends on its input.

* `Problem.synchronousTick`, `Problem.synchronousRun` — the reading, with the exchanges of the grids as they
  are, but always over the grids of a new problem and into new maps.
* `Problem.synchronousRun_eq` — the reading never fails, and comes to the chain of frames.
* `evaluation_synchronous` — **every evaluation follows the synchronous reading**, whatever its container has
  gone through.
-/

namespace HomeEnergy

namespace Problem

section Reading

variable {P α : Type} [Scalar α]

def noInputs (problem : Problem P α) : Array (FlowMap α) :=
  Array.replicate problem.parts.size .unrestricted

variable [Part P α]

/-- Before the first tick the passive parts are stepped once, on empty inputs and a meter state of zero. -/
def synchronousStart (problem : Problem P α) (f : Frame P α) (tick : UInt64) : Frame P α :=
  let (parts, passiveOutputs) :=
    stepTogether problem.passive tick .zero (fun _ => .unrestricted) f.parts f.passiveOutputs
  { parts, activeOutputs := f.activeOutputs, passiveOutputs, meter := .zero }

/-- A tick from the one before. -/
def synchronousTick (problem : Problem P α) (f : Frame P α) (tick : UInt64) :
    Except Failure (Frame P α) := do
  let heard ← Grid.deliverBack f.passiveOutputs problem.grids problem.noInputs
  let (parts, activeOutputs) := stepTogether problem.active tick f.meter
    (fun i => if i ∈ problem.needsInput then heard.getD i .unrestricted else .unrestricted)
    f.parts f.activeOutputs
  let (_, told, meter) ← Grid.deliverForward activeOutputs problem.grids problem.noInputs .zero
  let (parts, passiveOutputs) := stepTogether problem.passive tick meter
    (fun i => told.getD i .unrestricted) parts f.passiveOutputs
  return { parts, activeOutputs, passiveOutputs, meter }

/-- A series of ticks, each from the one before. -/
def synchronousRun (problem : Problem P α) (f : Frame P α) :
    List UInt64 → Except Failure (List (UInt64 × Frame P α))
  | [] => .ok []
  | t :: ts => do
    let f ← problem.synchronousTick f t
    return (t, f) :: (← problem.synchronousRun f ts)

end Reading

/-! ### The reading and the frames -/

section Frames

variable {P α : Type} [Scalar α] [Part P α] {m : Problem P α} {n : Nat}

/-- **A tick of the reading is a step of the frames.** -/
theorem synchronousTick_eq (hw : m.wiring.Sound n) (hn : m.parts.size = n) {f : Frame P α}
    (hactive : f.activeOutputs.size = n) (hpassive : f.passiveOutputs.size = n) (t : UInt64) :
    m.synchronousTick f t = .ok (m.wiring.next f t) := by
  have hnone : m.noInputs.size = n := by simp [noInputs, hn]
  have hempty : ∀ i < n, m.noInputs.getD i .unrestricted = .unrestricted := by
    intro i hi
    simp [noInputs, hn, hi]
  have hback := Grid.deliverBack_eq f.passiveOutputs hpassive m.grids m.noInputs (ready_of_sound hw)
    hnone
  have hheard : ∀ i ∈ m.active,
      (if i ∈ m.needsInput then
        (m.noInputs.mapIdx fun i x => Grid.receiveAllBack f.passiveOutputs m.grids i x).getD i
          .unrestricted
      else .unrestricted) = m.wiring.heard f.passiveOutputs i := by
    intro i hi
    have hlt := hw.active_lt i hi
    split
    · rw [getD_mapIdx (hnone.symm ▸ hlt), hempty i hlt, heard_wiring]
    · rename_i hidle
      exact (Wiring.heard_of_not_mem hw hidle _).symm
  have hsize : (stepTogether m.active t f.meter (m.wiring.heard f.passiveOutputs) f.parts
      f.activeOutputs).2.size = n := by simpa using hactive
  have hforward := Grid.deliverForward_eq _ hsize m.grids m.noInputs .zero (ready_of_sound hw) hnone
  have htold : ∀ outputs, ∀ i ∈ m.passive,
      (m.noInputs.mapIdx fun i x => Grid.receiveAll outputs m.grids i x).getD i .unrestricted
        = m.wiring.told outputs i := by
    intro outputs i hi
    have hlt := hw.passive_lt i hi
    rw [getD_mapIdx (hnone.symm ▸ hlt), hempty i hlt, told_wiring]
  simp only [synchronousTick, hback, bind, Except.bind, stepTogether_congr hheard, hforward,
    stepTogether_congr (htold _), ← measured_wiring]
  rfl

/-- **The reading never fails, and comes to the chain of frames.** -/
theorem synchronousRun_eq (hw : m.wiring.Sound n) (hn : m.parts.size = n) :
    ∀ (ts : List UInt64) (f : Frame P α), f.activeOutputs.size = n → f.passiveOutputs.size = n →
      m.synchronousRun f ts = .ok (m.wiring.frames f ts) := by
  intro ts
  induction ts with
  | nil => intro f _ _; rfl
  | cons t ts ih =>
    intro f hactive hpassive
    have hrest := ih (m.wiring.next f t) (by simpa [Wiring.next] using hactive)
      (by simpa [Wiring.next] using hpassive)
    simp only [synchronousRun, synchronousTick_eq hw hn hactive hpassive, hrest, bind, Except.bind]
    rfl

/-- The last frame of a series of ticks. -/
theorem last_eq_getLast? (w : Wiring α) (ts : List UInt64) (f : Frame P α) :
    w.last f ts = ((w.frames f ts).getLast?.map fun x => x.2).getD f := by
  induction ts generalizing f with
  | nil => rfl
  | cons t ts ih =>
    have hrest := ih (w.next f t)
    simp only [Wiring.last, List.foldl_cons, Wiring.frames] at hrest ⊢
    rw [hrest, List.getLast?_cons]
    cases (w.frames (w.next f t) ts).getLast? <;> rfl

end Frames

end Problem

/-! ### Evaluations -/

section Evaluations

variable {P α : Type} [Scalar α] [Part P α]

/-- An answer that follows the synchronous reading: `f` is what an evaluation starts from, and `course` is what
there is at the end of each tick. The meter state of a tick is the sum of what the grids contribute in this tick,
and the load profile holds just that. -/
structure Evaluator.Answer.Synchronous (answer : Evaluator.Answer P α) (e : Evaluator P α)
    (m : Problem P α) (f : Frame P α) (course : List (UInt64 × Frame P α)) : Prop where
  run : m.synchronousRun (m.synchronousStart f e.window.referenceTime) e.window.clock.ticks
    = .ok course
  meter : ∀ x ∈ course, x.2.meter
    = MeterState.zero.addAll (m.grids.flatMap fun g => g.contributions x.2.activeOutputs)
  profile : answer.result.map (fun outcome => outcome.profile)
    = .ok
        { start := e.window.referenceTime
          step := e.window.step
          entries := (course.map fun x => x.2.meter).toArray
          stop? := some e.window.stop }
  parts : answer.problem.parts
    = Run.settledParts ((course.getLast?.map fun x => x.2).getD
        (m.synchronousStart f e.window.referenceTime)).parts m.taking

/-- An evaluation of an accepted solution follows the synchronous reading. -/
theorem Evaluator.runOn_synchronous {e : Evaluator P α} {m c : Problem P α} {n : Nat}
    (he : e.Serves m n) (h : c.Like m n) {s : Solution α} (hs : e.layout.Accepts s) (hfits : e.Fits)
    (flags : EvaluationFlags) (recording? : Option (Recording α)) :
    (e.runOn c s flags recording?).Synchronous e m (e.startOf c s flags)
      (e.frames m.wiring (e.startOf c s flags)) := by
  obtain ⟨hresult, -, -, hframe⟩ := runOn_eq he h hs hfits flags recording?
  have hactive : (e.startOf c s flags).activeOutputs.size = n := by
    simpa [startOf, Problem.started] using h.sized.activeOutputs
  have hpassive : (e.startOf c s flags).passiveOutputs.size = n := by
    simpa [startOf, Problem.started] using h.sized.passiveOutputs
  refine ⟨?_, Problem.meter_of_mem_frames m _ _, ?_, ?_⟩
  · exact Problem.synchronousRun_eq he.sound he.sized.parts _ (m.wiring.first _ _) hactive
      (by simpa [Wiring.first] using hpassive)
  · rw [hresult]
    rfl
  · have hparts := congrArg Frame.parts hframe
    simp only [ended, Problem.last_eq_getLast?] at hparts
    exact hparts

/-- A container that an evaluation works on: one that is out, or the one that is handed out next. -/
def Traffic.Offers (t : Traffic P α) (c : Problem P α) : Prop :=
  (∃ loan ∈ t.held, loan.container = c) ∨ t.evaluator.pool.acquire.1.container = c

/-- **Every evaluation follows the synchronous reading**, in which nothing of an older tick is left over. The
parts and the grids are arbitrary, and so is what the evaluator and its containers have gone through. An
evaluation of a solution of the right width fails only where the variables of the parts are too many to be counted
in a word, or the ticks too many for a table. -/
theorem evaluation_synchronous {plan : Plan P α} {problem : Problem P α} {fresh : Evaluator P α}
    (hplan : plan.evaluator = .ok (problem, fresh)) (moves : List (Traffic.Move α)) {s : Solution α}
    (hs : s.size = (fresh.layout.width s.encoding).toNat) (flags : EvaluationFlags)
    (recording? : Option (Recording α)) :
    let t := Traffic.run { evaluator := fresh, held := [] } moves
    ∀ c, t.Offers c →
      let answer := t.evaluator.runOn c s flags recording?
      (UInt64.size ≤ Layout.totalCount s.encoding plan.parts ∧
        answer.result = .error (.defect .indexOutOfRange)) ∨
      (maxTableBytes < 80 * fresh.window.clock.ticks.length ∧
        answer.result = .error (.defect .capacityExceeded)) ∨
      ∃ parts course, fresh.layout.distribute s c.parts = .ok parts ∧
        answer.Synchronous fresh problem (c.started parts (fresh.settings flags)) course := by
  intro t c hc answer
  have hserves := Plan.serves hplan
  have hkeeps : fresh.Keeps (fun c => c.Like problem plan.parts.length) fun _ => True :=
    fun c hc s _ flags recording? => Evaluator.runOn_like hserves hc s flags recording?
  have hfresh : fresh.Holds fresh fun c => c.Like problem plan.parts.length :=
    Plan.holds hplan ⟨rfl, hserves.sized⟩
  have ht : t.Holds fresh _ := Traffic.run_holds hkeeps moves ⟨hfresh, by simp⟩
    (fun move _ => by cases move <;> trivial)
  have hlike : c.Like problem plan.parts.length := by
    rcases hc with ⟨loan, hl, rfl⟩ | rfl
    · exact ht.held loan hl
    · exact (acquire_holds ht.evaluator.pool).1
  have hanswer : answer = fresh.runOn c s flags recording? := by
    show t.evaluator.runOn c s flags recording? = _
    rw [ht.evaluator.same]
    rfl
  rw [hanswer]
  by_cases haccepts : fresh.layout.Accepts s
  · by_cases hfits : fresh.Fits
    · refine Or.inr (Or.inr ⟨_, _, ?_, Evaluator.runOn_synchronous hserves hlike haccepts hfits
        flags recording?⟩)
      rw [Evaluator.distribute_like hserves hlike, if_pos haccepts]
    · exact Or.inr (Or.inl ⟨Nat.lt_of_not_le hfits,
        (Evaluator.runOn_overflow hserves hlike haccepts hfits flags recording?).1⟩)
  · refine Or.inl ⟨?_, ?_⟩
    · exact Nat.le_of_not_lt fun hcount => haccepts (Plan.accepts_of_width hplan hs hcount)
    · rw [Evaluator.runOn_refused hserves hlike haccepts, Layout.refusal, if_pos hs]

/-- The household runs in step after a busy day. -/
theorem evaluation_synchronous_busyDay :
    ∃ problem fresh, (household Double .dominance).evaluator = .ok (problem, fresh) ∧
      let s : Solution Double := .real (Array.replicate 10 0.5)
      s.size = (fresh.layout.width s.encoding).toNat ∧
      let t := Traffic.run { evaluator := fresh, held := [] } Household.busyDay
      ∀ c, t.Offers c → ∃ parts course, fresh.layout.distribute s c.parts = .ok parts ∧
        (t.evaluator.runOn c s .none none).Synchronous fresh problem
          (c.started parts (fresh.settings .none)) course := by
  obtain ⟨problem, fresh, hplan⟩ := household_evaluator Double .dominance
  have hlayout : fresh.layout = .ofParts (household Double .dominance).parts := by
    rw [(Plan.evaluator_eq_ok hplan).2]
  have hs : (Solution.real (Array.replicate 10 (0.5 : Double))).size
      = (fresh.layout.width .real).toNat := by
    rw [hlayout, household_width]
    decide
  refine ⟨problem, fresh, hplan, hs, ?_⟩
  intro t c hc
  rcases evaluation_synchronous hplan Household.busyDay hs .none none c hc with
    ⟨hcount, -⟩ | ⟨hticks, -⟩ | hcourse
  · exact absurd hcount (by rw [household_totalCount]; decide)
  · exact absurd hticks (by rw [household_window hplan]; decide)
  · exact hcourse

end Evaluations

end HomeEnergy

import HomeEnergy.Proofs.Traffic

/-!
# Evaluations do not remember

An evaluation works on a container that earlier evaluations have worked on, on solutions of either encoding,
with other settings, to the end or up to a failure. This module shows that nothing of it can be seen.

* `Descends` — what a run makes of parts: twins of what they were, and no change at all where a part is left
  out.
* `Problem.AsNew` — the invariant of a container: it is wired like the master, its maps accept what those of
  the master accept, and each of its parts is a twin of the part of the master, unless every solution that
  is accepted overwrites the difference.
* `Evaluator.runOn_asNew` — **an evaluation answers on such a container as on the master, and leaves such a
  container**, whatever the solution.
* `Plan.answer_cases` — what a detailed evaluation answers.
* `evaluation_forgets` — **whatever has happened, an evaluation answers as a fresh evaluator does**, in both
  modes of the pool, for the seven device models, every number type and any grids.
-/

namespace HomeEnergy

/-! ### What a run makes of parts and maps -/

section Descent

variable {P α : Type} [Scalar α] [Part P α]

/-- What a run makes of parts: twins of what they were, and no change where a part is left out. -/
structure Descends (taking : List Nat) (ps qs : Array P) : Prop where
  size : ps.size = qs.size
  twin : ∀ (i : Nat) (p q : P), ps[i]? = some p → qs[i]? = some q → Part.Twin p q
  same : ∀ i : Nat, i ∉ taking → ps[i]? = qs[i]?

omit [Scalar α] in
theorem Descends.refl (taking : List Nat) (ps : Array P) : Descends taking ps ps where
  size := rfl
  twin _ p _ hp hq := Option.some.inj (hp.symm.trans hq) ▸ Part.Twin.refl p
  same _ _ := rfl

omit [Scalar α] in
theorem Descends.trans {taking : List Nat} {ps qs ts : Array P} (h : Descends taking ps qs)
    (h' : Descends taking qs ts) : Descends taking ps ts where
  size := h.size.trans h'.size
  twin i p t hp ht := by
    have hlt : i < qs.size := h'.size ▸ (Array.getElem?_eq_some_iff.mp ht).1
    have hq := Array.getElem?_eq_getElem hlt
    exact (h.twin i p _ hp hq).trans (h'.twin i _ t hq ht)
  same i hi := (h.same i hi).trans (h'.same i hi)

omit [Scalar α] in
/-- Changing every part into a twin of itself, but none that is left out. -/
theorem descends_mapIdx {taking : List Nat} {g : Nat → P → P} (htwin : ∀ i p, Part.Twin (g i p) p)
    (hsame : ∀ i ∉ taking, ∀ p, g i p = p) (ps : Array P) : Descends taking (ps.mapIdx g) ps where
  size := by simp
  twin i p q hp hq := by
    simp only [Array.getElem?_mapIdx, hq, Option.map_some, Option.some.injEq] at hp
    exact hp ▸ htwin i q
  same i hi := by
    rw [Array.getElem?_mapIdx]
    cases h : ps[i]? with
    | none => rfl
    | some p => simp [hsame i hi p]

variable [Part.Restartable P]

/-- Steps lead to twins. -/
theorem descends_stepTogether {taking indices : List Nat} (h : ∀ i ∈ indices, i ∈ taking)
    (tick : UInt64) (meter : MeterState α) (received : Nat → FlowMap α) (parts : Array P)
    (outputs : Array (FlowMap α)) :
    Descends taking (stepTogether indices tick meter received parts outputs).1 parts := by
  refine descends_mapIdx ?_ ?_ parts
  · intro i p
    split
    · exact Part.twin_step p { tick, flows := received i, meter } _
    · exact Part.Twin.refl p
  · intro i hi p
    rw [if_neg fun hmem => hi (h i hmem)]

/-- A step writes into its output map and does not replace it. -/
theorem clear_stepTogether (indices : List Nat) (tick : UInt64) (meter : MeterState α)
    (received : Nat → FlowMap α) (parts : Array P) (outputs : Array (FlowMap α)) :
    (stepTogether indices tick meter received parts outputs).2.map FlowMap.clear
      = outputs.map FlowMap.clear := by
  apply Array.ext
  · simp
  · intro i h₁ h₂
    simp only [Array.getElem_map, stepTogether, Array.getElem_mapIdx]
    split
    · split
      · rename_i p _ _
        exact Part.Restartable.clear_step p { tick, flows := received i, meter } _
      · rfl
    · rfl

/-- Settling leads to twins. -/
theorem descends_settledParts (taking : List Nat) (parts : Array P) :
    Descends taking (Run.settledParts parts taking) parts := by
  refine descends_mapIdx ?_ ?_ parts
  · intro i p
    split
    · exact Part.twin_settle p
    · exact Part.Twin.refl p
  · intro i hi p
    rw [if_neg hi]

structure Frame.Follows (taking : List Nat) (f f' : Frame P α) : Prop where
  parts : Descends taking f.parts f'.parts
  activeOutputs : f.activeOutputs.map FlowMap.clear = f'.activeOutputs.map FlowMap.clear
  passiveOutputs : f.passiveOutputs.map FlowMap.clear = f'.passiveOutputs.map FlowMap.clear

namespace Wiring

variable {w : Wiring α} {n : Nat}

theorem next_follows (hw : w.Sound n) {f f' : Frame P α} (h : f.Follows w.taking f') (t : UInt64) :
    (w.next f t).Follows w.taking f' where
  parts := (descends_stepTogether hw.passive_taking ..).trans
    ((descends_stepTogether hw.active_taking ..).trans h.parts)
  activeOutputs := (clear_stepTogether ..).trans h.activeOutputs
  passiveOutputs := (clear_stepTogether ..).trans h.passiveOutputs

theorem first_follows (hw : w.Sound n) {f f' : Frame P α} (h : f.Follows w.taking f') (t : UInt64) :
    (w.first f t).Follows w.taking f' where
  parts := (descends_stepTogether hw.passive_taking ..).trans h.parts
  activeOutputs := h.activeOutputs
  passiveOutputs := (clear_stepTogether ..).trans h.passiveOutputs

theorem last_follows (hw : w.Sound n) (ts : List UInt64) {f f' : Frame P α}
    (h : f.Follows w.taking f') : (w.last f ts).Follows w.taking f' := by
  induction ts generalizing f with
  | nil => exact h
  | cons t ts ih => exact ih (next_follows hw h t)

end Wiring

end Descent

/-! ### Containers as good as new -/

section Containers

variable {P α : Type} [Scalar α] [Part P α]

/-- A container that nobody can tell from the master by evaluating solutions. -/
structure Problem.AsNew (l : Layout) (c m : Problem P α) (n : Nat) : Prop extends c.Like m n where
  activeOutputs : c.activeOutputs.map FlowMap.clear = m.activeOutputs.map FlowMap.clear
  passiveOutputs : c.passiveOutputs.map FlowMap.clear = m.passiveOutputs.map FlowMap.clear
  kin : ∀ (i : Nat) (p q : P), c.parts[i]? = some p → m.parts[i]? = some q → Part.Kin p q
  twin : ∀ (i : Nat) (p q : P), c.parts[i]? = some p → m.parts[i]? = some q →
    Part.Twin p q ∨ l.Grants α i
  others : ∀ i : Nat, i ∉ m.taking → c.parts[i]? = m.parts[i]?

theorem Problem.asNew_refl {l : Layout} {m : Problem P α} {n : Nat} (hn : m.Sized n) :
    m.AsNew l m n where
  toLike := ⟨rfl, hn⟩
  activeOutputs := rfl
  passiveOutputs := rfl
  kin _ p _ hp hq := Option.some.inj (hp.symm.trans hq) ▸ Part.Kin.refl p
  twin _ p _ hp hq := Or.inl (Option.some.inj (hp.symm.trans hq) ▸ Part.Twin.refl p)
  others _ _ := rfl

/-- Emptying the maps of a container changes nothing that counts. -/
theorem Problem.AsNew.clearExchange {l : Layout} {c m : Problem P α} {n : Nat}
    (h : c.AsNew l m n) : c.clearExchange.AsNew l m n where
  toLike := h.toLike.clearExchange
  activeOutputs := by
    rw [← h.activeOutputs]
    simp [Problem.clearExchange, Function.comp_def]
  passiveOutputs := by
    rw [← h.passiveOutputs]
    simp [Problem.clearExchange, Function.comp_def]
  kin := h.kin
  twin := h.twin
  others := h.others

namespace Evaluator

variable {e : Evaluator P α} {c m : Problem P α} {n : Nat}

theorem share_of_accepts (he : e.Serves m n) {s : Solution α} (haccepts : e.layout.Accepts s) {i : Nat}
    {p : P} (hp : m.parts[i]? = some p) :
    ∃ r, (e.layout.shares s.encoding)[i]? = some r ∧
      r.stop = r.start + Layout.ownedCount s.encoding p := by
  have hp' : m.parts.toList[i]? = some p := by simpa using hp
  rw [he.layout] at haccepts ⊢
  obtain ⟨r, hr, -, -, hstop⟩ := Layout.share_spec haccepts hp'
  exact ⟨r, hr, hstop⟩

/-- A part that is left out owns nothing, and keeps what it has. -/
theorem handOut_static (he : e.Serves m n) {s : Solution α} (haccepts : e.layout.Accepts s)
    {ps : Array P} {i : Nat} (hi : i ∉ m.taking) (hps : ps[i]? = m.parts[i]?) :
    (e.layout.handOut s ps)[i]? = m.parts[i]? := by
  rw [Layout.handOut, Array.getElem?_mapIdx, hps]
  cases hp : m.parts[i]? with
  | none => rfl
  | some p =>
    have hstatic : Part.isStatic p = true := by simpa [hi] using he.taking i p hp
    obtain ⟨r, hr, hstop⟩ := share_of_accepts he haccepts hp
    have hempty : r.isEmpty = true := by
      have hcount : Layout.ownedCount s.encoding p = 0 := by simp [Layout.ownedCount, hstatic]
      rw [hcount, UInt64.add_zero] at hstop
      simp [Share.isEmpty, hstop]
    simp [hr, Layout.handed, hempty]

/-- **A start on an accepted solution makes a container and the master equal.** -/
theorem started_eq (he : e.Serves m n) (h : c.AsNew e.layout m n) {s : Solution α}
    (hs : s.Storable) (haccepts : e.layout.Accepts s) (settings : RunSettings) :
    c.started (e.layout.handOut s c.parts) settings
      = m.started (e.layout.handOut s m.parts) settings := by
  have htaking : c.taking = m.taking := congrArg Wiring.taking h.wiring
  simp only [Problem.started, htaking, h.activeOutputs, h.passiveOutputs, Frame.mk.injEq, and_true]
  apply Array.ext_getElem?
  intro i
  simp only [Array.getElem?_mapIdx]
  by_cases hi : i ∈ m.taking
  · have hsize : c.parts.size = m.parts.size := h.sized.parts.trans he.sized.parts.symm
    by_cases hlt : i < m.parts.size
    · have hp := Array.getElem?_eq_getElem (hsize ▸ hlt : i < c.parts.size)
      have hq := Array.getElem?_eq_getElem hlt
      simp only [Layout.handOut, Array.getElem?_mapIdx, hp, hq, Option.map_some, if_pos hi,
        Option.some.injEq]
      obtain ⟨r, hr, -⟩ := share_of_accepts he haccepts hq
      rw [hr]
      by_cases hempty : r.isEmpty = true
      · -- nobody overwrites what earlier solutions left, so there must be nothing left of them
        rcases h.twin i _ _ hp hq with htwin | hgrants
        · simpa [Layout.handed, hempty] using htwin settings
        · obtain ⟨r', hr', hempty'⟩ := hgrants s hs haccepts
          obtain rfl : r = r' := Option.some.inj (hr.symm.trans hr')
          exact absurd hempty (by simp [hempty'])
      · simpa [Layout.handed, hempty] using h.kin i _ _ hp hq (s.piece r) settings
    · simp [Layout.handOut, hlt, hsize]
  · rw [handOut_static he haccepts hi rfl, handOut_static he haccepts hi (h.others i hi)]

variable [Part.Restartable P]

/-- Whatever a run has made of a started container, it is as good as new. -/
theorem asNew_of_follows (he : e.Serves m n) {s : Solution α} (hs : s.Storable)
    (haccepts : e.layout.Accepts s) (settings : RunSettings) {c' : Problem P α} (hlike : c'.Like m n)
    (hfollows : c'.frame.Follows m.taking (m.started (e.layout.handOut s m.parts) settings)) :
    c'.AsNew e.layout m n := by
  have hchain : ∀ (i : Nat) (p q : P), c'.parts[i]? = some p → m.parts[i]? = some q →
      ∃ r, (e.layout.shares s.encoding)[i]? = some r ∧ Part.Twin p (Layout.handed s q r) := by
    intro i p q hp hq
    obtain ⟨r, hr, -⟩ := share_of_accepts he haccepts hq
    refine ⟨r, hr, ?_⟩
    have hstarted : (m.started (e.layout.handOut s m.parts) settings).parts[i]?
        = some (if i ∈ m.taking then Part.start (Layout.handed s q r) settings
            else Layout.handed s q r) := by
      simp [Problem.started, Layout.handOut, hq, hr]
    refine (hfollows.parts.twin i p _ hp hstarted).trans ?_
    split
    · exact Part.twin_start (Layout.handed s q r) settings
    · exact Part.Twin.refl _
  refine ⟨hlike, ?_, ?_, ?_, ?_, ?_⟩
  · have hclear := hfollows.activeOutputs
    simp only [Problem.started, Array.map_map] at hclear
    exact hclear
  · have hclear := hfollows.passiveOutputs
    simp only [Problem.started, Array.map_map] at hclear
    exact hclear
  · intro i p q hp hq
    obtain ⟨r, -, htwin⟩ := hchain i p q hp hq
    refine htwin.kin.trans ?_
    unfold Layout.handed
    split
    · exact Part.Kin.refl q
    · exact Part.kin_withSolution q _
  · intro i p q hp hq
    obtain ⟨r, hr, htwin⟩ := hchain i p q hp hq
    by_cases hempty : r.isEmpty = true
    · exact Or.inl (by simpa [Layout.handed, hempty] using htwin)
    · rw [he.layout] at haccepts hr ⊢
      exact Or.inr (Layout.grants_of_share hs haccepts hr (Bool.eq_false_iff.mpr hempty))
  · intro i hi
    refine (hfollows.parts.same i hi).trans ?_
    simp only [Problem.started, Array.getElem?_mapIdx, handOut_static he haccepts hi rfl, if_neg hi]
    cases m.parts[i]? <;> rfl

/-- **An evaluation answers on a container that is as good as new as it does on the master, and leaves one
that is as good as new.** -/
theorem runOn_asNew (he : e.Serves m n) (h : c.AsNew e.layout m n) {s : Solution α} (hs : s.Storable)
    (flags : EvaluationFlags) (recording? : Option (Recording α)) :
    (e.runOn c s flags recording?).result = (e.runOn m s flags recording?).result ∧
      (e.runOn c s flags recording?).recording? = (e.runOn m s flags recording?).recording? ∧
      (e.runOn c s flags recording?).problem.AsNew e.layout m n := by
  have hm : m.AsNew e.layout m n := Problem.asNew_refl he.sized
  by_cases haccepts : e.layout.Accepts s
  · have hstart : e.startOf c s flags = e.startOf m s flags := started_eq he h hs haccepts _
    have hfollows : (e.startOf m s flags).Follows m.taking (e.startOf m s flags) :=
      ⟨Descends.refl .., rfl, rfl⟩
    by_cases hfits : e.Fits
    · obtain ⟨hresult, hrecording, hlike, hframe⟩ :=
        runOn_eq he h.toLike haccepts hfits flags recording?
      obtain ⟨hresult', hrecording', -⟩ := runOn_eq he hm.toLike haccepts hfits flags recording?
      rw [hstart] at hresult hrecording hframe
      refine ⟨hresult.trans hresult'.symm, hrecording.trans hrecording'.symm, ?_⟩
      refine asNew_of_follows he hs haccepts (e.settings flags) hlike ?_
      have hended := Wiring.last_follows he.sound e.window.clock.ticks
        (Wiring.first_follows he.sound hfollows e.window.referenceTime)
      rw [hframe]
      exact ⟨(descends_settledParts ..).trans hended.parts, hended.activeOutputs,
        hended.passiveOutputs⟩
    · obtain ⟨hresult, hrecording, hlike, hframe⟩ :=
        runOn_overflow he h.toLike haccepts hfits flags recording?
      obtain ⟨hresult', hrecording', -⟩ :=
        runOn_overflow he hm.toLike haccepts hfits flags recording?
      rw [hstart] at hrecording hframe
      refine ⟨hresult.trans hresult'.symm, hrecording.trans hrecording'.symm, ?_⟩
      refine asNew_of_follows he hs haccepts (e.settings flags) hlike ?_
      rw [hframe]
      exact Wiring.first_follows he.sound hfollows e.window.referenceTime
  · rw [runOn_refused he h.toLike haccepts, runOn_refused he hm.toLike haccepts]
    exact ⟨rfl, rfl, h.clearExchange⟩

/-- Evaluations of solutions that a table can hold keep containers as good as new. -/
theorem keeps_asNew (he : e.Serves m n) :
    e.Keeps (fun c => c.AsNew e.layout m n) Solution.Storable :=
  fun _ hc _ hs flags recording? => (runOn_asNew he hc hs flags recording?).2.2

end Evaluator

end Containers

/-! ### The answers of a busy evaluator -/

/-- Whatever has happened to the evaluator of a plan, it answers like the problem of the plan, and so does every
container that is out. -/
theorem Plan.answers_asNew {P α : Type} [Scalar α] [Part P α] [Part.Restartable P] {plan : Plan P α}
    {problem : Problem P α} {fresh : Evaluator P α} (hplan : plan.evaluator = .ok (problem, fresh))
    (moves : List (Traffic.Move α)) (hmoves : ∀ move ∈ moves, move.Carries Solution.Storable)
    {s : Solution α} (hs : s.Storable) (flags : EvaluationFlags) (recording? : Option (Recording α)) :
    let t := Traffic.run { evaluator := fresh, held := [] } moves
    let answer := fresh.runOn problem s flags recording?
    (t.evaluator.run s flags recording?).1 = answer.result ∧
      (t.evaluator.run s flags recording?).2.1 = answer.recording? ∧
      ∀ loan ∈ t.held, (t.evaluator.runOn loan.container s flags recording?).result = answer.result ∧
        (t.evaluator.runOn loan.container s flags recording?).recording? = answer.recording? := by
  intro t answer
  have hserves := Plan.serves hplan
  have hfresh : fresh.Holds fresh fun c => c.AsNew fresh.layout problem plan.parts.length :=
    Plan.holds hplan (Problem.asNew_refl hserves.sized)
  have ht : t.Holds fresh _ :=
    Traffic.run_holds (Evaluator.keeps_asNew hserves) moves ⟨hfresh, by simp⟩ hmoves
  obtain ⟨c, hc, hused⟩ := ht.evaluator.run_eq
  obtain ⟨hresult, hrecording, -⟩ := Evaluator.runOn_asNew hserves hc hs flags recording?
  refine ⟨(hused s flags recording?).1.trans hresult, (hused s flags recording?).2.trans hrecording, ?_⟩
  intro loan hl
  obtain ⟨hresult, hrecording, -⟩ :=
    Evaluator.runOn_asNew hserves (ht.held loan hl) hs flags recording?
  rw [ht.evaluator.same]
  exact ⟨hresult, hrecording⟩

/-- What a detailed evaluation answers. It has no run where the parts refuse the solution or the ticks do not fit into a
table. Elsewhere the outcome and the recording are read off the frames of a fresh run. -/
theorem Plan.answer_cases {P α : Type} [Scalar α] [Part P α] [Part.Restartable P] {plan : Plan P α}
    {problem : Problem P α} {fresh : Evaluator P α} (hplan : plan.evaluator = .ok (problem, fresh))
    {moves : List (Traffic.Move α)} (hmoves : ∀ move ∈ moves, move.Carries Solution.Storable) {s : Solution α}
    (hs : s.Storable) (flags : EvaluationFlags) (recording : Recording α) :
    let t := Traffic.run { evaluator := fresh, held := [] } moves
    let answer := t.evaluator.evaluateDetailed s flags recording
    let f := fresh.startOf problem s flags
    (¬ fresh.layout.Accepts s ∧ answer.1 = .error (fresh.layout.refusal s)) ∨
      (maxTableBytes < 80 * fresh.window.clock.ticks.length ∧ answer.1 = .error (.defect .capacityExceeded)) ∨
      answer.1 = .ok { fitness := fresh.fitnessOf problem.wiring f, profile := fresh.profileOf problem.wiring f } ∧
        answer.2.1 = fresh.recordingOf problem.wiring f recording := by
  intro t answer f
  have hserves := Plan.serves hplan
  have hlike : problem.Like problem plan.parts.length := ⟨rfl, hserves.sized⟩
  obtain ⟨hresult, hrecording, -⟩ := Plan.answers_asNew hplan moves hmoves hs flags (some recording)
  have hanswer : answer.1 = (fresh.runOn problem s flags (some recording)).result := hresult
  have hwritten : answer.2.1 = (fresh.runOn problem s flags (some recording)).recording?.getD recording :=
    congrArg (fun r? => r?.getD recording) hrecording
  rw [hanswer, hwritten]
  by_cases haccepts : fresh.layout.Accepts s
  · by_cases hfits : fresh.Fits
    · obtain ⟨hok, hlog, -⟩ := Evaluator.runOn_eq hserves hlike haccepts hfits flags (some recording)
      exact Or.inr (Or.inr ⟨hok, by rw [hlog]; rfl⟩)
    · exact Or.inr (Or.inl ⟨Nat.lt_of_not_le hfits,
        (Evaluator.runOn_overflow hserves hlike haccepts hfits flags (some recording)).1⟩)
  · exact Or.inl ⟨haccepts, by rw [Evaluator.runOn_refused hserves hlike haccepts]⟩

/-- **Whatever has happened to an evaluator, an evaluation answers as a fresh one does.** A container that is
out answers like the fresh problem, and an evaluation from beginning to end gives the fitness, the load
profile and the recording that the fresh evaluator gives. The solutions are those that a table can hold. -/
theorem evaluation_forgets {α : Type} [Transcendental α] {plan : Plan (Device α) α}
    {problem : Problem (Device α) α} {fresh : Evaluator (Device α) α}
    (hplan : plan.evaluator = .ok (problem, fresh)) {moves : List (Traffic.Move α)}
    (hmoves : ∀ move ∈ moves, move.Carries Solution.Storable) {s : Solution α} (hs : s.Storable) :
    let t := Traffic.run { evaluator := fresh, held := [] } moves
    (∀ loan ∈ t.held, ∀ flags recording?,
      (t.evaluator.runOn loan.container s flags recording?).result
          = (fresh.runOn problem s flags recording?).result ∧
        (t.evaluator.runOn loan.container s flags recording?).recording?
          = (fresh.runOn problem s flags recording?).recording?) ∧
    (t.evaluator.evaluate s).1 = (fresh.evaluate s).1 ∧
    ∀ flags recording,
      (t.evaluator.evaluateDetailed s flags recording).1
          = (fresh.evaluateDetailed s flags recording).1 ∧
        (t.evaluator.evaluateDetailed s flags recording).2.1
          = (fresh.evaluateDetailed s flags recording).2.1 := by
  intro t
  have hused := fun flags recording? => Plan.answers_asNew hplan moves hmoves hs flags recording?
  have hnew := fun flags recording? =>
    Plan.answers_asNew hplan [] (by simp) hs flags recording?
  refine ⟨fun loan hl flags recording? => (hused flags recording?).2.2 loan hl, ?_, ?_⟩
  · show (t.evaluator.run s .none none).1.map _ = (fresh.run s .none none).1.map _
    rw [(hused .none none).1]
    exact congrArg _ (hnew .none none).1.symm
  · intro flags recording
    obtain ⟨hresult, hrecording, -⟩ := hused flags (some recording)
    obtain ⟨hresult', hrecording', -⟩ := hnew flags (some recording)
    refine ⟨hresult.trans hresult'.symm, ?_⟩
    exact congrArg (fun r? => r?.getD recording) (hrecording.trans hrecording'.symm)

/-- The household forgets a busy day. -/
theorem evaluation_forgets_busyDay :
    ∃ problem fresh, (household Double .dominance).evaluator = .ok (problem, fresh) ∧
      (∀ move ∈ Household.busyDay, move.Carries Solution.Storable) ∧
      Solution.Storable (α := Double) (.real (Array.replicate 10 0.5)) ∧
      let t := Traffic.run { evaluator := fresh, held := [] } Household.busyDay
      (t.evaluator.evaluate (.real (Array.replicate 10 0.5))).1
          = (fresh.evaluate (.real (Array.replicate 10 0.5))).1 ∧
        ∀ flags recording,
          (t.evaluator.evaluateDetailed (.real (Array.replicate 10 0.5)) flags recording).1
            = (fresh.evaluateDetailed (.real (Array.replicate 10 0.5)) flags recording).1 := by
  obtain ⟨problem, fresh, hplan⟩ := household_evaluator Double .dominance
  have hmoves : ∀ move ∈ Household.busyDay, move.Carries Solution.Storable := by
    simp only [Household.busyDay, List.forall_mem_cons, Traffic.Move.Carries, Solution.Storable,
      List.not_mem_nil, false_implies, implies_true, and_true, true_and]
    decide
  have hs : Solution.Storable (α := Double) (.real (Array.replicate 10 0.5)) := by
    unfold Solution.Storable
    decide
  obtain ⟨-, hfitness, hdetailed⟩ := evaluation_forgets hplan hmoves hs
  exact ⟨problem, fresh, hplan, hmoves, hs, hfitness, fun flags recording =>
    (hdetailed flags recording).1⟩

end HomeEnergy

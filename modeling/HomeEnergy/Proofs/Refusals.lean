import HomeEnergy.Optimizer
import HomeEnergy.Proofs.Outcomes

/-!
# Why evaluations fail

A solution of the wrong width is refused before anything is simulated. A simulation that is under way fails for
other reasons.

* `FailsBy` — the failures of a computation are of some kind; `FailsBy.bind`, `FailsBy.foldlM` — so they are if
  those of its steps are.
* `Failure.UnderWay` — failures of a simulation; `simulate_failsBy` — there are no other ones.
* `Evaluator.evaluate_mismatch_iff` — **an evaluation finds a mismatch of widths exactly where there is one.**
-/

namespace HomeEnergy

/-! ### Kinds of failures -/

/-- A computation whose failure, if there is one, is of some kind. -/
def FailsBy {ε β : Type} (F : ε → Prop) (r : Except ε β) : Prop :=
  ∀ f, r = .error f → F f

namespace FailsBy

variable {ε β γ : Type} {F : ε → Prop}

theorem ok (x : β) : FailsBy F (.ok x : Except ε β) :=
  fun _ h => nomatch h

theorem error {f : ε} (h : F f) : FailsBy F (.error f : Except ε β) :=
  fun _ heq => Except.error.inj heq ▸ h

theorem bind {r : Except ε β} {g : β → Except ε γ} (h : FailsBy F r) (hg : ∀ x, FailsBy F (g x)) :
    FailsBy F (r >>= g) := by
  cases r with
  | error f => exact error (h f rfl)
  | ok x => exact hg x

/-- A loop fails as its steps do. -/
theorem foldlM {f : β → γ → Except ε β} (h : ∀ b x, FailsBy F (f b x)) (l : List γ) :
    ∀ b, FailsBy F (l.foldlM f b) := by
  induction l with
  | nil => exact fun b => ok b
  | cons x l ih =>
    intro b
    rw [List.foldlM_cons]
    exact (h b x).bind ih

end FailsBy

inductive Failure.UnderWay : Failure → Prop where
  | gridNotInitialized (k : GridKind) : UnderWay (.gridNotInitialized k)
  | defect (d : Defect) : UnderWay (.defect d)

variable {P α : Type} [Scalar α]

/-! ### Simulations -/

namespace Grid

theorem exchangeForward_failsBy (g : Grid α) (outputs inputs : Array (FlowMap α)) (state : MeterState α) :
    FailsBy Failure.UnderWay (g.exchangeForward outputs inputs state) := by
  cases g
  all_goals
    simp only [exchangeForward]
    split
    · exact .error (.gridNotInitialized _)
    · split
      · exact .error (.defect _)
      · exact .ok _

theorem exchangeBack_failsBy (g : Grid α) (outputs inputs : Array (FlowMap α)) :
    FailsBy Failure.UnderWay (g.exchangeBack outputs inputs) := by
  unfold exchangeBack
  split
  · exact .error (.gridNotInitialized _)
  · rename_i relations _
    cases relations.exchangeBack (g.kind == .thermal) outputs inputs with
    | error e => exact .error (.defect e)
    | ok x => exact .ok x

theorem deliverForward_failsBy (outputs : Array (FlowMap α)) (grids : List (Grid α)) :
    ∀ (inputs : Array (FlowMap α)) (state : MeterState α),
      FailsBy Failure.UnderWay (deliverForward outputs grids inputs state) := by
  induction grids with
  | nil => exact fun inputs state => .ok _
  | cons g grids ih =>
    intro inputs state
    exact (g.exchangeForward_failsBy outputs inputs state).bind fun first =>
      (ih first.2.1 first.2.2).bind fun rest => .ok _

end Grid

/-- The failure of a stage, without the state that it stopped in. -/
def Interruption.UnderWay {σ : Type} (i : Interruption σ) : Prop :=
  i.failure.UnderWay

namespace Problem

theorem deliverForward_failsBy (problem : Problem P α) :
    FailsBy Interruption.UnderWay problem.deliverForward := by
  unfold deliverForward
  dsimp only
  split
  · exact .ok _
  · rename_i failure h
    exact .error (Grid.deliverForward_failsBy _ _ _ _ failure h)

theorem deliverBack_failsBy (problem : Problem P α) :
    FailsBy Interruption.UnderWay problem.deliverBack := by
  unfold deliverBack
  split
  · exact .ok _
  · rename_i failure h
    exact .error (FailsBy.foldlM (fun inputs g => g.exchangeBack_failsBy _ inputs) _ _ failure h)

variable [Part P α]

theorem tick_failsBy (problem : Problem P α) (t : UInt64) :
    FailsBy Interruption.UnderWay (problem.tick t) :=
  (deliverForward_failsBy _).bind fun _ => deliverBack_failsBy _

end Problem

variable [Part P α]

theorem Run.tick_failsBy (run : Run P α) (t : UInt64) : FailsBy Interruption.UnderWay (run.tick t) := by
  have hlift : FailsBy Interruption.UnderWay
      (Interruption.lift (fun problem => { run with problem }) (run.problem.tick t)) := by
    cases h : run.problem.tick t with
    | error i => exact .error (run.problem.tick_failsBy t i h)
    | ok problem => exact .ok _
  exact hlift.bind fun _ => .ok _

theorem Run.ticks_failsBy (times : List UInt64) :
    ∀ run : Run P α, FailsBy Interruption.UnderWay (run.ticks times) := by
  induction times with
  | nil => exact fun run => .ok run
  | cons t times ih => exact fun run => (run.tick_failsBy t).bind ih

/-- **A simulation fails by a defect or a grid without participants**, and in no other way. -/
theorem simulate_failsBy (w : Window) (problem : Problem P α) (recording? : Option (Recording α)) :
    FailsBy Interruption.UnderWay (simulate w problem recording?) := by
  unfold simulate
  split
  · rename_i i h
    exact .error (Problem.deliverBack_failsBy _ i h)
  · split
    · exact .error (.defect _)
    · split
      · exact .error (.defect _)
      · split
        · rename_i i h
          exact .error (Run.ticks_failsBy _ _ i h)
        · exact .ok _

/-! ### Evaluations -/

theorem Layout.giveAll_failsBy (s : Solution α) :
    ∀ (parts : List P) (shares : List Share), FailsBy Failure.UnderWay (giveAll s parts shares) := by
  intro parts
  induction parts with
  | nil => exact fun shares => .ok _
  | cons p parts ih =>
    intro shares
    cases shares with
    | nil => exact .ok _
    | cons r shares =>
      have hgive : FailsBy Failure.UnderWay (give s p r) := by
        unfold give
        split
        · exact .ok _
        · split
          · exact .ok _
          · exact .error (.defect _)
      exact hgive.bind fun _ => (ih shares).bind fun _ => .ok _

namespace Evaluator

/-- A solution of the right width is not refused for its width. -/
theorem evaluate_failsBy {e : Evaluator P α} {s : Solution α}
    (hwidth : s.size = (e.layout.width s.encoding).toNat) :
    FailsBy Failure.UnderWay (e.evaluate s).1 := by
  have hrun : FailsBy Failure.UnderWay (e.runOn e.pool.acquire.1.container s .none none).result := by
    unfold runOn
    dsimp only
    split
    · rename_i failure h
      refine .error ?_
      rw [Layout.distribute, if_pos hwidth] at h
      exact ((Layout.giveAll_failsBy s _ _).bind fun _ => .ok _) failure h
    · split
      · rename_i i h
        exact .error (simulate_failsBy _ _ _ i h)
      · exact .ok _
  intro f hf
  exact hrun f (map_eq_error_iff.mp hf)

/-- **An evaluation finds a mismatch of widths exactly where there is one.** -/
theorem evaluate_mismatch_iff {e : Evaluator P α} {s : Solution α} {expected actual : Nat} :
    (e.evaluate s).1 = .error (.widthMismatch expected actual) ↔
      s.size ≠ expected ∧ (e.layout.width s.encoding).toNat = expected ∧ s.size = actual := by
  by_cases hwidth : s.size = (e.layout.width s.encoding).toNat
  · refine iff_of_false (fun hf => ?_) ?_
    · exact nomatch evaluate_failsBy hwidth _ hf
    · rintro ⟨hne, hexpected, -⟩
      exact hne (hwidth.trans hexpected)
  · have hrefused : (e.evaluate s).1
        = .error (.widthMismatch (e.layout.width s.encoding).toNat s.size) := by
      have hdistribute : ∀ parts : Array P, e.layout.distribute s parts
          = .error (.widthMismatch (e.layout.width s.encoding).toNat s.size) := fun parts => if_neg hwidth
      show ((e.runOn e.pool.acquire.1.container s .none none).result).map _ = _
      simp only [runOn, hdistribute]
      rfl
    rw [hrefused, Except.error.injEq, Failure.widthMismatch.injEq]
    constructor
    · rintro ⟨hexpected, hactual⟩
      exact ⟨fun h => hwidth (h.trans hexpected.symm), hexpected, hactual⟩
    · exact fun h => ⟨h.2.1, h.2.2⟩

theorem layout_evaluate (e : Evaluator P α) (s : Solution α) : (e.evaluate s).2.layout = e.layout :=
  rfl

end Evaluator

end HomeEnergy

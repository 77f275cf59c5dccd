import HomeEnergy.Proofs.Acceptance
import HomeEnergy.Proofs.Course
import HomeEnergy.Scalar.Double

/-!
# Containers on their way

Several evaluations can be under way at a time. Each takes a container out of the pool, works on it and
gives it back, and in between the pool hands other containers to others.

* `Traffic` — an evaluator and the containers that are out; `Traffic.Move` — what can happen to it.
* `Traffic.Holds`, `Traffic.step_holds`, `Traffic.run_holds` — **what evaluations keep of a container holds
  of every container**, idle or out, whatever has happened.
* `Plan.serves` — the evaluator of a plan suits the problem of the plan.
* `Household.busyDay` — some moves of the evaluator of the household.
-/

namespace HomeEnergy

structure Traffic (P α : Type) where
  evaluator : Evaluator P α
  held : List (Loan (Problem P α))

namespace Traffic

/-- What can happen to an evaluator and its containers. A move that is not possible does nothing. -/
inductive Move (α : Type) where
  | call (s : Solution α) (flags : EvaluationFlags) (recording? : Option (Recording α))
  -- a shared container is lent to one evaluation at a time
  | take
  | work (k : Nat) (s : Solution α) (flags : EvaluationFlags) (recording? : Option (Recording α))
  | giveBack (k : Nat)
  -- an idle container goes first in line
  | promote (k : Nat)

/-- A move whose solution, if it has one, passes a test. -/
def Move.Carries {α : Type} (S : Solution α → Prop) : Move α → Prop
  | call s _ _ => S s
  | work _ s _ _ => S s
  | _ => True

variable {P α : Type} [Scalar α] [Part P α]

omit [Scalar α] [Part P α] in
def canTake (t : Traffic P α) : Bool :=
  match t.evaluator.pool with
  | .shared _ => t.held.isEmpty
  | .pooled .. => true

/-- One move. -/
def step (t : Traffic P α) : Move α → Traffic P α
  | .call s flags recording? =>
    if t.canTake then { t with evaluator := (t.evaluator.run s flags recording?).2.2 } else t
  | .take =>
    if t.canTake then
      let (loan, pool) := t.evaluator.pool.acquire
      { evaluator := { t.evaluator with pool }, held := t.held ++ [loan] }
    else t
  | .work k s flags recording? =>
    match t.held[k]? with
    | some loan =>
      let answer := t.evaluator.runOn loan.container s flags recording?
      { t with held := t.held.set k { loan with container := answer.problem } }
    | none => t
  | .giveBack k =>
    match t.held[k]? with
    | some loan =>
      { evaluator := { t.evaluator with pool := t.evaluator.pool.release loan }
        held := t.held.eraseIdx k }
    | none => t
  | .promote k =>
    match t.evaluator.pool with
    | .shared _ => t
    | .pooled master idle created =>
      match idle[k]? with
      | some loan =>
        { t with evaluator := { t.evaluator with
            pool := .pooled master (loan :: idle.eraseIdx k) created } }
      | none => t

def run (t : Traffic P α) (moves : List (Move α)) : Traffic P α :=
  moves.foldl step t

end Traffic

/-! ### What holds of every container -/

section Containers

variable {P α : Type} {I : Problem P α → Prop}

/-- Every container of a pool, the master included, is such that `I`. -/
def PoolHolds (I : Problem P α → Prop) : Pool (Problem P α) → Prop
  | .shared c => I c
  | .pooled master idle _ => I master ∧ ∀ loan ∈ idle, I loan.container

theorem new_holds {c : Problem P α} (h : I c) (pooled : Bool) : PoolHolds I (.new c pooled) := by
  cases pooled with
  | true => exact ⟨h, by simp⟩
  | false => exact h

theorem acquire_holds {pool : Pool (Problem P α)} (h : PoolHolds I pool) :
    I pool.acquire.1.container ∧ PoolHolds I pool.acquire.2 := by
  match pool with
  | .shared c => exact ⟨h, h⟩
  | .pooled master (loan :: idle) created =>
    exact ⟨h.2 loan (by simp), h.1, fun loan' hl => h.2 loan' (by simp [hl])⟩
  | .pooled master [] created => exact ⟨h.1, h.1, by simp⟩

theorem release_holds {pool : Pool (Problem P α)} (h : PoolHolds I pool) {loan : Loan (Problem P α)}
    (hloan : I loan.container) : PoolHolds I (pool.release loan) := by
  match pool with
  | .shared c => exact hloan
  | .pooled master idle created =>
    refine ⟨h.1, ?_⟩
    intro loan' hl
    rcases List.mem_append.mp hl with hl | hl
    · exact h.2 loan' hl
    · exact List.mem_singleton.mp hl ▸ hloan

variable [Scalar α] [Part P α]

/-- Evaluations of the solutions that pass a test keep `I`. -/
def Evaluator.Keeps (e : Evaluator P α) (I : Problem P α → Prop) (S : Solution α → Prop) : Prop :=
  ∀ c, I c → ∀ s, S s → ∀ flags recording?, I (e.runOn c s flags recording?).problem

/-- An evaluator that differs from another one in its pool only, whose containers are such that `I`. -/
structure Evaluator.Holds (e fresh : Evaluator P α) (I : Problem P α → Prop) : Prop where
  same : e = { fresh with pool := e.pool }
  pool : PoolHolds I e.pool

theorem Evaluator.Holds.run_eq {e fresh : Evaluator P α} (h : e.Holds fresh I) :
    ∃ c, I c ∧ ∀ s flags recording?,
      (e.run s flags recording?).1 = (fresh.runOn c s flags recording?).result ∧
        (e.run s flags recording?).2.1 = (fresh.runOn c s flags recording?).recording? := by
  refine ⟨_, (acquire_holds h.pool).1, ?_⟩
  intro s flags recording?
  rw [h.same]
  exact ⟨rfl, rfl⟩

theorem Evaluator.Holds.run {e fresh : Evaluator P α} (h : e.Holds fresh I) {S : Solution α → Prop}
    (hkeeps : fresh.Keeps I S) {s : Solution α} (hs : S s) (flags : EvaluationFlags)
    (recording? : Option (Recording α)) : (e.run s flags recording?).2.2.Holds fresh I := by
  obtain ⟨hloan, hpool⟩ := acquire_holds h.pool
  rw [h.same]
  exact ⟨rfl, release_holds hpool (hkeeps _ hloan s hs flags recording?)⟩

end Containers

namespace Traffic

variable {P α : Type} [Scalar α] [Part P α] {I : Problem P α → Prop} {S : Solution α → Prop}

/-- The invariant: every container, idle or out, is such that `I`. -/
structure Holds (t : Traffic P α) (fresh : Evaluator P α) (I : Problem P α → Prop) : Prop where
  evaluator : t.evaluator.Holds fresh I
  held : ∀ loan ∈ t.held, I loan.container

/-- **A move keeps what evaluations keep.** -/
theorem step_holds {fresh : Evaluator P α} (hkeeps : fresh.Keeps I S) {t : Traffic P α}
    (h : t.Holds fresh I) (move : Move α) (hmove : move.Carries S) : (t.step move).Holds fresh I := by
  cases move with
  | call s flags recording? =>
    simp only [step]
    split
    · exact ⟨h.evaluator.run hkeeps hmove flags recording?, h.held⟩
    · exact h
  | take =>
    obtain ⟨hloan, hpool⟩ := acquire_holds h.evaluator.pool
    simp only [step]
    split
    · refine ⟨⟨?_, hpool⟩, ?_⟩
      · rw [h.evaluator.same]
      · intro loan hl
        rcases List.mem_append.mp hl with hl | hl
        · exact h.held loan hl
        · exact List.mem_singleton.mp hl ▸ hloan
    · exact h
  | work k s flags recording? =>
    simp only [step]
    split
    · rename_i loan hk
      have hloan := h.held loan (List.mem_of_getElem? hk)
      refine ⟨h.evaluator, ?_⟩
      intro loan' hl
      rcases List.mem_or_eq_of_mem_set hl with hl | rfl
      · exact h.held loan' hl
      · rw [h.evaluator.same]
        exact hkeeps _ hloan s hmove flags recording?
    · exact h
  | giveBack k =>
    simp only [step]
    split
    · rename_i loan hk
      have hloan := h.held loan (List.mem_of_getElem? hk)
      refine ⟨⟨?_, release_holds h.evaluator.pool hloan⟩, ?_⟩
      · rw [h.evaluator.same]
      · intro loan' hl
        exact h.held loan' (List.mem_of_mem_eraseIdx hl)
    · exact h
  | promote k =>
    simp only [step]
    split
    · exact h
    · rename_i master idle created hpool
      have hidle : PoolHolds I (.pooled master idle created) := hpool ▸ h.evaluator.pool
      split
      · rename_i loan hk
        refine ⟨⟨?_, hidle.1, ?_⟩, h.held⟩
        · rw [h.evaluator.same]
        · intro loan' hl
          rcases List.mem_cons.mp hl with rfl | hl
          · exact hidle.2 loan' (List.mem_of_getElem? hk)
          · exact hidle.2 loan' (List.mem_of_mem_eraseIdx hl)
      · exact h

/-- **What evaluations keep holds of every container, whatever has happened.** -/
theorem run_holds {fresh : Evaluator P α} (hkeeps : fresh.Keeps I S) (moves : List (Move α))
    {t : Traffic P α} (h : t.Holds fresh I) (hmoves : ∀ move ∈ moves, move.Carries S) :
    (t.run moves).Holds fresh I := by
  induction moves generalizing t with
  | nil => exact h
  | cons move moves ih =>
    exact ih (step_holds hkeeps h move (hmoves move (by simp)))
      (fun move hmove => hmoves move (by simp [hmove]))

end Traffic

/-! ### The evaluator of a plan -/

namespace Plan

variable {P α : Type} [Scalar α] [Part P α]

theorem serves {plan : Plan P α} {problem : Problem P α} {fresh : Evaluator P α}
    (h : plan.evaluator = .ok (problem, fresh)) : fresh.Serves problem plan.parts.length := by
  obtain ⟨hnew, rfl⟩ := evaluator_eq_ok h
  refine ⟨Problem.new_sound hnew, Problem.new_sized hnew, ?_, ?_, fun i p hp =>
    Problem.new_taking hnew hp⟩
  · exact Timing.atLeastOne_ne_zero plan.step
  · rw [Problem.new_eq_ok hnew]

/-- A solution of the right width is accepted, as long as its variables can be counted. -/
theorem accepts_of_width {plan : Plan P α} {problem : Problem P α} {fresh : Evaluator P α}
    (h : plan.evaluator = .ok (problem, fresh)) {s : Solution α}
    (hwidth : s.size = (fresh.layout.width s.encoding).toNat)
    (hcount : Layout.totalCount s.encoding plan.parts < UInt64.size) : fresh.layout.Accepts s := by
  have hlayout : fresh.layout = .ofParts plan.parts := by rw [(evaluator_eq_ok h).2]
  rw [hlayout] at hwidth ⊢
  exact Layout.accepts_of_width hcount hwidth

theorem holds {plan : Plan P α} {problem : Problem P α} {fresh : Evaluator P α}
    (h : plan.evaluator = .ok (problem, fresh)) {I : Problem P α → Prop} (hI : I problem) :
    fresh.Holds fresh I := by
  obtain ⟨-, hfresh⟩ := evaluator_eq_ok h
  refine ⟨rfl, ?_⟩
  rw [show fresh.pool = .new problem plan.multithreaded by rw [hfresh]]
  exact new_holds hI plan.multithreaded

theorem run_fresh {plan : Plan P α} {problem : Problem P α} {fresh : Evaluator P α}
    (h : plan.evaluator = .ok (problem, fresh)) (s : Solution α) (flags : EvaluationFlags)
    (recording? : Option (Recording α)) :
    (fresh.run s flags recording?).1 = (fresh.runOn problem s flags recording?).result ∧
      (fresh.run s flags recording?).2.1 = (fresh.runOn problem s flags recording?).recording? := by
  obtain ⟨c, rfl, hrun⟩ := (holds h (I := fun c => c = problem) rfl).run_eq
  exact hrun s flags recording?

end Plan

/-- Three evaluations of the household, two of them at a time, with solutions of both encodings and one of a
wrong width. -/
def Household.busyDay : List (Traffic.Move Double) :=
  [.take, .take, .work 1 (.real #[1, 0, 0.5, 0.75, 0, 0, 1, 1, 1, 0]) .none none,
    .work 0 (.binary #[true]) { log := true, keepPrediction := false } (some .empty), .giveBack 1,
    .call (.binary (Array.replicate 14 true)) .none none, .giveBack 0, .promote 1]

end HomeEnergy

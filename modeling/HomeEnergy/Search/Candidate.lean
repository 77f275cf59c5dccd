import HomeEnergy.Solution

/-!
# Candidates

A candidate is a solution with its objectives; smaller objectives are better. The front of a list of
candidates is what remains when every dominated candidate and every repetition of a solution is
dropped.
-/

namespace HomeEnergy

structure Candidate (α : Type) where
  solution : Solution α
  objectives : List α

namespace Candidate

variable {α : Type} [Scalar α]

instance : Inhabited (Candidate α) := ⟨{ solution := default, objectives := [] }⟩

/-- True if a candidate is worse than another one in no common objective and better in some. -/
def dominates (a b : Candidate α) : Bool :=
  let pairs := a.objectives.zip b.objectives
  !pairs.any (fun e => decide (e.2 < e.1)) && pairs.any (fun e => decide (e.1 < e.2))

/-- The candidates of a list that no candidate of `all` dominates and whose solution is not among the
earlier ones. -/
def frontOf (all : List (Candidate α)) : List (Candidate α) → List (Candidate α) →
    List (Candidate α)
  | _, [] => []
  | earlier, c :: rest =>
    let later := frontOf all (c :: earlier) rest
    if all.any (fun d => d.dominates c) then later
    else if earlier.any (fun d => d.solution.same c.solution) then later
    else c :: later

def front (cs : List (Candidate α)) : List (Candidate α) :=
  frontOf cs [] cs

/-- The first objective, which selection goes by. -/
def score (c : Candidate α) : α :=
  c.objectives.headD Scalar.infinity

end Candidate

/-- What a search sees of a problem: the number of variables, and an evaluation that may change the
state `S` it works on. -/
structure SearchProblem (S α : Type) where
  width : Encoding → Nat
  evaluate : Solution α → S → Except Failure (List α) × S

namespace SearchProblem

variable {S α : Type}

/-- The failure of a search whose evaluation failed. A defect stays a defect. -/
def evaluationFailure : Failure → Failure
  | .defect d => .defect d
  | e => .evaluation e

/-- Evaluates solutions in order, up to the first failure. -/
@[specialize] def evaluateAll (p : SearchProblem S α) :
    List (Solution α) → S → Except Failure (List (Candidate α)) × S
  | [], s => (.ok [], s)
  | x :: xs, s =>
    match p.evaluate x s with
    | (.error e, s) => (.error (evaluationFailure e), s)
    | (.ok objectives, s) =>
      match evaluateAll p xs s with
      | (.error e, s) => (.error e, s)
      | (.ok cs, s) => (.ok ({ solution := x, objectives } :: cs), s)

end SearchProblem

end HomeEnergy

import HomeEnergy.Ranking.Normalize

/-!
# Ranking of candidates

A ranking orders rows of normalized objectives, best first; smaller objectives are better. Most
strategies give each row a score and order by score, rows of equal score in list order.

Ranking by dominance goes by level first: level zero holds the rows that no row dominates, and each
further level the rows that only rows of earlier levels dominate.
-/

namespace HomeEnergy

/-- A strategy to rank rows of objectives. -/
inductive Ranking (α : Type) where
  | dominance
  | singleObjective (index : Nat)
  -- here and below, a missing weight counts as one
  | weightedSum (weights : List α)
  | chebyshev (weights : List α)
  -- the product of the gains over the worst value of each objective
  | nashBargaining

namespace Ranking

variable {α : Type} [Scalar α]

omit [Scalar α] in
def name : Ranking α → String
  | dominance => "dominance"
  | singleObjective _ => "single-objective"
  | weightedSum _ => "weighted-sum"
  | chebyshev _ => "chebyshev"
  | nashBargaining => "nash-bargaining"

/-- The strategy when none is configured: by the first objective. -/
def default : Ranking α := singleObjective 0

/-- The indices of a list of keys, ordered by key and then by index. -/
def orderBy {κ : Type} (compareKeys : κ → κ → Ordering) (keys : List κ) : List Nat :=
  (keys.zipIdx.mergeSort fun a b => (compareKeys a.1 b.1).isLE).map fun e => e.2

def weighted (weights : List α) (row : List α) : List α :=
  row.zipIdx.map fun (x, i) => weights.getD i 1 * x

def score (r : Ranking α) (row : List α) : α :=
  match r with
  | dominance => Scalar.sum row
  | singleObjective i => row.getD i Scalar.infinity
  | weightedSum weights => Scalar.sum (weighted weights row)
  | chebyshev weights => (weighted weights row).foldl Scalar.max 0
  | nashBargaining => -(Scalar.product (row.map fun x => 1 - x))

/-- True if a row is at most another one in every common objective and below it in some. -/
def rowDominates (a b : List α) : Bool :=
  (a.zip b).all (fun e => decide (e.1 ≤ e.2)) && (a.zip b).any (fun e => decide (e.1 < e.2))

/-- The levels of dominance among indexed rows, lowest level first. At most `fuel` levels are
formed. -/
def levels : Nat → List (List α × Nat) → List (List Nat)
  | 0, _ => []
  | _ + 1, [] => []
  | fuel + 1, rows =>
    let (dominated, free) := rows.partition fun r => rows.any fun s => rowDominates s.1 r.1
    free.map (fun r => r.2) :: levels fuel dominated

def levelOf (rows : List (List α)) : List Nat :=
  let all := levels rows.length rows.zipIdx
  (List.range rows.length).map fun i => all.findIdx fun level => level.contains i

def compareLevels (a b : Nat × α) : Ordering :=
  (compare a.1 b.1).then (Scalar.totalOrder a.2 b.2)

/-- The indices of the rows, best first. -/
def rank (r : Ranking α) (rows : List (List α)) : List Nat :=
  match r with
  | dominance => orderBy compareLevels ((levelOf rows).zip (rows.map (score dominance)))
  | _ => orderBy Scalar.totalOrder (rows.map r.score)

end Ranking

end HomeEnergy

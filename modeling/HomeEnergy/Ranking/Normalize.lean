import HomeEnergy.Scalar

/-!
# Normalized objectives

Objectives are brought to `[0, 1]` column by column: the least value of a column becomes zero and the
greatest one. A column without two different values becomes zero everywhere. Undefined numbers do not
count towards the bounds of a column, and rows may have different lengths.
-/

namespace HomeEnergy

namespace Ranking

variable {α : Type} [Scalar α]

/-- The least and the greatest value so far. -/
def widen (bounds? : Option (α × α)) (x : α) : Option (α × α) :=
  if Scalar.isNaN x then bounds?
  else
    match bounds? with
    | none => some (x, x)
    | some (low, high) => some (Scalar.min low x, Scalar.max high x)

/-- The bounds of a column, if it has a defined number. -/
def columnBounds (rows : List (List α)) (i : Nat) : Option (α × α) :=
  rows.foldl (fun bounds? row =>
    match row[i]? with
    | some x => widen bounds? x
    | none => bounds?) none

def rescale (bounds? : Option (α × α)) (x : α) : α :=
  match bounds? with
  | none => 0
  | some (low, high) =>
    let range := high - low
    if 0 < range then (x - low) / range else 0

def normalize (rows : List (List α)) : List (List α) :=
  let width := rows.foldl (fun n row => Nat.max n row.length) 0
  let bounds := (List.range width).map (columnBounds rows)
  rows.map fun row => row.zipWith (fun x bounds? => rescale bounds? x) bounds

end Ranking

end HomeEnergy

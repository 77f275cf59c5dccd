import HomeEnergy.Search.Genetic

/-!
# Searches

A search is genetic or random. Searches are run one after the other, and the front of all their results
is the result of the whole.
-/

namespace HomeEnergy

inductive Search (α : Type) where
  | genetic (params : GeneticParams α)
  | random (search : RandomSearch)

namespace Search

variable {S α : Type} [Transcendental α]

omit [Transcendental α] in
def name : Search α → String
  | genetic _ => "genetic"
  | random _ => "random"

omit [Transcendental α] in
def encoding : Search α → Encoding
  | genetic p => p.encoding
  | random r => r.encoding

/-- A search whose parameters are in range. The parameters of a random search are checked when it
runs. -/
def checked : Search α → Except Failure (Search α)
  | genetic p =>
    match p.validate with
    | .ok () => .ok (genetic p)
    | .error e => .error (.search e)
  | random r => .ok (random r)

@[specialize] def run (search : Search α) (p : SearchProblem S α) (s : S) :
    Except Failure (List (Candidate α)) × S :=
  match search with
  | genetic params => Genetic.run params p s
  | random r => r.run p s

/-- The results of searches joined in order, up to the first failure. -/
@[specialize] def runAll (p : SearchProblem S α) :
    List (Search α) → S → Except Failure (List (Candidate α)) × S
  | [], s => (.ok [], s)
  | search :: rest, s =>
    match search.run p s with
    | (.error e, s) => (.error e, s)
    | (.ok found, s) =>
      let (result, s) := runAll p rest s
      (result.map fun more => found ++ more, s)

def merge (found : List (Candidate α)) : Except Failure (List (Candidate α)) :=
  match Candidate.front found with
  | [] => .error (.search .noSolution)
  | front => .ok front

@[specialize] def best (searches : List (Search α)) (p : SearchProblem S α) (s : S) :
    Except Failure (List (Candidate α)) × S :=
  let (result, s) := runAll p searches s
  (result.bind merge, s)

end Search

end HomeEnergy

import HomeEnergy.DeviceId

/-!
# What can go wrong

Causes of failure, and for each one its wording in `message`.

A `Defect` is a broken precondition: a device parameter outside its range, an index outside its table.
It has no wording, because the program stops on it. Every other failure is an answer.
-/

namespace HomeEnergy

/-- A broken precondition. -/
inductive Defect where
  | zeroStep
  | parameterOutOfRange
  | emptyRange
  | indexOutOfRange
  | capacityExceeded
deriving DecidableEq, Repr, Inhabited

/-- The greatest number of bytes that one table can have. -/
def maxTableBytes : Nat := 9223372036854775807

inductive GridKind where
  | electrical
  | thermal
deriving DecidableEq, Repr, Inhabited

def GridKind.name : GridKind → String
  | electrical => "electrical"
  | thermal => "thermal"

structure ConfigIssue where
  field : String
  message : String
deriving DecidableEq, Repr, Inhabited

def ConfigIssue.display (e : ConfigIssue) : String :=
  "config error: " ++ e.field ++ ": " ++ e.message

inductive SearchFailure where
  | invalidParameter (name reason : String)
  | noSolution
deriving DecidableEq, Repr, Inhabited

def SearchFailure.message : SearchFailure → String
  | invalidParameter name reason => "invalid parameter " ++ name ++ ": " ++ reason
  | noSolution => "no solution produced"

/-- Why a problem could not be set up or run. -/
inductive Failure where
  | activePassiveCollision (device : DeviceId)
  | widthMismatch (expected actual : Nat)
  -- devices are attached to a meter that the topology does not declare
  | unknownDevice (device : DeviceId)
  | thermalMeterCount (found : Nat)
  | gridNotInitialized (grid : GridKind)
  | emptyProblem
  | invalidScenario (issues : List ConfigIssue)
  | search (cause : SearchFailure)
  -- of a candidate of a search
  | evaluation (cause : Failure)
  | defect (cause : Defect)
deriving Repr, Inhabited

def Failure.message : Failure → String
  | activePassiveCollision d =>
    "device " ++ d.toString ++ " is both active and passive in the grid topology"
  | widthMismatch expected actual =>
    "solution width mismatch: parts require " ++ toString expected ++
      " variables, solution has " ++ toString actual
  | unknownDevice d => "topology references unknown device " ++ d.toString
  | thermalMeterCount found =>
    "missing required device type: thermal grid needs exactly one meter, found " ++ toString found
  | gridNotInitialized grid => grid.name ++ " grid is not initialized"
  | emptyProblem => "no problem parts to optimize"
  | invalidScenario issues =>
    "invalid scenario: " ++ String.intercalate "; " (issues.map ConfigIssue.display)
  | search cause => cause.message
  | evaluation cause => "evaluation failed: " ++ cause.message
  | defect _ => "internal defect"

end HomeEnergy

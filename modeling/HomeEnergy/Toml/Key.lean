import HomeEnergy.Toml.Quoted

/-!
# Keys

A key is a name, or several names joined by dots. A name is quoted, or made of letters, digits, hyphens and
underscores. Blanks may stand around every name.
-/

namespace HomeEnergy.Toml

/-- The greatest number of names in a key. -/
def maxKeyLength : Nat := 79

namespace Key

open Reader

def isBare (c : Char) : Bool :=
  c.isAlphanum || c == '-' || c == '_'

def bare : Reader String := do
  return String.ofList (← takeWhile1 isBare)

def name : Reader String := do
  blanks
  let s ← Quoted.line <|> bare
  blanks
  return s

/-- A key: the names before the last one, and the last one. -/
def path : Reader (List String × String) := do
  let first ← name
  let more ← many (do char '.'; name)
  let names := first :: more
  if maxKeyLength < names.length then failure
  else return (names.dropLast, names.getLastD first)

end Key

end HomeEnergy.Toml

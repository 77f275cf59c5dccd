import HomeEnergy.Toml.Key
import HomeEnergy.Toml.Moment
import HomeEnergy.Toml.Table

/-!
# Values as they are written

Texts, numbers, moments and truth values stand for themselves. Brackets enclose lists, which may go over
several lines, hold comments and end with a comma. Braces enclose tables, which stay on their line.

Lists and tables are nested at most `maxDepth` deep.
-/

namespace HomeEnergy.Toml

/-- The greatest depth of lists and tables in a value. -/
def maxDepth : Nat := 79

namespace Expression

open Reader

def boolean : Reader Value :=
  (do chars ['t', 'r', 'u', 'e']; return .boolean true) <|>
    (do chars ['f', 'a', 'l', 's', 'e']; return .boolean false)

def scalar : Reader Value :=
  (do return .string (← Quoted.text)) <|> Moment.value <|> Number.value <|> boolean

def separated {β : Type} (item : Reader β) : Reader (List β) :=
  (do
    let first ← item
    let more ← many (do char ','; item)
    return first :: more) <|> return []

def array (item : Reader Value) : Reader Value := do
  char '['
  let items ← separated (do
    filler
    let v ← item
    filler
    return v)
  if items.isEmpty then filler
  else
    let _ ← optional (char ',')
    filler
  char ']'
  return .array items

def keyValue (item : Reader Value) : Reader (List String × String × Value) := do
  let (path, name) ← Key.path
  char '='
  blanks
  let v ← item
  return (path, name, v)

def braces (item : Reader Value) : Reader Value := do
  char '\x7b'
  let keys ← separated (do
    let k ← keyValue item
    blanks
    return k)
  blanks
  char '\x7d'
  match Entries.setKeys .bracedKey keys [] with
  | some es => return .table .braces es
  | none => failure

/-- A value with at most `depth` lists and tables around one another. -/
def value : Nat → Reader Value
  | 0 => scalar
  | depth + 1 => scalar <|> array (value depth) <|> braces (value depth)

end Expression

end HomeEnergy.Toml

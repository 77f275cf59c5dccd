import HomeEnergy.Toml.Expression

/-!
# Documents

A document is a series of lines: keys with their values, headers of tables and of elements of lists of
tables, comments and empty lines. A header and the keys below it form a section; the keys before the
first header form one too. The sections, stored one after the other, make up the table of the document
(`Section.addTo`).
-/

namespace HomeEnergy.Toml

/-- Where the keys of a section belong. -/
inductive Header where
  | root
  | table (path : List String) (name : String)
  | element (path : List String) (name : String)
deriving DecidableEq, Repr, Inhabited

/-- A header and the keys below it. -/
structure Section where
  header : Header
  keys : List (List String × String × Value)

def Section.addTo (es : Entries) (s : Section) : Option Entries :=
  let fill := Entries.setKeys .key s.keys
  match s.header with
  | .root => fill es
  | .table path name => es.openTable path name fill
  | .element path name => es.openElement path name fill

namespace Document

open Reader

def keys : Reader (List (List String × String × Value)) := do
  let items ← many
    ((do
      let k ← Expression.keyValue (Expression.value maxDepth)
      lineEnd
      return some k) <|>
    (do comment; newline <|> atEnd; return none) <|>
    (do newline; return none) <|>
    (do let _ ← takeWhile1 isBlank; return none))
  return items.filterMap id

/-- The header of an element, or else of a table. -/
def header : Reader Header :=
  (do
    chars ['[', '[']
    let (path, name) ← Key.path
    chars [']', ']']
    lineEnd
    return .element path name) <|>
  (do
    char '['
    let (path, name) ← Key.path
    char ']'
    lineEnd
    return .table path name)

def headed : Reader Section := do
  let h ← header
  return { header := h, keys := ← keys }

def sections : Reader (List Section) := do
  let _ ← optional (char '\ufeff')
  let first ← keys
  let more ← many headed
  atEnd
  return { header := .root, keys := first } :: more

/-- The table that a text stands for, if the text is a document. -/
def ofString? (text : String) : Option Entries := do
  let (all, _) ← sections text.toList
  all.foldlM Section.addTo []

end Document

end HomeEnergy.Toml

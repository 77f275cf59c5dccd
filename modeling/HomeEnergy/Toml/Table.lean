import HomeEnergy.Toml.Value

/-!
# How tables grow

Values are stored below a path of names. The path is walked from table to table, and a name that is not there
yet becomes a new table; the last one of a list of tables stands for the list.

A path of a header makes implied tables and may pass through every table that is not in braces. A path of a
dotted key makes dotted tables, passes through no table that is in braces or has a header of its own, and
may end only in a dotted table. A dotted key in braces passes through the tables that such keys made.
-/

namespace HomeEnergy.Toml

/-- What a path belongs to. -/
inductive PathKind where
  | header
  | key
  -- in a table in braces
  | bracedKey
deriving DecidableEq, Repr, Inhabited

/-- The kind of the tables that a path makes. -/
def PathKind.makes : PathKind → TableKind
  | header => .implied
  | key => .dotted
  | bracedKey => .bracedDotted

/-- True if a path may pass through a table. -/
def PathKind.passes (p : PathKind) (t : TableKind) : Bool :=
  match p, t with
  | .header, t => !t.isBraced
  | .key, .implied | .key, .dotted => true
  | .bracedKey, .bracedDotted => true
  | _, _ => false

namespace Entries

/-- Changes the table at the end of a path, given its kind and its entries. -/
def modifyAt (p : PathKind) (change : TableKind → Entries → Option Entries) :
    List String → TableKind → Entries → Option Entries
  | [], kind, es => change kind es
  | name :: path, _, es => do
    match es.get? name with
    | none =>
      let inner ← modifyAt p change path p.makes []
      return es ++ [(name, .table p.makes inner)]
    | some (.table kind inner) =>
      if p.passes kind then
        return es.put name (.table kind (← modifyAt p change path kind inner))
      else none
    | some (.tables items) =>
      let last ← items.getLast?
      let inner ← modifyAt p change path .header last
      return es.put name (.tables (items.dropLast ++ [inner]))
    | some _ => none

/-- Stores the value of a key. A dotted key ends in a table that dotted keys make. -/
def setKey (p : PathKind) (path : List String) (name : String) (v : Value) (es : Entries) :
    Option Entries :=
  modifyAt p (fun kind es =>
    if path.isEmpty || kind == p.makes then es.add? name v else none) path .header es

def setKeys (p : PathKind) (keys : List (List String × String × Value)) (es : Entries) :
    Option Entries :=
  keys.foldlM (fun es k => setKey p k.1 k.2.1 k.2.2 es) es

/-- Stores a table under a header of its own. The table may have been implied before, and then moves to
the end with what it holds. -/
def openTable (path : List String) (name : String) (fill : Entries → Option Entries)
    (es : Entries) : Option Entries :=
  modifyAt .header (fun _ es =>
    match es.get? name with
    | none => do return es ++ [(name, .table .header (← fill []))]
    | some (.table .implied inner) => do
      return es.erase name ++ [(name, .table .header (← fill inner))]
    | some _ => none) path .header es

def openElement (path : List String) (name : String) (fill : Entries → Option Entries)
    (es : Entries) : Option Entries :=
  modifyAt .header (fun _ es =>
    match es.get? name with
    | none => do return es ++ [(name, .tables [← fill []])]
    | some (.tables items) => do return es.put name (.tables (items ++ [← fill []]))
    | some _ => none) path .header es

end Entries

end HomeEnergy.Toml

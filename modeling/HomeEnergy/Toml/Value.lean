import HomeEnergy.Scalar.Double

/-!
# Values of scenario files

A scenario file is a table of named values. A table remembers how it came about, because that decides
how it may be extended: one written in braces is complete, one opened by a header takes the keys below it,
one that is only named on the way to another table may still get a header of its own, and one made by a
dotted key takes further dotted keys only, within the same braces if the key stands in braces.

Names are unique within a table, and its entries keep their order.
-/

namespace HomeEnergy.Toml

/-- How a table came about. -/
inductive TableKind where
  | braces
  | header
  -- named on the way to another table
  | implied
  | dotted
  | bracedDotted
deriving DecidableEq, Repr, Inhabited

def TableKind.isBraced : TableKind → Bool
  | braces | bracedDotted => true
  | _ => false

/-- A value of a scenario file. -/
inductive Value where
  | string (text : String)
  | integer (n : Int)
  | float (x : Double)
  | boolean (b : Bool)
  -- a date, a time or both, as written
  | moment (text : String)
  | array (items : List Value)
  -- opened by headers, one after the other
  | tables (items : List (List (String × Value)))
  | table (kind : TableKind) (entries : List (String × Value))
deriving Inhabited

abbrev Entries := List (String × Value)

namespace Entries

def get? (es : Entries) (name : String) : Option Value :=
  (es.find? fun e => e.1 == name).map fun e => e.2

/-- The entries with the value of a name replaced in its place, or added at the end. -/
def put (es : Entries) (name : String) (v : Value) : Entries :=
  match es with
  | [] => [(name, v)]
  | e :: rest => if e.1 == name then (name, v) :: rest else e :: put rest name v

def erase (es : Entries) (name : String) : Entries :=
  es.filter fun e => e.1 != name

/-- The entries with a new name at the end; none if the name is taken. -/
def add? (es : Entries) (name : String) (v : Value) : Option Entries :=
  if (es.get? name).isSome then none else some (es ++ [(name, v)])

end Entries

end HomeEnergy.Toml

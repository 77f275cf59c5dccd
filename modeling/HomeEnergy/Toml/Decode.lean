import HomeEnergy.DeviceId
import HomeEnergy.Scalar.Double
import HomeEnergy.Toml.Value

/-!
# Taking values apart

What a scenario expects at a place is read off the value that stands there; a value of another shape is
refused.

A record has named fields. It is written as a table, which must not hold other names, or as a list of its
fields in their order, which may break off. A variant names one of several shapes in a field of its own, or
in the first element of a list; what is left is the record of that shape. In the record of a variant a list
with too many elements is refused, while elsewhere they are ignored.
-/

namespace HomeEnergy.Toml

/-- Where a record or a choice stands. -/
inductive Place where
  | plain
  | variant
deriving DecidableEq, Repr, Inhabited

namespace Value

def text? : Value → Option String
  | string s => some s
  | _ => none

def truth? : Value → Option Bool
  | boolean b => some b
  | _ => none

/-- A whole number that is not negative. -/
def word? : Value → Option UInt64
  | integer n => if 0 ≤ n then some (UInt64.ofNat n.toNat) else none
  | _ => none

def ofInt (n : Int) : Double :=
  if n < 0 then -(Scalar.ofNat n.natAbs) else Scalar.ofNat n.natAbs

/-- A number, whole or not. -/
def float? : Value → Option Double
  | float x => some x
  | integer n => some (ofInt n)
  | _ => none

def items? : Value → Option (List Value)
  | array items => some items
  | tables items => some (items.map (table .header))
  | _ => none

def listOf? {β : Type} (read : Value → Option β) (v : Value) : Option (List β) := do
  (← v.items?).mapM read

def isEmptyContainer : Value → Bool
  | array [] => true
  | table _ [] => true
  | _ => false

/-- One of several names: a text, or a table with the name as its key and nothing behind it. A table that
is neither in braces nor in a variant may hold more keys behind the first one. -/
def choice? {β : Type} (place : Place) (ofName? : String → Option β) : Value → Option β
  | string s => ofName? s
  | table kind ((name, v) :: rest) =>
    let alone := rest.isEmpty || (place == .plain && !kind.isBraced)
    let bare :=
      match place, v with
      | .variant, array _ => false
      | _, v => v.isEmptyContainer
    if alone && bare then ofName? name else none
  | _ => none

/-- The fields that are given of a record with the named fields. -/
def record? (place : Place) (names : List String) : Value → Option Entries
  | table _ es => if es.all fun e => names.contains e.1 then some es else none
  | v => do
    let items ← v.items?
    if place = .variant ∧ names.length < items.length then none
    else some (names.zip items)

/-- The name of a variant and the record that is left. -/
def variant? (field : String) : Value → Option (String × Value)
  | table kind es => do
    let name ← (← Entries.get? es field).text?
    return (name, table kind (Entries.erase es field))
  | v => do
    match ← v.items? with
    | first :: rest => return (← first.text?, array rest)
    | [] => none

def byte? (v : Value) : Option UInt8 := do
  let n ← v.word?
  if n < 256 then some n.toUInt8 else none

/-- The identity of a device: its text, or a list of its bytes. -/
def device? : Value → Option DeviceId
  | string s => DeviceId.ofString? s
  | v => do
    let items ← v.items?
    if items.length < 16 then none
    else return DeviceId.ofBytes (← (items.take 16).mapM byte?)

end Value

namespace Entries

variable {β : Type}

def required (es : Entries) (name : String) (read : Value → Option β) : Option β :=
  (es.get? name).bind read

def field (es : Entries) (name : String) (read : Value → Option β) (default : β) : Option β :=
  match es.get? name with
  | some v => read v
  | none => some default

def optionalField (es : Entries) (name : String) (read : Value → Option β) : Option (Option β) :=
  match es.get? name with
  | some v => (read v).map some
  | none => some none

end Entries

end HomeEnergy.Toml

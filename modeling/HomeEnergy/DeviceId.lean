/-!
# Device identifiers

A device or meter is known by a 128-bit number. Its text has 32 lower-case hexadecimal digits in groups
of 8, 4, 4, 4 and 12 that are joined by hyphens.

Reading is more liberal than writing: the digits may be of either case, the hyphens may all be absent,
and the hyphenated form may stand in braces or after `urn:uuid:`.
-/

namespace HomeEnergy

structure DeviceId where
  bits : BitVec 128
deriving DecidableEq, Hashable, Inhabited, Repr

namespace DeviceId

def ofNat (n : Nat) : DeviceId := ⟨BitVec.ofNat 128 n⟩

def toNat (d : DeviceId) : Nat := d.bits.toNat

def nil : DeviceId := ofNat 0

instance : LT DeviceId := ⟨fun a b => a.toNat < b.toNat⟩

instance : DecidableLT DeviceId := fun a b => Nat.decLt a.toNat b.toNat

/-- The value of a hexadecimal digit of either case. -/
def hexValue? (c : Char) : Option Nat :=
  if '0' ≤ c ∧ c ≤ '9' then some (c.toNat - '0'.toNat)
  else if 'a' ≤ c ∧ c ≤ 'f' then some (c.toNat - 'a'.toNat + 10)
  else if 'A' ≤ c ∧ c ≤ 'F' then some (c.toNat - 'A'.toNat + 10)
  else none

def hexDigit (n : Nat) : Char :=
  if n < 10 then Char.ofNat ('0'.toNat + n) else Char.ofNat ('a'.toNat + (n - 10))

/-- The number that a series of hexadecimal digits denotes, most significant digit first. -/
def hexNumber? (cs : List Char) : Option Nat :=
  cs.foldlM (fun n c => (hexValue? c).map (fun d => 16 * n + d)) 0

def digits (d : DeviceId) : List Char :=
  (List.range 32).map fun i => hexDigit ((d.toNat >>> (4 * (31 - i))) % 16)

def toString (d : DeviceId) : String :=
  let ds := d.digits
  let group (start len : Nat) : List Char := (ds.drop start).take len
  String.ofList (group 0 8 ++ '-' :: group 8 4 ++ '-' :: group 12 4 ++ '-' :: group 16 4
    ++ '-' :: group 20 12)

instance : ToString DeviceId := ⟨DeviceId.toString⟩

/-- Reads the form with hyphens after 8, 12, 16 and 20 digits. -/
def ofHyphenated? (cs : List Char) : Option DeviceId :=
  let group (start len : Nat) : List Char := (cs.drop start).take len
  let hyphens := [8, 13, 18, 23].all fun i => cs[i]? == some '-'
  if cs.length = 36 ∧ hyphens then
    (hexNumber? (group 0 8 ++ group 9 4 ++ group 14 4 ++ group 19 4 ++ group 24 12)).map ofNat
  else none

/-- Reads an identifier in any accepted form: 32 digits, or the hyphenated form bare, in braces or
after `urn:uuid:`. -/
def ofString? (s : String) : Option DeviceId :=
  match s.toList with
  | 'u' :: 'r' :: 'n' :: ':' :: 'u' :: 'u' :: 'i' :: 'd' :: ':' :: rest => ofHyphenated? rest
  | '{' :: rest =>
    if rest.getLast? = some '}' then ofHyphenated? rest.dropLast else none
  | cs => if cs.length = 32 then (hexNumber? cs).map ofNat else ofHyphenated? cs

def ofBytes (bytes : List UInt8) : DeviceId :=
  ofNat (bytes.foldl (fun n b => 256 * n + b.toNat) 0)

end DeviceId

end HomeEnergy

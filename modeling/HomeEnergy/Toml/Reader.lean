/-!
# Reading characters

A reader takes characters from the front of a text, or refuses it. A refusal takes nothing: the alternative
`a <|> b` gives `b` the text that `a` was given.

* `Reader.many` and `Reader.manyUntil` repeat a reader that takes at least one character each time; the
  length of the text bounds the repetitions.
* Blanks are spaces and tabs. A line ends with a line feed, alone or after a carriage return, and a
  comment goes from `#` to the end of its line. Control characters other than tabs stand nowhere.
-/

namespace HomeEnergy.Toml

abbrev Reader := StateT (List Char) Option

namespace Reader

variable {β : Type}

def peek : Reader (Option Char) := fun cs => some (cs.head?, cs)

def next : Reader Char
  | c :: cs => some (c, cs)
  | [] => none

def satisfy (p : Char → Bool) : Reader Char
  | c :: cs => if p c then some (c, cs) else none
  | [] => none

def char (c : Char) : Reader Unit := do
  let _ ← satisfy (· == c)

def chars : List Char → Reader Unit
  | [] => return ()
  | c :: cs => do
    char c
    chars cs

def takeWhile (p : Char → Bool) : Reader (List Char) := fun cs =>
  some (cs.takeWhile p, cs.dropWhile p)

def takeWhile1 (p : Char → Bool) : Reader (List Char) := do
  let c ← satisfy p
  return c :: (← takeWhile p)

def count (p : Char → Bool) : Nat → Reader (List Char)
  | 0 => return []
  | n + 1 => do
    let c ← satisfy p
    return c :: (← count p n)

/-- Accepts where the reader accepts, and takes nothing. -/
def lookahead (r : Reader β) : Reader Unit := fun cs => (r cs).map fun _ => ((), cs)

/-- At most `fuel` repetitions of a reader, as long as it accepts. -/
def manyUpTo (r : Reader β) : Nat → Reader (List β)
  | 0 => return []
  | fuel + 1 => fun cs =>
    match r cs with
    | none => some ([], cs)
    | some (x, rest) => (manyUpTo r fuel rest).map fun (xs, rest) => (x :: xs, rest)

/-- All repetitions of a reader that takes at least one character each time. -/
def many (r : Reader β) : Reader (List β) := fun cs => manyUpTo r cs.length cs

def atEnd : Reader Unit
  | [] => some ((), [])
  | _ :: _ => none

/-! ### Blanks, lines and comments -/

def isBlank (c : Char) : Bool := c == ' ' || c == '\t'

/-- The characters that may stand in a comment: all but control characters, and tabs. -/
def isPrintable (c : Char) : Bool :=
  c == '\t' || (' ' ≤ c && c ≤ '~') || 0x80 ≤ c.toNat

def blanks : Reader Unit := do
  let _ ← takeWhile isBlank

def newline : Reader Unit :=
  char '\n' <|> chars ['\r', '\n']

def comment : Reader Unit := do
  char '#'
  let _ ← takeWhile isPrintable

def blankLines : Reader Unit := do
  let _ ← many (newline <|> do let _ ← takeWhile1 isBlank)

def filler : Reader Unit := do
  let _ ← many (newline <|> (do let _ ← takeWhile1 isBlank) <|> (do comment; newline))

def lineEnd : Reader Unit := do
  blanks
  let _ ← optional comment
  newline <|> atEnd

end Reader

end HomeEnergy.Toml

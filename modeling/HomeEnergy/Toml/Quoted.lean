import HomeEnergy.DeviceId
import HomeEnergy.Toml.Reader

/-!
# Quoted texts

Texts stand in quotes, where a backslash starts an escape, or in apostrophes, where every character stands
for itself. Three quotes or apostrophes open a text of several lines, whose first line break is dropped
if it comes at once. Line breaks in it count as line feeds, and a backslash at the end of a line joins it
with the next character that is no blank.

Up to two quotes may stand inside a text of several lines, also right before the three that close it.
-/

namespace HomeEnergy.Toml.Quoted

open Reader

/-- The characters of a text in quotes that stand for themselves. -/
def isPlain (c : Char) : Bool :=
  isPrintable c && c != '"' && c != '\\'

def isLiteral (c : Char) : Bool :=
  isPrintable c && c != '\''

def charOfCode? (n : Nat) : Option Char :=
  if n.isValidChar then some (Char.ofNat n) else none

def isHexDigit (c : Char) : Bool :=
  (DeviceId.hexValue? c).isSome

/-- The character with a code of `length` hexadecimal digits. -/
def codePoint (length : Nat) : Reader Char := do
  let digits ← count isHexDigit length
  match (DeviceId.hexNumber? digits).bind charOfCode? with
  | some c => return c
  | none => failure

/-- The character that an escape stands for. -/
def escape : Reader Char := do
  char '\\'
  match ← next with
  | 'b' => return '\x08'
  | 't' => return '\t'
  | 'n' => return '\n'
  | 'f' => return '\x0c'
  | 'r' => return '\r'
  | '"' => return '"'
  | '\\' => return '\\'
  | 'u' => codePoint 4
  | 'U' => codePoint 8
  | _ => failure

def basic : Reader (List Char) := do
  char '"'
  let cs ← many (satisfy isPlain <|> escape)
  char '"'
  return cs

def literal : Reader (List Char) := do
  char '\''
  let cs ← takeWhile isLiteral
  char '\''
  return cs

def lineBreak : Reader (List Char) := do
  newline
  return ['\n']

/-- A backslash at the end of a line, with the blanks and line breaks behind it. -/
def joinedLines : Reader (List Char) := do
  char '\\'
  blanks
  newline
  blankLines
  return []

def basicPiece : Reader (List Char) :=
  takeWhile1 isPlain <|> joinedLines <|> (do return [← escape]) <|> lineBreak

def literalPiece : Reader (List Char) :=
  takeWhile1 isLiteral <|> lineBreak

/-- One or two quotes with something accepted behind them. -/
def fewQuotes (quote : Char) (behind : Reader Unit) : Reader (List Char) :=
  (do chars [quote, quote]; behind; return [quote, quote]) <|>
    (do char quote; behind; return [quote])

/-- A text of several lines between three quotes. -/
def lines (quote : Char) (piece : Reader (List Char)) : Reader (List Char) := do
  let delimiter := chars [quote, quote, quote]
  delimiter
  let _ ← optional newline
  let body ← many (piece <|> fewQuotes quote (lookahead (do let _ ← piece)))
  let quotes ← optional (fewQuotes quote (lookahead delimiter))
  delimiter
  return body.flatten ++ quotes.getD []

def text : Reader String := do
  let cs ← lines '"' basicPiece <|> basic <|> lines '\'' literalPiece <|> literal
  return String.ofList cs

def line : Reader String := do
  return String.ofList (← basic <|> literal)

end HomeEnergy.Toml.Quoted

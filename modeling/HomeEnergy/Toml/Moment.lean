import HomeEnergy.Toml.Number

/-!
# Dates and times

A date has four digits for the year and two for the month and the day, joined by hyphens, and the day has
to exist. A time has two digits for hours, minutes and seconds, joined by colons, and may have a fraction
of a second. A date may be followed by a time, after `T` or a blank, and that by `Z` or an offset in hours
and minutes. Scenarios use neither; their values are checked and kept as text.
-/

namespace HomeEnergy.Toml.Moment

open Reader

/-- A number of `length` digits up to a limit, with its digits. -/
def field (length least greatest : Nat) : Reader (Nat × List Char) := do
  let cs ← count Char.isDigit length
  let n := Number.ofDigits 10 cs
  if least ≤ n ∧ n ≤ greatest then return (n, cs) else failure

def isLeapYear (year : Nat) : Bool :=
  year % 4 == 0 && (year % 100 != 0 || year % 400 == 0)

def daysOf (year month : Nat) : Nat :=
  if month = 2 then (if isLeapYear year then 29 else 28)
  else if [4, 6, 9, 11].contains month then 30
  else 31

def date : Reader (List Char) := do
  let (year, ys) ← field 4 0 9999
  char '-'
  let (month, ms) ← field 2 1 12
  char '-'
  let (_, ds) ← field 2 1 (daysOf year month)
  return ys ++ '-' :: ms ++ '-' :: ds

def fraction : Reader (List Char) := do
  char '.'
  return '.' :: (← takeWhile1 Char.isDigit)

def time : Reader (List Char) := do
  let (_, hs) ← field 2 0 23
  char ':'
  let (_, ms) ← field 2 0 59
  char ':'
  let (_, ss) ← field 2 0 60
  return hs ++ ':' :: ms ++ ':' :: ss ++ (← optional fraction).getD []

/-- An offset from universal time. -/
def offset : Reader (List Char) :=
  (do return [← satisfy fun c => c == 'Z' || c == 'z']) <|>
    (do
      let sign ← satisfy fun c => c == '+' || c == '-'
      let (_, hs) ← field 2 0 23
      char ':'
      let (_, ms) ← field 2 0 59
      return sign :: hs ++ ':' :: ms)

def timeOfDay : Reader (List Char) := do
  let mark ← satisfy fun c => c == 'T' || c == 't' || c == ' '
  let t ← time
  return mark :: t ++ (← optional offset).getD []

def value : Reader Value := do
  let cs ← (do return (← date) ++ (← optional timeOfDay).getD []) <|> time
  return .moment (String.ofList cs)

end HomeEnergy.Toml.Moment

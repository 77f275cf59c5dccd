/-!
# Comma-separated values

A record is a line of fields joined by commas. A field that holds a comma, a quote or a line break is
written in quotes, with its quotes doubled; a record of a single empty field is written as a pair of
quotes, so that it is not an empty line.
-/

namespace HomeEnergy.Csv

def isSpecial (c : Char) : Bool :=
  c == ',' || c == '"' || c == '\n' || c == '\r'

def doubleQuotes : List Char → List Char
  | [] => []
  | '"' :: rest => '"' :: '"' :: doubleQuotes rest
  | c :: rest => c :: doubleQuotes rest

def quoted (field : List Char) : List Char :=
  '"' :: doubleQuotes field ++ ['"']

def field (text : List Char) : List Char :=
  if text.any isSpecial then quoted text else text

def joined : List (List Char) → List Char
  | [] => []
  | [f] => field f
  | f :: rest => field f ++ ',' :: joined rest

def record (fields : List (List Char)) : List Char :=
  match fields with
  | [[]] => ['"', '"', '\n']
  | _ => joined fields ++ ['\n']

def text (records : List (List String)) : String :=
  String.join (records.map fun r => String.ofList (record (r.map String.toList)))

end HomeEnergy.Csv

import HomeEnergy.Console

/-!
# Sessions in memory

A session is a directory of text files with everything that a program printed and reported in it. It makes a
run of a program a function on values.

A path goes step by step, from the directory of the session or from the root of all directories. The
directories above the session exist and hold nothing else; below it those exist that files lie in. A program
cannot make new ones. A name has at most 255 bytes and a path less than 4096.
-/

namespace HomeEnergy

/-- A directory with files, and what a program did in it. -/
structure Session where
  given : List (List String)
  -- of equal paths the first counts
  files : List (List String × String)
  written : List (List String)
  output : String
  reports : String
deriving Repr, Inhabited

namespace Session

/-- What a path leads to. The steps to a place below the session are the names on the way; to any other
place they start with `..` or `/`. -/
inductive Place where
  | directory (path : List String)
  | file (path : List String) (contents : String)
  | vacant (path : List String)
deriving Repr, Inhabited

def stepsOf (path : String) : List String :=
  path.splitOn "/"

def ofFiles (files : List (String × String)) : Session :=
  let files := files.map fun f => (stepsOf f.1, f.2)
  { given := files.map fun f => f.1, files, written := [], output := "", reports := "" }

def get? (s : Session) (path : List String) : Option String :=
  (s.files.find? fun f => f.1 == path).map fun f => f.2

/-- True of the root, of the session, of the directories above it and of those that files lie below. -/
def isDirectory (s : Session) (path : List String) : Bool :=
  path == ["/"] || path.all (fun step => step == "..") ||
    s.files.any fun f => decide (path.length < f.1.length) && path.isPrefixOf f.1

/-- The directory above a directory. The root is above itself. -/
def above (path : List String) : List String :=
  if path == ["/"] then path
  else if path.all fun step => step == ".." then path ++ [".."]
  else path.dropLast

def enter (s : Session) (step : String) : Place → Except FileFailure Place
  | .directory path =>
    if step = "" ∨ step = "." then .ok (.directory path)
    else if step = ".." then .ok (.directory (above path))
    else if 255 < step.utf8ByteSize then .error .nameTooLong
    else
      let path := path ++ [step]
      match s.get? path with
      | some contents => .ok (.file path contents)
      | none => .ok (if s.isDirectory path then .directory path else .vacant path)
  | .file _ _ => .error .notDirectory
  | .vacant _ => .error .missing

def walk (s : Session) (steps : List String) (start : Place) : Except FileFailure Place :=
  steps.foldlM (fun place step => s.enter step place) start

def origin (path : String) : Place :=
  .directory (if path.startsWith "/" then ["/"] else [])

/-- The steps of a path that the system looks at. -/
def checkedSteps (path : String) : Except FileFailure (List String) :=
  if path.isEmpty then .error .missing
  else if 4096 ≤ path.utf8ByteSize then .error .nameTooLong
  else .ok (stepsOf path)

def read (s : Session) (path : String) : Except FileFailure String := do
  match ← s.walk (← checkedSteps path) (origin path) with
  | .directory _ => .error .isDirectory
  | .file _ contents => .ok contents
  | .vacant _ => .error .missing

/-- The session with the file at a path replaced. A path that ends in a slash names a directory, whether
there is one or not, so that only the way to its last name is looked at. -/
def write (s : Session) (path contents : String) : Except FileFailure Session := do
  let steps ← checkedSteps path
  let named := (steps.reverse.dropWhile (·.isEmpty)).reverse
  if named.length < steps.length then
    let place ← s.walk named.dropLast (origin path)
    let _ ← s.enter "" place
    .error .isDirectory
  else
    match ← s.walk steps (origin path) with
    | .directory _ => .error .isDirectory
    | .file target _ | .vacant target =>
      return { s with
        files := (target, contents) :: s.files
        written := s.written.filter (fun path => path != target) ++ [target] }

def isInside (path : List String) : Bool :=
  path.head? != some ".." && path.head? != some "/"

/-- The new files that the program wrote into the session, with their texts. -/
def writtenFiles (s : Session) : List (String × String) :=
  (s.written.filter fun path => isInside path && !s.given.contains path).map fun path =>
    (String.intercalate "/" path, (s.get? path).getD "")

instance : Console (StateM Session) where
  readFile path := return (← get).read path
  writeFile path contents := do
    match (← get).write path contents with
    | .ok s => set s; return .ok ()
    | .error e => return .error e
  print text := modify fun s => { s with output := s.output ++ text }
  report text := modify fun s => { s with reports := s.reports ++ text }

end Session

end HomeEnergy

import HomeEnergy.Config

/-!
# The command line

An argument list is a sequence of flags, each with the value that follows it. The value is taken as it
stands, also if it looks like a flag. No flag may occur twice, and a scenario comes from a file or from a
built-in one, never from both.

A request for help ends the reading: what stands behind it is not looked at.
-/

namespace HomeEnergy

/-- The flags that take a value. -/
inductive Flag where
  | scenario
  | preset
  | seed
  | profileOut
  | schedulesOut
deriving DecidableEq, Repr, Inhabited

namespace Flag

def all : List Flag := [scenario, preset, seed, profileOut, schedulesOut]

def text : Flag → String
  | scenario => "--scenario"
  | preset => "--preset"
  | seed => "--seed"
  | profileOut => "--profile-out"
  | schedulesOut => "--schedules-out"

def ofText? (s : String) : Option Flag :=
  all.find? fun f => f.text == s

theorem ofText?_text (f : Flag) : ofText? f.text = some f := by
  cases f <;> decide

def valueKind : Flag → String
  | scenario => "a TOML file path"
  | preset => "a preset name"
  | seed => "a u64"
  | profileOut | schedulesOut => "a file path"

end Flag

def isHelp (argument : String) : Bool :=
  argument == "--help" || argument == "-h"

/-- What the arguments ask for. -/
structure CommandLine where
  scenario? : Option String
  preset? : Option String
  seed? : Option UInt64
  profileOut? : Option String
  schedulesOut? : Option String
deriving DecidableEq, Repr, Inhabited

inductive ArgumentIssue where
  | missingValue (flag : Flag)
  | repeated (flag : Flag)
  | invalidSeed (value : String)
  | unknown (argument : String)
  | twoSources
deriving DecidableEq, Repr, Inhabited

def ArgumentIssue.message : ArgumentIssue → String
  | missingValue flag => "missing value for " ++ flag.text ++ " (expected " ++ flag.valueKind ++ ")"
  | repeated flag => flag.text ++ " provided more than once"
  | invalidSeed value => "--seed value \"" ++ value ++ "\" is not a valid u64"
  | unknown argument => "unknown argument: " ++ argument
  | twoSources =>
    "arguments \x60--scenario\x60 and \x60--preset\x60 are mutually exclusive; choose one source"

namespace CommandLine

def empty : CommandLine :=
  { scenario? := none, preset? := none, seed? := none, profileOut? := none, schedulesOut? := none }

def defaultPreset : String := "household"

/-- The digits of a number without a leading plus sign. -/
def unsigned : List Char → List Char
  | '+' :: digits => digits
  | digits => digits

def digitsValue (digits : List Char) : Nat :=
  digits.foldl (fun n c => 10 * n + (c.toNat - '0'.toNat)) 0

/-- The seed of a text: decimal digits, perhaps behind a plus sign, for a number below 2^64. -/
def seedOfText? (s : String) : Option UInt64 :=
  let digits := unsigned s.toList
  if digits.isEmpty || !digits.all Char.isDigit then none
  else if digitsValue digits < UInt64.size then some (.ofNat (digitsValue digits))
  else none

def once {β : Type} (flag : Flag) (old? : Option β) (value : β) :
    Except ArgumentIssue (Option β) :=
  if old?.isSome then .error (.repeated flag) else .ok (some value)

def store (c : CommandLine) (flag : Flag) (value : String) : Except ArgumentIssue CommandLine :=
  match flag with
  | .scenario => do return { c with scenario? := ← once flag c.scenario? value }
  | .preset => do return { c with preset? := ← once flag c.preset? value }
  | .seed =>
    match seedOfText? value with
    | none => .error (.invalidSeed value)
    | some seed => do return { c with seed? := ← once flag c.seed? seed }
  | .profileOut => do return { c with profileOut? := ← once flag c.profileOut? value }
  | .schedulesOut => do return { c with schedulesOut? := ← once flag c.schedulesOut? value }

def withSource (c : CommandLine) : Except ArgumentIssue CommandLine :=
  match c.scenario?, c.preset? with
  | some _, some _ => .error .twoSources
  | none, none => .ok { c with preset? := some defaultPreset }
  | _, _ => .ok c

/-- Reads flags and values. The result is missing if help is asked for. -/
def readFlags : List String → CommandLine → Except ArgumentIssue (Option CommandLine)
  | [], c => c.withSource.map some
  | [argument], _ =>
    if isHelp argument then .ok none
    else
      match Flag.ofText? argument with
      | none => .error (.unknown argument)
      | some flag => .error (.missingValue flag)
  | argument :: value :: rest, c =>
    if isHelp argument then .ok none
    else
      match Flag.ofText? argument with
      | none => .error (.unknown argument)
      | some flag => do readFlags rest (← c.store flag value)

/-- What an argument list asks for; missing if it asks for help. -/
def ofArguments (arguments : List String) : Except ArgumentIssue (Option CommandLine) :=
  readFlags arguments empty

/-- The text that explains the flags. -/
def usage : String :=
  "ems-sim: household energy schedule optimizer\n" ++
  "\n" ++
  "Usage: ems-sim [OPTIONS]\n" ++
  "\n" ++
  "Options:\n" ++
  "  --scenario <path>        Load scenario from TOML config file\n" ++
  "  --preset <name>          Use a built-in preset (" ++
    String.intercalate ", " Config.presetNames ++ ")\n" ++
  "  --seed <u64>             Override the random seed\n" ++
  "  --profile-out <path>     Export the optimized load profile to CSV\n" ++
  "  --schedules-out <path>   Export per-device schedules to CSV\n" ++
  "  --help                   Show this help message\n" ++
  "\n" ++
  "If no --scenario or --preset is given, the household preset is used.\n" ++
  "Log verbosity follows RUST_LOG (default: info).\n"

end CommandLine

end HomeEnergy

import HomeEnergy.CommandLine
import HomeEnergy.Config.Decode
import HomeEnergy.Console
import HomeEnergy.Scenario

/-!
# The program

Reads a scenario, optimizes it, prints a summary and writes the tables that are asked for. The exit code is
zero if the program comes to its end or shows its help, and one if something stands in its way; what that is
goes to the reports. A broken precondition exits with 101.
-/

namespace HomeEnergy

namespace Program

/-- The end of a run before its last step. -/
structure Stop where
  code : UInt32
  report : String

namespace Stop

def error (message : String) : Stop :=
  { code := 1, report := "error: " ++ message ++ "\n" }

def badArguments (e : ArgumentIssue) : Stop :=
  { code := 1, report := (error e.message).report ++ CommandLine.usage }

def help : Stop := { code := 0, report := CommandLine.usage }

def badConfig (e : ConfigIssue) : Stop :=
  { code := 1, report := e.display ++ "\n" }

def failed (e : Failure) : Stop :=
  match e with
  | .defect _ => { error e.message with code := 101 }
  | _ => error e.message

end Stop

def configOfText (text : String) : Except ConfigIssue (Config Double) :=
  match Config.ofString? text with
  | some c => .ok c
  | none => .error { field := "toml", message := "invalid document" }

def padded (width : Nat) (s : String) : String :=
  s ++ String.ofList (List.replicate (width - s.length) ' ')

def scheduleLine (names : DeviceNames) (s : Schedule Double) : String :=
  padded 12 ((names.get? s.device).getD "?") ++ " " ++ padded 15 s.kind ++ " cervisia " ++
    Decimal.fixedPlaces 4 s.terminalCost ++ "\n"

def summary (scenario : Scenario Double) (o : Optimum Double) : String :=
  String.join (o.recording.finished.map (scheduleLine scenario.names)) ++
    "\nFitness:               " ++ Decimal.fixedPlaces 4 o.fitness ++ "\n" ++
    (Kpi.ofProfile o.profile scenario.plan.signals.prices).report ++ "\n"

def optimum (scenario : Scenario Double) : Except Stop (Optimum Double) :=
  match scenario.plan.solve with
  | .error e => .error (.failed e)
  | .ok none => .error (.error "no solution was found")
  | .ok (some o) => .ok o

variable {m : Type → Type} [Monad m] [Console m]

def loadConfig (c : CommandLine) : ExceptT Stop m (Config Double) := do
  let loaded ←
    match c.scenario? with
    | some path =>
      match ← (Console.readFile path : m _) with
      | .ok text => pure (configOfText text)
      | .error e => pure (.error
          { field := "scenario", message := "cannot read \"" ++ path ++ "\": " ++ e.message })
    | none => pure (Config.preset (c.preset?.getD CommandLine.defaultPreset))
  match loaded with
  | .error e => throw (.badConfig e)
  | .ok config => return (c.seed?.map config.withSeed).getD config

def writeTable (path? : Option String) (table noun : String) : ExceptT Stop m Unit := do
  match path? with
  | none => return ()
  | some path =>
    match ← (Console.writeFile path table : m _) with
    | .ok () => Console.report (m := m) (noun ++ " written to " ++ path ++ "\n")
    | .error e => throw (.error ("failed to write CSV: " ++ e.message))

def steps (arguments : List String) : ExceptT Stop m Unit := do
  match CommandLine.ofArguments arguments with
  | .error e => throw (.badArguments e)
  | .ok none => throw .help
  | .ok (some c) =>
    let config ← loadConfig c
    let scenario ← (Scenario.ofConfig config).mapError Stop.failed
    let o ← optimum scenario
    Console.print (m := m) (summary scenario o)
    writeTable c.profileOut? o.profile.toCsv "Load profile"
    writeTable c.schedulesOut? (Schedule.toCsv o.recording.finished scenario.names) "Schedules"

def run (arguments : List String) : m UInt32 := do
  match ← (steps arguments).run with
  | .ok () => return 0
  | .error stop =>
    Console.report stop.report
    return stop.code

end Program

end HomeEnergy

import HomeEnergy.Program

/-!
# The command

Runs the program on the arguments, files and streams of a process.
-/

namespace HomeEnergy

/-- The positive code of a system error, which some accesses report with a negative sign. -/
def FileFailure.systemCode (code : UInt32) : Nat :=
  if code < 2147483648 then code.toNat else (-code).toNat

def FileFailure.ofError : IO.Error → FileFailure
  | .noFileOrDirectory _ code reason
  | .interrupted _ code reason
  | .alreadyExists _ code reason
  | .invalidArgument _ code reason
  | .permissionDenied _ code reason
  | .resourceExhausted _ code reason
  | .inappropriateType _ code reason
  | .noSuchThing _ code reason
  | .otherError code reason
  | .resourceBusy code reason
  | .resourceVanished code reason
  | .unsupportedOperation code reason
  | .hardwareFault code reason
  | .unsatisfiedConstraints code reason
  | .illegalOperation code reason
  | .protocolError code reason
  | .timeExpired code reason => .refused reason.capitalize (systemCode code)
  | .unexpectedEof | .userError _ => .notText

instance : Console IO where
  readFile path := do
    match ← (IO.FS.readFile path).toBaseIO with
    | .ok text => return .ok text
    | .error e => return .error (.ofError e)
  writeFile path contents := do
    match ← (IO.FS.writeFile path contents).toBaseIO with
    | .ok () => return .ok ()
    | .error e => return .error (.ofError e)
  print := IO.print
  report := IO.eprint

end HomeEnergy

def main (arguments : List String) : IO UInt32 :=
  HomeEnergy.Program.run arguments

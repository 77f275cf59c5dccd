/-!
# The surroundings of the program

What the program needs around it: files, an output and a place for reports. `Console` is the interface, so
that a run can be a real one or a function on values (`HomeEnergy.Console.Session`).
-/

namespace HomeEnergy

inductive FileFailure where
  | refused (reason : String) (code : Nat)
  | notText
deriving DecidableEq, Repr, Inhabited

namespace FileFailure

def missing : FileFailure := refused "No such file or directory" 2

def notDirectory : FileFailure := refused "Not a directory" 20

def isDirectory : FileFailure := refused "Is a directory" 21

def nameTooLong : FileFailure := refused "File name too long" 36

def message : FileFailure → String
  | refused reason code => reason ++ " (os error " ++ toString code ++ ")"
  | notText => "stream did not contain valid UTF-8"

end FileFailure

/-- Surroundings in which a program can run. -/
class Console (m : Type → Type) where
  readFile (path : String) : m (Except FileFailure String)
  writeFile (path contents : String) : m (Except FileFailure Unit)
  print (text : String) : m Unit
  report (text : String) : m Unit

end HomeEnergy

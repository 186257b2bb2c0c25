import Succession.FileSystem.Standard
import Succession.Session.Process

/-!
# The command line

The program as it is started from a terminal where no display can be reached: it answers what can
be answered without one, and complains otherwise.
-/

namespace Succession

/-- The name of the program. -/
def programName : String := "kestrel"

/-- The variables that the program reads. -/
def variableNames : List String :=
  ["HOME", "XDG_CONFIG_HOME", "XDG_RUNTIME_DIR", "TMPDIR", "USER", "LOGNAME", "PATH",
    Endpoint.variableName]

/-- A process that is started with some arguments and sees nothing of a display. -/
def startBare (arguments : List String) (env : Environment) : Process :=
  Process.launch
    { host := { files := .standard, pid := 1 }
      display := { refusesConnections := true }
      environment := env
      arguments := (programName :: arguments).map Bytes.ofString }

/-- The exit status that stands for an ending. -/
def Ending.code : Ending → UInt32
  | exited status => UInt32.ofNat status.toNat
  | killed signal => UInt32.ofNat (Signal.exitStatus signal).toNat

end Succession

/-- Starts the program: prints its answers and its complaint, and gives its exit status. -/
def main (arguments : List String) : IO UInt32 := do
  let mut env : Succession.Environment := {}
  for name in Succession.variableNames do
    if let some value ← IO.getEnv name then
      env := env.set name (Succession.Bytes.ofString value)
  match Succession.startBare arguments env with
  | .running _ => return 0
  | .ended remains =>
    for line in remains.answers do
      IO.println line
    if let some complaint := remains.complaint then
      IO.eprintln (Succession.programName ++ ": " ++ complaint)
    return remains.ending.code

import Succession.FileSystem.Operations
import Succession.Image.Arguments
import Succession.Image.Inheritance

/-!
# Replacing the process image

The process replaces itself by a program and hands the manifest and the waiting client's
descriptor over in the environment. If that fails the process is still there, with a fault.
-/

namespace Succession.Image

/-- The environment of the next image. -/
def handOver (env : Environment) (manifest : String) (continuation : Option Int) : Environment :=
  let env := env.set Inheritance.manifestVariable (Bytes.ofString manifest)
  match continuation with
  | some fd => env.set Inheritance.continuationVariable (Bytes.ofString (Numeral.render fd))
  | none => env.erase Inheritance.continuationVariable

/-- Whether an argument cannot be passed to a program. -/
def hasNul (argument : Bytes) : Bool := Bytes.nul ∈ argument

/-- What is wrong with starting the program at a path. The right to execute is not modelled:
whatever stands there counts as an entry that may not be executed. The programs that can be started
are named apart from the files, by the host, and nobody asks this of them. -/
def checkProgram (fs : FileSystem) (p : Path) : SystemFault :=
  match fs.stat p with
  | .error cause => cause
  | .ok _ => .accessDenied

/-- Where programs are searched for if the environment does not tell. -/
def usualSearchPath : Bytes := Bytes.ofString "/bin:/usr/bin"

/-- What is wrong with starting a program: a name without a slash is searched for in the
directories of `PATH`, and a directory where it may not be executed counts more than one where it
is missing. -/
def launchFault (fs : FileSystem) (env : Environment) (program : Bytes) : SystemFault :=
  if program = [] then .notFound
  else if Path.separator ∈ program then checkProgram fs ⟨program⟩
  else if FileSystem.maxName < program.length then .nameTooLong
  else
    let directories := Bytes.split 0x3A ((env.get? "PATH").getD usualSearchPath)
    let faults := directories.map fun d => checkProgram fs (Path.join ⟨d⟩ ⟨program⟩)
    if SystemFault.accessDenied ∈ faults then .accessDenied else .notFound

/-- Tries to replace the image. `refused` tells what keeps the program from being started, if
anything does; else the result is the environment of the next image. -/
def exec (refused : Option SystemFault) (env : Environment) (launch : Launch)
    (manifest : Manifest) (continuation : Option Int) : Except Fault Environment := do
  let encoded ← manifest.encode
  if launch.commandLine.any hasNul then .error (.system .nulInArgument)
  else
    match refused with
    | some cause => .error (.system cause)
    | none => .ok (handOver env encoded continuation)

end Succession.Image

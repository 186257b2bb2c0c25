import Succession.Environment
import Succession.FileSystem.Operations
import Succession.Fault

/-!
# The socket of the running instance

Where the instance listens for requests, and how it begins to: at the configured path, at the
path in the environment, or below the user's runtime directory.
-/

namespace Succession.Endpoint

/-- The variable that names the socket of the running instance. -/
def variableName : String := "KESTRELSOCK"

/-- The directory for temporary files. -/
def temporaryDirectory (env : Environment) : Path :=
  match env.get? "TMPDIR" with
  | some bytes => ⟨bytes⟩
  | none => Path.ofString "/tmp"

/-- The name of the user. -/
def userName (env : Environment) : String :=
  match env.text? "USER" with
  | some user => user
  | none => (env.text? "LOGNAME").getD "0"

/-- The directory for the files of running programs. -/
def runtimeDirectory (env : Environment) : Path :=
  match env.path? "XDG_RUNTIME_DIR" with
  | some directory => directory
  | none => (temporaryDirectory env).join (Path.ofString ("kestrel-" ++ userName env))

/-- The path of the socket. -/
def socketPath (configured : Option Path) (fromEnvironment : Option Bytes)
    (runtimeDirectory : Path) (pid : Nat) : Path :=
  match configured, fromEnvironment with
  | some p, _ => p
  | none, some (b :: rest) => ⟨b :: rest⟩
  | none, _ =>
    (runtimeDirectory.join (Path.ofString "kestrel")).join
      (Path.ofString ("ipc-socket." ++ Numeral.render pid))

/-- The address that a socket bound to a path has; the empty path is none. -/
def addressFor (p : Path) : Option Path := if p.bytes = [] then none else some p

/-- The rights of the directories that are made for a socket. -/
def directoryMode : Nat := 0o700

/-- Makes the directories above a path. -/
def prepareParent (fs : FileSystem) (p : Path) : Except SystemFault Unit × FileSystem :=
  match p.parent? with
  | some directory => fs.createDirectories directoryMode directory
  | none => (.ok (), fs)

/-- Removes what stands at a path, if something does. -/
def clearPath (fs : FileSystem) (p : Path) : Except SystemFault FileSystem :=
  if fs.exists? p then fs.removeFile p else .ok fs

/-- Binds a socket to a path in place of what stands there and gives its number. A fault may come
after the directories were made or the old entry was removed. -/
def create (fs : FileSystem) (p : Path) : Except Fault Nat × FileSystem :=
  match prepareParent fs p with
  | (.error cause, made) => (.error (.system cause), made)
  | (.ok (), made) =>
    match clearPath made p with
    | .error cause =>
      (.error (.ipc ("failed to remove stale ipc socket " ++ p.display ++ ": " ++ cause.message)),
        made)
    | .ok cleared =>
      match cleared.bind p with
      | .error cause =>
        (.error (.ipc ("failed to bind ipc socket " ++ p.display ++ ": " ++ cause.message)),
          cleared)
      | .ok (id, bound) => (.ok id, bound)

end Succession.Endpoint

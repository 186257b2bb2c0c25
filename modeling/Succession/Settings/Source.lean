import Succession.FileSystem.Operations
import Succession.Settings.Basic

/-!
# Where settings come from

The settings file is the one that the command line names, or the one in the user's configuration
directory. Only a named file must exist.
-/

namespace Succession.Settings

/-- Settings and the file they were looked for in. -/
structure Loaded where
  path : Path
  settings : Settings
deriving Repr, Inhabited

/-- The usual place of the settings file. -/
def defaultPath (env : Environment) : Except Fault Path :=
  let inside (p : Path) := (p.join (Path.ofString "kestrel")).join (Path.ofString "config")
  match env.path? "XDG_CONFIG_HOME" with
  | some directory => .ok (inside directory)
  | none =>
    match env.path? "HOME" with
    | some home => .ok (inside (home.join (Path.ofString ".config")))
    | none =>
      .error (.config ⟨[]⟩ "unable to resolve config path: HOME and XDG_CONFIG_HOME are unset")

/-- Reads the settings file at a path. -/
def readFrom (fs : FileSystem) (env : Environment) (p : Path) :
    Except Fault (Settings × List Notice) :=
  match fs.textAt p with
  | .error cause => .error (.config p ("failed to read: " ++ cause.message))
  | .ok text =>
    match parse (env.get? "HOME") text with
    | .error fault => .error (.config p fault.message)
    | .ok parsed => .ok parsed

/-- Reads the settings file that is named or, if none is, the one at the usual place, which need
not exist. -/
def load (fs : FileSystem) (env : Environment) (named : Option Path) :
    Except Fault (Loaded × List Notice) := do
  let p ←
    match named with
    | some p => pure p
    | none => defaultPath env
  if fs.exists? p then
    let (settings, notices) ← readFrom fs env p
    return (⟨p, settings⟩, notices)
  else if named.isSome then .error (.config p "file not found")
  else return (⟨p, {}⟩, [])

/-- As `load`, but with any fault written to the journal and the usual settings in its place. -/
def loadOrUsual (fs : FileSystem) (env : Environment) (named : Option Path) :
    Loaded × List Notice :=
  match load fs env named with
  | .ok loaded => loaded
  | .error fault =>
    let p :=
      match named with
      | some p => p
      | none => (defaultPath env).toOption.getD ⟨[]⟩
    (⟨p, {}⟩, [.defaultSettings fault])

end Succession.Settings

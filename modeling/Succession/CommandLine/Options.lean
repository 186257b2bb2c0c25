import Succession.Path
import Succession.Text.Numeral

/-!
# Options

The options that the program understands, by name, and the record they fill. An option is a
switch, which takes no value, or a setting, which takes one. Where an option is repeated, the last
value counts.
-/

namespace Succession

/-- An option without a value. -/
inductive Switch
  | noAutostart
  | verbose
  | debug
  | disableSignalHandler
  | version
  | moreVersion
  | socketPath
  | help
deriving DecidableEq, Repr

/-- An option with a value. -/
inductive Setting
  | config
  | layout
  | restart
  | logSize
deriving DecidableEq, Repr

/-- An option of either kind. -/
inductive OptionKey
  | switch (s : Switch)
  | setting (s : Setting)
deriving DecidableEq, Repr

/-- Why a command line is refused. Asking for help also ends the reading of it. -/
inductive UsageFault
  | unknownArgument
  | invalidValue
  | valueValidation
  | tooManyValues
  | invalidUtf8
  | displayHelp
deriving DecidableEq, Repr

namespace OptionKey

/-- The long names with their options. -/
def longNames : List (String × OptionKey) :=
  [("config", .setting .config), ("no-autostart", .switch .noAutostart),
    ("layout", .setting .layout), ("restart", .setting .restart),
    ("verbose", .switch .verbose), ("debug", .switch .debug),
    ("shmlog-size", .setting .logSize), ("shmlog_size", .setting .logSize),
    ("disable-signalhandler", .switch .disableSignalHandler),
    ("version", .switch .version), ("more-version", .switch .moreVersion),
    ("moreversion", .switch .moreVersion), ("more_version", .switch .moreVersion),
    ("get-socketpath", .switch .socketPath), ("get_socketpath", .switch .socketPath),
    ("help", .switch .help)]

/-- The option with a long name. -/
def ofLong? (name : Bytes) : Option OptionKey :=
  (longNames.find? fun (long, _) => Bytes.ofString long = name).map (·.2)

/-- The option with a short name, given by its byte. -/
def ofShort? (b : UInt8) : Option OptionKey :=
  match Char.ofNat b.toNat with
  | 'c' => some (.setting .config)
  | 'a' => some (.switch .noAutostart)
  | 'L' => some (.setting .layout)
  | 'V' => some (.switch .verbose)
  | 'd' => some (.switch .debug)
  | 'v' => some (.switch .version)
  | 'm' => some (.switch .moreVersion)
  | 'h' => some (.switch .help)
  | _ => none

end OptionKey

/-- What a command line says. -/
structure Options where
  config : Option Path := none
  noAutostart : Bool := false
  layout : Option Path := none
  restart : Option Path := none
  verbose : Bool := false
  debug : Bool := false
  /-- The size of the diagnostic log in bytes. -/
  logSize : Option Nat := none
  disableSignalHandler : Bool := false
  version : Bool := false
  moreVersion : Bool := false
  socketPath : Bool := false
  /-- The words of a command for a running instance. -/
  command : List String := []
deriving DecidableEq, Repr, Inhabited

namespace Options

/-- The options with a switch turned on. -/
def turnOn (options : Options) : Switch → Except UsageFault Options
  | .noAutostart => .ok { options with noAutostart := true }
  | .verbose => .ok { options with verbose := true }
  | .debug => .ok { options with debug := true }
  | .disableSignalHandler => .ok { options with disableSignalHandler := true }
  | .version => .ok { options with version := true }
  | .moreVersion => .ok { options with moreVersion := true }
  | .socketPath => .ok { options with socketPath := true }
  | .help => .error .displayHelp

/-- The path that an option's value gives: any bytes but none at all. -/
def readPath (value : Bytes) : Except UsageFault Path :=
  if value = [] then .error .invalidValue else .ok ⟨value⟩

/-- The size that an option's value gives. -/
def readSize (value : Bytes) : Except UsageFault Nat :=
  match Utf8.decode? value with
  | none => .error .invalidUtf8
  | some text =>
    match Numeral.parse? .word64 text with
    | some n => .ok n.toNat
    | none => .error .valueValidation

/-- The options with a setting given a value. -/
def assign (options : Options) (key : Setting) (value : Bytes) : Except UsageFault Options :=
  match key with
  | .config => (readPath value).map fun path => { options with config := some path }
  | .layout => (readPath value).map fun path => { options with layout := some path }
  | .restart => (readPath value).map fun path => { options with restart := some path }
  | .logSize => (readSize value).map fun size => { options with logSize := some size }

/-- The snapshot to start from and whether it is deleted after use: the one of a restart goes
before a layout. -/
def snapshot? (options : Options) : Option (Path × Bool) :=
  match options.restart with
  | some path => some (path, true)
  | none => options.layout.map fun path => (path, false)

/-- Whether the options ask for the window manager itself and not for a question to a running
one. -/
def isManagerMode (options : Options) : Bool :=
  !options.version && !options.moreVersion && !options.socketPath && options.command.isEmpty

end Options

/-- The line that names the program's version. -/
def versionText : String := "kestrel version 0.1.0"

end Succession

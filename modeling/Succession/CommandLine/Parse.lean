import Succession.CommandLine.Options

/-!
# Reading a command line

Arguments are read from left to right. A setting whose value has not been seen, or has been seen
but not yet looked at, is held back; it is settled before the next option takes effect, before the
first word of a command, and at the end. The first word that is no option, or a lone `--`, ends
the options: all that follows are words of a command.
-/

namespace Succession

/-- How far the reading of a command line has come. -/
structure Reading where
  options : Options := {}
  /-- The setting that is held back, with its value if that has been read. -/
  pending : Option (Setting × Option Bytes) := none
  /-- Whether the options have ended. -/
  trailing : Bool := false
  /-- The words of the command, not yet known to be text. -/
  words : List Bytes := []
deriving DecidableEq, Repr, Inhabited

namespace Reading

/-- The equals sign. -/
def equals : UInt8 := 0x3D

/-- The hyphen. -/
def hyphen : UInt8 := 0x2D

/-- Settles the setting that is held back: it must have a good value. -/
def settle (r : Reading) : Except UsageFault Reading :=
  match r.pending with
  | none => .ok r
  | some (_, none) => .error .invalidValue
  | some (key, some value) =>
    (r.options.assign key value).map fun options => { r with options := options, pending := none }

/-- A switch takes effect. -/
def turnOn (r : Reading) (s : Switch) : Except UsageFault Reading := do
  let r ← r.settle
  let options ← r.options.turnOn s
  return { r with options := options }

/-- A setting whose value stands in the same argument takes effect. -/
def assign (r : Reading) (key : Setting) (value : Bytes) : Except UsageFault Reading := do
  let r ← r.settle
  let options ← r.options.assign key value
  return { r with options := options }

/-- A setting whose value is still to come is held back. -/
def await (r : Reading) (key : Setting) : Except UsageFault Reading := do
  let r ← r.settle
  return { r with pending := some (key, none) }

/-- Reads `--name` or `--name=value`, given without the hyphens. -/
def readLong (r : Reading) (body : Bytes) : Except UsageFault Reading :=
  match Bytes.cut? equals body with
  | none =>
    match OptionKey.ofLong? body with
    | none => .error .unknownArgument
    | some (.switch s) => r.turnOn s
    | some (.setting key) => r.await key
  | some (name, value) =>
    match OptionKey.ofLong? name with
    | none => .error .unknownArgument
    | some (.switch _) => .error .tooManyValues
    | some (.setting key) => r.assign key value

/-- Reads short options that stand in one argument, given without the hyphen. The first setting
among them takes the rest of the argument, less an equals sign, as its value. -/
def readShort (r : Reading) : Bytes → Except UsageFault Reading
  | [] => .ok r
  | b :: rest =>
    match OptionKey.ofShort? b with
    | none => .error .unknownArgument
    | some (.switch s) => do
      let r ← r.turnOn s
      readShort r rest
    | some (.setting key) =>
      match rest with
      | [] => r.await key
      | c :: value => if c = equals then r.assign key value else r.assign key (c :: value)

/-- Reads a word of the command. -/
def readWord (r : Reading) (argument : Bytes) : Except UsageFault Reading := do
  let r ← r.settle
  return { r with trailing := true, words := r.words ++ [argument] }

/-- Reads an argument that does not look like an option: the value of a setting that waits for
one, or else the first word of the command. -/
def readPlain (r : Reading) (argument : Bytes) : Except UsageFault Reading :=
  match r.pending with
  | some (key, none) => .ok { r with pending := some (key, some argument) }
  | _ => r.readWord argument

/-- Reads one argument. -/
def readArgument (r : Reading) (argument : Bytes) : Except UsageFault Reading :=
  if r.trailing then r.readWord argument
  else
    match argument with
    | a :: b :: body =>
      if a = hyphen then
        if b = hyphen then
          if body = [] then .ok { r with trailing := true } else r.readLong body
        else r.readShort (b :: body)
      else r.readPlain argument
    | _ => r.readPlain argument

/-- Settles what is left at the end; the words of the command must be text. -/
def finish (r : Reading) : Except UsageFault Options := do
  let r ← r.settle
  match r.words.mapM Utf8.decode? with
  | some words => return { r.options with command := words }
  | none => .error .invalidUtf8

end Reading

/-- What the command line says, whose first argument names the program. -/
def Options.parse (arguments : List Bytes) : Except UsageFault Options := do
  let r ← (arguments.drop 1).foldlM Reading.readArgument {}
  r.finish

end Succession

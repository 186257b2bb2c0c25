import Succession.Environment
import Succession.Journal
import Succession.Text.Blank

/-!
# Settings

The settings file has one `key = value` a line; blank lines and lines that begin with `#` are
skipped, and of several lines with one key the last counts. `ipc_socket` names the socket, and
`exec.N` and `exec_always.N` are commands to start, in the order of their numbers.
-/

namespace Succession

/-- What the settings file says. -/
structure Settings where
  socketPath : Option Path := none
  /-- Commands for the first start. -/
  autostart : List String := []
  /-- Commands for every start. -/
  autostartAlways : List String := []
deriving DecidableEq, Repr, Inhabited

/-- Why a settings file is refused. -/
inductive SettingsFault
  | noEquals (number : Nat) (line : String)
  | badIndex (key : String) (cause : NumeralFault)
deriving DecidableEq, Repr

/-- The wording of the fault. -/
def SettingsFault.message : SettingsFault → String
  | .noEquals number line =>
    "line " ++ Numeral.render number ++ ": expected `key = value`, got `" ++ line ++ "`"
  | .badIndex key cause =>
    "invalid indexed key `" ++ key ++ "`: index is not a number (" ++ cause.message ++ ")"

namespace Settings

/-- A key and its value, both trimmed. -/
abbrev Entry := String × String

/-- What one line holds. -/
inductive Line
  | skipped
  | entry (key value : String)
  | malformed (text : String)
deriving DecidableEq, Repr

/-- The lines of a text, without their ends. -/
def splitLines : List Char → List (List Char)
  | [] => [[]]
  | '\n' :: rest => [] :: splitLines rest
  | c :: rest =>
    match splitLines rest with
    | [] => [[c]]
    | line :: others => (c :: line) :: others

/-- Reads one line. -/
def Line.read (text : List Char) : Line :=
  let trimmed := Text.trimChars text
  match trimmed with
  | [] => .skipped
  | '#' :: _ => .skipped
  | _ =>
    match trimmed.span (· ≠ '=') with
    | (_, []) => .malformed (String.ofList trimmed)
    | (key, _ :: value) =>
      .entry (String.ofList (Text.trimChars key)) (String.ofList (Text.trimChars value))

/-- The entries of the lines, numbered from `number`; the first malformed line is a fault. -/
def readEntries (number : Nat) : List (List Char) → Except SettingsFault (List Entry)
  | [] => .ok []
  | line :: rest =>
    match Line.read line with
    | .skipped => readEntries (number + 1) rest
    | .entry key value => (readEntries (number + 1) rest).map ((key, value) :: ·)
    | .malformed text => .error (.noEquals number text)

/-- The last entry of each key. -/
def latest : List Entry → List Entry
  | [] => []
  | (key, value) :: rest =>
    if rest.any (fun e => e.1 = key) then latest rest else (key, value) :: latest rest

/-- The commands whose keys are `start` followed by a number, each with its number. -/
def indexed (start : String) : List Entry → Except SettingsFault (List (Int × String))
  | [] => .ok []
  | (key, value) :: rest =>
    match start.toList.isPrefixOf? key.toList with
    | none => indexed start rest
    | some suffix =>
      match Numeral.read .word64 suffix with
      | .error cause => .error (.badIndex key cause)
      | .ok index => (indexed start rest).map ((index, value) :: ·)

/-- The commands whose keys begin with `start`, in the order of their numbers. -/
def commands (start : String) (entries : List Entry) : Except SettingsFault (List String) :=
  (indexed start entries).map fun pairs =>
    (pairs.mergeSort fun a b => a.1 ≤ b.1).map (·.2)

/-- The path that a value spells: `~/` at its start stands for the home directory. -/
def expandHome (home : Option Bytes) (value : String) : Path :=
  match "~/".toList.isPrefixOf? value.toList, home with
  | some rest, some directory => Path.join ⟨directory⟩ ⟨Utf8.encodeChars rest⟩
  | _, _ => Path.ofString value

/-- Whether a key means something. -/
def isKnown (key : String) : Bool :=
  key = "ipc_socket" || "exec.".toList.isPrefixOf key.toList
    || "exec_always.".toList.isPrefixOf key.toList

/-- The settings that a text spells, and the notices of keys that mean nothing. -/
def parse (home : Option Bytes) (text : String) :
    Except SettingsFault (Settings × List Notice) := do
  let entries := latest (← readEntries 1 (splitLines text.toList))
  let socketPath :=
    match entries.lookup "ipc_socket" with
    | some value => if value = "" then none else some (expandHome home value)
    | none => none
  let autostart ← commands "exec." entries
  let autostartAlways ← commands "exec_always." entries
  let unknown := entries.filter fun e => !isKnown e.1
  return (⟨socketPath, autostart, autostartAlways⟩, unknown.map fun e => .unknownSetting e.1)

end Settings

end Succession

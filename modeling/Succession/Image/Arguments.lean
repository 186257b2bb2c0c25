import Succession.Fault

/-!
# Arguments of the next process image

When the program replaces itself it passes its own arguments on, less those that an earlier
restart added or that name a snapshot or a layout, and adds that autostart is off and which
snapshot to begin with.
-/

namespace Succession.Image

/-- What becomes of one argument. -/
inductive Fate
  | kept
  | dropped
  /-- The argument goes, and its value, which comes next, goes with it. -/
  | droppedWithValue
deriving DecidableEq, Repr

/-- What becomes of an argument. One that is not text is kept. -/
def fate (argument : Bytes) : Fate :=
  let isAny (texts : List String) := texts.any fun t => Bytes.ofString t = argument
  let starts (text : String) := Bytes.startsWith argument (Bytes.ofString text)
  if !Utf8.isText argument then .kept
  else if isAny ["--restart", "-L", "--layout"] then .droppedWithValue
  else if isAny ["-a", "--no-autostart"] then .dropped
  else if starts "--restart=" || starts "--layout=" || starts "-L" then .dropped
  else .kept

/-- The arguments that the next image inherits. -/
def keep : List Bytes → List Bytes
  | [] => []
  | argument :: rest =>
    match fate argument with
    | .kept => argument :: keep rest
    | .dropped => keep rest
    | .droppedWithValue =>
      match rest with
      | [] => []
      | _ :: rest' => keep rest'

/-- The arguments that turn autostart off and name the snapshot. -/
def added (snapshot : Option Path) : List Bytes :=
  match snapshot with
  | some path => [Bytes.ofString "-a", Bytes.ofString "--restart", path.bytes]
  | none => [Bytes.ofString "-a"]

/-- The arguments of the next image after the program's name, from the whole command line of
this one. -/
def arguments (commandLine : List Bytes) (snapshot : Option Path) : List Bytes :=
  keep (commandLine.drop 1) ++ added snapshot

/-- A program to start and its arguments. -/
structure Launch where
  program : Bytes
  arguments : List Bytes
deriving DecidableEq, Repr, Inhabited

/-- The whole command line, the program's name first. -/
def Launch.commandLine (launch : Launch) : List Bytes := launch.program :: launch.arguments

/-- The launch that replaces this image: the same program, if the command line names one. -/
def next (commandLine : List Bytes) (snapshot : Option Path) : Except Fault Launch :=
  match commandLine with
  | [] => .error (.system .noProgram)
  | program :: _ => .ok ⟨program, arguments commandLine snapshot⟩

end Succession.Image

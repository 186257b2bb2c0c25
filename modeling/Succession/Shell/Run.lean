import Succession.Shell.Tools
import Succession.Shell.Words

/-!
# Running a command line

Pipelines run one after another, each if the one before it ended as it asks. In a pipeline each
command reads what the one before it printed. What is printed at the end goes nowhere, as nobody
looks at it; only files remain.
-/

namespace Succession.Shell

/-- The fields of a word that are complete and the one in work, if it was begun. -/
structure Fields where
  complete : List Bytes := []
  last : Option Bytes := none
deriving Inhabited

namespace Fields

/-- The fields with bytes put behind the one in work. -/
def append (f : Fields) (bytes : Bytes) : Fields :=
  { f with last := some (f.last.getD [] ++ bytes) }

/-- The fields with a value that is cut at blanks. -/
def appendCut (f : Fields) (value : Bytes) : Fields :=
  match splitBlanks value with
  | [] => f
  | first :: others =>
    others.foldl (fun f w => ⟨f.complete ++ f.last.toList, some w⟩) (f.append first)

/-- The fields with a part of a word. -/
def appendPart (env : Environment) (f : Fields) : WordPart → Fields
  | .text chars => f.append (Utf8.encodeChars chars)
  | .variable name otherwise quoted =>
    let value := (env.get? name).getD (Utf8.encodeChars otherwise)
    if quoted then f.append value else f.appendCut value

end Fields

/-- The fields that a word expands to. -/
def expand (env : Environment) (w : Word) : List Bytes :=
  let f := w.foldl (Fields.appendPart env) {}
  f.complete ++ f.last.toList

/-- The path that a word names. -/
def pathOf (env : Environment) (w : Word) : Path := ⟨Bytes.intercalate 0x20 (expand env w)⟩

/-- The device that swallows everything and holds nothing. -/
def nullDevice : Path := Path.ofString "/dev/null"

/-- The files of a command once they are opened. -/
structure Opened where
  input : Bytes
  output : Option Path := none
  files : FileSystem

/-- Opens a file of a command; none if that fails. -/
def openFile (env : Environment) (o : Opened) (how : FileUse) (w : Word) : Option Opened :=
  let p := pathOf env w
  match how with
  | .input =>
    if p = nullDevice then some { o with input := [] }
    else (o.files.contentAt p).toOption.map fun content => { o with input := content }
  | .output => (o.files.createFile p).toOption.map fun (_, fs) =>
      { o with output := some p, files := fs }
  | .append =>
    if (o.files.contentAt p).toBool then some { o with output := some p }
    else (o.files.createFile p).toOption.map fun (_, fs) =>
      { o with output := some p, files := fs }
  | .complaints => (o.files.createFile p).toOption.map fun (_, fs) => { o with files := fs }

/-- Runs a command on an input. -/
def runCommand (env : Environment) (files : FileSystem) (input : Bytes) (c : Command) : Outcome :=
  match c.files.foldlM (fun o (how, w) => openFile env o how w) (⟨input, none, files⟩ : Opened) with
  | none => { succeeded := false, files := files }
  | some opened =>
    match c.words.flatMap (expand env) with
    | [] => { files := opened.files }
    | name :: arguments =>
      let outcome := runTool ((Utf8.decode? name).getD "") arguments opened.input
        ⟨opened.files, env⟩
      match opened.output with
      | none => outcome
      | some p =>
        let before := (outcome.files.contentAt p).toOption.getD []
        let files := (outcome.files.writeFile p (before ++ outcome.printed)).toOption.getD
          outcome.files
        { outcome with printed := [], files := files }

/-- Runs the commands of a pipeline. Its last command decides whether it succeeds. -/
def runPipeline (env : Environment) (files : FileSystem) (commands : List Command) : Outcome :=
  commands.foldl (fun o c => runCommand env o.files o.printed c) { files := files }

/-- Whether a pipeline is run after one that succeeded or failed. -/
def Joint.isMet (succeeded : Bool) : Joint → Bool
  | .always => true
  | .ifSucceeded => succeeded
  | .ifFailed => !succeeded

/-- Runs a command line; what it did to the files is all that is left of it. -/
def run (env : Environment) (files : FileSystem) (text : String) : FileSystem :=
  match pipelines? text with
  | none => files
  | some pipelines =>
    (pipelines.foldl (fun o p =>
      if p.joint.isMet o.succeeded then runPipeline env o.files p.commands else o)
      ({ files := files } : Outcome)).files

end Succession.Shell

import Succession.Environment
import Succession.FileSystem.Operations

/-!
# The shell's tools

The small programs that command lines are made of, each as what it does with its arguments and its
input. A tool prints something and succeeds or fails.
-/

namespace Succession.Shell

/-- What a tool can see and change. -/
structure Surroundings where
  files : FileSystem
  environment : Environment
deriving Repr, Inhabited

/-- What a tool leads to. -/
structure Outcome where
  printed : Bytes := []
  succeeded : Bool := true
  files : FileSystem
deriving Repr, Inhabited

/-- The bytes between blanks and line ends. -/
def splitBlanks (bytes : Bytes) : List Bytes :=
  let marked := bytes.map fun b => if b = 0x20 ∨ b = 0x09 then Bytes.newline else b
  (Bytes.split Bytes.newline marked).filter (· ≠ [])

/-- The lines of a text; what follows the last line feed counts as one if it is not empty. -/
def linesOf (bytes : Bytes) : List Bytes :=
  let pieces := Bytes.split Bytes.newline bytes
  if pieces.getLast? = some [] then pieces.dropLast else pieces

/-- Each line with a line feed behind it. -/
def unlines (lines : List Bytes) : Bytes := lines.flatMap (· ++ [Bytes.newline])

/-- The bytes with backslash sequences carried out. -/
def unescape : Bytes → Bytes
  | [] => []
  | [b] => [b]
  | b :: c :: rest =>
    if b ≠ 0x5C then b :: unescape (c :: rest)
    else
      match Char.ofNat c.toNat with
      | 'n' => 0x0A :: unescape rest
      | 't' => 0x09 :: unescape rest
      | 'r' => 0x0D :: unescape rest
      | '\\' => 0x5C :: unescape rest
      | _ => b :: c :: unescape rest

/-- One pass of a format over its arguments: what is printed, and the arguments that are left. -/
def formatOnce : Bytes → List Bytes → Bytes × List Bytes
  | [], arguments => ([], arguments)
  | [b], arguments => ([b], arguments)
  | b :: c :: rest, arguments =>
    if b ≠ 0x25 then
      let (text, left) := formatOnce (c :: rest) arguments
      (b :: text, left)
    else if c = 0x25 then
      let (text, left) := formatOnce rest arguments
      (b :: text, left)
    else
      let (text, left) := formatOnce rest (arguments.drop 1)
      (arguments.headD [] ++ text, left)

/-- The format over and over until no argument is left, at most `limit` times more. -/
def formatUpTo (format : Bytes) : Nat → List Bytes → Bytes
  | 0, arguments => (formatOnce format arguments).1
  | limit + 1, arguments =>
    let (text, left) := formatOnce format arguments
    if left = [] ∨ left.length = arguments.length then text
    else text ++ formatUpTo format limit left

/-- Whether a line begins with what a pattern describes: `.` is any byte, `*` repeats what is
before it, `\` takes a meaning away, and `$` is the end of the line. -/
def matchesHere : Nat → Bytes → Bytes → Bool
  | 0, pattern, _ => pattern.isEmpty
  | _ + 1, [], _ => true
  | limit + 1, 0x5C :: p :: pattern, line =>
    line.head? = some p && matchesHere limit pattern (line.drop 1)
  | limit + 1, p :: 0x2A :: pattern, line =>
    matchesHere limit pattern line ||
      (!line.isEmpty && (p = 0x2E || line.head? = some p) &&
        matchesHere limit (p :: 0x2A :: pattern) (line.drop 1))
  | limit + 1, p :: pattern, line =>
    if p = 0x24 ∧ pattern = [] then line.isEmpty
    else
      !line.isEmpty && (p = 0x2E || line.head? = some p) &&
        matchesHere limit pattern (line.drop 1)

/-- Whether a pattern describes something in a line; `^` is the start of the line. -/
def matchesLine (pattern line : Bytes) : Bool :=
  let limit := pattern.length + line.length + 1
  match pattern with
  | 0x5E :: rest => matchesHere limit rest line
  | _ => (List.range (line.length + 1)).any fun n => matchesHere limit pattern (line.drop n)

/-- The options of a search. -/
structure Search where
  counts : Bool := false
  isQuiet : Bool := false
  inverts : Bool := false
  patterns : List Bytes := []
  /-- The arguments that are no options. -/
  operands : List Bytes := []

namespace Search

/-- The search with an option letter taken into account. -/
def turnOn (s : Search) (letter : UInt8) : Search :=
  match Char.ofNat letter.toNat with
  | 'c' => { s with counts := true }
  | 'q' => { s with isQuiet := true }
  | 'v' => { s with inverts := true }
  | _ => s

/-- Reads the arguments of a search. -/
def read (s : Search) : List Bytes → Search
  | [] => s
  | argument :: rest =>
    match argument with
    | 0x2D :: letter :: letters =>
      let s := (letter :: letters).foldl turnOn s
      if (letter :: letters).getLast? = some 0x65 then
        match rest with
        | [] => s
        | pattern :: rest => { s with patterns := s.patterns ++ [pattern] }.read rest
      else s.read rest
    | _ => { s with operands := s.operands ++ [argument] }.read rest

/-- The search with its pattern: the first operand, unless there is one already. -/
def complete (s : Search) : Search :=
  if s.patterns = [] then
    { s with patterns := s.operands.take 1, operands := s.operands.drop 1 }
  else s

/-- The lines that are found. -/
def found (s : Search) (text : Bytes) : List Bytes :=
  (linesOf text).filter fun line => (s.patterns.any fun p => matchesLine p line) != s.inverts

end Search

/-- What is in the files that are named, or the input if none is; none if a file cannot be
read. -/
def contents? (files : FileSystem) (names : List Bytes) (input : Bytes) : Option Bytes :=
  if names = [] then some input
  else (names.mapM fun n => (files.contentAt ⟨n⟩).toOption).map List.flatten

/-- Whether the condition that arguments spell holds. -/
def holds (files : FileSystem) (arguments : List Bytes) : Bool :=
  let word (s : String) := Bytes.ofString s
  match arguments with
  | [] => false
  | [a] => a ≠ []
  | [op, a] =>
    if op = word "!" then a = []
    else if op = word "-n" then a ≠ []
    else if op = word "-z" then a = []
    else if op = word "-d" then files.isDirectory ⟨a⟩
    else if op = word "-f" then (files.contentAt ⟨a⟩).toBool
    else if op = word "-e" then files.exists? ⟨a⟩
    else if op = word "-S" then
      match files.stat ⟨a⟩ with
      | .ok (.socket _) => true
      | _ => false
    else if op = word "-s" then
      match files.contentAt ⟨a⟩ with
      | .ok content => content ≠ []
      | .error _ => false
    else false
  | [a, op, b] =>
    if op = word "=" then a = b
    else if op = word "!=" then a ≠ b
    else false
  | _ => false

/-- Changes the files once for each argument that is no option; every change must succeed. -/
def changeEach (files : FileSystem) (arguments : List Bytes)
    (change : FileSystem → Path → Except SystemFault FileSystem) : Outcome :=
  let names := arguments.filter fun a => a.head? ≠ some 0x2D
  names.foldl (fun o n =>
    match change o.files ⟨n⟩ with
    | .ok files => { o with files := files }
    | .error _ => { o with succeeded := false }) { files := files }

/-- Runs the tool with a name. A name that no tool has fails. -/
def runTool (name : String) (arguments : List Bytes) (input : Bytes) (s : Surroundings) :
    Outcome :=
  let hasOption (text : String) := arguments.contains (Bytes.ofString text)
  match name with
  | "echo" =>
    let isOpen := arguments.head? = some (Bytes.ofString "-n")
    let words := if isOpen then arguments.drop 1 else arguments
    let text := unescape (Bytes.intercalate 0x20 words)
    { printed := if isOpen then text else text ++ [Bytes.newline], files := s.files }
  | "printf" =>
    let operands := arguments.drop 1
    { printed := formatUpTo (unescape (arguments.headD [])) operands.length operands
      files := s.files }
  | "cat" =>
    match contents? s.files arguments input with
    | some text => { printed := text, files := s.files }
    | none => { succeeded := false, files := s.files }
  | "env" =>
    let line (v : String × Bytes) := Bytes.ofString v.1 ++ 0x3D :: v.2
    { printed := unlines (s.environment.bindings.map line), files := s.files }
  | "grep" =>
    let search := (Search.read {} arguments).complete
    match contents? s.files search.operands input with
    | none => { succeeded := false, files := s.files }
    | some text =>
      let found := search.found text
      let printed :=
        if search.isQuiet then []
        else if search.counts then
          Bytes.ofString (Numeral.render found.length) ++ [Bytes.newline]
        else unlines found
      { printed := printed, succeeded := !found.isEmpty, files := s.files }
  | "test" => { succeeded := holds s.files arguments, files := s.files }
  | "[" => { succeeded := holds s.files arguments.dropLast, files := s.files }
  | "true" | ":" | "sleep" => { files := s.files }
  | "touch" => changeEach s.files arguments fun fs p =>
      if fs.exists? p then .ok fs else (fs.createFile p).map (·.2)
  | "mkdir" => changeEach s.files arguments fun fs p =>
      if hasOption "-p" then
        match fs.createDirectories FileSystem.defaultMode p with
        | (.ok (), fs) => .ok fs
        | (.error cause, _) => .error cause
      else fs.createDirectory FileSystem.defaultMode p
  | "rm" => changeEach s.files arguments fun fs p =>
      match fs.removeFile p with
      | .error .notFound => if hasOption "-f" then .ok fs else .error .notFound
      | other => other
  | _ => { succeeded := false, files := s.files }

end Succession.Shell

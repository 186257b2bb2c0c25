import Succession.Bytes
import Succession.Text.Utf8

/-!
# The shell's words

A command line for the shell is read as words and operators. Quotes keep characters from meaning
anything special, and `$` stands for the value of a variable outside single quotes.
-/

namespace Succession.Shell

/-- A part of a word. -/
inductive WordPart
  | text (chars : List Char)
  /-- The value of a variable, or `otherwise` where it is unset. Outside quotes the value is cut
  at blanks. -/
  | variable (name : String) (otherwise : List Char) (quoted : Bool)
deriving DecidableEq, Repr

/-- A word is what its parts make when they are put together. -/
abbrev Word := List WordPart

/-- What stands between words. -/
inductive Operator
  /-- `;`, `&` or the end of a line. -/
  | next
  | andThen
  | orElse
  | pipe
  | input
  | output
  | append
  /-- Where complaints go. -/
  | complaints
deriving DecidableEq, Repr

/-- A unit of a command line. -/
inductive Token
  | word (w : Word)
  | operator (op : Operator)
deriving DecidableEq, Repr

/-- Whether a character only separates words. -/
def isBlank (c : Char) : Bool := c = ' ' || c = '\t'

/-- Whether a character ends a word. -/
def endsWord (c : Char) : Bool := isBlank c || ['\n', ';', '&', '|', '<', '>'].contains c

/-- Whether a character may be part of a variable's name. -/
def isNameChar (c : Char) : Bool := c.isAlphanum || c = '_'

/-- What follows a `$`: a name, or a name in braces with what is used where it is unset. -/
def readVariable (quoted : Bool) (cs : List Char) : WordPart × List Char :=
  match cs with
  | '\x7b' :: inner =>
    let (content, rest) := inner.span (· ≠ '\x7d')
    let (name, after) := content.span isNameChar
    let otherwise := (after.dropWhile (· = ':')).drop 1
    (.variable (String.ofList name) otherwise quoted, rest.drop 1)
  | _ =>
    match cs.span isNameChar with
    | ([], _) => (.text ['$'], cs)
    | (name, rest) => (.variable (String.ofList name) [] quoted, rest)

/-- Puts a part in front of a word. -/
def consPart (part : WordPart) (read : Option (Word × List Char)) : Option (Word × List Char) :=
  read.map fun (parts, rest) => (part :: parts, rest)

/-- How the characters of a word are read. -/
inductive Quoting
  | none
  | double
deriving DecidableEq, Repr

/-- Reads a word up to its end, at most `limit` parts of it; none if a quote is left open. -/
def readWord : Nat → Quoting → List Char → Option (Word × List Char)
  | 0, _, cs => some ([], cs)
  | _ + 1, .none, [] => some ([], [])
  | _ + 1, .double, [] => none
  | limit + 1, .none, c :: cs =>
    if endsWord c then some ([], c :: cs)
    else if c = '\'' then
      match cs.span (· ≠ '\'') with
      | (_, []) => none
      | (text, _ :: rest) => consPart (.text text) (readWord limit .none rest)
    else if c = '"' then consPart (.text []) (readWord limit .double cs)
    else if c = '$' then
      let (part, rest) := readVariable false cs
      consPart part (readWord limit .none rest)
    else if c = '\\' then consPart (.text (cs.take 1)) (readWord limit .none (cs.drop 1))
    else consPart (.text [c]) (readWord limit .none cs)
  | limit + 1, .double, c :: cs =>
    if c = '"' then consPart (.text []) (readWord limit .none cs)
    else if c = '$' then
      let (part, rest) := readVariable true cs
      consPart part (readWord limit .double rest)
    else if c = '\\' then
      match cs with
      | d :: rest =>
        let kept := if ['$', '"', '\\'].contains d then [d] else [c, d]
        consPart (.text kept) (readWord limit .double rest)
      | [] => none
    else consPart (.text [c]) (readWord limit .double cs)

/-- The operator that characters begin with, and the rest. -/
def readOperator? : List Char → Option (Operator × List Char)
  | '&' :: '&' :: rest => some (.andThen, rest)
  | '|' :: '|' :: rest => some (.orElse, rest)
  | '>' :: '>' :: rest => some (.append, rest)
  | '2' :: '>' :: rest => some (.complaints, rest)
  | '&' :: rest | ';' :: rest | '\n' :: rest => some (.next, rest)
  | '|' :: rest => some (.pipe, rest)
  | '<' :: rest => some (.input, rest)
  | '>' :: rest => some (.output, rest)
  | _ => none

/-- Reads at most `limit` tokens; none if a quote is left open. -/
def tokensUpTo : Nat → List Char → Option (List Token)
  | 0, _ => some []
  | _ + 1, [] => some []
  | limit + 1, c :: cs =>
    if isBlank c then tokensUpTo limit cs
    else if c = '#' then tokensUpTo limit (cs.dropWhile (· ≠ '\n'))
    else
      match readOperator? (c :: cs) with
      | some (op, rest) => (tokensUpTo limit rest).map (.operator op :: ·)
      | none =>
        match readWord (cs.length + 1) .none (c :: cs) with
        | none => none
        | some (word, rest) => (tokensUpTo limit rest).map (.word word :: ·)

/-- The tokens of a command line; none if a quote is left open. -/
def tokens (text : String) : Option (List Token) := tokensUpTo (text.length + 1) text.toList

/-- How a command uses a file. -/
inductive FileUse
  | input
  | output
  | append
  | complaints
deriving DecidableEq, Repr

/-- A command with its files. -/
structure Command where
  words : List Word := []
  files : List (FileUse × Word) := []
deriving DecidableEq, Repr, Inhabited

/-- When a pipeline is run, seen from the one before it. -/
inductive Joint
  | always
  | ifSucceeded
  | ifFailed
deriving DecidableEq, Repr

/-- Commands that read from one another. -/
structure Pipeline where
  joint : Joint := .always
  commands : List Command := []
deriving DecidableEq, Repr, Inhabited

/-- A command line that is being put together: the pipelines that are complete, the one in work
and its last command. -/
structure Assembly where
  complete : List Pipeline := []
  pipeline : Pipeline := {}
  command : Command := {}
deriving Inhabited

namespace Assembly

/-- The command in work is complete. -/
def endCommand (a : Assembly) : Assembly :=
  if a.command = {} then a
  else
    { a with
      pipeline := { a.pipeline with commands := a.pipeline.commands ++ [a.command] }
      command := {} }

/-- The pipeline in work is complete. -/
def endPipeline (a : Assembly) (joint : Joint) : Assembly :=
  let a := a.endCommand
  if a.pipeline.commands = [] then { a with pipeline := ⟨joint, []⟩ }
  else { a with complete := a.complete ++ [a.pipeline], pipeline := ⟨joint, []⟩ }

/-- The command in work uses a file. -/
def use (a : Assembly) (how : FileUse) (w : Word) : Assembly :=
  { a with command := { a.command with files := a.command.files ++ [(how, w)] } }

/-- Puts tokens together; none if a file is missing. -/
def take? (a : Assembly) : List Token → Option Assembly
  | [] => some (a.endPipeline .always)
  | .word w :: rest =>
    take? { a with command := { a.command with words := a.command.words ++ [w] } } rest
  | .operator .next :: rest => take? (a.endPipeline .always) rest
  | .operator .andThen :: rest => take? (a.endPipeline .ifSucceeded) rest
  | .operator .orElse :: rest => take? (a.endPipeline .ifFailed) rest
  | .operator .pipe :: rest => take? a.endCommand rest
  | .operator .input :: .word w :: rest => take? (a.use .input w) rest
  | .operator .output :: .word w :: rest => take? (a.use .output w) rest
  | .operator .append :: .word w :: rest => take? (a.use .append w) rest
  | .operator .complaints :: .word w :: rest => take? (a.use .complaints w) rest
  | _ :: _ => none

end Assembly

/-- The pipelines of a command line; none if it cannot be read. -/
def pipelines? (text : String) : Option (List Pipeline) := do
  return (← Assembly.take? {} (← tokens text)).complete

end Succession.Shell

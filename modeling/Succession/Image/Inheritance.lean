import Succession.Channel.Manifest
import Succession.CommandLine.Options
import Succession.Environment
import Succession.Journal
import Succession.Text.Blank

/-!
# What an image inherits

A fresh process image learns from its command line which snapshot to start from, and from two
environment variables which channels the previous image left open and which client asked for the
restart. The variables are used once and then unset.
-/

namespace Succession

/-- What the previous image, or the user, has left for this one. -/
structure Inheritance where
  snapshot : Option Path := none
  deleteAfterUse : Bool := false
  /-- The descriptor of the client that waits for the restart. -/
  continuation : Option Int := none
  manifest : Option Manifest := none
deriving DecidableEq, Repr, Inhabited

namespace Inheritance

/-- The variable that holds the descriptor of the waiting client. -/
def continuationVariable : String := "_KESTREL_RESTART_FD"

/-- The variable that holds the manifest. -/
def manifestVariable : String := "_KESTREL_CHANNELS"

/-- Whether there was a previous image. -/
def hasPredecessor (i : Inheritance) : Bool := i.continuation.isSome || i.manifest.isSome

/-- The descriptor that a value names, a number from zero on; a malformed value is noted and
counts as absent. -/
def parseContinuation (raw : Option String) : Option Int × List Notice :=
  match raw with
  | none => (none, [])
  | some raw =>
    match Numeral.parse? .int32 (Text.trim raw) with
    | some fd => if 0 ≤ fd then (some fd, []) else (none, [.malformedContinuation raw])
    | none => (none, [.malformedContinuation raw])

/-- The manifest that a value spells; a malformed one is noted and counts as absent. -/
def parseManifest (raw : Option String) : Option Manifest × List Notice :=
  match raw with
  | none => (none, [])
  | some raw =>
    match Manifest.decode raw with
    | .ok m => (some m, [])
    | .error fault => (none, [.manifestIgnored fault])

/-- The inheritance from the options and the values of the two variables. -/
def ofParts (options : Options) (continuation manifest : Option String) :
    Inheritance × List Notice :=
  let (m, notices) := parseManifest manifest
  let (fd, more) := parseContinuation continuation
  let snapshot := options.snapshot?
  (⟨snapshot.map (·.1), (snapshot.map (·.2)).getD false, fd, m⟩, notices ++ more)

/-- The environment without the two variables. -/
def clear (env : Environment) : Environment :=
  (env.erase continuationVariable).erase manifestVariable

/-- Takes the inheritance out of the environment. A variable that is not text counts as unset. -/
def take (options : Options) (env : Environment) : Inheritance × Environment × List Notice :=
  let (i, notices) :=
    ofParts options (env.text? continuationVariable) (env.text? manifestVariable)
  (i, clear env, notices)

end Inheritance

end Succession

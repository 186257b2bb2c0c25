import Succession.Fault
import Succession.Phase

/-!
# Journal

Operations that carry on in spite of a problem say so in the journal. A `Notice` is one such
record; `Notice.line` is its text, with the values of its fields at the end.
-/

namespace Succession

/-- The weight of a record. -/
inductive Severity
  | warning
  | error
deriving DecidableEq, Repr

/-- The name of a weight as it stands in front of a record. -/
def Severity.label : Severity → String
  | warning => "WARN"
  | error => "ERROR"

/-- A problem that did not stop the operation that met it. -/
inductive Notice
  | unknownSetting (key : String)
  | defaultSettings (cause : Fault)
  | malformedContinuation (raw : String)
  | manifestIgnored (cause : Fault)
  | freshStart (cause : Fault)
  | snapshotLeft (path : Path) (cause : SystemFault)
  | duplicateChannel (fd : Int)
  | channelSkipped (cause : Fault)
  | channelLost (fd : Int) (role : String) (cause : SystemFault)
  | activationRejected (fd : Int) (problem : String)
  | activationNotOpen (fd : Int)
  | malformedActivationCount
  | activationCountOutOfRange (count : Int)
  | backwardPhase (current next : Phase)
deriving DecidableEq, Repr

namespace Notice

/-- The weight of the record. -/
def severity : Notice → Severity
  | defaultSettings _ | backwardPhase _ _ => .error
  | _ => .warning

/-- What the record says. -/
def text : Notice → String
  | unknownSetting _ => "ignoring unknown config key"
  | defaultSettings cause => cause.message ++ ", continuing with the default config"
  | malformedContinuation _ => "ignoring malformed _KESTREL_RESTART_FD"
  | manifestIgnored cause => "ignoring inherited channels: " ++ cause.message
  | freshStart cause => "starting with a fresh tree: " ++ cause.message
  | snapshotLeft _ cause => "failed to remove snapshot: " ++ cause.message
  | duplicateChannel _ => "duplicate channel manifest entry skipped"
  | channelSkipped cause => "skipping inherited channel: " ++ cause.message
  | channelLost _ _ cause => "channel will not survive restart: " ++ cause.message
  | activationRejected _ problem => "ignoring activation descriptor: " ++ problem
  | activationNotOpen _ => "announced activation descriptor is not open"
  | malformedActivationCount => "ignoring malformed LISTEN_FDS"
  | activationCountOutOfRange _ => "ignoring out of range LISTEN_FDS"
  | backwardPhase _ _ => "refusing backwards lifecycle transition"

/-- The named values of the record. -/
def fields : Notice → List (String × String)
  | unknownSetting key => [("key", key)]
  | malformedContinuation raw => [("value", raw)]
  | snapshotLeft path _ => [("path", path.display)]
  | duplicateChannel fd | activationRejected fd _ | activationNotOpen fd =>
    [("fd", Numeral.render fd)]
  | channelLost fd role _ => [("fd", Numeral.render fd), ("role", role)]
  | activationCountOutOfRange count => [("count", Numeral.render count)]
  | backwardPhase current next => [("from", current.name), ("to", next.name)]
  | _ => []

/-- The record as one line. -/
def line (notice : Notice) : String :=
  notice.fields.foldl (fun text (name, value) => text ++ " " ++ name ++ "=" ++ value)
    (notice.severity.label ++ " " ++ notice.text)

end Notice

end Succession

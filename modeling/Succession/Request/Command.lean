import Succession.Text.Blank

/-!
# Requests

A running instance understands four one-word requests. Blank characters around the word do not
count.
-/

namespace Succession

/-- What a client can ask for. -/
inductive Request
  | restart
  | exit
  | version
  | ping
deriving DecidableEq, Repr

/-- Why a line is no request. -/
inductive RequestFault
  | empty
  | unsupported (word : String)
deriving DecidableEq, Repr

namespace Request

/-- All requests. -/
def all : List Request := [restart, exit, version, ping]

/-- The word for a request. -/
def word : Request → String
  | restart => "restart"
  | exit => "exit"
  | version => "version"
  | ping => "ping"

/-- The request that a line makes. -/
def parse (line : String) : Except RequestFault Request :=
  let word := Text.trim line
  match all.find? fun r => r.word = word with
  | some r => .ok r
  | none => if word = "" then .error .empty else .error (.unsupported word)

end Request

/-- The reply to a line that is no request. -/
def RequestFault.message : RequestFault → String
  | empty => "error: empty command (supported: restart, exit, version, ping)"
  | unsupported word =>
    "error: unsupported command `" ++ word ++ "` (supported: restart, exit, version, ping)"

namespace Reply

/-- The answer to a ping. -/
def pong : String := "pong"

/-- The new image says so to the client that asked for the restart. -/
def restarted : String := "ok: restarted"

/-- The answer to a request to exit. -/
def exiting : String := "ok: exiting"

end Reply

end Succession

import Succession.FileSystem.Operations
import Succession.Text.Blank

/-!
# One request and its reply

A client connects to the socket of a running instance, sends one line and takes the first line
that comes back as the reply.
-/

namespace Succession.Exchange

/-- Why a request got no reply. -/
inductive ExchangeFault
  | cannotConnect (socket : Path) (cause : SystemFault)
  | unreadableReply (cause : SystemFault)
  | noReply
deriving DecidableEq, Repr

/-- The wording of the fault. -/
def ExchangeFault.message : ExchangeFault → String
  | cannotConnect socket cause =>
    "failed to connect to kestrel ipc socket " ++ socket.display ++ ": " ++ cause.message
  | unreadableReply cause => "failed to read ipc reply: " ++ cause.message
  | noReply => "connection closed without a reply"

/-- The bytes that are sent for a command. -/
def requestBytes (command : String) : Bytes :=
  Utf8.encode (Text.trim command) ++ [Bytes.newline]

/-- The bytes up to and including the first line feed, or all. -/
def firstLine : Bytes → Bytes
  | [] => []
  | b :: rest => if b = Bytes.newline then [b] else b :: firstLine rest

/-- The reply that the bytes of the other side carry. -/
def readReply (received : Bytes) : Except ExchangeFault String :=
  match Utf8.decode? (firstLine received) with
  | none => .error (.unreadableReply .notText)
  | some "" => .error .noReply
  | some line => .ok (String.ofList (Text.trimEnd line.toList))

/-- What the other side of an exchange does: it answers every request with the same bytes, or
nobody listens. -/
structure Responder where
  socket : Nat
  reply : Bytes
deriving Repr

/-- What an exchange leads to: the bytes that the responder got, if it was reached, and the
reply. -/
structure Outcome where
  received : Option Bytes
  result : Except ExchangeFault String

/-- Sends a command to the socket at a path. -/
def run (fs : FileSystem) (responder : Option Responder) (socket : Path) (command : String) :
    Outcome :=
  let listening (id : Nat) := responder.any fun r => r.socket = id
  match fs.connect listening socket, responder with
  | .ok _, some r => ⟨some (requestBytes command), readReply r.reply⟩
  | .ok _, none => ⟨none, .error (.cannotConnect socket .connectionRefused)⟩
  | .error cause, _ => ⟨none, .error (.cannotConnect socket cause)⟩

end Succession.Exchange

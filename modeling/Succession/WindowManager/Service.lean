import Succession.WindowManager.Handover
import Succession.Request.Command

/-!
# Serving clients

A client's bytes are read as far as they go, and then the lines among them are answered one after
another. A client that has ended, or whose line is too long, is closed once its earlier lines are
answered; the complaint about the long line is sent as soon as it is noticed.
-/

namespace Succession

/-- Why reading from a client stopped. -/
inductive IntakeEnd
  /-- There is nothing more to read for now. -/
  | drained
  | ended
  | overlong
deriving DecidableEq, Repr

/-- What came out of reading from a client. -/
structure Intake where
  lines : List String := []
  buffer : PartialLine
  stream : Stream
  outcome : IntakeEnd
deriving Repr

namespace Intake

/-- How many bytes one read takes at most. -/
def chunkSize : Nat := 1024

/-- Reads at most `limit` times. -/
def readUpTo : Nat → PartialLine → Stream → Intake
  | 0, buffer, s => ⟨[], buffer, s, .drained⟩
  | limit + 1, buffer, s =>
    match s.read chunkSize with
    | (.wouldBlock, s) => ⟨[], buffer, s, .drained⟩
    | (.ended, s) => ⟨[], buffer, s, .ended⟩
    | (.data chunk, s) =>
      match buffer.push chunk with
      | (none, buffer) => ⟨[], buffer, s, .overlong⟩
      | (some lines, buffer) =>
        let later := readUpTo limit buffer s
        { later with lines := lines ++ later.lines }

/-- Reads as far as it goes: until there is nothing more, or until a line is too long. -/
def read (buffer : PartialLine) (s : Stream) : Intake := readUpTo (s.inbox.length + 1) buffer s

end Intake

namespace Stream

/-- Writes a line, as far as there is space for it. Its end is written by itself, and not at all
if the line was not. -/
def writeLine (s : Stream) (text : String) : Stream :=
  match s.write? (Utf8.encode text) with
  | none => s
  | some s => (s.write? [Bytes.newline]).getD s

end Stream

/-- What is said of a line that is too long. -/
def Reply.overlong : String := "error: " ++ PartialLine.overlongMessage

namespace WindowManager

/-- Sends a line to the client at a descriptor, if there is one. -/
def reply (m : WindowManager) (fd : Int) (text : String) : WindowManager :=
  if m.holding.set.clients.contains fd then
    match m.connectionAt? fd with
    | some id => { m with host := m.host.modifyConnection id fun s => s.writeLine text }
    | none => m
  else m

/-- Deals with a line from the client at a descriptor. -/
def handleLine (m : WindowManager) (fd : Int) (line : String) : Except Departure WindowManager :=
  match Request.parse line with
  | .ok .ping => .ok (m.reply fd Reply.pong)
  | .ok .version => .ok (m.reply fd versionText)
  | .ok .exit => .ok ((m.reply fd Reply.exiting).askToEnd 0)
  | .ok .restart => .error (m.replaceImage (some fd))
  | .error fault => .ok (m.reply fd fault.message)

/-- Deals with lines from the client at a descriptor, one after another. -/
def handleLines (m : WindowManager) (fd : Int) : List String → Except Departure WindowManager
  | [] => .ok m
  | line :: rest =>
    match m.handleLine fd line with
    | .error departure => .error departure
    | .ok m => m.handleLines fd rest

/-- The manager after reading from the client at a descriptor, whose connection has the number
`id`. -/
def takeIn (m : WindowManager) (fd : Int) (id : Nat) (intake : Intake) : WindowManager :=
  let stream :=
    if intake.outcome = .overlong then intake.stream.writeLine Reply.overlong else intake.stream
  { m with
    host := m.host.modifyConnection id fun _ => stream
    holding := { m.holding with set := m.holding.set.setLines fd intake.buffer } }

/-- Lets go of the client at a descriptor. -/
def dropClient (m : WindowManager) (fd : Int) : WindowManager :=
  { m with holding := m.holding.eraseClient fd }

/-- Serves the client at a descriptor: reads from it and deals with what it asks for. -/
def serveClient (m : WindowManager) (fd : Int) : Except Departure WindowManager :=
  match m.holding.set.clients.get? fd, m.connectionAt? fd with
  | some client, some id =>
    let intake := Intake.read client.lines (m.host.connections.get id)
    match (m.takeIn fd id intake).handleLines fd intake.lines with
    | .error departure => .error departure
    | .ok m => .ok (if intake.outcome = .drained then m else m.dropClient fd)
  | _, _ => .ok m

/-- The lowest number that a new connection gets. -/
def firstNumber : Int := 100

/-- A number for a new descriptor. -/
def freshNumber (table : DescriptorTable) : Int := table.firstFree table.map.size firstNumber

/-- Accepts a connection as a client. -/
def acceptConnection (m : WindowManager) (id : Nat) : WindowManager :=
  let fd := freshNumber m.holding.table
  let table := m.holding.table.putOwn fd (.stream id)
  { m with holding := Holding.putClient ⟨m.holding.set, table⟩ fd ⟨.localBind, {}⟩ }

/-- Accepts every connection that waits at the listener at a descriptor. -/
def acceptWaiting (m : WindowManager) (fd : Int) : WindowManager :=
  match m.holding.set.listeners.contains fd, m.holding.table.get? fd with
  | true, some ⟨.listener socket _, _⟩ =>
    let (ids, host) := m.host.takeCallers socket
    ids.foldl acceptConnection { m with host := host }
  | _, _ => m

end WindowManager

end Succession

import Succession.Display.Server
import Succession.Fault

/-!
# The connection to the display

Requests are collected and go out together when an answer is waited for or when the connection is
flushed. Events are read along with answers, and when there is nothing else to look at. A broken
connection is noticed only where an answer or an event is waited for, or something is sent.
-/

namespace Succession

/-- A request that is not sent yet, with its number. -/
structure Outgoing where
  number : Nat
  request : DisplayRequest
  /-- Whether somebody will look for its answer. -/
  awaited : Bool
deriving DecidableEq, Repr

/-- One side of a connection to a display server, and the server at the other. -/
structure Connection where
  server : DisplayServer
  outgoing : List Outgoing := []
  /-- The answers that have come, by the numbers of their requests. -/
  answers : List (Nat × Answer) := []
  /-- The number of the next request. -/
  next : Nat := 0
  /-- Events that have been read. -/
  received : List DisplayEvent := []
  /-- Events that have been sent and not read. -/
  arriving : List DisplayEvent := []
  /-- The next resource identifier. -/
  nextResource : Nat := 2097152
deriving DecidableEq, Repr, Inhabited

namespace Connection

/-- The error code of a request that fails with nobody waiting. -/
def unawaitedErrorCode : Nat := 1

/-- What is said where the environment names no display. -/
def noDisplay : String := "$DISPLAY variable not set and no value was provided explicitly"

/-- Connects to a server. -/
def connect (server : DisplayServer) : Except Fault Connection :=
  match server.accept? with
  | some s => .ok { server := s }
  | none => .error (.connect "connection refused")

/-- Collects a request and gives its number. -/
def send (c : Connection) (r : DisplayRequest) (awaited : Bool) : Nat × Connection :=
  (c.next, { c with
    outgoing := c.outgoing ++ [⟨c.next, r, awaited⟩]
    next := c.next + 1 })

/-- Collects a request that nobody waits for. -/
def sendUnawaited (c : Connection) (r : DisplayRequest) : Connection := (c.send r false).2

/-- The server deals with one request. -/
def transmitOne (c : Connection) (o : Outgoing) : Connection :=
  let (answer, events, server) := c.server.serve o.request
  if o.awaited then
    { c with
      server := server
      answers := c.answers ++ [(o.number, answer)]
      arriving := c.arriving ++ events }
  else
    let errors := if answer = .refused then [DisplayEvent.error unawaitedErrorCode] else []
    { c with server := server, arriving := c.arriving ++ events ++ errors }

/-- The server deals with all collected requests. -/
def transmit (c : Connection) : Connection :=
  c.outgoing.foldl transmitOne { c with outgoing := [] }

/-- Sends what was collected. -/
def flush (c : Connection) : Except Fault Unit × Connection :=
  if c.outgoing = [] then (.ok (), c)
  else if !c.server.connected then (.error .connection, c)
  else (.ok (), c.transmit)

/-- Reads what has arrived. -/
def readArriving (c : Connection) : Connection :=
  { c with received := c.received ++ c.arriving, arriving := [] }

/-- Takes an answer that has come. -/
def takeAnswer (c : Connection) (number : Nat) : Answer × Connection :=
  ((c.answers.lookup number).getD .disconnected,
    { c with answers := c.answers.filter fun (n, _) => n ≠ number })

/-- Waits for the answer to the request with a number. -/
def await (c : Connection) (number : Nat) : Answer × Connection :=
  if c.answers.any fun (n, _) => n = number then c.takeAnswer number
  else c.transmit.readArriving.takeAnswer number

/-- Waits for the outcome of a request without a reply, by asking for a reply behind it. -/
def check (c : Connection) (number : Nat) : Answer × Connection :=
  let (marker, c) := c.send .synchronize true
  let c := c.transmit.readArriving
  let (answer, c) := c.takeAnswer number
  let (behind, c) := c.takeAnswer marker
  match answer, behind with
  | .reply _, .disconnected => (.disconnected, c)
  | _, _ => (answer, c)

/-- Sends a request and waits for its answer. -/
def ask (c : Connection) (r : DisplayRequest) : Answer × Connection :=
  let (number, c) := c.send r true
  if r.hasReply then c.await number else c.check number

/-- A resource identifier that was not given out before. -/
def freshResource (c : Connection) : Nat × Connection :=
  (c.nextResource, { c with nextResource := c.nextResource + 1 })

/-- The next event, read from the connection if none is waiting. -/
def poll (c : Connection) : Except Fault (Option DisplayEvent) × Connection :=
  match c.received with
  | e :: rest => (.ok (some e), { c with received := rest })
  | [] =>
    if !c.server.connected then (.error .connection, c)
    else
      match c.arriving with
      | e :: rest => (.ok (some e), { c with received := rest, arriving := [] })
      | [] => (.ok none, c)

/-- How many events are waiting. -/
def backlog (c : Connection) : Nat := c.received.length + c.arriving.length

/-- Whether reading from the connection would not block. -/
def isReadable (c : Connection) : Bool := !c.arriving.isEmpty || !c.server.connected

theorem backlog_poll {c c' : Connection} {e : DisplayEvent} (h : c.poll = (.ok (some e), c')) :
    c'.backlog < c.backlog := by
  unfold poll at h
  split at h
  · next hr =>
    cases h
    simp [backlog, hr]
  · next hr =>
    split at h
    · cases h
    · split at h
      · next ha =>
        cases h
        simp [backlog, hr, ha]
      · cases h

end Connection

end Succession

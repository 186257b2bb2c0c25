import Succession.FileSystem.Standard
import Succession.Session.Process
import Succession.Shell.Run

/-!
# Sessions

A session is a process among its clients. One thing after another happens to the process from
outside: clients connect, send and leave, the display sends events or goes away, files change,
signals come. After each the process is left alone until it waits again, and then a report tells
what it has asked of the display and what its clients have got.
-/

namespace Succession

/-- A process and its clients, each with the number of its connection. -/
structure Session where
  process : Process
  clients : List (String × Nat) := []

/-- Something that happens to a process from outside. -/
inductive Stimulus
  /-- A client connects, to the published socket if no path is given. -/
  | connect (client : String) (path : Option Path)
  | send (client : String) (data : Bytes)
  /-- A client closes its connection. -/
  | hangUp (client : String)
  /-- A client will send no more. -/
  | shutDown (client : String)
  | events (events : List DisplayEvent)
  /-- Something about the display server changes. -/
  | changeDisplay (change : DisplayServer → DisplayServer)
  /-- The display server drops the connection. -/
  | closeDisplay
  | signal (number : Int)
  | write (files : List (Path × FileSystem.Layout))
  /-- A file or a socket is removed. -/
  | remove (path : Path)

/-- What a client has noticed. -/
structure ClientNews where
  client : String
  data : Bytes
  isClosed : Bool
deriving DecidableEq, Repr

/-- What has come of something that happened. -/
structure Report where
  requests : List ServerRecord
  news : List ClientNews
deriving DecidableEq, Repr

/-- An entry in the minutes of a session. -/
inductive Minute
  /-- A client could not connect. -/
  | refused
  /-- The process had ended before. -/
  | over
  | report (r : Report)
deriving DecidableEq, Repr

/-- A descriptor that a process begins with. -/
inductive Endowment
  /-- The other end belongs to a client. -/
  | stream (client : String)
  | listener (path : Path)
  | file
deriving DecidableEq, Repr

namespace Session

/-- The name of the file behind an inherited descriptor. -/
def plainFile : Path := Path.ofString "plain.txt"

/-- Gives a descriptor to a process that has not begun. -/
def endow (b : Birth) (clients : List (String × Nat)) (fd : Int) (e : Endowment) :
    Birth × List (String × Nat) :=
  let place (host : Host) (target : OpenFile) : Birth :=
    { b with host := host, table := b.table.put fd ⟨target, false⟩ }
  match e with
  | .stream client =>
    let (id, connections) := b.host.connections.create
    (place { b.host with connections := connections } (.stream id), clients ++ [(client, id)])
  | .listener p =>
    match b.host.files.bind p with
    | .ok (socket, files) =>
      (place { b.host with files := files } (.listener socket (Endpoint.addressFor p)), clients)
    | .error _ => (b, clients)
  | .file =>
    (place { b.host with files := b.host.files.layOut plainFile (.file []) }
      (.file b.table.map.size), clients)

/-- Begins a session, with the shell of `Shell.run`: the process gets its descriptors and then its
first image. -/
def begin (b : Birth) (endowments : List (Int × Endowment)) : Session :=
  let b := { b with host := { b.host with perform := Shell.run } }
  let (b, clients) := endowments.foldl (fun (b, clients) (fd, e) => endow b clients fd e)
    (b, ([] : List (String × Nat)))
  ⟨(Process.launch b).settle, clients⟩

/-- The session with something changed outside the process. -/
def onHost (s : Session) (f : Host → Host) : Session := { s with process := s.process.onHost f }

/-- The session with a client's connection changed, if there is such a client. -/
def onClient (s : Session) (client : String) (f : Stream → Stream) : Session :=
  match s.clients.lookup client with
  | some id => s.onHost fun h => h.modifyConnection id f
  | none => s

/-- The session without a client. -/
def forget (s : Session) (client : String) : Session :=
  { s with clients := s.clients.filter fun (name, _) => name ≠ client }

/-- A client closes its connection and is forgotten. -/
def hangUp (s : Session) (client : String) : Session :=
  (s.onClient client Stream.closePeer).forget client

/-- The path of the socket that is published on the display. -/
def publishedPath? (s : Session) : Option Path :=
  match s.process.display.properties.lookup Connection.socketProperty with
  | some (b :: rest) => some ⟨b :: rest⟩
  | _ => none

/-- A client connects to a path, if somebody listens there. -/
def connect? (s : Session) (client : String) (p : Path) : Option Session :=
  match s.process.host.files.connect s.process.listensOn p with
  | .error _ => none
  | .ok socket =>
    let s := s.hangUp client
    let id := s.process.host.connections.next
    let s := s.onHost fun h => h.call socket
    some { s with clients := s.clients ++ [(client, id)] }

/-- Removes what stands at a path, unless it is a directory or a symbolic link. -/
def removeAt (files : FileSystem) (p : Path) : FileSystem :=
  match files.place p with
  | .ok ⟨directory, .name name, false⟩ =>
    match files.lookup (directory ++ [name]) with
    | some (.file _) | some (.socket _) => files.erase (directory ++ [name])
    | _ => files
  | _ => files

/-- The session after something has happened to the process, and whether a client failed to
connect. -/
def happen (s : Session) : Stimulus → Bool × Session
  | .connect client path =>
    match path.orElse fun _ => s.publishedPath? with
    | none => (true, s)
    | some p =>
      match s.connect? client p with
      | none => (true, s)
      | some s => (false, s)
  | .send client data => (false, s.onClient client fun c => c.receive data)
  | .hangUp client => (false, s.hangUp client)
  | .shutDown client => (false, s.onClient client Stream.shutDownPeer)
  | .events events => (false, { s with process := s.process.sendEvents events })
  | .changeDisplay change => (false, { s with process := s.process.onDisplay change })
  | .closeDisplay =>
    (false, { s with process := s.process.onDisplay fun d => { d with connected := false } })
  | .signal number => (false, { s with process := s.process.signal number })
  | .write files =>
    (false, s.onHost fun h => { h with
      files := files.foldl (fun fs (p, entry) => fs.layOut p entry) h.files })
  | .remove path => (false, s.onHost fun h => { h with files := removeAt h.files path })

/-- What a client has got since the last report. -/
def newsOf (p : Process) (client : String) (id : Nat) : ClientNews :=
  ⟨client, (p.host.connections.get id).outbox, !p.holdsConnection id⟩

/-- Makes a report. All that is told is told once; a client that was closed is forgotten. -/
def report (s : Session) : Report × Session :=
  let news := s.clients.map fun (client, id) => newsOf s.process client id
  let read (h : Host) := s.clients.foldl (fun h (_, id) =>
    h.modifyConnection id fun c => c.takeOutbox.2) h
  let closed := (news.filter (·.isClosed)).map (·.client)
  let r : Report :=
    { requests := s.process.display.log
      news := news.filter fun n => n.isClosed || n.data ≠ [] }
  (r, { process := (s.process.onHost read).onDisplay fun d => { d with log := [] }
        clients := s.clients.filter fun (client, _) => client ∉ closed })

/-- Something happens, and the process runs until it waits again. -/
def step (s : Session) (stimulus : Stimulus) : List Minute × Session :=
  if s.process.ending?.isSome then ([.over], s)
  else
    let (refused, s) := s.happen stimulus
    let (r, s) := { s with process := s.process.settle }.report
    (if refused then [.refused, .report r] else [.report r], s)

/-- One thing after another happens. -/
def run (s : Session) : List Stimulus → List Minute × Session
  | [] => ([], s)
  | first :: rest =>
    let (minutes, s) := s.step first
    let (others, s) := s.run rest
    (minutes ++ others, s)

/-- The signal that ends a session whose process is still running. -/
def lastSignal : Int := 15

/-- Ends the session: a process that is still running is asked to end, and what comes of that is
reported too. -/
def finish (s : Session) : Option Report × Session :=
  if s.process.ending?.isSome then (none, s)
  else
    let (r, s) := { s with process := (s.process.signal lastSignal).settle }.report
    (some r, s)

/-- Whether there is something at the path of the process's diagnostic log. -/
def hasLog (s : Session) (env : Environment) : Bool :=
  let h := s.process.host
  h.files.exists? (RingLog.pathFor h.files (Endpoint.temporaryDirectory env) h.pid)

end Session

end Succession

import Succession.ClientMode
import Succession.FileSystem.Standard
import Succession.Proofs.Text.Utf8RoundTrip

/-!
# The published path

A process publishes the path of its socket as a property of the root window, byte by byte. Those who
look for the socket read the property as text.

1. A server does one of four things with a request (`Served`, `served_serve`). A property stays as
   it is until a request writes it (`property?_serveAll`), and then it is what was written
   (`property?_serve_writing`).
2. What was published stands at the server once everything that was collected has reached it
   (`server_flush`, `property?_of_publish`).
3. A program that comes in later reads the bytes as text (`property_of_fresh`), and takes that for
   the path (`findSocket_of_display`).

So it finds the path that was published if that is text, and only then
(`published_path_reads_back_iff`). A path that is not text leads elsewhere
(`bytes_do_not_read_back`).
-/

namespace Succession

/-- Whether a request changes a property of the root window. -/
def DisplayRequest.writes (name : Bytes) : DisplayRequest → Bool
  | changeProperty _ written _ | deleteProperty _ written => written = name
  | _ => false

/-! ## 1. The server -/

namespace DisplayServer

variable {s after : DisplayServer} {r : DisplayRequest} {answer : Answer} {name : Bytes}
  {w : WindowId}

/-- What requests do not change: which ones are refused, at which the connection is dropped, and
whether connections are accepted. -/
def manners (s : DisplayServer) : List String × Option String × Bool :=
  (s.refusals, s.closeAt, s.refusesConnections)

/-- The value of a property. -/
def property? (s : DisplayServer) (name : Bytes) : Option Bytes := s.properties.lookup name

/-- The server after requests have reached it. -/
def serveAll (s : DisplayServer) (requests : List DisplayRequest) : DisplayServer :=
  requests.foldl (fun s r => (s.serve r).2.2) s

/-- The requests that have to do with properties. -/
def propertyRequests : List String :=
  ["intern_atom", "change_property", "delete_property", "get_property"]

/-- The server takes clients in, and stores and returns properties as it is asked to. -/
structure Obliges (s : DisplayServer) : Prop where
  accepts : s.refusesConnections = false
  serves : ∀ name ∈ propertyRequests, s.closeAt ≠ some name ∧ name ∉ s.refusals

theorem Obliges.of_manners (obliges : s.Obliges) (same : after.manners = s.manners) :
    after.Obliges := by
  obtain ⟨refusals, closeAt, accepts⟩ : _ ∧ _ ∧ _ := by simpa [manners] using same
  exact ⟨accepts.trans obliges.accepts, by rw [closeAt, refusals]; exact obliges.serves⟩

/-- What a server can do with a request. -/
inductive Served (s : DisplayServer) (r : DisplayRequest) : Answer → DisplayServer → Prop
  | unheard : s.connected = false → Served s r .disconnected s
  | dropped : s.connected = true → s.closeAt = some r.name →
      Served s r .disconnected { s.record r with connected := false }
  | refused : s.connected = true → s.closeAt ≠ some r.name → r.name ∈ s.refusals →
      Served s r .refused (s.record r)
  | done : s.connected = true → s.closeAt ≠ some r.name → r.name ∉ s.refusals →
      Served s r ((s.record r).carryOut r).1 ((s.record r).carryOut r).2

theorem record_eq (s : DisplayServer) (r : DisplayRequest) :
    ∃ log, s.record r = { s with log := log } := by
  unfold record
  split
  · exact ⟨s.log, rfl⟩
  · exact ⟨_, rfl⟩

theorem served_serve (s : DisplayServer) (r : DisplayRequest) :
    Served s r (s.serve r).1 (s.serve r).2.2 := by
  obtain ⟨log, recorded⟩ := record_eq s r
  have closeAt : (s.record r).closeAt = s.closeAt := by rw [recorded]
  have refusals : (s.record r).refusals = s.refusals := by rw [recorded]
  unfold serve
  cases connected : s.connected with
  | false => exact .unheard connected
  | true =>
    simp only [Bool.not_true, Bool.false_eq_true, if_false]
    by_cases dropped : s.closeAt = some r.name
    · rw [if_pos (closeAt.trans dropped)]
      exact .dropped connected dropped
    · rw [if_neg (closeAt ▸ dropped)]
      by_cases refused : r.name ∈ s.refusals
      · rw [if_pos (refusals ▸ refused)]
        exact .refused connected dropped refused
      · rw [if_neg (refusals ▸ refused)]
        have done := Served.done connected dropped refused
        split <;> next same =>
          rw [same] at done
          exact done

/-- Where a request is carried out nothing but properties changes, and no property that it does not
write. -/
theorem carryOut_eq (s : DisplayServer) (r : DisplayRequest) (name : Bytes) :
    ∃ properties, (s.carryOut r).2 = { s with properties := properties } ∧
      (r.writes name = false → properties.lookup name = s.properties.lookup name) := by
  have unchanged : ∃ properties, s = { s with properties := properties } ∧
      (r.writes name = false → properties.lookup name = s.properties.lookup name) :=
    ⟨s.properties, rfl, fun _ => rfl⟩
  cases r with
  | changeProperty v written value =>
    refine ⟨_, rfl, fun other => ?_⟩
    have differs : name ≠ written := fun same => of_decide_eq_false other same.symm
    have apart : (name == written) = false := beq_eq_false_iff_ne.mpr differs
    rw [List.lookup_append, List.lookup_cons, apart, List.lookup_nil, Option.or_none]
    exact lookup_filter_ne s.properties differs
  | deleteProperty v written =>
    refine ⟨_, rfl, fun other => ?_⟩
    exact lookup_filter_ne s.properties fun same => of_decide_eq_false other same.symm
  | selectEvents v mask =>
    simp only [carryOut]
    split <;> exact unchanged
  | getWindowAttributes v =>
    simp only [carryOut]
    split
    · split <;> exact unchanged
    · exact unchanged
  | queryShapeVersion =>
    simp only [carryOut]
    split <;> exact unchanged
  | _ => exact unchanged

namespace Served

theorem manners (served : Served s r answer after) : after.manners = s.manners := by
  obtain ⟨log, recorded⟩ := record_eq s r
  obtain ⟨properties, carried, _⟩ := carryOut_eq (s.record r) r []
  cases served with
  | unheard _ => rfl
  | dropped _ _ => rw [recorded]; rfl
  | refused _ _ _ => rw [recorded]; rfl
  | done _ _ _ => rw [carried, recorded]; rfl

/-- A connection that is there now was there before. -/
theorem connected (served : Served s r answer after) (held : after.connected = true) :
    s.connected = true := by
  cases served with
  | unheard _ => exact held
  | dropped there _ => exact there
  | refused there _ _ => exact there
  | done there _ _ => exact there

theorem property? (served : Served s r answer after) (other : r.writes name = false) :
    after.property? name = s.property? name := by
  obtain ⟨log, recorded⟩ := record_eq s r
  obtain ⟨properties, carried, kept⟩ := carryOut_eq (s.record r) r name
  cases served with
  | unheard _ => rfl
  | dropped _ _ => rw [recorded]; rfl
  | refused _ _ _ => rw [recorded]; rfl
  | done _ _ _ =>
    rw [recorded] at kept
    rw [carried, DisplayServer.property?, kept other]
    rfl

/-- A server that obliges does what it is asked as to properties, as long as it is heard. -/
theorem carriedOut (served : Served s r answer after) (obliges : s.Obliges)
    (concerned : r.name ∈ propertyRequests) (there : s.connected = true) :
    answer = ((s.record r).carryOut r).1 ∧ after = ((s.record r).carryOut r).2 := by
  obtain ⟨stays, serves⟩ := obliges.serves r.name concerned
  cases served with
  | unheard gone => cases there.symm.trans gone
  | dropped _ dropped => exact absurd dropped stays
  | refused _ _ refused => exact absurd refused serves
  | done _ _ _ => exact ⟨rfl, rfl⟩

end Served

theorem serveAll_concat (s : DisplayServer) (requests : List DisplayRequest) (r : DisplayRequest) :
    s.serveAll (requests ++ [r]) = ((s.serveAll requests).serve r).2.2 := by
  unfold serveAll
  rw [List.foldl_append]
  rfl

theorem manners_serveAll (s : DisplayServer) (requests : List DisplayRequest) :
    (s.serveAll requests).manners = s.manners := by
  induction requests generalizing s with
  | nil => rfl
  | cons r rest ih => exact (ih _).trans (served_serve s r).manners

/-- A property stays as long as no request writes it. -/
theorem property?_serveAll (s : DisplayServer) {requests : List DisplayRequest}
    (others : ∀ r ∈ requests, r.writes name = false) :
    (s.serveAll requests).property? name = s.property? name := by
  induction requests generalizing s with
  | nil => rfl
  | cons r rest ih =>
    obtain ⟨other, others⟩ := List.forall_mem_cons.mp others
    exact (ih _ others).trans ((served_serve s r).property? other)

/-- The request that gives a property a value, or takes it away. -/
def writing (w : WindowId) (name : Bytes) : Option Bytes → DisplayRequest
  | some value => .changeProperty w name (.bytes value)
  | none => .deleteProperty w name

/-- A value that was written is there. -/
theorem property?_serve_writing {value : Option Bytes} (obliges : s.Obliges)
    (held : (s.serve (writing w name value)).2.2.connected = true) :
    (s.serve (writing w name value)).2.2.property? name = value := by
  have served := served_serve s (writing w name value)
  have concerned : (writing w name value).name ∈ propertyRequests := by
    cases value <;> simp [writing, DisplayRequest.name, propertyRequests]
  obtain ⟨log, recorded⟩ := record_eq s (writing w name value)
  rw [(served.carriedOut obliges concerned (served.connected held)).2, recorded, property?]
  have erased := lookup_filter_self s.properties name
  cases value with
  | none => exact erased
  | some value =>
    show List.lookup name (_ ++ [(name, value)]) = some value
    rw [List.lookup_append, List.lookup_cons_self]
    simp only [dropProperty]
    rw [erased]
    rfl

end DisplayServer

/-! ## 2. Publishing -/

namespace Connection

open DisplayServer

variable {c c' : Connection} {r : DisplayRequest} {name : Bytes}

/-- The server once all that was collected has reached it. -/
def settled (c : Connection) : DisplayServer := c.server.serveAll (c.outgoing.map (·.request))

theorem settled_send (c : Connection) (r : DisplayRequest) (awaited : Bool) :
    (c.send r awaited).2.settled = (c.settled.serve r).2.2 := by
  unfold settled
  simp only [send, List.map_append, List.map_cons, List.map_nil]
  exact serveAll_concat _ _ r

theorem server_transmitOne (c : Connection) (o : Outgoing) :
    (c.transmitOne o).server = (c.server.serve o.request).2.2 ∧
      (c.transmitOne o).outgoing = c.outgoing := by
  simp only [transmitOne]
  split <;> exact ⟨rfl, rfl⟩

/-- What was collected has reached the server. -/
theorem server_transmit (c : Connection) :
    c.transmit.server = c.settled ∧ c.transmit.outgoing = [] := by
  have all (sent : List Outgoing) (c : Connection) :
      (sent.foldl transmitOne c).server = c.server.serveAll (sent.map (·.request)) ∧
        (sent.foldl transmitOne c).outgoing = c.outgoing := by
    induction sent generalizing c with
    | nil => exact ⟨rfl, rfl⟩
    | cons o rest ih =>
      obtain ⟨server, outgoing⟩ := server_transmitOne c o
      obtain ⟨later, left⟩ := ih (c.transmitOne o)
      rw [server] at later
      exact ⟨later, left.trans outgoing⟩
  exact all c.outgoing { c with outgoing := [] }

theorem server_flush (flushed : c.flush = (.ok (), c')) : c'.server = c.settled := by
  unfold flush at flushed
  split at flushed
  · next nothing =>
    cases flushed
    rw [settled, nothing]
    rfl
  · split at flushed
    · cases flushed
    · cases flushed
      exact (server_transmit c).1

/-- The last thing that publishing does is to write the path of the socket. -/
theorem settled_publish {socket : Option Path} {pid : Nat}
    (published : c.publish socket pid = (.ok (), c')) :
    ∃ (s : DisplayServer) (w : WindowId),
      c'.settled = (s.serve (writing w socketProperty (socket.map (·.bytes)))).2.2 := by
  simp only [publish] at published
  split at published
  · cases published
  · split at published
    · cases published
    · next before _ =>
      refine ⟨before.settled, before.root, ?_⟩
      cases socket <;> cases published <;> exact before.settled_send _ false

/-- What was published stands at the server. -/
theorem property?_of_publish {sent : Connection} {socket : Option Path} {pid : Nat}
    (published : c.publish socket pid = (.ok (), c')) (flushed : c'.flush = (.ok (), sent))
    (held : sent.server.connected = true) (obliges : sent.server.Obliges) :
    sent.server.property? socketProperty = socket.map (·.bytes) := by
  obtain ⟨s, w, written⟩ := settled_publish published
  rw [server_flush flushed, written] at held obliges ⊢
  exact property?_serve_writing (obliges.of_manners (served_serve s _).manners.symm) held

/-! ## 3. Reading -/

/-- Nothing is on its way on the connection, the server is there and does what is asked of it as to
properties. -/
structure Fresh (c : Connection) : Prop where
  outgoing : c.outgoing = []
  answers : c.answers = []
  connected : c.server.connected = true
  obliges : c.server.Obliges

theorem fresh_connect {server : DisplayServer} (obliges : server.Obliges) :
    ∃ client, connect server = .ok client ∧ client.Fresh ∧
      ∀ name, client.server.property? name = server.property? name := by
  have accepted : server.accept? =
      some { server with connected := true, log := server.log ++ [.connect] } := by
    rw [accept?, obliges.accepts]
    rfl
  refine ⟨_, by rw [connect, accepted], ⟨rfl, rfl, rfl, obliges.of_manners rfl⟩, fun name => rfl⟩

/-- On a fresh connection a request is answered as the server carries it out. -/
theorem Fresh.ask (fresh : c.Fresh) (concerned : r.name ∈ propertyRequests)
    (replies : r.hasReply = true) :
    (c.ask r).1 = ((c.server.record r).carryOut r).1 ∧
      (c.ask r).2.server = ((c.server.record r).carryOut r).2 ∧
      (c.ask r).2.outgoing = [] ∧ (c.ask r).2.answers = [] := by
  obtain ⟨answer, after⟩ :=
    (served_serve c.server r).carriedOut fresh.obliges concerned fresh.connected
  rw [← answer, ← after]
  simp [Connection.ask, replies, send, await, fresh.outgoing, fresh.answers, transmit, transmitOne,
    readArriving, takeAnswer]

/-- Making the name of a property known leaves a fresh connection fresh. -/
theorem Fresh.intern (fresh : c.Fresh) (name : Bytes) :
    ∃ c', c.intern name = (.ok (), c') ∧ c'.Fresh ∧ c'.server.properties = c.server.properties := by
  obtain ⟨log, recorded⟩ := c.server.record_eq (.internAtom name)
  have concerned : (DisplayRequest.internAtom name).name ∈ propertyRequests := List.mem_cons_self
  obtain ⟨answer, server, outgoing, answers⟩ := fresh.ask concerned rfl
  rw [recorded] at answer server
  change _ = Answer.reply .done at answer
  change _ = { c.server with log := log } at server
  refine ⟨(c.ask (.internAtom name)).2, ?_, ⟨outgoing, answers, ?_, ?_⟩, ?_⟩
  · have asked : c.ask (.internAtom name) = (.reply .done, (c.ask (.internAtom name)).2) :=
      Prod.ext answer rfl
    rw [Connection.intern, asked]
  · rw [server]
    exact fresh.connected
  · rw [server]
    exact fresh.obliges.of_manners rfl
  · rw [server]

/-- On a fresh connection the bytes of a property are read as text, and no bytes count as no
property. -/
theorem property_of_fresh (fresh : c.Fresh) (name : Bytes) :
    (c.property name).1 =
      .ok (match (c.server.property? name).getD [] with
        | [] => none
        | value => some (Utf8.lossy value)) := by
  obtain ⟨c', interned, fresh', same⟩ := fresh.intern name
  obtain ⟨log, recorded⟩ := c'.server.record_eq (.getProperty c'.root name)
  have concerned : (DisplayRequest.getProperty c'.root name).name ∈ propertyRequests := by
    simp [DisplayRequest.name, propertyRequests]
  obtain ⟨answer, _⟩ := fresh'.ask concerned rfl
  rw [recorded] at answer
  change _ = Answer.reply (.property ((c'.server.properties.lookup name).getD [])) at answer
  rw [same] at answer
  rw [Connection.property, interned, property?]
  generalize (c.server.properties.lookup name).getD [] = value at answer ⊢
  obtain ⟨after, asked⟩ :
      ∃ after, c'.ask (.getProperty c'.root name) = (.reply (.property value), after) :=
    ⟨_, Prod.ext answer rfl⟩
  simp only [asked]
  cases value <;> rfl

end Connection

namespace ClientMode

open Connection (socketProperty)

variable {s : Surroundings} {server : DisplayServer}

/-- What a program finds that asks the display for the socket. -/
theorem findSocket_of_display (unset : s.environment.path? Endpoint.variableName = none)
    (display : s.display = some server) (obliges : server.Obliges) :
    ∃ client, Connection.connect server = .ok client ∧
      match (server.property? socketProperty).getD [] with
      | [] => (client.property socketProperty).1 = .ok none ∧ (findSocket s).1 = .error .noInstance
      | value =>
        (client.property socketProperty).1 = .ok (some (Utf8.lossy value)) ∧
          (findSocket s).1 = .ok (Path.ofString (Utf8.lossy value)) := by
  obtain ⟨client, connected, fresh, same⟩ := Connection.fresh_connect obliges
  have read := Connection.property_of_fresh fresh socketProperty
  rw [same] at read
  refine ⟨client, connected, ?_⟩
  rw [findSocket, unset, display]
  simp only [connected]
  generalize (server.property? socketProperty).getD [] = value at read ⊢
  generalize client.property socketProperty = outcome at read ⊢
  obtain ⟨outcome, after⟩ := outcome
  cases value <;> cases read <;> exact ⟨rfl, rfl⟩

theorem ofString_lossy_eq_iff (p : Path) :
    Path.ofString (Utf8.lossy p.bytes) = p ↔ Utf8.isText p.bytes = true := by
  rw [Utf8.isText_iff]
  constructor
  · intro same
    exact ⟨Utf8.lossy p.bytes, (congrArg Path.bytes same).symm⟩
  · rintro ⟨text, spelled⟩
    have same : Bytes.ofString (Utf8.lossy p.bytes) = p.bytes := by
      rw [spelled, Utf8.lossy_encode, Bytes.ofString]
    exact congrArg Path.mk same

/-- **A published path reads back as itself if it is text, and only then.** Take a process that
publishes the path of its socket, or that there is none, on any connection, with anything under way
on it. What it published has been sent, and the connection held. The server does what is asked of it
as to properties, and other requests reach it afterwards, none of which writes this property. Then a
program comes in whose environment does not name the socket.

* If there is no path the program reads no property, and finds no instance.
* If there is one, which is not empty, the program reads it as text, with the replacement character
  for what is no text, and takes that for the path. This is the path that was published if that is
  text, and only then. In this case the program sends its requests to the socket at that path. -/
theorem published_path_reads_back_iff {c c' sent : Connection} {socket : Option Path} {pid : Nat}
    {later : List DisplayRequest} (published : c.publish socket pid = (.ok (), c'))
    (flushed : c'.flush = (.ok (), sent)) (held : sent.server.connected = true)
    (obliges : sent.server.Obliges) (others : ∀ r ∈ later, r.writes socketProperty = false)
    (unset : s.environment.path? Endpoint.variableName = none)
    (display : s.display = some (sent.server.serveAll later)) :
    ∃ client, Connection.connect (sent.server.serveAll later) = .ok client ∧
      (socket = none →
        (client.property socketProperty).1 = .ok none ∧ (findSocket s).1 = .error .noInstance) ∧
      ∀ p, socket = some p → p.bytes ≠ [] →
        (client.property socketProperty).1 = .ok (some (Utf8.lossy p.bytes)) ∧
        (findSocket s).1 = .ok (Path.ofString (Utf8.lossy p.bytes)) ∧
        ((findSocket s).1 = .ok p ↔ Utf8.isText p.bytes = true) ∧
        (Utf8.isText p.bytes = true → ∀ command, (request s command).2.received =
          (Exchange.run s.files s.responder p command).received) := by
  have stands : (sent.server.serveAll later).property? socketProperty = socket.map (·.bytes) := by
    rw [DisplayServer.property?_serveAll _ others]
    exact Connection.property?_of_publish published flushed held obliges
  obtain ⟨client, connected, found⟩ := findSocket_of_display unset display
    (obliges.of_manners (DisplayServer.manners_serveAll _ later))
  rw [stands] at found
  refine ⟨client, connected, ?_, ?_⟩
  · rintro rfl
    exact found
  · intro p named nonempty
    rw [named] at found
    obtain ⟨read, result⟩ :
        (client.property socketProperty).1 = .ok (some (Utf8.lossy p.bytes)) ∧
          (findSocket s).1 = .ok (Path.ofString (Utf8.lossy p.bytes)) := by
      obtain ⟨bytes⟩ := p
      cases bytes with
      | nil => exact absurd rfl nonempty
      | cons b rest => exact found
    refine ⟨read, result, ?_, fun text command => ?_⟩
    · rw [result, Except.ok.injEq]
      exact ofString_lossy_eq_iff p
    · rw [(ofString_lossy_eq_iff p).mpr text] at result
      obtain ⟨display', same⟩ : ∃ display', findSocket s = (.ok p, display') :=
        ⟨_, Prod.ext result rfl⟩
      rw [request, same]

/-- A connection to a server that does whatever is asked of it. -/
def quiet : Connection := { server := { connected := true } }

/-- What the connection is after a path and a process number were published on it. -/
def afterPublishing (socket : Option Path) : Connection := ((quiet.publish socket 7).2.flush).2

/-- A program that asks the display, next to an instance whose socket is at a path. -/
def beside (p : Path) (server : DisplayServer) : Surroundings where
  files := .ofLayouts [(p, .socket)]
  environment := {}
  display := some server
  responder := some ⟨0, Bytes.ofString "pong\n"⟩

/-- A path that is text reads back while windows are shown, and the program reaches the instance. -/
theorem published_path_reads_back_of_text :
    let p := Path.ofString "/sü"
    let sent := afterPublishing (some p)
    let s := beside p (sent.server.serveAll [.mapWindow 3, .grabServer])
    (quiet.publish (some p) 7).1 = .ok () ∧ sent.server.connected = true ∧
      (findSocket s).1 = .ok p ∧
      (request s "ping").2.received = some (Bytes.ofString "ping\n") := by
  intro p sent s
  have obliges : sent.server.Obliges := ⟨rfl, by decide +kernel⟩
  obtain ⟨_, _, _, reads⟩ := published_path_reads_back_iff (s := s) (Prod.ext rfl rfl)
    (Prod.ext rfl rfl) rfl obliges (by decide) rfl rfl
  obtain ⟨_, _, same, reaches⟩ := reads p rfl (by decide)
  have text : Utf8.isText p.bytes = true := by decide +kernel
  refine ⟨rfl, rfl, same.mpr text, ?_⟩
  rw [reaches text "ping"]
  decide +kernel

/-- The path of a socket may hold a byte that is not text. The program takes the path with the
replacement character for it, where no socket is; at the path itself the instance would answer. -/
theorem bytes_do_not_read_back :
    let p : Path := ⟨[0x2F, 0x73, 0xFF]⟩
    let sent := afterPublishing (some p)
    let s := beside p sent.server
    (quiet.publish (some p) 7).1 = .ok () ∧ sent.server.connected = true ∧
      sent.server.property? socketProperty = some p.bytes ∧ Bytes.nul ∉ p.bytes ∧
      s.environment.path? Endpoint.variableName = none ∧
      (findSocket s).1 = .ok ⟨[0x2F, 0x73, 0xEF, 0xBF, 0xBD]⟩ ∧ (findSocket s).1 ≠ .ok p ∧
      (request s "ping").2.received = none ∧
      (Exchange.run s.files s.responder p "ping").received = some (Bytes.ofString "ping\n") := by
  intro p sent s
  have stands : sent.server.property? socketProperty = some p.bytes := by decide +kernel
  have unset : s.environment.path? Endpoint.variableName = none := rfl
  have found : (findSocket s).1 = .ok ⟨[0x2F, 0x73, 0xEF, 0xBF, 0xBD]⟩ := by
    obtain ⟨_, _, reads⟩ := findSocket_of_display unset rfl ⟨rfl, by decide +kernel⟩
    rw [stands] at reads
    rw [reads.2]
    exact congrArg Except.ok (by decide +kernel)
  refine ⟨rfl, rfl, stands, by decide, unset, found, ?_, by decide +kernel, by decide +kernel⟩
  rw [found]
  exact fun same => absurd (Except.ok.inj same) (by decide)

end ClientMode

end Succession

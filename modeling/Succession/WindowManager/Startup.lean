import Succession.Channel.Activation
import Succession.WindowManager.Display
import Succession.WindowManager.Service
import Succession.Settings.Source

/-!
# Starting up

A fresh image takes what the environment hands it, opens the display and claims it, adopts the
channels that were left open, makes sure that requests can reach it, restores its order, takes over
the windows that exist, tells the client that waits for a restart, and starts the user's commands.

A fault of the display ends the start; a socket that cannot be bound or a snapshot that cannot be
used does not.
-/

namespace Succession

/-- The display is opened and claimed, and its features are known. -/
structure OpenDisplay where
  connection : Connection
  features : DisplayFeatures

namespace WindowManager

/-- The variable that tells where the diagnostic log is. -/
def logVariable : String := "KESTREL_SHMLOG_PATH"

/-- Starts the diagnostic log, unless it has no size or cannot be made. The environment then tells
where it is. -/
def startLog (options : Options) (b : Birth) : Option Path × Birth :=
  let limit := options.logSize.getD RingLog.defaultLimit
  if limit = 0 then (none, b)
  else
    let p := RingLog.pathFor b.host.files (Endpoint.temporaryDirectory b.environment)
      b.host.pid
    match RingLog.create b.host.files p limit with
    | .ok (_, files) =>
      (some p, { b with
        host := { b.host with files := files }
        environment := b.environment.set logVariable p.bytes })
    | .error _ => (none, b)

/-- The variable that names the display. -/
def displayVariable : String := "DISPLAY"

/-- Opens the display, becomes its window manager and finds out what it can do. -/
def openDisplay (env : Environment) (server : DisplayServer) :
    Except Fault OpenDisplay × DisplayServer :=
  if (env.path? displayVariable).isNone then
    (.error (.connect Connection.noDisplay), server)
  else
    match Connection.connect server with
    | .error f => (.error f, server)
    | .ok c =>
      match c.seizeRoot with
      | (.error f, c) => (.error f, c.server)
      | (.ok (), c) =>
        match DisplayFeatures.explore Connection.dialogue c.server.screen c with
        | (.error f, c) => (.error f, c.server)
        | (.ok features, c) => (.ok ⟨c, features⟩, c.server)

/-- Adopts the sockets of a supervisor and the channels of the image before. -/
def adoptChannels (m : WindowManager) (activation : List Int) (manifest : Option Manifest) :
    WindowManager :=
  let (_, holding, _) := m.holding.adoptSupervised activation
  let (_, holding, _) := holding.adoptAll (manifest.getD {})
  { m with holding := holding }

/-- The path where the manager is to be reached. -/
def wantedSocketPath (m : WindowManager) : Path :=
  Endpoint.socketPath m.settings.socketPath (m.environment.get? Endpoint.variableName)
    (Endpoint.runtimeDirectory m.environment) m.host.pid

/-- Makes sure that somebody listens at the wanted path: a listener that was adopted, or else a
new one. Without either, the first path that has a listener serves in its stead. -/
def openEndpoint (m : WindowManager) : WindowManager :=
  let p := m.wantedSocketPath
  if m.holding.set.serves p then { m with socketPath := some p }
  else
    let (bound, files) := Endpoint.create m.host.files p
    let m := { m with host := { m.host with files := files } }
    match bound with
    | .error _ => { m with socketPath := m.holding.set.primaryPath? }
    | .ok socket =>
      let fd := freshNumber m.holding.table
      let table := m.holding.table.putOwn fd (.listener socket (Endpoint.addressFor p))
      { m with
        holding := Holding.putListener ⟨m.holding.set, table⟩ fd ⟨.localBind, some p⟩
        socketPath := some p }

/-- Publishes the path of the socket; a fault of that is passed over. -/
def publishEndpoint (m : WindowManager) : WindowManager :=
  { m with connection := (m.connection.publish m.socketPath m.host.pid).2 }

/-- Restores the order from a snapshot, if there is one that can be used. -/
def restoreOrder (m : WindowManager) (snapshot : Option Path) (delete : Bool) : WindowManager :=
  let c := Snapshot.consume m.host.files snapshot delete m.order
  { m with order := c.order, host := { m.host with files := c.files } }

/-- Tells the client that waits for the restart that it is done, if it is still there. -/
def tellRestarted (m : WindowManager) (fd : Int) : WindowManager :=
  match m.holding.adoptClient fd with
  | .error _ => m
  | .ok holding => { m with holding := holding }.reply fd Reply.restarted

/-- Has the user's shell run one of the user's commands; a blank one is passed over. -/
def runCommand (m : WindowManager) (command : String) : WindowManager :=
  if Text.trim command = "" then m
  else
    let env :=
      match m.socketPath with
      | some p => m.environment.set Endpoint.variableName p.bytes
      | none => m.environment
    { m with host := { m.host with files := m.host.perform env m.host.files command } }

/-- Runs the user's commands: those for the first start unless that is turned off, and then those
for every start. -/
def autostart (m : WindowManager) : WindowManager :=
  let first := if m.options.noAutostart then [] else m.settings.autostart
  (first ++ m.settings.autostartAlways).foldl runCommand m

/-- The manager with an open display and what it inherits, before it has adopted anything. -/
def initial (b : Birth) (options : Options) (log : Option Path) (d : OpenDisplay) : WindowManager :=
  { host := b.host
    connection := d.connection
    arguments := b.arguments
    options := options
    environment := b.environment
    settings := (Settings.loadOrUsual b.host.files b.environment options.config).1.settings
    features := d.features
    holding := ⟨{}, b.table⟩
    gate := ({} : Gate).addWatch
    phase := .negotiating
    logPath := log }

/-- Takes over the windows that exist. -/
def takeWindowsOver (m : WindowManager) : Except Remains WindowManager :=
  match takeover.run (m.enter .reconcilingExistingWindows) with
  | (.error f, m) => .error (m.giveUp f)
  | (.ok _, m) => .ok { m with order := m.order.clearSlots }

/-- Confirms the restart and starts the user's commands. What is left of the display's events is
dealt with before the first wait. -/
def settleIn (m : WindowManager) (continuation : Option Int) : Except Remains WindowManager :=
  let m :=
    match continuation with
    | some fd => m.tellRestarted fd
    | none => m
  (events.beforeWait (m.autostart.enter .running)).unlessFailed

/-- Starts the window manager. -/
def start (b : Birth) (options : Options) : Except Remains WindowManager :=
  let (log, b) := startLog options b
  let (inheritance, env, _) := Inheritance.take options b.environment
  let (announced, _) := Activation.announced (env.text? Activation.pidVariable)
    (env.text? Activation.countVariable) b.host.pid
  let (activation, table, _) := Holding.receiveAnnounced b.table announced
  let b := { b with environment := Activation.clear env, table := table }
  match openDisplay b.environment b.display with
  | (.error f, display) => .error (abandon b.host display log f)
  | (.ok d, _) =>
    let m := (initial b options log d).adoptChannels activation inheritance.manifest
    let m := m.openEndpoint.publishEndpoint.enter .restoringOrder
    match (m.restoreOrder inheritance.snapshot inheritance.deleteAfterUse).takeWindowsOver with
    | .error remains => .error remains
    | .ok m => m.settleIn inheritance.continuation

end WindowManager

end Succession

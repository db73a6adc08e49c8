import MeshShell.Bridge.Instance
import MeshShell.Bridge.Status

/-! # The bridge

The calls a host makes: bootstrap the transport once, resolve a destination,
open a session, read from it and write to it. The first bootstrap that works
fixes the mode; later ones only add gateways.
-/
namespace MeshShell

open Simulation

structure Bridge where
  config : BridgeConfig
  site : Site
  running : Option Instance

namespace Bridge

def new (config : BridgeConfig) (files : Files) : Bridge :=
  { config, site := .new files config, running := none }

/-- The settings of a bridge that looks for them itself: defaults if the file is of no use. -/
def loadConfig (env : Environment) (files : Files) : BridgeConfig :=
  (BridgeConfig.load env files).toOption.getD (.default env)

/-- Takes in what was announced. -/
def refresh (b : Bridge) : Bridge :=
  match b.running with
  | none => b
  | some i =>
    let (i, site) := i.listen b.site
    { b with site, running := some i }

/-- Lets everything happen that was set off. -/
def quiet (b : Bridge) : Bridge := { b with site := b.site.quiet }.refresh

def mapNetwork (b : Bridge) (f : Network → Network) : Bridge :=
  { b with site := b.site.mapNetwork f }.refresh

def onBoard {α : Type} (b : Bridge) (f : Switchboard Network → α × Switchboard Network) : α × Bridge :=
  let (a, board) := f b.site.board
  (a, { b with site := { b.site with board } }.refresh)

/-- Adds a gateway to the instance. -/
def addGateway (b : Bridge) (i : Instance) (host : String) (port : UInt16) : Instance × Bridge :=
  let (_, gateways, n) := i.gateways.ensure host port b.site.network
  let i := { i with gateways }
  (i, { b with site := b.site.mapNetwork fun _ => n, running := some i })

/-- The instance that runs, or a new one. -/
def instanceFor (b : Bridge) (thread : Option String) (directory host : String) (port : UInt16) :
    Except BridgeError Instance × Bridge :=
  match b.running with
  | some i =>
    let (i, b) := b.addGateway i host port
    (.ok i, b)
  | none =>
    match Instance.start b.config thread directory host port b.site with
    | (.error e, site) => (.error e, { b with site })
    | (.ok i, site) => (.ok i, { b with site, running := some i })

/-- Starts the transport, or adds a gateway to it if it runs. Gives the hash of the identity. -/
def bootstrap (b : Bridge) (fresh : KeyPair) (thread : Option String) (directory host : String)
    (port : UInt16) : Except BridgeError String × Bridge :=
  match b.instanceFor thread directory host port with
  | (.error e, b) => (.error e, b)
  | (.ok i, b) =>
    let (result, i, files) := i.ensureIdentity fresh b.site.files
    (result, { b with site := { b.site with files }, running := some i })

/-- Whether something answers at a host. In direct-gateway mode nothing on this host counts. -/
def probe (b : Bridge) (answers : String → Bool) (host : String) : Bool :=
  match b.running with
  | some i => !(i.mode = .directGateway && Host.isLoopback host) && answers (bare host)
  | none => answers (bare host)
where
  bare (host : String) : String := String.ofList (Host.unbracket host.toList)

def identityHash (b : Bridge) : Option String := b.running.bind Instance.identityHash

def listDiscovered (b : Bridge) : List DiscoveredInfo :=
  match b.running with
  | none => []
  | some i => i.discovery.snapshot.map (.of b.site.board.now)

/-- A destination for a call that needs a running instance. -/
def target (b : Bridge) (hash : String) : Except BridgeError Destination :=
  match b.running, Destination.parse hash with
  | none, _ => .error .notInitialized
  | some _, .error e => .error (.invalidHash e)
  | some _, .ok d => .ok d

/-- Waits for a path for as long as the settings allow. -/
def resolve (b : Bridge) (hash : String) : Except BridgeError Bool × Bridge :=
  match b.target hash with
  | .error e => (.error e, b)
  | .ok d =>
    b.onBoard fun w =>
      let (ticket, w) := w.resolve d b.config.timeouts.resolve
      let (a, w) := w.await ticket
      (.ok (match a with | some ⟨_, _, .resolved found⟩ => found | _ => false), w)

def requestPath (b : Bridge) (hash : String) : Except BridgeError Bool × Bridge :=
  match b.target hash with
  | .error e => (.error e, b)
  | .ok d =>
    b.onBoard fun w =>
      let (known, w) := w.requestPath d
      (.ok known, w)

/-- Opens a shell that is registered under an id. A size of zero stands for the default one. -/
def createSession (b : Bridge) (hash id : String) (rows cols : UInt16) :
    Except BridgeError Unit × Bridge :=
  match b.target hash with
  | .error e => (.error e, b)
  | .ok d =>
    let rows := if rows = 0 then b.config.shell.defaultRows else rows
    let cols := if cols = 0 then b.config.shell.defaultCols else cols
    b.onBoard fun w =>
      let (ticket, w) := w.create id d rows cols
      let (a, w) := w.await ticket
      (match a with | some ⟨_, _, .created (.error e)⟩ => .error (.session e) | _ => .ok (), w)

/-- The session of an id, as long as an instance runs. -/
def session? (b : Bridge) (id : String) : Option Handle :=
  b.running.bind fun _ => b.site.board.registered? id

def read (b : Bridge) (id : String) (span : Millis) : ReadOutcome × Bridge :=
  match b.session? id with
  | none => (.disconnected, b)
  | some h =>
    b.onBoard fun w =>
      let (ticket, w) := w.read h span
      let (a, w) := w.await ticket
      (match a with | some ⟨_, _, .read outcome⟩ => outcome | _ => .disconnected, w)

/-- What a reader gets while something else happens a while after it began to wait. -/
def readWhile (b : Bridge) (id : String) (span pause : Millis) (meanwhile : Bridge → Bridge) :
    ReadOutcome × Bridge :=
  match b.session? id with
  | none => (.disconnected, meanwhile b)
  | some h =>
    let (ticket, b) := b.onBoard fun w =>
      let (ticket, w) := w.read h span
      let (nap, w) := w.sleep pause
      (ticket, (w.await nap).2)
    (meanwhile b).onBoard fun w =>
      let (a, w) := w.await ticket
      (match a with | some ⟨_, _, .read outcome⟩ => outcome | _ => .disconnected, w)

def sendInput (b : Bridge) (id : String) (data : Bytes) : Bool × Bridge :=
  match b.session? id with
  | none => (false, b)
  | some h => b.onBoard fun w => w.sendInput h data

def resize (b : Bridge) (id : String) (size : Geometry) : Bridge :=
  match b.session? id with
  | none => b
  | some h => (b.onBoard fun w => ((), w.resize h size)).2

def isConnected (b : Bridge) (id : String) : Bool :=
  ((b.session? id).bind (b.site.board.sessions[·]?)).any Session.isConnected

def closeSession (b : Bridge) (id : String) : Bridge :=
  match b.running with
  | none => b
  | some _ => (b.onBoard fun w => ((), (w.closeId id).2.settle)).2

def closeAll (b : Bridge) : Nat × Bridge :=
  match b.running with
  | none => (0, b)
  | some _ =>
    b.onBoard fun w =>
      let (count, w) := w.closeAll
      (count, w.settle)

/-- The registered sessions, sorted by id. -/
def sessions (b : Bridge) : List Session :=
  b.site.board.table.filterMap fun (_, h) => b.site.board.sessions[h]?

def status (b : Bridge) : BridgeStatus :=
  match b.running with
  | none => .uninitialized
  | some i =>
    { initialized := true
      mode := some i.mode
      identity := i.identityHash
      activeSessions := b.sessions.length
      sessions := b.sessions.map .of
      gateways := i.gateways.table.map fun (e, state) => .of e state
      discovered := b.listDiscovered }

end Bridge

end MeshShell

import MeshShell.Bridge.Error
import MeshShell.Gateway
import MeshShell.Simulation.Announce
import MeshShell.Switchboard.Clock

/-! # The running transport of a process

Starting the transport writes its configuration first. What is announced from
then on goes into the table of discovered endpoints. The identity is loaded on
its own, so a failure there leaves the transport running.
-/
namespace MeshShell

open Simulation

/-- What there is besides the process itself: its files, and the mesh with the sessions on it. -/
structure Site where
  files : Files
  board : Switchboard Network

namespace Site

def new (files : Files) (config : BridgeConfig) : Site :=
  { files, board := .new .empty (.ofConfig config) }

def network (s : Site) : Network := s.board.transport

def mapNetwork (s : Site) (f : Network → Network) : Site := { s with board := s.board.disturb f }

/-- Lets all answers to path requests arrive. -/
def quiet (s : Site) : Site :=
  { s with board := s.board.settleTransport s.network.answers.length }

end Site

structure Instance where
  mode : InstanceMode
  gateways : Gateways
  discovery : Discovery
  directory : String
  /-- The name under which it listens for announces. -/
  listener : String
  identity : Option KeyPair
  startedAt : Millis
  maxAge : Option Millis
  deriving DecidableEq, Repr

namespace Instance

/-- Starts the transport for a host, on a thread that may have a name. -/
def start (config : BridgeConfig) (thread : Option String) (directory host : String)
    (port : UInt16) (s : Site) : Except BridgeError Instance × Site :=
  let mode := InstanceMode.forHost host
  let written := TransportConfig.forTarget mode host port
  match (written.writeTo directory).run s.files with
  | .error e files => (.error (.config e), { s with files })
  | .ok _ files =>
    let s := { s with files }
    match s.network.start thread ⟨.ofThread thread, written, directory⟩ with
    | (.error e, n) => (.error (.transport e), s.mapNetwork fun _ => n)
    | (.ok (), n) =>
      let listener := Decimal.text n.listeners.length
      (.ok
        { mode
          gateways := (Gateways.new mode).recordInitial host port
          discovery := .empty
          directory
          listener
          identity := none
          startedAt := s.board.now
          maxAge := config.maxAge? },
        s.mapNetwork fun _ => n.listen listener shellAspect)

/-- The hash of the identity, which is loaded, or taken fresh, if that has not worked before. -/
def ensureIdentity (fresh : KeyPair) (i : Instance) (files : Files) :
    Except BridgeError String × Instance × Files :=
  match i.identity with
  | some k => (.ok k.hashText, i, files)
  | none =>
    match (KeyPair.loadOrCreate fresh (Path.join i.directory "haven_identity")).run files with
    | .error e files => (.error (.identity e), i, files)
    | .ok (k, _) files => (.ok k.hashText, { i with identity := some k }, files)

def identityHash (i : Instance) : Option String := i.identity.map KeyPair.hashText

/-- Takes in what was announced. -/
def hear (i : Instance) (notices : List Notice) : Instance :=
  { i with discovery := i.discovery.hearAll i.listener notices }

/-- Drops what is too old. This happens once in every second from the start on. -/
def expire (i : Instance) (now : Millis) : Instance :=
  match i.maxAge with
  | none => i
  | some age =>
    let moment := i.startedAt + (now - i.startedAt) / 1000 * 1000
    { i with discovery := (i.discovery.evict moment age).2 }

/-- Brings the table of discovered endpoints up to date, and takes the notices away. -/
def listen (i : Instance) (s : Site) : Instance × Site :=
  let (notices, n) := s.network.takeNotices
  ((i.hear notices).expire s.board.now, { s with board := { s.board with transport := n } })

end Instance

end MeshShell

import MeshShell.Discovery
import MeshShell.Gateway
import MeshShell.Json.Printer
import MeshShell.Session.Basic

/-! # The status report

The state of a bridge as plain data, and its JSON form.
-/
namespace MeshShell

structure SessionInfo where
  sessionId : String
  destination : String
  connected : Bool
  suppressedErrors : Nat
  deriving DecidableEq, Repr

structure GatewayInfo where
  endpoint : String
  online : Bool
  deriving DecidableEq, Repr

structure DiscoveredInfo where
  hash : String
  hops : Option UInt8
  lastSeenSecs : Nat
  deriving DecidableEq, Repr

structure BridgeStatus where
  initialized : Bool
  mode : Option InstanceMode
  identity : Option String
  activeSessions : Nat
  sessions : List SessionInfo
  gateways : List GatewayInfo
  discovered : List DiscoveredInfo
  deriving DecidableEq, Repr

def SessionInfo.of (s : Session) : SessionInfo :=
  { sessionId := s.id, destination := s.destination.text, connected := s.isConnected
    suppressedErrors := s.suppressedErrors }

def GatewayInfo.of (e : Endpoint) (state : GatewayState) : GatewayInfo :=
  { endpoint := e.text, online := state = .online }

/-- The age of an entry counts in whole seconds. -/
def DiscoveredInfo.of (now : Millis) (d : Discovered) : DiscoveredInfo :=
  { hash := d.destination.text, hops := d.hops.toOption, lastSeenSecs := (now - d.lastSeen) / 1000 }

namespace BridgeStatus

def uninitialized : BridgeStatus :=
  { initialized := false, mode := none, identity := none, activeSessions := 0, sessions := []
    gateways := [], discovered := [] }

def orNull {α : Type} (f : α → Json) : Option α → Json
  | some a => f a
  | none => .null

def session (s : SessionInfo) : Json :=
  .ofFields [("session_id", .ofString s.sessionId), ("destination", .ofString s.destination),
    ("connected", .boolean s.connected), ("suppressed_errors", .ofNat s.suppressedErrors)]

def gateway (g : GatewayInfo) : Json :=
  .ofFields [("endpoint", .ofString g.endpoint), ("online", .boolean g.online)]

def endpoint (d : DiscoveredInfo) : Json :=
  .ofFields [("hash", .ofString d.hash), ("hops", orNull (fun n => .ofNat n.toNat) d.hops),
    ("last_seen_secs", .ofNat d.lastSeenSecs)]

def toJson (s : BridgeStatus) : Json :=
  .ofFields [("initialized", .boolean s.initialized),
    ("mode", orNull (fun m => .ofString m.name) s.mode),
    ("identity", orNull .ofString s.identity),
    ("active_sessions", .ofNat s.activeSessions),
    ("sessions", .array (s.sessions.map session)),
    ("gateways", .array (s.gateways.map gateway)),
    ("discovered", .array (s.discovered.map endpoint))]

end BridgeStatus

end MeshShell

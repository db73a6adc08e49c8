import MeshShell.Config.Bridge
import MeshShell.Net.Host

/-! # Configuration of the transport

What a bootstrap writes for the transport: how this process reaches the mesh,
and the one interface it starts with.
-/
namespace MeshShell

/-- How the transport reaches the mesh: through a process on this host, or on its own. -/
inductive InstanceMode
  | sharedInstance
  | directGateway
  deriving DecidableEq, Repr

namespace InstanceMode

/-- Hosts that name this machine ask for the shared instance. -/
def forHost (host : String) : InstanceMode :=
  if Host.isLoopback host then .sharedInstance else .directGateway

def name : InstanceMode → String
  | .sharedInstance => "shared_instance"
  | .directGateway => "direct_gateway"

def ofName? : String → Option InstanceMode
  | "shared_instance" => some .sharedInstance
  | "direct_gateway" => some .directGateway
  | _ => none

theorem ofName?_name (m : InstanceMode) : ofName? m.name = some m := by cases m <;> rfl

end InstanceMode

inductive InterfaceKind
  | tcpClient
  deriving DecidableEq, Repr

namespace InterfaceKind

def name : InterfaceKind → String
  | .tcpClient => "tcp_client"

def ofName? : String → Option InterfaceKind
  | "tcp_client" => some .tcpClient
  | _ => none

end InterfaceKind

structure Interface where
  name : String
  kind : InterfaceKind
  enabled : Bool
  targetHost : String
  targetPort : UInt16
  deriving DecidableEq, Repr

def Interface.tcpClient (name host : String) (port : UInt16) : Interface :=
  { name, kind := .tcpClient, enabled := true, targetHost := host, targetPort := port }

structure TransportConfig where
  mode : InstanceMode
  enableTransport : Bool
  shareInstance : Bool
  sharedInstancePort : UInt16
  instanceControlPort : UInt16
  interfaces : List Interface
  deriving DecidableEq, Repr

namespace TransportConfig

def interfaceName (mode : InstanceMode) (host : String) (port : UInt16) : String :=
  match mode with
  | .sharedInstance => "Shared Instance"
  | .directGateway => "Gateway " ++ host ++ ":" ++ Decimal.text port.toNat

/-- The configuration of a client. The control port follows the other one, and after the highest
port comes zero. -/
def forTarget (mode : InstanceMode) (host : String) (port : UInt16) : TransportConfig :=
  { mode
    enableTransport := false
    shareInstance := false
    sharedInstancePort := port
    instanceControlPort := port + 1
    interfaces := [.tcpClient (interfaceName mode host port) host port] }

open Toml.Printer in
def interfaceGroup (i : Interface) : Group :=
  { name := "interfaces", isRow := true
    settings :=
      [("name", .text i.name), ("kind", .text i.kind.name), ("enabled", .boolean i.enabled),
        ("target_host", .text i.targetHost), ("target_port", .natural i.targetPort.toNat)] }

open Toml.Printer in
def groups (c : TransportConfig) : List Group :=
  { name := "transport", isRow := false
    settings :=
      [("mode", .text c.mode.name), ("enable_transport", .boolean c.enableTransport),
        ("share_instance", .boolean c.shareInstance),
        ("shared_instance_port", .natural c.sharedInstancePort.toNat),
        ("instance_control_port", .natural c.instanceControlPort.toNat)] } ::
    c.interfaces.map interfaceGroup

def text (c : TransportConfig) : String := String.ofList (Toml.Printer.document c.groups)

def mode? (v : Toml) : Option InstanceMode := v.choice?.bind InstanceMode.ofName?

def kind? (v : Toml) : Option InterfaceKind := v.choice?.bind InterfaceKind.ofName?

def interface? (v : Toml) : Option Interface := do
  let group ← v.section?
  return {
    name := ← Toml.required? group "name" 0 Toml.string?
    kind := ← Toml.required? group "kind" 1 kind?
    enabled := ← Toml.required? group "enabled" 2 Toml.bool?
    targetHost := ← Toml.required? group "target_host" 3 Toml.string?
    targetPort := ← Toml.required? group "target_port" 4 Toml.word16? }

def interfaces? (v : Toml) : Option (List Interface) := do (← v.rows?).mapM interface?

def ofToml? (v : Toml) : Option TransportConfig := do
  let document ← v.section?
  let group ← (← document "transport" 0).section?
  return {
    mode := ← Toml.required? group "mode" 0 mode?
    enableTransport := ← Toml.required? group "enable_transport" 1 Toml.bool?
    shareInstance := ← Toml.required? group "share_instance" 2 Toml.bool?
    sharedInstancePort := ← Toml.required? group "shared_instance_port" 3 Toml.word16?
    instanceControlPort := ← Toml.required? group "instance_control_port" 4 Toml.word16?
    interfaces := ← Toml.optional? document "interfaces" 1 interfaces? [] }

def parse? (s : String) : Option TransportConfig := (Toml.parse? s).bind ofToml?

def pathIn (directory : String) : String := Path.join directory "config"

/-- Writes the file and gives its path. Whatever it held before is gone. -/
def writeTo (c : TransportConfig) (directory : String) : ConfigAction String := do
  let path := pathIn directory
  let failed := ConfigError.writeFailed path
  (Files.ensureDirectories directory).adaptExcept failed
  (Files.writeFile path (Utf8.encode c.text) BridgeConfig.sharedMode).adaptExcept failed
  return path

def readFrom (files : Files) (directory : String) : Except ConfigError TransportConfig :=
  let path := pathIn directory
  match files.readText path with
  | .error cause => .error (.readFailed path cause)
  | .ok text =>
    match parse? text with
    | none => .error (.parseFailed path)
    | some c => .ok c

end TransportConfig

end MeshShell

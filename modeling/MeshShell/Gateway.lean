import MeshShell.Net.Endpoint
import MeshShell.Transport.Basic

/-! # Gateways

The entry points to the mesh that are attached to the transport. An endpoint
that is in the table stays there as it is. In direct-gateway mode no endpoint
on this host is attached.
-/
namespace MeshShell

inductive GatewayState
  | online
  /-- The interface could not be attached and sits idle. -/
  | inert
  deriving DecidableEq, Repr

def GatewayState.name : GatewayState → String
  | .online => "Online"
  | .inert => "Inert"

inductive GatewayOutcome
  | alreadyAttached
  | attached
  | attachedInert
  /-- The endpoint is on this host, and the transport runs in direct-gateway mode. -/
  | rejected (endpoint : Endpoint)
  deriving DecidableEq, Repr

/-- Why an endpoint was rejected. -/
def Endpoint.conflict (e : Endpoint) : String :=
  "cannot attach shared instance " ++ e.text ++ ": transport already running in direct-gateway mode"

structure Gateways where
  mode : InstanceMode
  /-- Sorted by endpoint. -/
  table : List (Endpoint × GatewayState)
  deriving DecidableEq, Repr

namespace Gateways

def new (mode : InstanceMode) : Gateways := { mode, table := [] }

/-- Sets the state of an endpoint in a sorted table. -/
def put (e : Endpoint) (state : GatewayState) :
    List (Endpoint × GatewayState) → List (Endpoint × GatewayState)
  | [] => [(e, state)]
  | (f, other) :: rest =>
    if e = f then (e, state) :: rest
    else if e < f then (e, state) :: (f, other) :: rest
    else (f, other) :: put e state rest

def state? (g : Gateways) (e : Endpoint) : Option GatewayState := g.table.lookup e

def contains (g : Gateways) (host : String) (port : UInt16) : Bool :=
  (g.state? (.of host port)).isSome

/-- The endpoint that the transport was started with. -/
def recordInitial (g : Gateways) (host : String) (port : UInt16) : Gateways :=
  { g with table := put (.of host port) .online g.table }

/-- The interface that an endpoint is attached with. -/
def interface (e : Endpoint) : Interface := .tcpClient ("Gateway " ++ e.text) e.host e.port

/-- Attaches an endpoint unless it is there already or may not be. -/
def ensure {σ : Type} [Transport σ] (g : Gateways) (host : String) (port : UInt16) (t : σ) :
    GatewayOutcome × Gateways × σ :=
  let e := Endpoint.of host port
  if (g.state? e).isSome then (.alreadyAttached, g, t)
  else if g.mode = .directGateway ∧ Host.isLoopback e.host then (.rejected e, g, t)
  else
    match Transport.attach (interface e) t with
    | (.ok (), t) => (.attached, { g with table := put e .online g.table }, t)
    | (.error _, t) => (.attachedInert, { g with table := put e .inert g.table }, t)

end Gateways

end MeshShell

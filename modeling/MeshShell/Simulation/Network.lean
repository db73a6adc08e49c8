import MeshShell.Simulation.Link

/-! # The simulated mesh

Endpoints with their remote shells, the links to them, and those who listen for
announces. An endpoint becomes known when it is registered openly, when it is
announced, or when a request for its path is answered.
-/
namespace MeshShell.Simulation

/-- How a remote shell answers to a new link. -/
inductive Behavior
  | accept
  | stall
  | refuse
  deriving DecidableEq, Repr

def Behavior.name : Behavior → String
  | .accept => "Accept"
  | .stall => "Stall"
  | .refuse => "Refuse"

structure Remote where
  behavior : Behavior
  /-- Everything that was sent to it. -/
  received : List Message
  /-- The link it talks on. -/
  link : Option LinkId
  deriving DecidableEq, Repr

def Remote.new : Remote := { behavior := .accept, received := [], link := none }

/-- The keyboard input that a remote received. -/
def Remote.stdin (r : Remote) : Bytes :=
  r.received.flatMap fun
    | .streamData stream data _ _ => if stream = Message.stdinStream then data else []
    | _ => []

/-- An endpoint of the mesh. -/
structure Station where
  remote : String
  hops : HopCount
  known : Bool
  deriving DecidableEq, Repr

structure Listener where
  name : String
  aspect : String
  deriving DecidableEq, Repr

/-- An announce as it reached a listener, with the hop count of that moment. -/
structure Notice where
  time : Millis
  listener : String
  destination : Destination
  identity : RemoteIdentity
  hops : HopCount
  deriving DecidableEq, Repr

/-- Whether the transport may take over the signals of the process. -/
inductive SignalPolicy
  | install
  | suppress
  deriving DecidableEq, Repr

def SignalPolicy.name : SignalPolicy → String
  | .install => "Install"
  | .suppress => "Suppress"

/-- Signals may only be taken over from the main thread. A thread may have no name. -/
def SignalPolicy.ofThread (thread : Option String) : SignalPolicy :=
  if thread = some "main" then .install else .suppress

/-- What a transport was started with. -/
structure Start where
  signals : SignalPolicy
  config : TransportConfig
  directory : String
  deriving DecidableEq, Repr

structure Network where
  stations : List (Destination × Station)
  remotes : List (String × Remote)
  links : List Link
  listeners : List Listener
  notices : List Notice
  /-- The requests for paths, one entry for each. -/
  requests : List Destination
  /-- How long it takes until a request is answered. -/
  answerAfter : Option Millis
  /-- The answers that are on their way. -/
  answers : List (Millis × Destination)
  interfaces : List Interface
  attachAttempts : Nat
  failAttach : Bool
  starts : List Start
  failStart : Bool
  teardowns : Nat
  deriving Repr

namespace Network

def empty : Network :=
  { stations := [], remotes := [], links := [], listeners := [], notices := [], requests := []
    answerAfter := none, answers := [], interfaces := [], attachAttempts := 0, failAttach := false
    starts := [], failStart := false, teardowns := 0 }

def remote (n : Network) (name : String) : Remote := (n.remotes.lookup name).getD .new

def setRemote (n : Network) (name : String) (r : Remote) : Network :=
  { n with remotes := (name, r) :: n.remotes.filter (·.1 ≠ name) }

def modifyRemote (n : Network) (name : String) (f : Remote → Remote) : Network :=
  n.setRemote name (f (n.remote name))

def modifyLink (n : Network) (l : LinkId) (f : Link → Link) : Network :=
  { n with links := n.links.modify l f }

def station? (n : Network) (d : Destination) : Option Station := n.stations.lookup d

def setStation (n : Network) (d : Destination) (s : Station) : Network :=
  { n with stations := (d, s) :: n.stations.filter (·.1 ≠ d) }

/-- Registers an endpoint, in the place of one that was there before. -/
def addStation (n : Network) (d : Destination) (remote : String) (hops : HopCount) (known : Bool) :
    Network :=
  n.setStation d ⟨remote, hops, known⟩

/-- The endpoint of a destination if a path to it is known. -/
def known? (n : Network) (d : Destination) : Option Station := (n.station? d).filter (·.known)

def hasPath (d : Destination) (n : Network) : Bool := (n.known? d).isSome

def recallIdentity (d : Destination) (n : Network) : Option RemoteIdentity :=
  (n.known? d).map fun _ => .doubled d

def hopsTo (d : Destination) (n : Network) : HopCount := ((n.known? d).map (·.hops)).getD .unknown

/-- Tells those who listen for an aspect. -/
def fanOut (now : Millis) (d : Destination) (aspect : String) (n : Network) : Network :=
  let told := (n.listeners.filter (·.aspect = aspect)).map fun l : Listener =>
    ({ time := now, listener := l.name, destination := d, identity := .doubled d
       hops := n.hopsTo d } : Notice)
  { n with notices := n.notices ++ told }

/-- An announce of a registered endpoint makes its path known. -/
def announce (now : Millis) (d : Destination) (n : Network) : Network :=
  match n.station? d with
  | none => n
  | some s => (n.setStation d { s with known := true }).fanOut now d shellAspect

/-- The notices since the last time. -/
def takeNotices (n : Network) : List Notice × Network := (n.notices, { n with notices := [] })

def listen (n : Network) (name aspect : String) : Network :=
  { n with listeners := n.listeners ++ [⟨name, aspect⟩] }

/-- A request for the path to a hidden endpoint is answered with an announce later on. -/
def requestPath (now : Millis) (d : Destination) (n : Network) : Network :=
  let n := { n with requests := n.requests ++ [d] }
  match n.answerAfter, (n.station? d).filter (!·.known) with
  | some later, some _ => { n with answers := n.answers ++ [(now + later, d)] }
  | _, _ => n

def requestsFor (n : Network) (d : Destination) : Nat := n.requests.count d

/-- A remote shell that talks on a link that is shut talks on none. -/
def detach (n : Network) (l : LinkId) (name : String) : Network :=
  if (n.remote name).link = some l then n.modifyRemote name fun r => { r with link := none } else n

/-- Shuts a link, at the wish of this side or of the other. -/
def shutLink (n : Network) (l : LinkId) (here : Bool) : Network :=
  match n.links[l]? with
  | none => n
  | some link =>
    if link.shut then n
    else
      let n := { n with teardowns := if here then n.teardowns + 1 else n.teardowns }
      (n.detach l link.remote).modifyLink l Link.close

/-- The station that an identity belongs to, whether a path to it is known or not. -/
def owner? (n : Network) (identity : RemoteIdentity) : Option Station :=
  (n.stations.find? fun (d, _) => RemoteIdentity.doubled d = identity).map (·.2)

/-- A new link as the remote shell answers to it. -/
def answerLink (n : Network) (l : LinkId) (name : String) : Network :=
  let attached := n.modifyRemote name fun r => { r with link := some l }
  match (n.remote name).behavior with
  | .accept => attached.modifyLink l (·.push .established)
  | .stall => attached
  | .refuse => n.shutLink l false

def openLink (identity : RemoteIdentity) (aspect : String) (n : Network) :
    Except TransportError LinkId × Network :=
  if aspect ≠ shellAspect then
    (.error (.linkUnavailable ("no endpoint serves aspect " ++ aspect)), n)
  else
    match n.owner? identity with
    | none => (.error (.linkUnavailable "identity not reachable"), n)
    | some s =>
      let l := n.links.length
      (.ok l, { n with links := n.links ++ [Link.new s.remote] }.answerLink l s.remote)

def channel (l : LinkId) (n : Network) : Except TransportError Unit :=
  if (n.links[l]?).any (·.isUsable) then .ok ()
  else .error (.linkUnavailable ("sim link " ++ Decimal.text l ++ " is not established"))

def handleBy (name : String) (l : LinkId) (n : Network) : Network :=
  n.modifyLink l fun link => { link with handler := some name }

/-- A message to the remote shell. -/
def send (l : LinkId) (m : Message) (n : Network) : Except TransportError Unit × Network :=
  match (n.links[l]?).filter (!·.shut) with
  | none => (.error .channelClosed, n)
  | some link => (.ok (), n.modifyRemote link.remote fun r => { r with received := r.received ++ [m] })

/-- A message of the remote shell on the link it talks on. -/
def emit (n : Network) (name : String) (m : Message) : Network :=
  match (n.remote name).link with
  | none => n
  | some l => n.modifyLink l (·.push (.message m))

/-- The remote shell closes the link it talks on. -/
def dropLink (n : Network) (name : String) : Network :=
  match (n.remote name).link with
  | none => n
  | some l => (n.modifyRemote name fun r => { r with link := none }).shutLink l false

def isLinked (n : Network) (name : String) : Bool :=
  match (n.remote name).link with
  | none => false
  | some l => (n.links[l]?).any (!·.shut)

def attach (i : Interface) (n : Network) : Except TransportError Unit × Network :=
  let n := { n with attachAttempts := n.attachAttempts + 1 }
  if n.failAttach then
    (.error (.interfaceFailed (i.targetHost ++ ":" ++ Decimal.text i.targetPort.toNat)
      "simulated attach failure"), n)
  else (.ok (), { n with interfaces := n.interfaces ++ [i] })

/-- Starts the transport. Taking over the signals works on the main thread only. -/
def start (thread : Option String) (s : Start) (n : Network) : Except TransportError Unit × Network :=
  let n := { n with starts := n.starts ++ [s] }
  if n.failStart then (.error (.startFailed "simulated start failure"), n)
  else if s.signals = .install ∧ thread ≠ some "main" then
    (.error (.startFailed "signal handlers can only be installed from the main thread"), n)
  else (.ok (), n)

/-- Delivers the queues of links from a given number on. -/
def deliverFrom : LinkId → List Link → List (LinkId × Callback) × List Link
  | _, [] => ([], [])
  | l, link :: rest =>
    let (cs, link) := link.deliverAll
    let (more, rest) := deliverFrom (l + 1) rest
    (cs.map ((l, ·)) ++ more, link :: rest)

def deliver (n : Network) : List (LinkId × Callback) × Network :=
  let (cs, links) := deliverFrom 0 n.links
  (cs, { n with links })

def wake (now : Millis) (n : Network) : Network :=
  let (due, later) := n.answers.partition (·.1 ≤ now)
  due.foldl (fun n (time, d) => n.announce time d) { n with answers := later }

/-- Lets everything arrive that is on its way, whenever it is due. -/
def settle (n : Network) : Network :=
  n.answers.foldl (fun n (time, d) => n.announce time d) { n with answers := [] }

instance : Transport Network where
  hasPath := hasPath
  requestPath := requestPath
  recallIdentity := recallIdentity
  hopsTo := hopsTo
  openLink _ := openLink
  channel := channel
  setHandler := handleBy ""
  send := send
  teardown l n := n.shutLink l true
  attach := attach
  deliver := deliver
  due? n := (n.answers.map (·.1)).min?
  wake := wake

end Network

end MeshShell.Simulation

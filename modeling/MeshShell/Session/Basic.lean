import MeshShell.Text.Duration
import MeshShell.Text.Quoted
import MeshShell.Transport.Basic

/-! # Shell sessions

One remote shell over one link. Callbacks of the link go into an inbox, and a
driver that belongs to the session takes them from there in order. What the
remote writes waits in a queue until it is read; the queue ends with a mark
when the session closes.
-/
namespace MeshShell

inductive Phase
  | created
  | linking
  | handshaking
  | active
  | closed
  deriving DecidableEq, Repr

namespace Phase

def name : Phase → String
  | .created => "Created"
  | .linking => "Linking"
  | .handshaking => "Handshaking"
  | .active => "Active"
  | .closed => "Closed"

/-- The place of a phase in the life of a session. -/
def rank : Phase → Nat
  | .created => 0
  | .linking => 1
  | .handshaking => 2
  | .active => 3
  | .closed => 4

end Phase

/-- What reading from a session gives. -/
inductive ReadOutcome
  | data (bytes : Bytes)
  /-- Nothing came in time. -/
  | empty
  /-- The session is closed and everything was read. -/
  | disconnected
  deriving DecidableEq, Repr

inductive SessionError
  | identityUnresolved (destination : Destination)
  | linkTimeout (destination : Destination) (limit : Millis)
  | linkClosed (destination : Destination)
  | alreadyStarted (id : String)
  | transport (cause : TransportError)
  deriving DecidableEq, Repr

namespace SessionError

def kind : SessionError → String
  | .identityUnresolved _ => "IdentityUnresolved"
  | .linkTimeout .. => "LinkTimeout"
  | .linkClosed _ => "LinkClosed"
  | .alreadyStarted _ => "AlreadyStarted"
  | .transport cause => "Transport." ++ cause.kind

def message : SessionError → String
  | .identityUnresolved d => "no known identity for " ++ d.text ++ "; resolve a path first"
  | .linkTimeout d limit =>
    "link to " ++ d.text ++ " not established within " ++ Duration.text limit
  | .linkClosed d => "link to " ++ d.text ++ " closed before it was established"
  | .alreadyStarted id => "session " ++ id ++ " was already started"
  | .transport cause => cause.message

end SessionError

structure SessionSettings where
  linkTimeout : Millis
  poll : Millis
  term : String
  deriving DecidableEq, Repr

def SessionSettings.ofConfig (c : BridgeConfig) : SessionSettings :=
  { linkTimeout := c.timeouts.link, poll := c.timeouts.poll, term := c.shell.term }

/-- An item of the output queue. -/
inductive Output
  | chunk (bytes : Bytes)
  | finish
  deriving DecidableEq, Repr

inductive LinkEvent
  | established (link : LinkId)
  | closed
  | message (m : Message)
  | shutdown
  deriving DecidableEq, Repr

/-- The driver starts when the link is opened and never comes back once it has ended. -/
inductive DriverState
  | notStarted
  | running
  | ended
  deriving DecidableEq, Repr

/-- Tells one waiting caller from another. -/
abbrev Ticket := Nat

structure Session where
  id : String
  destination : Destination
  settings : SessionSettings
  phase : Phase
  connected : Bool
  established : Bool
  closed : Bool
  /-- The link to tear down when the session closes. -/
  link : Option LinkId
  /-- The link whose channel carries input. -/
  channel : Option LinkId
  geometry : Geometry
  driver : DriverState
  inbox : List LinkEvent
  output : List Output
  /-- Whether the queue still takes items. -/
  outputOpen : Bool
  suppressedErrors : Nat
  /-- The link that was opened for the session, also when it is gone. -/
  opened : Option LinkId
  /-- The callers that wait for output, the first in line first. -/
  readers : List Ticket
  deriving DecidableEq, Repr

namespace Session

def new (id : String) (destination : Destination) (settings : SessionSettings) : Session :=
  { id, destination, settings
    phase := .created
    connected := false
    established := false
    closed := false
    link := none
    channel := none
    geometry := .standard
    driver := .notStarted
    inbox := []
    output := []
    outputOpen := true
    suppressedErrors := 0
    opened := none
    readers := [] }

def isConnected (s : Session) : Bool := s.connected && !s.closed

/-- The description of a session. -/
def debug (s : Session) : String :=
  "ShellSession \x7b id: " ++ Text.quoted s.id ++ ", destination: " ++ s.destination.debug ++
    ", phase: " ++ s.phase.name ++ " \x7d"

/-- An event goes into the inbox as long as a driver may still take it from there. -/
def push (s : Session) (e : LinkEvent) : Session :=
  if s.driver = .ended then s else { s with inbox := s.inbox ++ [e] }

/-- A chunk goes into the queue unless the queue has its end mark. -/
def enqueue (s : Session) (bytes : Bytes) : Session :=
  if s.outputOpen then { s with output := s.output ++ [.chunk bytes] } else s

end Session

end MeshShell

import MeshShell.Transport.Basic

/-! # A transport that follows a script

For each destination a script says whether it is known, what opening a link to
it does, and what its channel refuses. A new link takes a copy of the script of
its destination. It keeps a log of what was sent and counts its teardowns.
-/
namespace MeshShell

structure Script where
  known : Bool
  /-- How long after a request the path becomes known. -/
  pathAfter : Option Millis
  openError : Option TransportError
  /-- What happens on a new link, and how long after its opening. -/
  onOpen : List (Millis × Callback)
  channelError : Option TransportError
  /-- The number of messages that the channel takes. -/
  sendLimit : Option Nat
  sendError : Option TransportError
  deriving DecidableEq, Repr

def Script.blank : Script :=
  { known := false, pathAfter := none, openError := none, onOpen := [], channelError := none
    sendLimit := none, sendError := none }

structure ScriptedLink where
  script : Script
  /-- Whether messages of the link are wanted. -/
  handled : Bool
  sent : List Message
  teardowns : Nat
  deriving DecidableEq, Repr

inductive ScriptedEvent
  | callback (link : LinkId) (c : Callback)
  | pathFound (destination : Destination)
  deriving DecidableEq, Repr

structure ScriptedTransport where
  scripts : List (Destination × Script)
  links : List ScriptedLink
  waiting : List (LinkId × Callback)
  schedule : List (Millis × ScriptedEvent)
  pathRequests : Nat
  deriving Repr

namespace ScriptedTransport

def ofScripts (scripts : List (Destination × Script)) : ScriptedTransport :=
  { scripts, links := [], waiting := [], schedule := [], pathRequests := 0 }

def script (t : ScriptedTransport) (d : Destination) : Script := (t.scripts.lookup d).getD .blank

def setScript (t : ScriptedTransport) (d : Destination) (s : Script) : ScriptedTransport :=
  { t with scripts := (d, s) :: t.scripts.filter (·.1 ≠ d) }

def modifyLink (t : ScriptedTransport) (l : LinkId) (f : ScriptedLink → ScriptedLink) :
    ScriptedTransport :=
  { t with links := t.links.modify l f }

/-- Whether something that happens on a link finds someone who takes it. -/
def wanted (t : ScriptedTransport) (l : LinkId) : Callback → Bool
  | .message _ => (t.links[l]?).any (·.handled)
  | _ => true

/-- Something happens on a link. A message that nobody wants is lost. -/
def fire (t : ScriptedTransport) (l : LinkId) (c : Callback) : ScriptedTransport :=
  if t.wanted l c then { t with waiting := t.waiting ++ [(l, c)] } else t

def run (t : ScriptedTransport) : ScriptedEvent → ScriptedTransport
  | .callback l c => t.fire l c
  | .pathFound d => t.setScript d { t.script d with known := true }

def plan (t : ScriptedTransport) (time : Millis) (e : ScriptedEvent) : ScriptedTransport :=
  { t with schedule := t.schedule ++ [(time, e)] }

/-- What happens on a new link, now or later. -/
def enact (now : Millis) (l : LinkId) (t : ScriptedTransport) : Millis × Callback → ScriptedTransport
  | (0, c) => t.fire l c
  | (later, c) => t.plan (now + later) (.callback l c)

/-- The destination that an identity belongs to has its bytes as the first half of the key. -/
def owner (t : ScriptedTransport) (identity : RemoteIdentity) : Script :=
  match t.scripts.find? fun (d, _) => RemoteIdentity.doubled d = identity with
  | some (_, s) => s
  | none => .blank

def openLink (now : Millis) (identity : RemoteIdentity) (t : ScriptedTransport) :
    Except TransportError LinkId × ScriptedTransport :=
  let s := t.owner identity
  match s.openError with
  | some e => (.error e, t)
  | none =>
    let l := t.links.length
    let t := { t with links := t.links ++ [⟨s, false, [], 0⟩] }
    (.ok l, s.onOpen.foldl (enact now l) t)

def send (l : LinkId) (m : Message) (t : ScriptedTransport) :
    Except TransportError Unit × ScriptedTransport :=
  match t.links[l]? with
  | none => (.error .channelClosed, t)
  | some link =>
    if link.script.sendLimit.any (· ≤ link.sent.length) then
      (.error (link.script.sendError.getD .channelClosed), t)
    else (.ok (), t.modifyLink l fun link => { link with sent := link.sent ++ [m] })

def channel (l : LinkId) (t : ScriptedTransport) : Except TransportError Unit :=
  match (t.links[l]?).bind (·.script.channelError) with
  | some e => .error e
  | none => .ok ()

def requestPath (now : Millis) (d : Destination) (t : ScriptedTransport) : ScriptedTransport :=
  let t := { t with pathRequests := t.pathRequests + 1 }
  match (t.script d).pathAfter with
  | some later => t.plan (now + later) (.pathFound d)
  | none => t

def wake (now : Millis) (t : ScriptedTransport) : ScriptedTransport :=
  let (due, later) := t.schedule.partition (·.1 ≤ now)
  (due.mergeSort fun a b => a.1 ≤ b.1).foldl (fun t (_, e) => t.run e) { t with schedule := later }

instance : Transport ScriptedTransport where
  hasPath d t := (t.script d).known
  requestPath := requestPath
  recallIdentity d t := if (t.script d).known then some (.doubled d) else none
  hopsTo _ _ := .unknown
  openLink now identity _ t := openLink now identity t
  channel := channel
  setHandler l t := t.modifyLink l fun link => { link with handled := true }
  send := send
  teardown l t := t.modifyLink l fun link => { link with teardowns := link.teardowns + 1 }
  attach _ t := (.ok (), t)
  deliver t := (t.waiting, { t with waiting := [] })
  due? t := (t.schedule.map (·.1)).min?
  wake := wake

end ScriptedTransport

end MeshShell

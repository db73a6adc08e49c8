import MeshShell.Transport.Basic

/-! # Simulated links

A link between a session and a remote shell. What is reported about it waits in
a queue and is delivered in order. A link is shut once; the report of that is
the last thing in its queue.
-/
namespace MeshShell.Simulation

inductive Delivery
  | established
  | message (m : Message)
  | closed
  deriving DecidableEq, Repr

structure Link where
  /-- The name of the remote shell at the other end. -/
  remote : String
  established : Bool
  shut : Bool
  /-- Who wants the messages, if anybody does. -/
  handler : Option String
  queue : List Delivery
  deriving DecidableEq, Repr

namespace Link

def new (remote : String) : Link :=
  { remote, established := false, shut := false, handler := none, queue := [] }

/-- Nothing goes into the queue of a link that is shut. -/
def push (l : Link) (d : Delivery) : Link :=
  if l.shut then l else { l with queue := l.queue ++ [d] }

def close (l : Link) : Link := { l.push .closed with shut := true }

/-- What one delivery reports. A link that was shut meanwhile is not reported as established, and
a message that nobody wants is lost. -/
def report (l : Link) : Delivery → Option Callback × Link
  | .established => if l.shut then (none, l) else (some .established, { l with established := true })
  | .message m => (if l.handler.isSome then some (.message m) else none, l)
  | .closed => (some .closed, l)

/-- Delivers the first of the queue. -/
def deliver (l : Link) : Option Callback × Link :=
  match l.queue with
  | [] => (none, l)
  | d :: rest => { l with queue := rest }.report d

def reportAll (l : Link) : List Delivery → List Callback × Link
  | [] => ([], l)
  | d :: rest =>
    let (c, l) := l.report d
    let (cs, l) := reportAll l rest
    (c.toList ++ cs, l)

/-- Delivers all of the queue. -/
def deliverAll (l : Link) : List Callback × Link := reportAll { l with queue := [] } l.queue

/-- Whether the channel can be had. -/
def isUsable (l : Link) : Bool := l.established && !l.shut

end Link

end MeshShell.Simulation

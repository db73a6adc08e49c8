import MeshShell.Proofs.Run
import MeshShell.Switchboard.Clock

/-! # Everything that can happen to a session

The actions of the host, of the transport, of the driver and of time, each as
one step. A run takes them in any order: events reach the inbox at any moment,
the driver takes them one by one, and callers read, wait and give up in between.
-/
namespace MeshShell

namespace Message

/-- The output that a message brings. -/
def payload? : Message → Option Bytes
  | .streamData _ data _ _ => if data.isEmpty then none else some data
  | _ => none

/-- The remote complains and goes on. -/
def complains : Message → Bool
  | .error _ fatal => !fatal
  | _ => false

/-- The remote shell is over. -/
def ends : Message → Bool
  | .commandExited _ => true
  | .error _ fatal => fatal
  | _ => false

end Message

namespace Session

variable {σ : Type} [Transport σ]

inductive Action (σ : Type)
  /-- A caller opens the link. -/
  | connect (now : Millis) (rows cols : UInt16)
  /-- A caller that waits for the link has waited long enough. -/
  | giveUp
  /-- The transport reports on the link of the session. -/
  | report (c : Callback)
  /-- The driver takes the next event. -/
  | drive
  | sendInput (data : Bytes)
  | resize (size : Geometry)
  | close
  /-- A caller reads, and waits in line if it is patient. -/
  | read (ticket : Ticket) (patient : Bool)
  /-- The first in line takes what there is. -/
  | serve
  /-- The time of a caller in line is up. -/
  | expire (ticket : Ticket)
  /-- The transport changes for a reason that lies outside the session. -/
  | elsewhere (f : σ → σ)

/-- The driver takes one event, if it runs and there is one. -/
def driveOne (s : Session) (t : σ) : Session × σ :=
  match s.inbox with
  | [] => (s, t)
  | e :: rest => if s.driver = .running then handle e { s with inbox := rest } t else (s, t)

/-- The first in line takes what there is and leaves the line. -/
def serveFirst (s : Session) : Option (Ticket × ReadOutcome) × Session :=
  match s.readers with
  | [] => (none, s)
  | r :: rest =>
    match s.take with
    | (some outcome, s) => (some (r, outcome), { s with readers := rest })
    | (none, s) => (none, s)

/-- A report on the link reaches the inbox. -/
def receive (c : Callback) (s : Session) : Session :=
  match s.opened with
  | none => s
  | some l => s.push (Switchboard.eventOf l c)

/-- Closes the session on behalf of a caller that has learned nothing yet. -/
def timeOut (s : Session) (t : σ) : Session × σ :=
  match s.progress with
  | some _ => (s, t)
  | none => s.giveUp t

/-- What an action makes of a session and the transport. -/
def next : Action σ → Session × σ → Session × σ
  | .connect now rows cols, (s, t) => (s.start now rows cols t).2
  | .giveUp, (s, t) => s.timeOut t
  | .report c, (s, t) => (s.receive c, t)
  | .drive, (s, t) => s.driveOne t
  | .sendInput data, (s, t) => (s, (s.sendInput data t).2)
  | .resize size, (s, t) => s.resize size t
  | .close, (s, t) => s.close t
  | .read ticket patient, (s, t) => ((s.join ticket patient).2, t)
  | .serve, (s, t) => (s.serveFirst.2, t)
  | .expire ticket, (s, t) => ((s.leave ticket).2, t)
  | .elsewhere f, (s, t) => (s, f t)

/-- What happened to a session, with the states in which it happened. -/
abbrev History (σ : Type) := List ((Session × σ) × Action σ)

/-- A new session and what happens to it afterwards. -/
structure Life (σ : Type) where
  id : String
  destination : Destination
  settings : SessionSettings
  transport : σ
  actions : List (Action σ)

namespace Life

def start (l : Life σ) : Session × σ := (.new l.id l.destination l.settings, l.transport)

def history (l : Life σ) : History σ := trail next l.start l.actions

/-- The session as it has become, and the transport. -/
def outcome (l : Life σ) : Session × σ := reach next l.start l.actions

def session (l : Life σ) : Session := l.outcome.1

theorem run (l : Life σ) : Run next l.start l.history l.outcome := .of_actions next l.start l.actions

end Life

/-- The event that the driver takes with an action. -/
def taken (s : Session) : Action σ → Option LinkEvent
  | .drive => if s.driver = .running then s.inbox.head? else none
  | _ => none

/-- The event that reaches the session with an action. Without a link there is none. -/
def delivered (s : Session) : Action σ → Option LinkEvent
  | .report c => s.opened.map (Switchboard.eventOf · c)
  | _ => none

/-- Whether an action tries to open the link. -/
def dials (s : Session) (t : σ) : Action σ → Bool
  | .connect _ _ _ =>
    decide (s.driver = .notStarted) && (Transport.recallIdentity s.destination t).isSome
  | _ => false

/-- An action that does not open the link, brings no event and does not let the driver take one. -/
structure Apart (s : Session) (t : σ) (a : Action σ) : Prop where
  undialed : s.dials t a = false
  untaken : s.taken a = none
  undelivered : s.delivered a = none

/-- Readers have no part in an action. -/
def Action.Silent : Action σ → Prop
  | .read _ _ => False
  | .serve => False
  | .expire _ => False
  | _ => True

/-- What readers learn from an action. -/
def results (s : Session) : Action σ → List ReadOutcome
  | .read ticket patient => (s.join ticket patient).1.toList
  | .serve => (s.serveFirst.1.map (·.2)).toList
  | .expire ticket => if ticket ∈ s.readers then [(s.leave ticket).1] else []
  | _ => []

end Session

end MeshShell

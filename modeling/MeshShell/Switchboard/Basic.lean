import MeshShell.Session.Driver
import MeshShell.Session.Reading

/-! # Many sessions on one clock

A switchboard holds a transport, all sessions that were made on it, the table
of those that are registered under their id, and the callers that wait. Time
moves only when there is nothing left to do, and then to the next timer.
-/
namespace MeshShell

/-- A session is known by the place at which it was made. -/
abbrev Handle := Nat

/-- What a caller waits for. -/
inductive Wait
  /-- The link of a session is looked at in every interval. Afterwards the session may be
  registered. -/
  | connecting (session : Handle) (deadline : Millis) (register : Bool)
  | resolving (destination : Destination) (deadline : Millis)
  | reading (session : Handle)
  | sleeping
  deriving DecidableEq, Repr

structure Pending where
  ticket : Ticket
  wake : Millis
  wait : Wait
  deriving DecidableEq, Repr

inductive Answer
  | connected (result : Except SessionError Unit)
  | created (result : Except SessionError Handle)
  | resolved (found : Bool)
  | read (outcome : ReadOutcome)
  | slept

structure Answered where
  ticket : Ticket
  time : Millis
  answer : Answer

structure Switchboard (σ : Type) where
  now : Millis
  transport : σ
  /-- What new registered sessions are made with. -/
  settings : SessionSettings
  sessions : List Session
  /-- Sorted by id. -/
  table : List (String × Handle)
  /-- In the order in which the timers were set. -/
  waits : List Pending
  answers : List Answered
  nextTicket : Ticket

namespace Switchboard

variable {σ : Type}

def new (transport : σ) (settings : SessionSettings) : Switchboard σ :=
  { now := 0, transport, settings, sessions := [], table := [], waits := [], answers := []
    nextTicket := 0 }

def modifySession (w : Switchboard σ) (h : Handle) (f : Session → Session) : Switchboard σ :=
  { w with sessions := w.sessions.modify h f }

/-- Changes a session together with the transport. -/
def onSession {α : Type} (w : Switchboard σ) (h : Handle) (f : Session → σ → α × Session × σ) :
    Option α × Switchboard σ :=
  match w.sessions[h]? with
  | none => (none, w)
  | some s =>
    let (a, s, t) := f s w.transport
    (some a, { w with sessions := w.sessions.set h s, transport := t })

def updateSession (w : Switchboard σ) (h : Handle) (f : Session → σ → Session × σ) : Switchboard σ :=
  (w.onSession h fun s t => ((), f s t)).2

def makeSession (w : Switchboard σ) (id : String) (d : Destination) (settings : SessionSettings) :
    Handle × Switchboard σ :=
  (w.sessions.length, { w with sessions := w.sessions ++ [.new id d settings] })

def draw (w : Switchboard σ) : Ticket × Switchboard σ :=
  (w.nextTicket, { w with nextTicket := w.nextTicket + 1 })

/-- Sets a timer, after all others. -/
def arm (w : Switchboard σ) (p : Pending) : Switchboard σ :=
  { w with waits := w.waits.filter (·.ticket ≠ p.ticket) ++ [p] }

/-- A caller gets its answer and waits no longer. -/
def reply (w : Switchboard σ) (ticket : Ticket) (answer : Answer) : Switchboard σ :=
  { w with
    waits := w.waits.filter (·.ticket ≠ ticket)
    answers := w.answers ++ [⟨ticket, w.now, answer⟩] }

def answer? (w : Switchboard σ) (ticket : Ticket) : Option Answered :=
  w.answers.find? (·.ticket = ticket)

end Switchboard

end MeshShell

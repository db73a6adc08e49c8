import MeshShell.Session.Basic

/-! # Reading from a session

Callers that read wait in line. The first in line takes the next item of the
queue as soon as there is one; when its time is up it leaves with nothing.
-/
namespace MeshShell.Session

/-- What the first in line gets right now, if anything. -/
def take (s : Session) : Option ReadOutcome × Session :=
  match s.output with
  | .chunk bytes :: rest => (some (.data bytes), { s with output := rest })
  | .finish :: rest => (some .disconnected, { s with output := rest })
  | [] => (if !s.outputOpen || s.closed then some .disconnected else none, s)

/-- What a caller gets whose time is up. -/
def idle (s : Session) : ReadOutcome := if s.closed then .disconnected else .empty

/-- Gives the callers of a line what there is, the first one first. -/
def serveLine (s : Session) : List Ticket → List (Ticket × ReadOutcome) × Session
  | [] => ([], { s with readers := [] })
  | r :: rest =>
    match s.take with
    | (some outcome, s) =>
      let (served, s) := serveLine s rest
      ((r, outcome) :: served, s)
    | (none, s) => ([], { s with readers := r :: rest })

def serve (s : Session) : List (Ticket × ReadOutcome) × Session := serveLine s s.readers

/-- A caller joins the line. It learns at once what it can learn without waiting. -/
def join (ticket : Ticket) (patient : Bool) (s : Session) : Option ReadOutcome × Session :=
  match s.readers with
  | [] =>
    match s.take with
    | (some outcome, s) => (some outcome, s)
    | (none, s) =>
      if patient then (none, { s with readers := [ticket] }) else (some s.idle, s)
  | line => if patient then (none, { s with readers := line ++ [ticket] }) else (some s.idle, s)

/-- A caller whose time is up leaves the line. -/
def leave (ticket : Ticket) (s : Session) : ReadOutcome × Session :=
  (s.idle, { s with readers := s.readers.filter (· ≠ ticket) })

end MeshShell.Session

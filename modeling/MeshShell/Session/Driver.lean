import MeshShell.Session.Basic

/-! # The life of a session

How a session opens its link, shakes hands once the link is up, takes what the
remote sends, and closes. Closing happens once, whatever asks for it first:
the host, the remote, a failure or the clock.
-/
namespace MeshShell.Session

variable {σ : Type} [Transport σ]

/-- Closes the session and tears its link down. Nothing happens if it is closed already. -/
def finish (s : Session) (t : σ) : Session × σ :=
  if s.closed then (s, t)
  else
    ({ s with
        closed := true
        connected := false
        phase := .closed
        output := if s.outputOpen then s.output ++ [.finish] else s.output
        outputOpen := false
        channel := none
        link := none },
      match s.link with
      | some l => Transport.teardown l t
      | none => t)

/-- Says hello and asks for a shell of the present size. -/
def greet (s : Session) (link : LinkId) (t : σ) : Except TransportError Unit × σ :=
  match Transport.send link .hello t with
  | (.error e, t) => (.error e, t)
  | (.ok (), t) => Transport.send link (.loginShell s.settings.term s.geometry) t

/-- Once the link is up: takes its channel, wants its messages, and greets. -/
def handshake (s : Session) (link : LinkId) (t : σ) : Except TransportError Unit × Session × σ :=
  let s := { s with phase := .handshaking }
  match Transport.channel link t with
  | .error e => (.error e, s, t)
  | .ok () =>
    match s.greet link (Transport.setHandler link t) with
    | (.error e, t) => (.error e, s, t)
    | (.ok (), t) =>
      (.ok (), { s with channel := some link, established := true, connected := true, phase := .active }, t)

/-- Takes a message of the remote. After the closing messages are dropped. -/
def dispatch (m : Message) (s : Session) (t : σ) : Session × σ :=
  if s.closed then (s, t)
  else
    match m with
    | .streamData _ data _ _ => (if data.isEmpty then s else s.enqueue data, t)
    | .commandExited _ => s.finish t
    | .error _ true => s.finish t
    | .error _ false => ({ s with suppressedErrors := s.suppressedErrors + 1 }, t)
    | _ => (s, t)

/-- The driver ends, and what is still in the inbox is lost. -/
def endDriver (s : Session) : Session := { s with driver := .ended, inbox := [] }

/-- Takes one event. A link that comes up after the closing is torn down at once. -/
def handle (e : LinkEvent) (s : Session) (t : σ) : Session × σ :=
  match e with
  | .established link =>
    if s.closed then (s, Transport.teardown link t)
    else
      match s.handshake link t with
      | (.ok (), s, t) => (s, t)
      | (.error _, s, t) => s.finish t
  | .message m => s.dispatch m t
  | .closed =>
    let (s, t) := s.finish t
    (s.endDriver, t)
  | .shutdown => (s.endDriver, t)

/-- Takes events in order until the driver ends. -/
def handleAll (s : Session) (t : σ) : List LinkEvent → Session × σ
  | [] => (s, t)
  | e :: rest =>
    if s.driver = .running then
      let (s, t) := s.handle e t
      handleAll s t rest
    else (s, t)

/-- Takes everything out of the inbox. -/
def drive (s : Session) (t : σ) : Session × σ :=
  if s.driver = .running then handleAll { s with inbox := [] } t s.inbox else (s, t)

/-- Opens the link. A session that has no known identity to call, or that was started before,
stays as it is. -/
def start (now : Millis) (rows cols : UInt16) (s : Session) (t : σ) :
    Except SessionError Unit × Session × σ :=
  match Transport.recallIdentity s.destination t with
  | none => (.error (.identityUnresolved s.destination), s, t)
  | some identity =>
    if s.driver ≠ .notStarted then (.error (.alreadyStarted s.id), s, t)
    else
      let s := { s with geometry := ⟨rows, cols⟩, phase := .linking }
      match Transport.openLink now identity shellAspect t with
      | (.error e, t) =>
        let (s, t) := s.finish t
        (.error (.transport e), s.endDriver, t)
      | (.ok link, t) => (.ok (), { s with link := some link, opened := some link, driver := .running }, t)

/-- What the caller that opened the link learns when it looks, if it learns anything. -/
def progress (s : Session) : Option (Except SessionError Unit) :=
  match s.phase with
  | .active => some (.ok ())
  | .closed => some (if s.established then .ok () else .error (.linkClosed s.destination))
  | _ => none

/-- The link was not established in time. -/
def giveUp (s : Session) (t : σ) : Session × σ :=
  let (s, t) := s.finish t
  (s.push .shutdown, t)

/-- The host closes the session. -/
def close (s : Session) (t : σ) : Session × σ :=
  if s.closed then (s, t)
  else
    let (s, t) := s.finish t
    (s.push .shutdown, t)

/-- Sends keyboard input and tells whether the channel took it. -/
def sendInput (data : Bytes) (s : Session) (t : σ) : Bool × σ :=
  match s.channel with
  | some link =>
    if s.closed then (false, t)
    else
      match Transport.send link (.stdin data) t with
      | (.ok (), t) => (true, t)
      | (.error _, t) => (false, t)
  | none => (false, t)

/-- Takes a new terminal size and tells the remote. Only a session with a channel does. -/
def resize (size : Geometry) (s : Session) (t : σ) : Session × σ :=
  match s.channel with
  | some link =>
    if s.closed then (s, t)
    else ({ s with geometry := size }, (Transport.send link (.resized size) t).2)
  | none => (s, t)

end MeshShell.Session

import MeshShell.Switchboard.Registry

/-! # Waiting and the clock

A caller that connects, resolves a path, reads or sleeps gets a ticket, and
under it an answer when it is done. Between two moments of the clock everything
is done that can be done: callbacks reach their sessions, drivers empty their
inboxes, and readers get what there is. That is one order of many in which
callers, drivers and timers can take their turns.
-/
namespace MeshShell.Switchboard

variable {σ : Type} [Transport σ]

def eventOf (l : LinkId) : Callback → LinkEvent
  | .established => .established l
  | .closed => .closed
  | .message m => .message m

/-- A callback goes to the session whose link it is about. -/
def receive (sessions : List Session) : LinkId × Callback → List Session
  | (l, c) => sessions.map fun s => if s.opened = some l then s.push (eventOf l c) else s

def driveAll : List Session → σ → List Session × σ
  | [], t => ([], t)
  | s :: rest, t =>
    let (s, t) := s.drive t
    let (rest, t) := driveAll rest t
    (s :: rest, t)

/-- Callbacks reach their sessions. -/
def collect (w : Switchboard σ) : Switchboard σ :=
  let (callbacks, t) := Transport.deliver w.transport
  { w with sessions := callbacks.foldl receive w.sessions, transport := t }

/-- Callbacks reach their sessions, and the drivers empty their inboxes. -/
def round (w : Switchboard σ) : Switchboard σ :=
  let w := w.collect
  let (sessions, t) := driveAll w.sessions w.transport
  { w with sessions, transport := t }

/-- The first in line of a session sets its timer anew when it gets there. -/
def rearmFirst (w : Switchboard σ) (s : Session) : Switchboard σ :=
  match s.readers.head? with
  | none => w
  | some ticket =>
    match w.waits.find? (·.ticket = ticket) with
    | some p => w.arm p
    | none => w

/-- The readers of a session get what there is. -/
def serve (w : Switchboard σ) (h : Handle) : Switchboard σ :=
  match w.sessions[h]? with
  | none => w
  | some s =>
    match s.serve with
    | ([], _) => w
    | (served, s) =>
      let w := { w with sessions := w.sessions.set h s }
      (served.foldl (fun w (ticket, outcome) => w.reply ticket (.read outcome)) w).rearmFirst s

/-- Does what can be done without time passing. What the drivers do may call back once more, and
nothing follows from that. -/
def settle (w : Switchboard σ) : Switchboard σ :=
  let w := w.round.round
  (List.range w.sessions.length).foldl serve w

/-- The end of a connecting caller. A registered session is in the table before its caller knows. -/
def conclude (w : Switchboard σ) (ticket : Ticket) (h : Handle) (register : Bool)
    (result : Except SessionError Unit) : Switchboard σ :=
  if register then
    match result with
    | .ok () => (w.register h).reply ticket (.created (.ok h))
    | .error e => w.reply ticket (.created (.error e))
  else w.reply ticket (.connected result)

/-- A connecting caller looks at its session. -/
def look (w : Switchboard σ) (ticket : Ticket) (h : Handle) (deadline : Millis) (register : Bool) :
    Switchboard σ :=
  match w.sessions[h]? with
  | none => w
  | some s =>
    match s.progress with
    | some result => w.conclude ticket h register result
    | none =>
      if deadline ≤ w.now then
        (w.updateSession h Session.giveUp).conclude ticket h register
          (.error (.linkTimeout s.destination s.settings.linkTimeout))
      else w.arm ⟨ticket, w.now + s.settings.poll, .connecting h deadline register⟩

/-- The interval in which paths are looked at. -/
def pathPoll (w : Switchboard σ) : Millis := w.settings.poll

def lookForPath (w : Switchboard σ) (ticket : Ticket) (d : Destination) (deadline : Millis) :
    Switchboard σ :=
  if Transport.hasPath d w.transport then w.reply ticket (.resolved true)
  else if w.now < deadline then w.arm ⟨ticket, w.now + w.pathPoll, .resolving d deadline⟩
  else w.reply ticket (.resolved false)

/-- A reading caller leaves the line, and the next one is first. -/
def leave (w : Switchboard σ) (ticket : Ticket) (h : Handle) : Switchboard σ :=
  match w.sessions[h]? with
  | none => w
  | some s =>
    let wasFirst := s.readers.head? = some ticket
    let (outcome, s) := s.leave ticket
    let w := { w with sessions := w.sessions.set h s }.reply ticket (.read outcome)
    if wasFirst then w.rearmFirst s else w

/-- The timer of a caller has run out. -/
def expire (w : Switchboard σ) (p : Pending) : Switchboard σ :=
  match p.wait with
  | .connecting h deadline register => w.look p.ticket h deadline register
  | .resolving d deadline => w.lookForPath p.ticket d deadline
  | .reading h => w.leave p.ticket h
  | .sleeping => w.reply p.ticket .slept

/-- Lets a timer run out unless its caller has been answered meanwhile. -/
def expireIfPending (w : Switchboard σ) (p : Pending) : Switchboard σ :=
  if w.waits.any (·.ticket = p.ticket) then (w.expire p).settle else w

/-- Everything that happens at one moment. -/
def moment (w : Switchboard σ) (time : Millis) : Switchboard σ :=
  let w := { w with now := time, transport := Transport.wake time w.transport }.settle
  (w.waits.filter (·.wake ≤ time)).foldl expireIfPending w

/-- The next moment at which something happens. -/
def next? (w : Switchboard σ) : Option Millis :=
  ((Transport.due? w.transport).toList ++ w.waits.map (·.wake)).min?

/-- Lets time pass until a caller is answered, over at most so many moments. -/
def awaitWithin : Nat → Ticket → Switchboard σ → Switchboard σ
  | 0, _, w => w
  | n + 1, ticket, w =>
    if (w.answer? ticket).isSome then w
    else
      match w.next? with
      | none => w
      | some time => awaitWithin n ticket (w.moment (max w.now time))

/-- Lets time pass until nothing more happens in the transport by itself, over at most so many
moments. -/
def settleTransport (w : Switchboard σ) : Nat → Switchboard σ
  | 0 => w
  | n + 1 =>
    match Transport.due? w.transport with
    | none => w
    | some time => (w.moment (max w.now time)).settleTransport n

/-- The time by which a waiting caller has its answer. -/
def bound (w : Switchboard σ) (p : Pending) : Millis :=
  match p.wait with
  | .connecting h deadline _ =>
    deadline + match w.sessions[h]? with
      | some s => s.settings.poll
      | none => 0
  | .resolving _ deadline => deadline + w.pathPoll
  | .reading _ => p.wake
  | .sleeping => p.wake

/-- Lets time pass until a caller is answered. -/
def await (ticket : Ticket) (w : Switchboard σ) : Option Answered × Switchboard σ :=
  let moments := match w.waits.find? (·.ticket = ticket) with
    | some p => w.bound p - w.now + 2
    | none => 0
  let w := awaitWithin moments ticket w
  (w.answer? ticket, w)

/-- Starts to connect a session, which may be registered in the end. What the transport has to say
at once comes before the first look. -/
def connect (w : Switchboard σ) (h : Handle) (rows cols : UInt16) (register : Bool) :
    Ticket × Switchboard σ :=
  let (ticket, w) := w.draw
  match w.onSession h (Session.start w.now rows cols) with
  | (some (.error e), w) => (ticket, (w.conclude ticket h register (.error e)).settle)
  | (some (.ok ()), w) =>
    let limit := ((w.sessions[h]?).map (·.settings.linkTimeout)).getD 0
    (ticket, (w.collect.look ticket h (w.now + limit) register).settle)
  | (none, w) => (ticket, w)

/-- Starts to make a registered session. -/
def create (w : Switchboard σ) (id : String) (d : Destination) (rows cols : UInt16) :
    Ticket × Switchboard σ :=
  let (h, w) := w.makeSession id d w.settings
  w.connect h rows cols true

/-- Asks for a path, unless one is known. Tells whether it is known now. -/
def requestPath (w : Switchboard σ) (d : Destination) : Bool × Switchboard σ :=
  if Transport.hasPath d w.transport then (true, w)
  else (false, { w with transport := Transport.requestPath w.now d w.transport }.settle)

/-- Starts to wait for a path, for at most the given span. -/
def resolve (w : Switchboard σ) (d : Destination) (span : Millis) : Ticket × Switchboard σ :=
  let (ticket, w) := w.draw
  if Transport.hasPath d w.transport then (ticket, w.reply ticket (.resolved true))
  else
    let w := { w with transport := Transport.requestPath w.now d w.transport }
    let deadline := w.now + span
    if w.now < deadline then
      (ticket, (w.arm ⟨ticket, w.now + w.pathPoll, .resolving d deadline⟩).settle)
    else (ticket, (w.reply ticket (.resolved false)).settle)

/-- Starts to read, for at most the given span. -/
def read (w : Switchboard σ) (h : Handle) (span : Millis) : Ticket × Switchboard σ :=
  let (ticket, w) := w.draw
  match w.sessions[h]? with
  | none => (ticket, w.reply ticket (.read .disconnected))
  | some s =>
    match s.join ticket (0 < span) with
    | (some outcome, s) =>
      (ticket, { w with sessions := w.sessions.set h s }.reply ticket (.read outcome))
    | (none, s) =>
      (ticket, { w with sessions := w.sessions.set h s }.arm ⟨ticket, w.now + span, .reading h⟩)

/-- Starts to sleep. -/
def sleep (w : Switchboard σ) (span : Millis) : Ticket × Switchboard σ :=
  let (ticket, w) := w.draw
  if span = 0 then (ticket, w.reply ticket .slept)
  else (ticket, w.arm ⟨ticket, w.now + span, .sleeping⟩)

def sendInput (w : Switchboard σ) (h : Handle) (data : Bytes) : Bool × Switchboard σ :=
  let (sent, w) := w.onSession h fun s t =>
    let (sent, t) := s.sendInput data t
    (sent, s, t)
  (sent.getD false, w.settle)

def resize (w : Switchboard σ) (h : Handle) (size : Geometry) : Switchboard σ :=
  (w.updateSession h (Session.resize size)).settle

def close (w : Switchboard σ) (h : Handle) : Switchboard σ := (w.closeSession h).settle

/-- Something changes in the transport from outside. -/
def disturb (w : Switchboard σ) (f : σ → σ) : Switchboard σ :=
  { w with transport := f w.transport }.settle

end MeshShell.Switchboard

import MeshShell.Proofs.Session.Asking
import MeshShell.Proofs.Switchboard.Calls

/-! # What a switchboard asks of the transport

Sessions ask for their links, and callers for paths that are not known. Nothing
else that happens on a switchboard asks for anything, and everything happens in
the same way whether requests are noted or not.
-/
namespace MeshShell.Switchboard

variable {σ : Type}

/-- A switchboard with notes on its transport. -/
def withAsks (asks : List Ask) (w : Switchboard σ) : Switchboard (Asked σ) where
  now := w.now
  transport := ⟨w.transport, asks⟩
  settings := w.settings
  sessions := w.sessions
  table := w.table
  waits := w.waits
  answers := w.answers
  nextTicket := w.nextTicket

def Call.asked : Call σ → Call (Asked σ)
  | .make id d settings => .make id d settings
  | .connect h rows cols registers => .connect h rows cols registers
  | .create id d rows cols => .create id d rows cols
  | .read h span => .read h span
  | .sendInput h data => .sendInput h data
  | .resize h size => .resize h size
  | .close h => .close h
  | .register h => .register h
  | .remove id => .remove id
  | .closeId id => .closeId id
  | .closeAll => .closeAll
  | .requestPath d => .requestPath d
  | .resolve d span => .resolve d span
  | .sleep span => .sleep span
  | .disturb f => .disturb fun r => ⟨f r.inner, r.asks⟩
  | .alter f => .alter fun r => ⟨f r.inner, r.asks⟩
  | .advance time => .advance time
  | .expire p => .expire p

variable (asks : List Ask) (w : Switchboard σ)

@[simp] theorem now_asked : (withAsks asks w).now = w.now := rfl

@[simp] theorem sessions_asked : (withAsks asks w).sessions = w.sessions := rfl

@[simp] theorem waits_asked : (withAsks asks w).waits = w.waits := rfl

@[simp] theorem transport_asked : (withAsks asks w).transport = ⟨w.transport, asks⟩ := rfl

@[simp] theorem nextTicket_asked : (withAsks asks w).nextTicket = w.nextTicket := rfl

@[simp] theorem pathPoll_asked : (withAsks asks w).pathPoll = w.pathPoll := rfl

@[simp] theorem draw_asked :
    (withAsks asks w).draw = (w.draw.1, withAsks asks w.draw.2) := rfl

@[simp] theorem arm_asked (p : Pending) : (withAsks asks w).arm p = withAsks asks (w.arm p) := rfl

@[simp] theorem reply_asked (ticket : Ticket) (answer : Answer) :
    (withAsks asks w).reply ticket answer = withAsks asks (w.reply ticket answer) := rfl

theorem updateSession_asked (h : Handle) {f : Session → σ → Session × σ}
    {g : Session → Asked σ → Session × Asked σ}
    (hf : ∀ s t, g s ⟨t, asks⟩ = Session.withAsks asks (f s t)) :
    (withAsks asks w).updateSession h g = withAsks asks (w.updateSession h f) := by
  unfold updateSession onSession
  rw [sessions_asked, transport_asked]
  cases w.sessions[h]? with
  | none => rfl
  | some s =>
    dsimp only
    rw [hf s w.transport]
    rfl

theorem rearmFirst_asked (s : Session) :
    (withAsks asks w).rearmFirst s = withAsks asks (w.rearmFirst s) := by
  unfold rearmFirst
  rw [waits_asked]
  cases s.readers.head? with
  | none => rfl
  | some ticket =>
    dsimp only
    cases w.waits.find? (·.ticket = ticket) <;> rfl

theorem replyAll_asked (served : List (Ticket × ReadOutcome)) :
    replyAll served (withAsks asks w) = withAsks asks (replyAll served w) := by
  induction served generalizing w with
  | nil => rfl
  | cons first rest ih => exact ih (w.reply first.1 (.read first.2))

theorem serve_asked (h : Handle) : (withAsks asks w).serve h = withAsks asks (w.serve h) := by
  unfold serve
  rw [sessions_asked]
  cases w.sessions[h]? with
  | none => rfl
  | some s =>
    dsimp only
    rcases s.serve with ⟨_ | ⟨first, rest⟩, s'⟩
    · rfl
    · have hall := replyAll_asked asks { w with sessions := w.sessions.set h s' } (first :: rest)
      have hboth := congrArg (rearmFirst · s') hall
      exact hboth.trans (rearmFirst_asked asks _ s')

theorem leave_asked (ticket : Ticket) (h : Handle) :
    (withAsks asks w).leave ticket h = withAsks asks (w.leave ticket h) := by
  unfold leave
  rw [sessions_asked]
  cases w.sessions[h]? with
  | none => rfl
  | some s =>
    dsimp only
    have htold := rearmFirst_asked asks
      ({ w with sessions := w.sessions.set h (s.leave ticket).2 }.reply ticket
        (.read (s.leave ticket).1)) (s.leave ticket).2
    split
    · exact htold
    · rfl

theorem read_asked (h : Handle) (span : Millis) : (withAsks asks w).read h span =
    ((w.read h span).1, withAsks asks (w.read h span).2) := by
  unfold read
  rw [draw_asked]
  dsimp only
  rw [sessions_asked]
  cases w.draw.2.sessions[h]? with
  | none => rfl
  | some s =>
    dsimp only
    rcases s.join w.draw.1 (0 < span) with ⟨_ | outcome, s'⟩ <;> rfl

variable [Transport σ]

theorem driveAll_asked (sessions : List Session) (t : σ) :
    driveAll sessions (⟨t, asks⟩ : Asked σ) =
      ((driveAll sessions t).1, ⟨(driveAll sessions t).2, asks⟩) := by
  induction sessions generalizing t with
  | nil => rfl
  | cons s rest ih =>
    unfold driveAll
    rw [Session.drive_asked]
    have hrest := ih (s.drive t).2
    dsimp only [Session.withAsks]
    rw [hrest]

theorem round_asked : (withAsks asks w).round = withAsks asks w.round := by
  have hall := driveAll_asked asks w.collect.sessions w.collect.transport
  have hcollect : (withAsks asks w).collect = withAsks asks w.collect := rfl
  unfold round
  rw [hcollect]
  exact congrArg (fun p => { withAsks asks w.collect with sessions := p.1, transport := p.2 }) hall

theorem settle_asked : (withAsks asks w).settle = withAsks asks w.settle := by
  have hserve : ∀ (handles : List Handle) (w : Switchboard σ),
      handles.foldl serve (withAsks asks w) = withAsks asks (handles.foldl serve w) := by
    intro handles
    induction handles with
    | nil => exact fun _ => rfl
    | cons h rest ih =>
      intro w
      rw [List.foldl_cons, List.foldl_cons, serve_asked]
      exact ih (w.serve h)
  unfold settle
  rw [round_asked, round_asked]
  exact hserve (List.range w.round.round.sessions.length) w.round.round

theorem sendInput_asked (h : Handle) (data : Bytes) :
    ((withAsks asks w).sendInput h data).2 = withAsks asks (w.sendInput h data).2 := by
  unfold sendInput onSession
  rw [sessions_asked, transport_asked]
  cases w.sessions[h]? with
  | none => exact settle_asked asks w
  | some s =>
    dsimp only
    rw [Session.sendInput_asked]
    exact settle_asked asks { w with
      sessions := w.sessions.set h s
      transport := (s.sendInput data w.transport).2 }

theorem closeSession_asked (h : Handle) :
    (withAsks asks w).closeSession h = withAsks asks (w.closeSession h) :=
  updateSession_asked asks w h fun s t => Session.close_asked s t asks

theorem register_asked (h : Handle) :
    (withAsks asks w).register h = withAsks asks (w.register h) := by
  unfold register
  rw [sessions_asked]
  cases w.sessions[h]? with
  | none => rfl
  | some s =>
    have hprevious : (withAsks asks w).registered? s.id = w.registered? s.id := rfl
    dsimp only
    rw [hprevious]
    cases w.registered? s.id with
    | none => rfl
    | some p => exact closeSession_asked asks { w with table := bind s.id h w.table } p

theorem closeId_asked (id : String) :
    ((withAsks asks w).closeId id).2 = withAsks asks (w.closeId id).2 := by
  have hremove : (withAsks asks w).remove id = ((w.remove id).1, withAsks asks (w.remove id).2) := rfl
  unfold closeId
  rw [hremove]
  rcases w.remove id with ⟨_ | h, w'⟩
  · rfl
  · exact closeSession_asked asks w' h

theorem closeAll_asked : (withAsks asks w).closeAll.2 = withAsks asks w.closeAll.2 := by
  suffices hall : ∀ (handles : List Handle) (w : Switchboard σ),
      handles.foldl closeSession (withAsks asks w) = withAsks asks (handles.foldl closeSession w) from
    hall (w.table.map Prod.snd) { w with table := [] }
  intro handles
  induction handles with
  | nil => exact fun _ => rfl
  | cons h rest ih =>
    intro w
    rw [List.foldl_cons, List.foldl_cons, closeSession_asked]
    exact ih (w.closeSession h)

theorem conclude_asked (ticket : Ticket) (h : Handle) (register : Bool)
    (result : Except SessionError Unit) :
    (withAsks asks w).conclude ticket h register result =
      withAsks asks (w.conclude ticket h register result) := by
  unfold conclude
  cases register with
  | false => rfl
  | true =>
    cases result with
    | error e => rfl
    | ok => exact congrArg (·.reply ticket (.created (.ok h))) (register_asked asks w h)

theorem look_asked (ticket : Ticket) (h : Handle) (deadline : Millis) (register : Bool) :
    (withAsks asks w).look ticket h deadline register =
      withAsks asks (w.look ticket h deadline register) := by
  unfold look
  rw [sessions_asked]
  cases w.sessions[h]? with
  | none => rfl
  | some s =>
    dsimp only
    cases s.progress with
    | some result => exact conclude_asked asks w ticket h register result
    | none =>
      have hgive := updateSession_asked asks w h fun s t => Session.giveUp_asked s t asks
      dsimp only
      rw [now_asked, hgive]
      split
      · exact conclude_asked asks _ ticket h register _
      · rfl

theorem lookForPath_asked (ticket : Ticket) (d : Destination) (deadline : Millis) :
    (withAsks asks w).lookForPath ticket d deadline =
      withAsks asks (w.lookForPath ticket d deadline) := by
  unfold lookForPath
  rw [transport_asked, Asked.hasPath_mk, now_asked]
  split
  · rfl
  · split <;> rfl

theorem expire_asked (p : Pending) : (withAsks asks w).expire p = withAsks asks (w.expire p) := by
  unfold expire
  cases p.wait with
  | connecting h deadline register => exact look_asked asks w p.ticket h deadline register
  | resolving d deadline => exact lookForPath_asked asks w p.ticket d deadline
  | reading h => exact leave_asked asks w p.ticket h
  | sleeping => rfl

/-- What the session asks for that is told to connect. -/
def seeks (h : Handle) : List Ask :=
  match w.sessions[h]? with
  | none => []
  | some s => s.seeks w.transport

theorem connect_asked (h : Handle) (rows cols : UInt16) (register : Bool) :
    ((withAsks asks w).connect h rows cols register).2 =
      withAsks (asks ++ w.seeks h) (w.connect h rows cols register).2 := by
  unfold connect seeks onSession
  have hsame : (withAsks asks w).draw.2.sessions = w.sessions := rfl
  have hsame' : w.draw.2.sessions = w.sessions := rfl
  dsimp only
  rw [hsame, hsame']
  cases w.sessions[h]? with
  | none => exact congrArg (withAsks · w.draw.2) (List.append_nil asks).symm
  | some s =>
    have hstart : s.start (withAsks asks w).draw.2.now rows cols (withAsks asks w).draw.2.transport =
        _ := Session.start_asked s w.transport asks w.now rows cols
    have hnow : w.draw.2.now = w.now := rfl
    have ht : w.draw.2.transport = w.transport := rfl
    dsimp only
    rw [hstart, hnow, ht]
    -- The session is put back with what it asked for, and the rest asks for nothing.
    rcases s.start w.now rows cols w.transport with ⟨e | _, p⟩
    · have hend := conclude_asked (asks ++ s.seeks w.transport) (w.draw.2.put h p) w.draw.1 h register
        (.error e)
      exact (congrArg settle hend).trans (settle_asked _ _)
    · have hlook := look_asked (asks ++ s.seeks w.transport) (w.draw.2.put h p).collect w.draw.1 h
        (w.now + (((w.sessions.set h p.1)[h]?).map (·.settings.linkTimeout)).getD 0) register
      exact (congrArg settle hlook).trans (settle_asked _ _)

theorem create_asked (id : String) (d : Destination) (rows cols : UInt16) :
    ((withAsks asks w).create id d rows cols).2 =
      withAsks (asks ++ (w.makeSession id d w.settings).2.seeks w.sessions.length)
        (w.create id d rows cols).2 :=
  connect_asked asks (w.makeSession id d w.settings).2 w.sessions.length rows cols true

/-- What is asked for when a path is needed. -/
def wants (d : Destination) : List Ask := if Transport.hasPath d w.transport then [] else [.path d]

/-- The transport is asked for a path. -/
def inquire (w : Switchboard σ) (d : Destination) : Switchboard σ :=
  { w with transport := Transport.requestPath w.now d w.transport }

theorem inquire_asked (d : Destination) :
    (withAsks asks w).inquire d = withAsks (asks ++ [.path d]) (w.inquire d) := rfl

theorem requestPath_asked (d : Destination) : ((withAsks asks w).requestPath d).2 =
    withAsks (asks ++ w.wants d) (w.requestPath d).2 := by
  unfold requestPath wants
  rw [transport_asked, Asked.hasPath_mk]
  split
  · exact congrArg (withAsks · w) (List.append_nil asks).symm
  · show ((withAsks asks w).inquire d).settle = withAsks _ (w.inquire d).settle
    rw [inquire_asked, settle_asked]

theorem resolve_eq (w : Switchboard σ) (d : Destination) (span : Millis) : (w.resolve d span).2 =
    if Transport.hasPath d w.transport then w.draw.2.reply w.nextTicket (.resolved true)
    else if 0 < span then
      ((w.draw.2.inquire d).arm
        ⟨w.nextTicket, w.now + w.pathPoll, .resolving d (w.now + span)⟩).settle
    else ((w.draw.2.inquire d).reply w.nextTicket (.resolved false)).settle := by
  have hdue : w.now < w.now + span ↔ 0 < span := Nat.lt_add_right_iff_pos
  unfold resolve
  by_cases hpath : Transport.hasPath d w.transport = true
  · have hdrawn : Transport.hasPath d w.draw.2.transport = true := hpath
    simp only [if_pos hpath, if_pos hdrawn]
    rfl
  · have hdrawn : ¬ Transport.hasPath d w.draw.2.transport = true := hpath
    have hdue' : w.draw.2.now < w.draw.2.now + span ↔ 0 < span := hdue
    simp only [if_neg hpath, if_neg hdrawn, hdue']
    split <;> rfl

theorem resolve_asked (d : Destination) (span : Millis) : ((withAsks asks w).resolve d span).2 =
    withAsks (asks ++ w.wants d) (w.resolve d span).2 := by
  rw [resolve_eq, resolve_eq, transport_asked, Asked.hasPath_mk, draw_asked, inquire_asked, wants,
    nextTicket_asked, now_asked, pathPoll_asked]
  split
  · rw [List.append_nil, reply_asked]
  · rw [arm_asked, reply_asked, settle_asked, settle_asked]
    split <;> rfl

/-- What is asked for with a call. -/
def Call.wants (w : Switchboard σ) : Call σ → List Ask
  | .connect h _ _ _ => w.seeks h
  | .create id d _ _ => (w.makeSession id d w.settings).2.seeks w.sessions.length
  | .requestPath d => w.wants d
  | .resolve d _ => w.wants d
  | _ => []

theorem take_asked (c : Call σ) :
    take c.asked (withAsks asks w) = withAsks (asks ++ c.wants w) (take c w) := by
  cases c
  case connect h rows cols register => exact connect_asked asks w h rows cols register
  case create id d rows cols => exact create_asked asks w id d rows cols
  case requestPath d => exact requestPath_asked asks w d
  case resolve d span => exact resolve_asked asks w d span
  all_goals simp only [Call.wants, List.append_nil]
  case read h span => exact congrArg Prod.snd (read_asked asks w h span)
  case sendInput h data => exact sendInput_asked asks w h data
  case resize h size =>
    have hresize := updateSession_asked asks w h fun s t => Session.resize_asked s t asks size
    exact (congrArg settle hresize).trans (settle_asked asks _)
  case close h => exact (congrArg settle (closeSession_asked asks w h)).trans (settle_asked asks _)
  case register h => exact (congrArg settle (register_asked asks w h)).trans (settle_asked asks _)
  case closeId id => exact (congrArg settle (closeId_asked asks w id)).trans (settle_asked asks _)
  case closeAll => exact (congrArg settle (closeAll_asked asks w)).trans (settle_asked asks _)
  case sleep span =>
    dsimp only [Call.asked, take, sleep]
    split <;> rfl
  case disturb f => exact settle_asked asks { w with transport := f w.transport }
  case advance time =>
    exact settle_asked asks { w with
      now := max w.now time
      transport := Transport.wake (max w.now time) w.transport }
  case expire p =>
    dsimp only [Call.asked, take]
    rw [waits_asked, now_asked, expire_asked, settle_asked]
    split <;> rfl
  all_goals rfl

/-- Everything that was asked for. -/
def everWanted (hist : List (Switchboard σ × Call σ)) : List Ask := hist.flatMap fun (w, c) => c.wants w

theorem reach_asked (calls : List (Call σ)) :
    reach take (withAsks asks w) (calls.map Call.asked) =
      withAsks (asks ++ everWanted (trail take w calls)) (reach take w calls) := by
  induction calls generalizing w asks with
  | nil => exact congrArg (withAsks · w) (List.append_nil asks).symm
  | cons c calls ih =>
    show reach take (take c.asked (withAsks asks w)) (calls.map Call.asked) = _
    rw [take_asked, ih, List.append_assoc]
    rfl

end MeshShell.Switchboard

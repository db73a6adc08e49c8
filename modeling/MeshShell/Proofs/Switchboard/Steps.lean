import MeshShell.Proofs.Session.Driving
import Mathlib.Data.List.Nodup
import Mathlib.Logic.Relation

/-! # What the operations of a switchboard are made of

Every operation is a sequence of small steps: a session acts, a callback
arrives, a reader is served or leaves, a timer is set, a caller is answered.
What the small steps keep is kept by all operations.
-/
namespace MeshShell

/-- Nobody in line waits for something that is there. -/
def Session.Quiet (s : Session) : Prop := s.readers ≠ [] → s.output = [] ∧ s.closed = false

namespace Switchboard

variable {σ : Type} [Transport σ]

/-- A session and the transport take on new states. -/
def put (w : Switchboard σ) (h : Handle) (p : Session × σ) : Switchboard σ :=
  { w with sessions := w.sessions.set h p.1, transport := p.2 }

/-- A session takes on a new state, and a reader gets its answer. -/
def tell (w : Switchboard σ) (h : Handle) (s : Session) (ticket : Ticket) (outcome : ReadOutcome) :
    Switchboard σ :=
  { w with sessions := w.sessions.set h s }.reply ticket (.read outcome)

/-- No reader waits under a ticket, which has been drawn. -/
def Idle (w : Switchboard σ) (ticket : Ticket) : Prop :=
  ticket < w.nextTicket ∧ ∀ p ∈ w.waits, p.ticket = ticket → ∀ h, p.wait ≠ .reading h

/-- All sessions are quiet. -/
def Settled (w : Switchboard σ) : Prop := ∀ s ∈ w.sessions, s.Quiet

inductive Step (w : Switchboard σ) : Switchboard σ → Prop
  | act {h : Handle} {s : Session} {p : Session × σ} : w.sessions[h]? = some s →
      Session.Acts (s, w.transport) p → Step w (w.put h p)
  | callback (c : LinkId × Callback) : Step w { w with sessions := receive w.sessions c }
  | transport (t : σ) : Step w { w with transport := t }
  | made (id : String) (d : Destination) (settings : SessionSettings) :
      Step w { w with sessions := w.sessions ++ [.new id d settings] }
  | table (rows : List (String × Handle)) : Step w { w with table := rows }
  | draw : Step w { w with nextTicket := w.nextTicket + 1 }
  | arm {p : Pending} : w.Idle p.ticket → (∀ h, p.wait ≠ .reading h) → Step w (w.arm p)
  | rearm {p : Pending} : p ∈ w.waits → Step w (w.arm p)
  | reply {ticket : Ticket} {answer : Answer} : w.Idle ticket → (∀ o, answer ≠ .read o) →
      Step w (w.reply ticket answer)
  /-- The first in line takes what there is. -/
  | served {h : Handle} {s s' : Session} {r : Ticket} {rest : List Ticket} {outcome : ReadOutcome} :
      w.sessions[h]? = some s → s.readers = r :: rest → s.take = (some outcome, s') →
      Step w (w.tell h { s' with readers := rest } r outcome)
  /-- The time of a reader is up, and there is nothing for it. -/
  | left {h : Handle} {s : Session} {p : Pending} : p ∈ w.waits → p.wait = .reading h →
      p.wake ≤ w.now → w.sessions[h]? = some s → s.Quiet →
      Step w (w.tell h (s.leave p.ticket).2 p.ticket (s.leave p.ticket).1)

/-- Any number of small steps. -/
abbrev Steps (w w' : Switchboard σ) : Prop := Relation.ReflTransGen Step w w'

variable {w : Switchboard σ}

omit [Transport σ] in
@[simp] theorem sessions_reply (ticket : Ticket) (answer : Answer) :
    (w.reply ticket answer).sessions = w.sessions := rfl

omit [Transport σ] in
@[simp] theorem sessions_arm (p : Pending) : (w.arm p).sessions = w.sessions := rfl

omit [Transport σ] in
theorem updateSession_eq {h : Handle} {s : Session} (hs : w.sessions[h]? = some s)
    (f : Session → σ → Session × σ) : w.updateSession h f = w.put h (f s w.transport) := by
  simp [updateSession, onSession, hs, put]

omit [Transport σ] in
theorem updateSession_none {h : Handle} (hs : w.sessions[h]? = none)
    (f : Session → σ → Session × σ) : w.updateSession h f = w := by
  simp [updateSession, onSession, hs]

theorem steps_updateSession (w : Switchboard σ) (h : Handle) {f : Session → σ → Session × σ}
    (hf : ∀ s t, Session.Acts (s, t) (f s t)) : Steps w (w.updateSession h f) := by
  cases hs : w.sessions[h]? with
  | none =>
    rw [updateSession_none hs]
  | some s =>
    rw [updateSession_eq hs]
    exact .single (.act hs (hf s w.transport))

theorem steps_closeSession (w : Switchboard σ) (h : Handle) : Steps w (w.closeSession h) :=
  steps_updateSession w h fun s t => Session.Acts.single (a := .close) (s, t) trivial

theorem steps_register (w : Switchboard σ) (h : Handle) : Steps w (w.register h) := by
  unfold register
  cases w.sessions[h]? with
  | none => exact .refl
  | some s =>
    dsimp only
    have htable : Steps w { w with table := bind s.id h w.table } := .single (.table _)
    cases w.registered? s.id with
    | none => exact htable
    | some p => exact htable.trans (steps_closeSession _ p)

theorem steps_remove (w : Switchboard σ) (id : String) : Steps w (w.remove id).2 :=
  .single (.table _)

theorem steps_closeId (w : Switchboard σ) (id : String) : Steps w (w.closeId id).2 := by
  have htable := steps_remove w id
  unfold closeId
  cases hr : w.remove id with
  | mk found w' =>
    rw [hr] at htable
    cases found with
    | none => exact htable
    | some h => exact htable.trans (steps_closeSession w' h)

theorem steps_foldl {α : Type} {f : Switchboard σ → α → Switchboard σ}
    (hf : ∀ w a, Steps w (f w a)) (w : Switchboard σ) (as : List α) : Steps w (as.foldl f w) := by
  induction as generalizing w with
  | nil => exact .refl
  | cons a as ih => exact (hf w a).trans (ih (f w a))

theorem steps_closeAll (w : Switchboard σ) : Steps w w.closeAll.2 :=
  .head (.table []) (steps_foldl steps_closeSession _ _)

theorem steps_callbacks (w : Switchboard σ) (callbacks : List (LinkId × Callback)) :
    Steps w { w with sessions := callbacks.foldl receive w.sessions } := by
  induction callbacks generalizing w with
  | nil => exact .refl
  | cons c rest ih =>
    exact .head (.callback c) (ih { w with sessions := receive w.sessions c })

theorem steps_collect (w : Switchboard σ) : Steps w w.collect := by
  unfold collect
  cases Transport.deliver w.transport with
  | mk callbacks t => exact .head (.transport t) (steps_callbacks { w with transport := t } callbacks)

/-- The drivers empty their inboxes one after the other. -/
theorem steps_driveAll (done rest : List Session) (w : Switchboard σ)
    (hw : w.sessions = done ++ rest) :
    Steps w { w with
      sessions := done ++ (driveAll rest w.transport).1
      transport := (driveAll rest w.transport).2 } := by
  induction rest generalizing done w with
  | nil =>
    have hsame : { w with sessions := done ++ [], transport := w.transport } = w := by rw [← hw]
    exact hsame ▸ .refl
  | cons s rest ih =>
    have hs : w.sessions[done.length]? = some s := by simp [hw]
    have hfirst : Step w (w.put done.length (s.drive w.transport)) :=
      .act hs (Session.acts_drive s w.transport)
    have hput : (w.put done.length (s.drive w.transport)).sessions =
        (done ++ [(s.drive w.transport).1]) ++ rest := by
      simp [put, hw]
    have hrest := ih (done ++ [(s.drive w.transport).1]) _ hput
    refine .head hfirst ?_
    simpa [driveAll, put] using hrest

theorem steps_round (w : Switchboard σ) : Steps w w.round :=
  (steps_collect w).trans (steps_driveAll [] w.collect.sessions w.collect rfl)

theorem take_readers (s : Session) (l : List Ticket) :
    Session.take { s with readers := l } = (s.take.1, { s.take.2 with readers := l }) := by
  rcases s.take_cases with ⟨data, rest, ho, ht⟩ | ⟨rest, ho, ht⟩ | ⟨ho, hc, ht⟩ | ⟨ho, h1, h2, ht⟩
  all_goals rw [ht]
  · simp [Session.take, ho]
  · simp [Session.take, ho]
  · rcases hc with hc | hc <;> simp [Session.take, ho, hc]
  · simp [Session.take, ho, h1, h2]

theorem serveLine_readers (line l : List Ticket) (s : Session) :
    Session.serveLine { s with readers := l } line = s.serveLine line := by
  induction line generalizing s with
  | nil => rfl
  | cons r rest ih =>
    rcases s.take_some_or_none with ⟨outcome, s', ht⟩ | ht
    · simp [Session.serveLine, take_readers, ht, ih]
    · simp [Session.serveLine, take_readers, ht]

/-- The answers to readers that were served. -/
def replyAll (served : List (Ticket × ReadOutcome)) (w : Switchboard σ) : Switchboard σ :=
  served.foldl (fun w (ticket, outcome) => w.reply ticket (.read outcome)) w

omit [Transport σ] in
theorem set_same {h : Handle} {s : Session} (hs : w.sessions[h]? = some s) :
    { w with sessions := w.sessions.set h s } = w := by
  obtain ⟨hlt, hget⟩ := List.getElem?_eq_some_iff.mp hs
  rw [← hget, List.set_getElem_self]

/-- Serving a line is serving the first in line again and again. -/
theorem steps_serveLine {h : Handle} (line : List Ticket) (s : Session) (w : Switchboard σ)
    (hs : w.sessions[h]? = some s) (hl : s.readers = line) :
    Steps w (replyAll (s.serveLine line).1
      { w with sessions := w.sessions.set h (s.serveLine line).2 }) := by
  induction line generalizing s w with
  | nil =>
    have hsame : { s with readers := [] } = s := by rw [← hl]
    simp only [Session.serveLine, replyAll, List.foldl_nil, hsame, set_same hs]
    exact .refl
  | cons r rest ih =>
    rcases s.take_some_or_none with ⟨outcome, s', ht⟩ | ht
    · have hfirst := Step.served hs hl ht
      have hlt : h < w.sessions.length := (List.getElem?_eq_some_iff.mp hs).1
      have hs' : (w.tell h { s' with readers := rest } r outcome).sessions[h]? =
          some { s' with readers := rest } := by
        simp [tell, hlt]
      have hnext := ih { s' with readers := rest } _ hs' rfl
      refine .head hfirst ?_
      rw [serveLine_readers] at hnext
      simpa [Session.serveLine, ht, replyAll, tell, reply] using hnext
    · have hsame : { s with readers := r :: rest } = s := by rw [← hl]
      simp only [Session.serveLine, ht, replyAll, List.foldl_nil, hsame, set_same hs]
      exact .refl

theorem steps_rearmFirst (w : Switchboard σ) (s : Session) : Steps w (w.rearmFirst s) := by
  unfold rearmFirst
  cases s.readers.head? with
  | none => exact .refl
  | some ticket =>
    dsimp only
    cases hp : w.waits.find? (·.ticket = ticket) with
    | none => exact .refl
    | some p => exact .single (.rearm (List.mem_of_find?_eq_some hp))

theorem steps_serve (w : Switchboard σ) (h : Handle) : Steps w (w.serve h) := by
  unfold serve
  cases hs : w.sessions[h]? with
  | none => exact .refl
  | some s =>
    have hline := steps_serveLine s.readers s w hs rfl
    dsimp only
    unfold Session.serve
    cases hserved : s.serveLine s.readers with
    | mk served s' =>
      rw [hserved] at hline
      cases served with
      | nil => exact .refl
      | cons first others => exact hline.trans (steps_rearmFirst _ s')

theorem steps_settle (w : Switchboard σ) : Steps w w.settle :=
  ((steps_round w).trans (steps_round w.round)).trans (steps_foldl steps_serve _ _)

/-- No two callers wait under one ticket, and every caller has drawn its ticket. -/
def Booked (w : Switchboard σ) : Prop :=
  (w.waits.map (·.ticket)).Nodup ∧ ∀ p ∈ w.waits, p.ticket < w.nextTicket

omit [Transport σ] in
theorem Booked.idle {p : Pending} (hw : w.Booked) (hp : p ∈ w.waits)
    (hwait : ∀ h, p.wait ≠ .reading h) : w.Idle p.ticket := by
  refine ⟨hw.2 p hp, ?_⟩
  intro q hq ht
  rw [List.inj_on_of_nodup_map hw.1 hq hp ht]
  exact hwait

omit [Transport σ] in
theorem Booked.idle_draw (hw : w.Booked) : w.draw.2.Idle w.draw.1 := by
  refine ⟨Nat.lt_succ_self _, ?_⟩
  intro p hp ht
  have hlt : p.ticket < w.nextTicket := hw.2 p hp
  exact absurd ht (Nat.ne_of_lt hlt)

omit [Transport σ] in
theorem Idle.of_same {w' : Switchboard σ} {ticket : Ticket} (h : w.Idle ticket)
    (hw : w'.waits = w.waits) (hn : w'.nextTicket = w.nextTicket) : w'.Idle ticket := by
  unfold Idle
  rwa [hw, hn]

omit [Transport σ] in
theorem updateSession_frame (w : Switchboard σ) (h : Handle) (f : Session → σ → Session × σ) :
    ∃ sessions t, w.updateSession h f = { w with sessions, transport := t } := by
  cases hs : w.sessions[h]? with
  | none => exact ⟨w.sessions, w.transport, updateSession_none hs f⟩
  | some s => exact ⟨_, _, updateSession_eq hs f⟩

theorem register_frame (w : Switchboard σ) (h : Handle) :
    ∃ sessions t rows, w.register h = { w with sessions, transport := t, table := rows } := by
  unfold register
  cases w.sessions[h]? with
  | none => exact ⟨w.sessions, w.transport, w.table, rfl⟩
  | some s =>
    dsimp only
    cases w.registered? s.id with
    | none => exact ⟨_, _, _, rfl⟩
    | some p =>
      obtain ⟨sessions, t, hf⟩ :=
        updateSession_frame { w with table := bind s.id h w.table } p Session.close
      exact ⟨sessions, t, _, hf⟩

theorem steps_conclude {ticket : Ticket} (hi : w.Idle ticket) (h : Handle) (register : Bool)
    (result : Except SessionError Unit) : Steps w (w.conclude ticket h register result) := by
  unfold conclude
  cases register with
  | false => exact .single (.reply hi (by simp))
  | true =>
    cases result with
    | error e => exact .single (.reply hi (by simp))
    | ok =>
      obtain ⟨sessions, t, rows, hf⟩ := register_frame w h
      have hi' : (w.register h).Idle ticket := hi.of_same (by rw [hf]) (by rw [hf])
      exact (steps_register w h).tail (.reply hi' (by simp))

theorem steps_look {ticket : Ticket} (hi : w.Idle ticket) (h : Handle) (deadline : Millis)
    (register : Bool) : Steps w (w.look ticket h deadline register) := by
  unfold look
  cases hs : w.sessions[h]? with
  | none => exact .refl
  | some s =>
    dsimp only
    cases hp : s.progress with
    | some result => exact steps_conclude hi h register result
    | none =>
      dsimp only
      split
      · have hgive : Session.next (.giveUp : Session.Action σ) (s, w.transport) = s.giveUp w.transport := by
          simp [Session.next, Session.timeOut, hp]
        have hact : Session.Acts (s, w.transport) (s.giveUp w.transport) :=
          hgive ▸ Session.Acts.single (a := .giveUp) (s, w.transport) trivial
        have hi' : (w.put h (s.giveUp w.transport)).Idle ticket := hi.of_same rfl rfl
        rw [updateSession_eq hs]
        exact .head (.act hs hact) (steps_conclude hi' h register _)
      · exact .single (.arm hi (by simp))

theorem steps_lookForPath {ticket : Ticket} (hi : w.Idle ticket) (d : Destination)
    (deadline : Millis) : Steps w (w.lookForPath ticket d deadline) := by
  unfold lookForPath
  split
  · exact .single (.reply hi (by simp))
  · split
    · exact .single (.arm hi (by simp))
    · exact .single (.reply hi (by simp))

theorem steps_leave {p : Pending} {h : Handle} (hp : p ∈ w.waits) (hwait : p.wait = .reading h)
    (hwake : p.wake ≤ w.now) (hset : w.Settled) : Steps w (w.leave p.ticket h) := by
  unfold leave
  cases hs : w.sessions[h]? with
  | none => exact .refl
  | some s =>
    have hleft := Step.left hp hwait hwake hs (hset s (List.mem_of_getElem? hs))
    dsimp only
    split
    · exact .head hleft (steps_rearmFirst _ _)
    · exact .single hleft

theorem steps_expire {p : Pending} (hw : w.Booked) (hp : p ∈ w.waits) (hwake : p.wake ≤ w.now)
    (hset : w.Settled) : Steps w (w.expire p) := by
  unfold expire
  cases hwait : p.wait with
  | connecting h deadline register =>
    exact steps_look (hw.idle hp (by simp [hwait])) h deadline register
  | resolving d deadline => exact steps_lookForPath (hw.idle hp (by simp [hwait])) d deadline
  | reading h => exact steps_leave hp hwait hwake hset
  | sleeping => exact .single (.reply (hw.idle hp (by simp [hwait])) (by simp))

theorem acts_start (now : Millis) (rows cols : UInt16) (s : Session) (t : σ) :
    Session.Acts (s, t) (s.start now rows cols t).2 :=
  Session.Acts.single (a := .connect now rows cols) (s, t) trivial

/-- A caller that connects draws a ticket. If its session starts, the first look comes at once. -/
theorem connect_cases (w : Switchboard σ) (h : Nat) (rows cols : UInt16) (register : Bool) :
    (w.sessions[h]? = none ∧ w.connect h rows cols register = (w.nextTicket, w.draw.2)) ∨
    ∃ s p, w.sessions[h]? = some s ∧ Steps w (w.draw.2.put h p) ∧
      ((∃ e, s.start w.now rows cols w.transport = (.error e, p) ∧
          w.connect h rows cols register =
            (w.nextTicket, ((w.draw.2.put h p).conclude w.nextTicket h register (.error e)).settle)) ∨
        s.start w.now rows cols w.transport = (.ok (), p) ∧
          w.connect h rows cols register =
            (w.nextTicket, ((w.draw.2.put h p).collect.look w.nextTicket h
              (w.now + p.1.settings.linkTimeout) register).settle)) := by
  unfold connect onSession
  dsimp only [draw]
  cases hs : w.sessions[h]? with
  | none => exact .inl ⟨rfl, rfl⟩
  | some s =>
    dsimp only
    have hact := acts_start w.now rows cols s w.transport
    cases hstart : s.start w.now rows cols w.transport with
    | mk result p =>
      rw [hstart] at hact
      have hput : Step w.draw.2 (w.draw.2.put h p) := .act (s := s) hs hact
      refine .inr ⟨s, p, rfl, .head .draw (.single hput), ?_⟩
      cases result with
      | error e => exact .inl ⟨e, hstart, rfl⟩
      | ok =>
        refine .inr ⟨hstart, ?_⟩
        have hlt := (List.getElem?_eq_some_iff.mp hs).1
        simp [put, hlt]

theorem steps_connect (hw : w.Booked) (h : Handle) (rows cols : UInt16) (register : Bool) :
    Steps w (w.connect h rows cols register).2 := by
  have hi : w.draw.2.Idle w.nextTicket := hw.idle_draw
  rcases connect_cases w h rows cols register with
    ⟨-, he⟩ | ⟨s, p, -, hput, ⟨e, -, he⟩ | ⟨-, he⟩⟩ <;> rw [he]
  · exact .single .draw
  · have hi' : (w.draw.2.put h p).Idle w.nextTicket := hi.of_same rfl rfl
    exact (hput.trans (steps_conclude hi' h register _)).trans (steps_settle _)
  · have hi' : (w.draw.2.put h p).collect.Idle w.nextTicket := hi.of_same rfl rfl
    exact ((hput.trans (steps_collect _)).trans (steps_look hi' h _ register)).trans (steps_settle _)

theorem steps_create (hw : w.Booked) (id : String) (d : Destination) (rows cols : UInt16) :
    Steps w (w.create id d rows cols).2 :=
  .head (.made id d w.settings) (steps_connect (w := (w.makeSession id d w.settings).2) hw _ rows cols true)

theorem steps_requestPath (w : Switchboard σ) (d : Destination) : Steps w (w.requestPath d).2 := by
  unfold requestPath
  split
  · exact .refl
  · exact .head (.transport _) (steps_settle _)

theorem steps_resolve (hw : w.Booked) (d : Destination) (span : Millis) :
    Steps w (w.resolve d span).2 := by
  have hi := hw.idle_draw
  unfold resolve
  dsimp only
  split
  · exact .head .draw (.single (.reply hi (by simp)))
  · have hask : Step w.draw.2 { w.draw.2 with
        transport := Transport.requestPath w.draw.2.now d w.draw.2.transport } := .transport _
    have hi' : Idle { w.draw.2 with
        transport := Transport.requestPath w.draw.2.now d w.draw.2.transport } w.draw.1 :=
      hi.of_same rfl rfl
    split
    · exact .head .draw (.head hask (.head (.arm hi' (by simp)) (steps_settle _)))
    · exact .head .draw (.head hask (.head (.reply hi' (by simp)) (steps_settle _)))

theorem steps_sleep (hw : w.Booked) (span : Millis) : Steps w (w.sleep span).2 := by
  have hi := hw.idle_draw
  unfold sleep
  dsimp only
  split
  · exact .head .draw (.single (.reply hi (by simp)))
  · exact .head .draw (.single (.arm hi (by simp)))

theorem steps_sendInput (w : Switchboard σ) (h : Handle) (data : Bytes) :
    Steps w (w.sendInput h data).2 := by
  unfold sendInput onSession
  cases hs : w.sessions[h]? with
  | none => exact steps_settle w
  | some s =>
    have hact : Session.Acts (s, w.transport) (s, (s.sendInput data w.transport).2) :=
      Session.Acts.single (a := .sendInput data) (s, w.transport) trivial
    exact .head (.act hs hact) (steps_settle _)

theorem steps_resize (w : Switchboard σ) (h : Handle) (size : Geometry) :
    Steps w (w.resize h size) :=
  (steps_updateSession w h fun s t => Session.Acts.single (a := .resize size) (s, t) trivial).trans
    (steps_settle _)

theorem steps_close (w : Switchboard σ) (h : Handle) : Steps w (w.close h) :=
  (steps_closeSession w h).trans (steps_settle _)

theorem steps_disturb (w : Switchboard σ) (f : σ → σ) : Steps w (w.disturb f) :=
  .head (.transport _) (steps_settle _)

end Switchboard

end MeshShell

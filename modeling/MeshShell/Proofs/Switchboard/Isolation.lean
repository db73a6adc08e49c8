import MeshShell.Proofs.Simulation.Lines
import MeshShell.Proofs.Switchboard.Alongside
import MeshShell.Proofs.Transport.RecordedLines

/-! # Sessions do not see each other

A host makes sessions under names of its own and calls on them, links report and
time goes on. Whatever is done to the sessions of one id, and on their links,
leaves no trace in what is seen of a session with another id: it looks the same
in a run from which all of this is left out.
-/
namespace MeshShell

/-- The name that a host gives to a session: its id, and a number that tells it from others that
have the same id. -/
structure Alias where
  id : String
  number : Nat
  deriving DecidableEq

variable {σ : Type}

/-- Something that may happen on a link. -/
structure Layout.Report (P : Layout σ) where
  act : LinkId → σ → σ
  once : P.Local act

/-- Something that may happen to everything at once. -/
structure Layout.Change (P : Layout σ) where
  act : σ → σ
  alike : P.Uniform act

variable [Transport σ]

/-- What is done to one session, or happens on its link. -/
inductive Request (S : Separation σ)
  | connect (rows cols : UInt16) (wanted : Bool)
  | read (span : Millis)
  | sendInput (data : Bytes)
  | resize (size : Geometry)
  | close
  | register
  | report (r : S.Report)

inductive Move (S : Separation σ)
  | make (n : Alias) (d : Destination) (settings : SessionSettings)
  | create (n : Alias) (d : Destination) (rows cols : UInt16)
  | ask (n : Alias) (x : Request S)
  | remove (id : String)
  | closeId (id : String)
  | requestPath (d : Destination)
  | resolve (d : Destination) (span : Millis)
  | sleep (span : Millis)
  /-- Something happens to what all links share, and to all links alike. -/
  | change (c : S.Change)
  /-- The clock reaches a time, and everybody whose timer has run out goes on. -/
  | moment (time : Millis)

/-- What a caller learns at once. -/
inductive Outcome
  | later (ticket : Ticket)
  | sent (taken : Bool)
  | found (there : Bool)
  | nothing

variable {S : Separation σ}

def Request.play (x : Request S) (h : Handle) (w : Switchboard σ) : Outcome × Switchboard σ :=
  match x with
  | .connect rows cols wanted =>
    let (ticket, w) := w.connect h rows cols wanted
    (.later ticket, w)
  | .read span =>
    let (ticket, w) := w.read h span
    (.later ticket, w)
  | .sendInput data =>
    let (taken, w) := w.sendInput h data
    (.sent taken, w)
  | .resize size => (.nothing, w.resize h size)
  | .close => (.nothing, w.close h)
  | .register => (.nothing, (w.register h).settle)
  | .report r =>
    match (w.sessions[h]?).bind (·.opened) with
    | some l => (.nothing, w.disturb (r.act l))
    | none => (.nothing, w)

namespace Move

/-- The id that a move is addressed to. -/
def target : Move S → Option String
  | .make n _ _ => some n.id
  | .create n _ _ _ => some n.id
  | .ask n _ => some n.id
  | .remove id => some id
  | .closeId id => some id
  | _ => none

/-- The name of the session that is made. -/
def makes : Move S → Option Alias
  | .make n _ _ => some n
  | .create n _ _ _ => some n
  | _ => none

theorem target_of_makes {x : Move S} {n : Alias} (h : x.makes = some n) :
    x.target = some n.id := by
  cases x with
  | make => rw [← Option.some.inj h]; rfl
  | create => rw [← Option.some.inj h]; rfl
  | _ => cases h

/-- What a move does to the switchboard, by the sessions that are known. Nobody can ask anything
of a session that is not known. -/
def play (x : Move S) (known : Alias → Option Handle) (w : Switchboard σ) :
    Outcome × Switchboard σ :=
  match x with
  | .make n d settings => (.nothing, (w.makeSession n.id d settings).2)
  | .create n d rows cols =>
    let (ticket, w) := w.create n.id d rows cols
    (.later ticket, w)
  | .ask n x =>
    match known n with
    | some h => x.play h w
    | none => (.nothing, w)
  | .remove id =>
    let (h, w) := w.remove id
    (.found h.isSome, w)
  | .closeId id =>
    let (there, w) := w.closeId id
    (.found there, w.settle)
  | .requestPath d =>
    let (there, w) := w.requestPath d
    (.found there, w)
  | .resolve d span =>
    let (ticket, w) := w.resolve d span
    (.later ticket, w)
  | .sleep span =>
    let (ticket, w) := w.sleep span
    (.later ticket, w)
  | .change c => (.nothing, w.disturb c.act)
  | .moment time => (.nothing, w.moment (max w.now time))

end Move

/-- A move that was made, with its time and what came of it at once. -/
structure Entry (S : Separation σ) where
  move : Move S
  time : Millis
  outcome : Outcome

/-- A switchboard with the names of its sessions, the last one first, and everything that was done. -/
structure Stage (S : Separation σ) where
  board : Switchboard σ
  names : List (Alias × Handle)
  log : List (Entry S)

namespace Stage

def new (S : Separation σ) (transport : σ) (settings : SessionSettings) : Stage S :=
  { board := .new transport settings, names := [], log := [] }

def known (st : Stage S) (n : Alias) : Option Handle :=
  (st.names.find? (·.1 = n)).map (·.2)

def next (x : Move S) (st : Stage S) : Stage S :=
  let (outcome, board) := x.play st.known st.board
  { board
    names := (x.makes.map fun n => (n, st.board.sessions.length)).toList ++ st.names
    log := st.log ++ [⟨x, st.board.now, outcome⟩] }

end Stage

/-- An event without the number of a link. -/
def LinkEvent.unnumbered : LinkEvent → LinkEvent
  | .established _ => .established 0
  | e => e

/-- A session without the numbers of its links and callers. -/
def Session.unnumbered (s : Session) : Session :=
  { s with
    link := s.link.map fun _ => 0
    channel := s.channel.map fun _ => 0
    opened := s.opened.map fun _ => 0
    inbox := s.inbox.map LinkEvent.unnumbered
    readers := s.readers.map fun _ => 0 }

/-- An answer without the number of a session. -/
def Answer.unnumbered : Answer → Answer
  | .created (.ok _) => .created (.ok 0)
  | a => a

/-- What has come of a call so far. -/
inductive Result
  | waiting
  | answered (time : Millis) (answer : Answer)
  | sent (taken : Bool)
  | found (there : Bool)
  | nothing

def Outcome.result (w : Switchboard σ) : Outcome → Result
  | .later ticket =>
    match w.answer? ticket with
    | some a => .answered a.time a.answer.unnumbered
    | none => .waiting
  | .sent taken => .sent taken
  | .found there => .found there
  | .nothing => .nothing

structure Sight (S : Separation σ) where
  session : Option Session
  /-- The link that was opened for the session. -/
  line : Option S.Line
  /-- Whether the session is in the table under its id. -/
  registered : Bool
  /-- The calls on the session and on its id, with their times and what has come of them. -/
  calls : List (Move S × Millis × Result)

/-- What is seen of a session. -/
def Stage.sight {S : Separation σ} (st : Stage S) (n : Alias) : Sight S :=
  let session := (st.known n).bind fun h => st.board.sessions[h]?
  { session := session.map Session.unnumbered
    line := (session.bind (·.opened)).bind (S.line st.board.transport)
    registered := (st.known n).isSome && decide (st.board.registered? n.id = st.known n)
    calls := st.log.filterMap fun e =>
      if e.move.target = some n.id then some (e.move, e.time, e.outcome.result st.board) else none }

/-- A run without the moves that are addressed to an id. -/
def without {S : Separation σ} (id : String) (moves : List (Move S)) : List (Move S) :=
  moves.filter fun x => x.target ≠ some id

variable {m m' : Matching} {v w : Switchboard σ}

/-- What callers learn at once on both sides. -/
inductive Matching.Outcomes (m : Matching) : Outcome → Outcome → Prop
  | later {t t' : Ticket} : m.ticket.partner t t' → Outcomes m (.later t) (.later t')
  | sent (taken : Bool) : Outcomes m (.sent taken) (.sent taken)
  | found (there : Bool) : Outcomes m (.found there) (.found there)
  | nothing : Outcomes m .nothing .nothing

theorem Matching.Outcomes.drawn {x y t t' : Ticket} (h : t = x) (h' : t' = y) :
    (m.tieTicket x y).Outcomes (.later t) (.later t') := by
  subst h h'
  exact .later (m.tieTicket_partner t t')

theorem Matching.Outcomes.found_of_eq {there there' : Bool} (h : there' = there) :
    m.Outcomes (.found there) (.found there') := h ▸ .found there'

theorem Matching.Outcomes.mono (h : m.Le m') {o o' : Outcome} (ho : m.Outcomes o o') :
    m'.Outcomes o o' := by
  cases ho with
  | later ht => exact .later (h.ticket.partner ht)
  | sent taken => exact .sent taken
  | found there => exact .found there
  | nothing => exact .nothing

open Switchboard (InStep)

/-- The same is asked of partners. -/
theorem ask_both (hx : InStep S m v w) {i h : Handle} (hh : m.session.partner i h)
    (x : Request S) : ∃ m', m.Le m' ∧ InStep S m' (x.play i v).2 (x.play h w).2 ∧
      m'.Outcomes (x.play i v).1 (x.play h w).1 := by
  cases x with
  | connect rows cols wanted =>
    obtain ⟨m', hle, hstep, ht⟩ := hx.connect hh rows cols wanted
    exact ⟨m', hle, hstep, .later ht⟩
  | read span =>
    have hdrawn := Matching.Outcomes.drawn (m := m) (Switchboard.fst_read v i span)
      (Switchboard.fst_read w h span)
    exact ⟨_, m.le_tieTicket _ _, hx.read hh span, hdrawn⟩
  | sendInput data =>
    obtain ⟨hsame, hstep⟩ := hx.sendInput hh data
    have hsent : m.Outcomes (.sent (v.sendInput i data).1) (.sent (w.sendInput h data).1) :=
      hsame ▸ .sent _
    exact ⟨m, .refl m, hstep, hsent⟩
  | resize size =>
    have hacts : ∀ (s : Session) (t : σ), Session.Acts (s, t) (Session.resize size s t) :=
      fun s t => Session.Acts.single (a := .resize size) (s, t) trivial
    exact ⟨m, .refl m, hx.update hh hacts fun hk => Kin.resize hk size, .nothing⟩
  | close =>
    have hacts : ∀ (s : Session) (t : σ), Session.Acts (s, t) (Session.close s t) :=
      fun s t => Session.Acts.single (a := .close) (s, t) trivial
    exact ⟨m, .refl m, hx.update hh hacts Kin.close, .nothing⟩
  | register => exact ⟨m, .refl m, hx.register hh, .nothing⟩
  | report r =>
    obtain ⟨s, s', hs, hs', ha⟩ := hx.mirrors.kept hh
    unfold Request.play
    dsimp only
    rw [hs, hs']
    dsimp only [Option.bind_some]
    rcases Kin.rel_cases ha.opened with ⟨ho, ho'⟩ | ⟨l, l', ho, ho', hl⟩
    · rw [ho, ho']
      exact ⟨m, .refl m, hx, .nothing⟩
    · rw [ho, ho']
      exact ⟨m, .refl m, hx.onLink r.once hl, .nothing⟩

/-- Something is asked of a stranger. -/
theorem ask_extra (hx : InStep S m v w) {h : Handle} (hh : m.session.stranger h) (x : Request S) :
    ∃ m', m.Le m' ∧ InStep S m' v (x.play h w).2 := by
  cases x with
  | connect rows cols wanted => exact hx.connect_extra hh rows cols wanted
  | read span => exact ⟨_, m.le_loseTicket _, hx.read_extra hh span⟩
  | sendInput data => exact ⟨m, .refl m, hx.sendInput_extra hh data⟩
  | resize size => exact ⟨m, .refl m, hx.update_extra hh fun hk => Kin.resize hk size⟩
  | close => exact ⟨m, .refl m, hx.update_extra hh Kin.close⟩
  | register => exact ⟨m, .refl m, hx.register_extra hh⟩
  | report r =>
    obtain ⟨s, hs, ha⟩ := hx.mirrors.lost hh
    unfold Request.play
    dsimp only
    rw [hs]
    dsimp only [Option.bind_some]
    rcases Kin.rel_cases ha.opened with ⟨ho, -⟩ | ⟨l, l', ho, -, hl⟩
    · rw [ho]
      exact ⟨m, .refl m, hx⟩
    · rw [ho]
      exact ⟨m, .refl m, hx.onLink_extra r.once (hl.1 ▸ hl.2)⟩

/-- A move on both sides that is not addressed to strangers. -/
theorem play_both (hx : InStep S m v w) (x : Move S) (hm : x.target ≠ some m.gone)
    {known known' : Alias → Option Handle}
    (hk : ∀ n : Alias, n.id ≠ m.gone → Option.Rel m.session.partner (known n) (known' n)) :
    ∃ m', m.Le m' ∧ InStep S m' (x.play known v).2 (x.play known' w).2 ∧
      m'.Outcomes (x.play known v).1 (x.play known' w).1 ∧
      (x.makes.isSome → m'.session.partner v.sessions.length w.sessions.length) := by
  cases x with
  | make n d settings =>
    have hn : n.id ≠ m.gone := fun he => hm (congrArg some he)
    exact ⟨_, m.le_tieSession _ _, hx.make hn d settings, .nothing,
      fun _ => m.session.tie_partner _ _⟩
  | create n d rows cols =>
    have hn : n.id ≠ m.gone := fun he => hm (congrArg some he)
    obtain ⟨m', hle, hstep, ht, hs⟩ := hx.create hn d rows cols
    exact ⟨m', hle, hstep, .later ht, fun _ => hs⟩
  | ask n x =>
    have hn : n.id ≠ m.gone := fun he => hm (congrArg some he)
    rcases Kin.rel_cases (hk n hn) with ⟨hnone, hnone'⟩ | ⟨i, h, hi, hh, hih⟩
    · simp only [Move.play, hnone, hnone']
      exact ⟨m, .refl m, hx, .nothing, by simp [Move.makes]⟩
    · simp only [Move.play, hi, hh]
      obtain ⟨m', hle, hstep, ho⟩ := ask_both hx hih x
      exact ⟨m', hle, hstep, ho, by simp [Move.makes]⟩
  | remove id =>
    have hid : id ≠ m.gone := fun he => hm (congrArg some he)
    obtain ⟨hsame, hstep⟩ := hx.remove hid
    exact ⟨m, .refl m, hstep, .found_of_eq hsame, by simp [Move.makes]⟩
  | closeId id =>
    have hid : id ≠ m.gone := fun he => hm (congrArg some he)
    obtain ⟨hsame, hstep⟩ := hx.closeId hid
    exact ⟨m, .refl m, hstep, .found_of_eq hsame, by simp [Move.makes]⟩
  | requestPath d =>
    obtain ⟨hsame, hstep⟩ := hx.requestPath d
    exact ⟨m, .refl m, hstep, .found_of_eq hsame, by simp [Move.makes]⟩
  | resolve d span =>
    have hdrawn := Matching.Outcomes.drawn (m := m) (Switchboard.fst_resolve v d span)
      (Switchboard.fst_resolve w d span)
    exact ⟨_, m.le_tieTicket _ _, hx.resolve d span, hdrawn, by simp [Move.makes]⟩
  | sleep span =>
    have hdrawn := Matching.Outcomes.drawn (m := m) (Switchboard.fst_sleep v span)
      (Switchboard.fst_sleep w span)
    exact ⟨_, m.le_tieTicket _ _, hx.sleep span, hdrawn, by simp [Move.makes]⟩
  | change c => exact ⟨m, .refl m, hx.everywhere c.alike, .nothing, by simp [Move.makes]⟩
  | moment time =>
    have hmoment : InStep S m (v.moment (max v.now time)) (w.moment (max w.now time)) := by
      rw [hx.mirrors.now]
      exact hx.moment _
    exact ⟨m, .refl m, hmoment, .nothing, by simp [Move.makes]⟩

/-- A move on the larger side alone that is addressed to strangers. -/
theorem play_extra (hx : InStep S m v w) (x : Move S) (hm : x.target = some m.gone)
    {known' : Alias → Option Handle}
    (hk : ∀ n : Alias, n.id = m.gone → ∀ h, known' n = some h → m.session.stranger h) :
    ∃ m', m.Le m' ∧ InStep S m' v (x.play known' w).2 ∧
      (x.makes.isSome → m'.session.stranger w.sessions.length) := by
  cases x with
  | make n d settings =>
    have hn : n.id = m.gone := Option.some.inj hm
    simp only [Move.play, hn]
    exact ⟨_, m.le_loseSession _, hx.make_extra d settings, fun _ => (m.session.lose_own _).2⟩
  | create n d rows cols =>
    have hn : n.id = m.gone := Option.some.inj hm
    simp only [Move.play, hn]
    obtain ⟨m', hle, hstep, hs⟩ := hx.create_extra d rows cols
    exact ⟨m', hle, hstep, fun _ => hs⟩
  | ask n x =>
    have hn : n.id = m.gone := Option.some.inj hm
    cases hh : known' n with
    | none =>
      simp only [Move.play, hh]
      exact ⟨m, .refl m, hx, by simp [Move.makes]⟩
    | some h =>
      simp only [Move.play, hh]
      obtain ⟨m', hle, hstep⟩ := ask_extra hx (hk n hn h hh) x
      exact ⟨m', hle, hstep, by simp [Move.makes]⟩
  | remove id =>
    obtain rfl : id = m.gone := Option.some.inj hm
    exact ⟨m, .refl m, hx.remove_extra, by simp [Move.makes]⟩
  | closeId id =>
    obtain rfl : id = m.gone := Option.some.inj hm
    exact ⟨m, .refl m, hx.closeId_extra, by simp [Move.makes]⟩
  | _ => cases hm

/-- One stage in another. -/
structure Stage.InStep (m : Matching) (a b : Stage S) : Prop where
  board : Switchboard.InStep S m a.board b.board
  names : Woven (fun x y => y.1 = x.1 ∧ x.1.id ≠ m.gone ∧ m.session.partner x.2 y.2)
    (fun y => y.1.id = m.gone ∧ m.session.stranger y.2) a.names b.names
  log : Woven (fun x y => y.move = x.move ∧ y.time = x.time ∧ x.move.target ≠ some m.gone ∧
      m.Outcomes x.outcome y.outcome) (fun y => y.move.target = some m.gone) a.log b.log

namespace Stage.InStep

variable {a b : Stage S}

theorem known (hx : Stage.InStep m a b) (n : Alias) (hn : n.id ≠ m.gone) :
    Option.Rel m.session.partner (a.known n) (b.known n) := by
  have hfind := hx.names.find? (p := (·.1 = n)) (q := (·.1 = n))
    (fun x y hxy => by rw [hxy.1])
    (fun y hy => by
      have hne : y.1 ≠ n := fun he => hn (he ▸ hy.1)
      simpa using hne)
  unfold Stage.known
  rcases Kin.rel_cases hfind with ⟨h, h'⟩ | ⟨x, y, h, h', hxy⟩
  · rw [h, h']
    exact .none
  · rw [h, h']
    exact .some hxy.2.2

theorem known_extra (hx : Stage.InStep m a b) (n : Alias) (hn : n.id = m.gone) (h : Handle)
    (hh : b.known n = some h) : m.session.stranger h := by
  unfold Stage.known at hh
  obtain ⟨y, hy, rfl⟩ := Option.map_eq_some_iff.mp hh
  refine (hx.names.find?_extra (fun x y hxy => ?_) hy).2
  have hne : y.1 ≠ n := fun he => hxy.2.1 (by rw [← hxy.1, he, hn])
  simpa using hne

theorem names_mono (hle : m.Le m') {xs ys : List (Alias × Handle)}
    (h : Woven (fun x y => y.1 = x.1 ∧ x.1.id ≠ m.gone ∧ m.session.partner x.2 y.2)
      (fun y => y.1.id = m.gone ∧ m.session.stranger y.2) xs ys) :
    Woven (fun x y => y.1 = x.1 ∧ x.1.id ≠ m'.gone ∧ m'.session.partner x.2 y.2)
      (fun y => y.1.id = m'.gone ∧ m'.session.stranger y.2) xs ys := by
  rw [hle.gone]
  exact h.mono (fun _ _ hxy => ⟨hxy.1, hxy.2.1, hle.session.partner hxy.2.2⟩)
    fun _ hy => ⟨hy.1, hle.session.stranger hy.2⟩

theorem log_mono (hle : m.Le m') {xs ys : List (Entry S)}
    (h : Woven (fun x y => y.move = x.move ∧ y.time = x.time ∧ x.move.target ≠ some m.gone ∧
      m.Outcomes x.outcome y.outcome) (fun y => y.move.target = some m.gone) xs ys) :
    Woven (fun x y => y.move = x.move ∧ y.time = x.time ∧ x.move.target ≠ some m'.gone ∧
      m'.Outcomes x.outcome y.outcome) (fun y => y.move.target = some m'.gone) xs ys := by
  rw [hle.gone]
  exact h.mono (fun _ _ hxy => ⟨hxy.1, hxy.2.1, hxy.2.2.1, hxy.2.2.2.mono hle⟩) fun _ hy => hy

theorem next_both (hx : Stage.InStep m a b) (x : Move S) (hm : x.target ≠ some m.gone) :
    ∃ m', m.Le m' ∧ Stage.InStep m' (a.next x) (b.next x) := by
  obtain ⟨m', hle, hstep, ho, hmade⟩ := play_both hx.board x hm hx.known
  have hlog := (log_mono hle hx.log).snoc (a := ⟨x, a.board.now, (x.play a.known a.board).1⟩)
    (b := ⟨x, b.board.now, (x.play b.known b.board).1⟩)
    ⟨rfl, hx.board.mirrors.now, by rwa [hle.gone], ho⟩
  refine ⟨m', hle, hstep, ?_, hlog⟩
  unfold Stage.next
  cases hn : x.makes with
  | none => exact names_mono hle hx.names
  | some n =>
    have hid : n.id ≠ m'.gone := by
      rw [hle.gone]
      exact fun he => hm (he ▸ Move.target_of_makes hn)
    exact .both ⟨rfl, hid, hmade (by simp [hn])⟩ (names_mono hle hx.names)

theorem next_extra (hx : Stage.InStep m a b) (x : Move S) (hm : x.target = some m.gone) :
    ∃ m', m.Le m' ∧ Stage.InStep m' a (b.next x) := by
  obtain ⟨m', hle, hstep, hmade⟩ := play_extra hx.board x hm hx.known_extra
  have hlog := (log_mono hle hx.log).snoc_extra (b := ⟨x, b.board.now, (x.play b.known b.board).1⟩)
    (hle.gone ▸ hm)
  refine ⟨m', hle, hstep, ?_, hlog⟩
  unfold Stage.next
  cases hn : x.makes with
  | none => exact names_mono hle hx.names
  | some n =>
    have hid : n.id = m'.gone := by
      rw [hle.gone]
      exact Option.some.inj ((Move.target_of_makes hn).symm.trans hm)
    exact .extra ⟨hid, hmade (by simp [hn])⟩ (names_mono hle hx.names)

/-- Two runs stay in step if the larger one has more of what is addressed to strangers only. -/
theorem reach (hx : Stage.InStep m a b) (moves : List (Move S)) :
    ∃ m', m.Le m' ∧ Stage.InStep m' (MeshShell.reach Stage.next a (without m.gone moves))
      (MeshShell.reach Stage.next b moves) := by
  induction moves generalizing m a b with
  | nil => exact ⟨m, .refl m, hx⟩
  | cons x rest ih =>
    by_cases hm : x.target = some m.gone
    · obtain ⟨m₁, hle, hnext⟩ := hx.next_extra x hm
      obtain ⟨m', hle', hrest⟩ := ih hnext
      refine ⟨m', hle.trans hle', ?_⟩
      rw [hle.gone] at hrest
      simpa [without, hm, MeshShell.reach] using hrest
    · obtain ⟨m₁, hle, hnext⟩ := hx.next_both x hm
      obtain ⟨m', hle', hrest⟩ := ih hnext
      refine ⟨m', hle.trans hle', ?_⟩
      rw [hle.gone] at hrest
      simpa [without, hm, MeshShell.reach] using hrest

end Stage.InStep

theorem map_eq_of_forall₂ {α β γ : Type} {r : α → β → Prop} {f : α → γ} {g : β → γ}
    {as : List α} {bs : List β} (h : List.Forall₂ r as bs) (hfg : ∀ a b, r a b → g b = f a) :
    bs.map g = as.map f := by
  induction h with
  | nil => rfl
  | cons hab _ ih => rw [List.map_cons, List.map_cons, hfg _ _ hab, ih]

theorem Kin.Alike.unnumbered {k : Kin} {s s' : Session} (hs : k.Alike s s') :
    s'.unnumbered = s.unnumbered := by
  have hopt : ∀ {l l' : Option LinkId}, Option.Rel k.link l l' →
      l'.map (fun _ => 0) = l.map fun _ => 0 := by
    intro l l' hl
    cases hl <;> rfl
  have hevent : ∀ e e', k.Event e e' → e'.unnumbered = e.unnumbered := by
    intro e e' he
    cases he <;> rfl
  cases hs with
  | intro _ hl hc ho hi hr =>
    unfold Session.unnumbered
    dsimp only
    rw [hopt hl, hopt hc, hopt ho, map_eq_of_forall₂ hi hevent,
      map_eq_of_forall₂ hr (f := fun _ => 0) (g := fun _ => 0) fun _ _ _ => rfl]

theorem Kin.Answers.unnumbered {k : Kin} {a a' : Answer} (ha : k.Answers a a') :
    a'.unnumbered = a.unnumbered := by
  cases ha <;> rfl

theorem Matching.Outcomes.result (hx : Switchboard.Mirrors S m v w) {o o' : Outcome}
    (ho : m.Outcomes o o') : o'.result w = o.result v := by
  cases ho with
  | @later t t' ht =>
    have hfind := hx.answers.find? (p := (·.ticket = t)) (q := (·.ticket = t'))
      (fun a a' ha => by simp [hx.fair.distinct ha.ticket ht])
      (fun a ha => by
        have hne : a.ticket ≠ t' := fun he => hx.fair.ticket.apart ht (he ▸ ha)
        simpa using hne)
    unfold Outcome.result Switchboard.answer?
    dsimp only
    rcases Kin.rel_cases hfind with ⟨h, h'⟩ | ⟨a, a', h, h', ha⟩
    · rw [h, h']
    · rw [h, h']
      dsimp only
      rw [ha.time, ha.answer.unnumbered]
  | _ => rfl

/-- What is seen of a session is the same on both sides, unless it is a stranger. -/
theorem Stage.InStep.sight {a b : Stage S} (hx : Stage.InStep m a b) {n : Alias}
    (hn : n.id ≠ m.gone) : b.sight n = a.sight n := by
  have hcalls : (b.sight n).calls = (a.sight n).calls := by
    refine hx.log.filterMap (fun x y hxy => ?_) fun y hy => ?_
    · rw [hxy.1, hxy.2.1, hxy.2.2.2.result hx.board.mirrors]
    · rw [hy, if_neg fun he => hn (Option.some.inj he).symm]
  have hrest : (b.sight n).session = (a.sight n).session ∧ (b.sight n).line = (a.sight n).line ∧
      (b.sight n).registered = (a.sight n).registered := by
    unfold Stage.sight
    dsimp only
    rcases Kin.rel_cases (hx.known n hn) with ⟨h, h'⟩ | ⟨i, g, hi, hg, hig⟩
    · rw [h, h']
      simp
    · obtain ⟨s, s', hs, hs', ha⟩ := hx.board.mirrors.kept hig
      rw [hi, hg]
      simp only [Option.bind_some, Option.isSome_some, Bool.true_and]
      rw [hs, hs']
      refine ⟨congrArg some ha.unnumbered, ?_, ?_⟩
      · simp only [Option.bind_some]
        rcases Kin.rel_cases ha.opened with ⟨ho, ho'⟩ | ⟨l, l', ho, ho', hl⟩
        · rw [ho, ho']
          rfl
        · obtain ⟨x, hl, hl'⟩ := hx.board.mirrors.transport.partner hl
          rw [ho, ho']
          exact hl'.trans hl.symm
      · have hfair := hx.board.mirrors.fair.session
        rcases Kin.rel_cases (hx.board.mirrors.table hn) with ⟨h, h'⟩ | ⟨j, f, hj, hf, hjf⟩
        · rw [h, h']
          simp
        · rw [hj, hf]
          have hiff : f = g ↔ j = i :=
            ⟨fun he => hfair.right (he ▸ hjf) hig, fun he => hfair.left (he ▸ hjf) hig⟩
          simp [hiff]
  cases hb : b.sight n
  cases ha : a.sight n
  rw [hb, ha] at hcalls hrest
  obtain ⟨hsession, hline, hregistered⟩ := hrest
  simp only [Sight.mk.injEq]
  exact ⟨hsession, hline, hregistered, hcalls⟩

theorem Stage.InStep.new {t : σ} (ht : S.Ready t) (settings : SessionSettings) (id : String) :
    Stage.InStep ⟨id, .empty, .empty, .empty⟩ (.new S t settings) (.new S t settings) where
  board :=
    { mirrors :=
        { fair := ⟨Bond.fair_empty, Bond.fair_empty, Bond.fair_empty, False.elim⟩
          sessions := Bond.below_empty _ _
          tickets := Bond.below_empty _ _
          now := rfl
          settings := rfl
          transport := ⟨ht.sound, ht.sound, rfl, False.elim, False.elim⟩
          left := fun hi => absurd hi (Nat.not_lt_zero _)
          right := fun hh => absurd hh (Nat.not_lt_zero _)
          kept := False.elim
          lost := False.elim
          table := fun _ => .none
          lostTable := fun hh => by cases hh
          waits := .nil
          answers := .nil }
      calm := ⟨by simp [Stage.new, Switchboard.new], by simp [Stage.new, Switchboard.new],
        by simp [Stage.new, Switchboard.new, Switchboard.Consistent], ht.drained⟩ }
  names := .nil
  log := .nil

theorem sight_without {t : σ} (ht : S.Ready t) (settings : SessionSettings) (moves : List (Move S))
    {id : String} {n : Alias} (hn : n.id ≠ id) :
    (reach Stage.next (.new S t settings) (without id moves)).sight n =
      (reach Stage.next (.new S t settings) moves).sight n := by
  obtain ⟨m, hle, hx⟩ := (Stage.InStep.new ht settings id).reach moves
  exact (hx.sight (hle.gone ▸ hn)).symm

theorem without_filter {moves : List (Move S)} {keep : Move S → Bool} {id : String}
    (hkeep : ∀ x ∈ moves, keep x = false → x.target = some id) :
    without id (moves.filter keep) = without id moves := by
  rw [without, List.filter_filter]
  refine List.filter_congr fun x hx => ?_
  cases hk : keep x with
  | true => simp
  | false => simp [hkeep x hx hk]

/-- What is seen of a session does not depend on what is done to sessions with another id: moves
that are addressed to the other id can be left out, all of them or only some. The log of the
transport tells which messages the channel of the session's link has taken, and how often the link
was torn down. -/
theorem sight_filter (S : Separation σ) {t : σ} (ht : S.Ready t) (settings : SessionSettings)
    (moves : List (Move S.recorded)) (keep : Move S.recorded → Bool) {id : String} {n : Alias}
    (hn : n.id ≠ id) (hkeep : ∀ x ∈ moves, keep x = false → x.target = some id) :
    (reach Stage.next (.new S.recorded (.blank t) settings) (moves.filter keep)).sight n =
      (reach Stage.next (.new S.recorded (.blank t) settings) moves).sight n := by
  have hr := S.ready_blank ht
  rw [← sight_without hr settings (moves.filter keep) hn, without_filter hkeep,
    sight_without hr settings moves hn]

open Simulation Simulation.Network in
/-- Two sessions come up on one mesh, each with a remote shell of its own. Both are written to and
hear from their remote shells, and one of them is closed. -/
def sharing (d e : Destination) (settings : SessionSettings) : List (Move separation.recorded) :=
  let say (m : Message) : Request separation.recorded := .report ⟨_, (saying m).pass⟩
  [.make ⟨"a", 0⟩ d settings, .make ⟨"b", 0⟩ e settings, .ask ⟨"a", 0⟩ .register,
    .ask ⟨"a", 0⟩ (.connect 24 80 false), .ask ⟨"b", 0⟩ (.connect 24 80 true), .moment 10,
    .ask ⟨"a", 0⟩ (.sendInput [1]), .ask ⟨"b", 0⟩ (.sendInput [2]), .ask ⟨"a", 0⟩ (say (.stdout [3])),
    .ask ⟨"b", 0⟩ (say (.stdout [4])), .closeId "a", .ask ⟨"b", 0⟩ (.read 100)]

open Simulation Simulation.Network in
theorem sight_filter_sharing :
    let d : Destination := ⟨List.replicate 16 0xab, rfl⟩
    let e : Destination := ⟨List.replicate 16 0xcd, rfl⟩
    let settings : SessionSettings := { linkTimeout := 50, poll := 10, term := "xterm" }
    let mesh := (Network.empty.addStation d "r" .unknown true).addStation e "q" .unknown true
    let start : Stage separation.recorded := .new _ (.blank mesh) settings
    let keep : Move separation.recorded → Bool := fun x => x.target ≠ some "a"
    let both := reach Stage.next start (sharing d e settings)
    (reach Stage.next start ((sharing d e settings).filter keep)).sight ⟨"b", 0⟩ =
        both.sight ⟨"b", 0⟩ ∧
      both.board.sessions.map (·.phase) = [.closed, .active] ∧
      both.board.transport.inner.links.map (·.shut) = [true, false] ∧
      (both.sight ⟨"b", 0⟩).registered ∧
      (both.sight ⟨"b", 0⟩).line.map (fun x => (x.sent.length, x.teardowns)) = some (3, 0) ∧
      (both.sight ⟨"b", 0⟩).calls.any (· matches (_, 0, .answered 10 (.created (.ok _)))) ∧
      (both.sight ⟨"b", 0⟩).calls.any (· matches (_, 10, .answered 10 (.read (.data _)))) := by
  intro d e settings mesh start keep both
  have hn : (⟨"b", 0⟩ : Alias).id ≠ "a" := by decide
  have hkeep : ∀ x ∈ sharing d e settings, keep x = false → x.target = some "a" := fun x _ hx => by
    simpa [keep] using hx
  have hready : separation.Ready mesh := ⟨trivial, fun _ _ h => by cases h⟩
  exact ⟨sight_filter separation hready settings _ keep hn hkeep, by decide +kernel,
    by decide +kernel, by decide +kernel, by decide +kernel, by decide +kernel, by decide +kernel⟩

end MeshShell

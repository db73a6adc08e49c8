import MeshShell.Proofs.Session.Standing
import MeshShell.Proofs.Switchboard.Sparing

/-! # Connecting takes as long as it has to

A caller that connects looks at its session at once and after every interval. The
first look that finds the session active or closed ends the waiting, and so does
the first look after the time limit. Until then its timer is set to the next
look, whatever other callers do.
-/
namespace MeshShell.Switchboard

variable {σ : Type} [Transport σ] {w w' : Switchboard σ}

omit [Transport σ] in
/-- Time does not pass the timer of a caller before it has run out. -/
def Call.punctual (ticket : Ticket) (w : Switchboard σ) : Call σ → Bool
  | .advance time => w.waits.all fun p => p.ticket ≠ ticket || time ≤ max w.now p.wake
  | _ => true

/-- What a caller that connects is told. -/
def conclusion (h : Handle) (register : Bool) (result : Except SessionError Unit) : Answer :=
  if register then .created (result.map fun _ => h) else .connected result

omit [Transport σ] in
theorem conclusion_error {h : Handle} {register : Bool} {result : Except SessionError Unit}
    {e : SessionError} (hc : conclusion h register result = conclusion h register (.error e)) :
    result = .error e := by
  unfold conclusion at hc
  cases register <;> cases result <;> simp_all [Except.map]

theorem conclude_eq (w : Switchboard σ) (ticket : Ticket) (h : Handle) (register : Bool)
    (result : Except SessionError Unit) :
    ∃ sessions t rows, w.conclude ticket h register result =
      { w with sessions, transport := t, table := rows }.reply ticket
        (conclusion h register result) := by
  unfold conclude conclusion
  cases register with
  | false => exact ⟨w.sessions, w.transport, w.table, rfl⟩
  | true =>
    cases result with
    | error e => exact ⟨w.sessions, w.transport, w.table, rfl⟩
    | ok =>
      obtain ⟨sessions, t, rows, hf⟩ := register_frame w h
      refine ⟨sessions, t, rows, ?_⟩
      rw [← hf]
      rfl

omit [Transport σ] in
theorem answer?_reply {ticket : Ticket} (h : w.answer? ticket = none) (answer : Answer) :
    (w.reply ticket answer).answer? ticket = some ⟨ticket, w.now, answer⟩ := by
  unfold answer? at h ⊢
  simp [reply, List.find?_append, h]

theorem now_take (hw : w.Booked) (hset : w.Settled) {c : Call σ} {p : Pending} (hp : p ∈ w.waits)
    (hc : c.punctual p.ticket w = true) (hle : w.now ≤ p.wake) : (w.take c).now ≤ p.wake := by
  by_cases hplain : c.Plain
  · exact ((steps_take hw hset hplain).now.le).trans hle
  · cases c with
    | read h span => exact (now_read h span).le.trans hle
    | advance time =>
      have hnow : (w.take (.advance time)).now = max w.now time := (steps_settle _).now
      have htime : time ≤ max w.now p.wake := by
        simpa using List.all_eq_true.mp hc p hp
      rw [hnow]
      exact max_le hle (htime.trans (max_le hle (Nat.le_refl _)))
    | _ => exact absurd trivial hplain

theorem along_reach (calls : List (Call σ)) (w : Switchboard σ) (hw : w.Booked)
    (hset : w.Settled) : Along w (reach take w calls) := by
  induction calls generalizing w with
  | nil => exact fun _ s hs => ⟨s, [], hs, .nil⟩
  | cons c rest ih =>
    exact (along_take hw hset c).trans (ih _ (booked_take hw hset c) (settled_take hset c))

theorem interval_ofConfig (c : BridgeConfig) : 0 < (SessionSettings.ofConfig c).poll :=
  Nat.lt_of_lt_of_le Nat.one_pos (Nat.le_max_right c.timeouts.pollIntervalMs 1)

/-- A run in which somebody connects a session that is open and was not started before, and the
link can be opened. Afterwards callers come in any order, and time goes on as timers run out. -/
structure Attempt (σ : Type) [Transport σ] where
  before : Traffic σ
  handle : Handle
  session : Session
  rows : UInt16
  cols : UInt16
  register : Bool
  later : List (Call σ)
  found : before.outcome.board.sessions[(handle : Nat)]? = some session
  isOpen : session.closed = false
  unstarted : session.driver = .notStarted
  starts : (session.start before.outcome.board.now rows cols
    before.outcome.board.transport).1 = .ok ()
  interval : 0 < session.settings.poll
  punctual : (trail take (before.outcome.board.take (.connect handle rows cols register)) later).all
    fun (w, c) => c.punctual before.outcome.board.nextTicket w

namespace Attempt

variable (x : Attempt σ)

/-- The switchboard on which the session is told to connect. -/
def board : Switchboard σ := x.before.outcome.board

def ticket : Ticket := x.board.nextTicket

def time : Millis := x.board.now

def limit : Millis := x.session.settings.linkTimeout

def poll : Millis := x.session.settings.poll

/-- The time of a look. -/
def tick (k : Nat) : Millis := x.time + k * x.poll

/-- The session with its link opened, and the transport. -/
def opened : Session × σ := (x.session.start x.time x.rows x.cols x.board.transport).2

/-- The switchboard at the first look. -/
def first : Switchboard σ := (x.board.draw.2.put x.handle x.opened).collect

def connected : Switchboard σ := x.board.take (.connect x.handle x.rows x.cols x.register)

def history : List (Switchboard σ × Call σ) := trail take x.connected x.later

def outcome : Switchboard σ := reach take x.connected x.later

theorem run : Run take x.connected x.history x.outcome := .of_actions take x.connected x.later

/-- The switchboards at which the caller looks. -/
def looksIn (hist : List (Switchboard σ × Call σ)) : List (Switchboard σ) :=
  x.first :: (hist.filter fun (w, c) => c.wakes x.ticket w).map (·.1)

def looks : List (Switchboard σ) := x.looksIn x.history

/-- What ends the waiting. -/
def Decides (k : Nat) (s : Session) : Prop :=
  s.phase = .active ∨ s.phase = .closed ∨ x.limit ≤ k * x.poll

/-- What the look at a session comes to that ends the waiting. -/
def result (s : Session) : Except SessionError Unit :=
  if s.established then .ok ()
  else if s.closed then .error (.linkClosed x.session.destination)
  else .error (.linkTimeout x.session.destination x.limit)

def answer (k : Nat) (s : Session) : Answered :=
  ⟨x.ticket, x.tick k, conclusion x.handle x.register (x.result s)⟩

/-- The timer that is set to a look. -/
def timer (k : Nat) : Pending :=
  ⟨x.ticket, x.tick k, .connecting x.handle (x.time + x.limit) x.register⟩

/-- What is true of the session as soon as its link was opened. -/
structure Kept (s : Session) : Prop where
  standing : s.Standing
  settings : s.settings = x.session.settings
  destination : s.destination = x.session.destination

theorem lasting_kept : Lasting σ x.Kept := by
  intro a p h
  have he := Session.effect a p.1 p.2
  exact ⟨he.standing h.standing, he.settings.trans h.settings, he.destination.trans h.destination⟩

/-- A look that does not end the waiting. -/
def Vain (k : Nat) (w : Switchboard σ) : Prop :=
  w.now = x.tick k ∧ w.At x.handle fun s => ¬ x.Decides k s

/-- Looks that do not end the waiting, one interval after another. -/
def Vainly (looks : List (Switchboard σ)) : Prop := ∀ k w, looks[k]? = some w → x.Vain k w

/-- The caller has looked in vain so far, and its timer is set to the next look. -/
structure Waiting (looks : List (Switchboard σ)) (w : Switchboard σ) : Prop where
  vain : x.Vainly looks
  timer : x.timer looks.length ∈ w.waits
  now : w.now ≤ x.tick looks.length
  answer : w.answer? x.ticket = none

/-- After looks in vain comes one that ends the waiting. -/
structure Deciding (past : List (Switchboard σ)) (v : Switchboard σ) (s : Session) : Prop where
  vain : x.Vainly past
  now : v.now = x.tick past.length
  found : v.sessions[(x.handle : Nat)]? = some s
  kept : x.Kept s
  decides : x.Decides past.length s

/-- The caller was told what it had found out. Who was told of a failure left a closed session. -/
structure Told (past : List (Switchboard σ)) (v : Switchboard σ) (s : Session)
    (w : Switchboard σ) : Prop extends x.Deciding past v s where
  answer : w.answer? x.ticket = some (x.answer past.length s)
  untimed : ∀ p ∈ w.waits, p.ticket ≠ x.ticket
  closed : s.established = false → w.At x.handle (·.closed = true)

/-- How far a caller has come that has looked so far at the given switchboards. -/
inductive Reached (looks : List (Switchboard σ)) (w : Switchboard σ) : Prop
  | waiting : x.Waiting looks w → Reached looks w
  | told {past : List (Switchboard σ)} {v : Switchboard σ} {s : Session} : looks = past ++ [v] →
      x.Told past v s w → Reached looks w

variable {x} {looks : List (Switchboard σ)}

theorem told_conclude {s : Session} {v : Switchboard σ} (hi : w.Idle x.ticket)
    (hd : x.Deciding looks v s) (hnow : w.now = v.now) (hans : w.answer? x.ticket = none)
    (hclosed : s.established = false → w.At x.handle (·.closed = true)) :
    x.Told looks v s (w.conclude x.ticket x.handle x.register (x.result s)) := by
  have hal := (steps_conclude hi x.handle x.register (x.result s)).along
  obtain ⟨sessions, t, rows, he⟩ := conclude_eq w x.ticket x.handle x.register (x.result s)
  have hnone : answer? { w with sessions, transport := t, table := rows } x.ticket = none := hans
  refine
    { hd with
      answer := ?_
      untimed := ?_
      closed := fun hno => (hclosed hno).along lasting_closed hal }
  · rw [he, answer?_reply hnone]
    unfold Attempt.answer
    rw [← hd.now, ← hnow]
  · rw [he]
    exact fun p hp => (mem_waits_reply.mp hp).2

theorem Kept.progress {s : Session} (hk : x.Kept s) {k : Nat} :
    s.progress = some (x.result s) ∧ x.Decides k s ∧ (s.established = false → s.closed = true) ∨
      s.progress = none ∧ s.established = false ∧ s.closed = false ∧
        (x.Decides k s ↔ x.limit ≤ k * x.poll) := by
  have hclosed := hk.standing.closed_iff
  have hactive := hk.standing.active_iff
  rw [hk.standing.progress]
  unfold Attempt.result Decides
  rw [hactive, hclosed, hk.destination]
  cases s.established <;> cases s.closed <;> simp

theorem Vainly.snoc (h : x.Vainly looks) (hw : x.Vain looks.length w) :
    x.Vainly (looks ++ [w]) := by
  intro k u hu
  rcases Nat.lt_trichotomy k looks.length with hlt | rfl | hgt
  · rw [List.getElem?_append_left hlt] at hu
    exact h k u hu
  · rw [List.getElem?_concat_length] at hu
    obtain rfl := Option.some.inj hu
    exact hw
  · have hnone : (looks ++ [w])[k]? = none := by
      simp only [List.getElem?_eq_none_iff, List.length_append, List.length_singleton]
      omega
    simp [hnone] at hu

theorem tick_succ (x : Attempt σ) (k : Nat) : x.tick (k + 1) = x.tick k + x.poll := by
  unfold tick
  rw [Nat.succ_mul, Nat.add_assoc]

/-- A look ends the waiting or sets the timer to the next one. -/
theorem reached_look (hi : w.Idle x.ticket) (hkept : w.At x.handle x.Kept)
    (hvain : x.Vainly looks) (hnow : w.now = x.tick looks.length)
    (hans : w.answer? x.ticket = none) :
    x.Reached (looks ++ [w]) (w.look x.ticket x.handle (x.time + x.limit) x.register) := by
  obtain ⟨s, hs, hk⟩ := hkept
  unfold look
  rw [hs]
  dsimp only
  rcases hk.progress (k := looks.length) with ⟨hp, hd, hclosed⟩ | ⟨hp, he, hc, hd⟩ <;> rw [hp]
  · exact .told rfl (told_conclude hi ⟨hvain, hnow, hs, hk, hd⟩ rfl hans
      fun hno => ⟨s, hs, hclosed hno⟩)
  · dsimp only
    have hdue : x.time + x.limit ≤ w.now ↔ x.limit ≤ looks.length * x.poll := by
      rw [hnow]
      exact Nat.add_le_add_iff_left
    split
    · rename_i hlate
      have hresult : x.result s = .error (.linkTimeout s.destination s.settings.linkTimeout) := by
        simp [Attempt.result, he, hc, hk.destination, hk.settings, limit]
      have hlt := (List.getElem?_eq_some_iff.mp hs).1
      have hdeciding : x.Deciding looks w s := ⟨hvain, hnow, hs, hk, hd.mpr (hdue.mp hlate)⟩
      rw [updateSession_eq hs, ← hresult]
      refine .told rfl (told_conclude (hi.of_same rfl rfl) hdeciding rfl hans fun _ => ?_)
      exact ⟨(s.giveUp w.transport).1, by simp [put, hlt], by simp⟩
    · rename_i hearly
      have hwake : w.now + s.settings.poll = x.tick (looks ++ [w]).length := by
        rw [List.length_append, List.length_singleton, tick_succ, hnow, hk.settings]
        rfl
      refine .waiting
        { vain := hvain.snoc ⟨hnow, s, hs, fun h => hearly (hdue.mpr (hd.mp h))⟩
          timer := ?_
          now := hwake ▸ Nat.le_add_right _ _
          answer := hans }
      rw [hwake]
      exact mem_waits_arm.mpr (.inr rfl)

theorem Reached.spared (h : x.Reached looks w) (hs : Spares x.ticket w w') (hal : Along w w')
    (hnow : ∀ k, x.timer k ∈ w.waits → w.now ≤ x.tick k → w'.now ≤ x.tick k) :
    x.Reached looks w' := by
  cases h with
  | waiting h =>
    exact .waiting
      { vain := h.vain
        timer := (hs.waits (x.timer looks.length) rfl).mpr h.timer
        now := hnow _ h.timer h.now
        answer := hs.answer.trans h.answer }
  | told hlooks h =>
    exact .told hlooks
      { h with
        answer := hs.answer.trans h.answer
        untimed := fun p hp ht => h.untimed p ((hs.waits p ht).mp hp) ht
        closed := fun hno => (h.closed hno).along lasting_closed hal }

theorem Waiting.eq_timer (h : x.Waiting looks w) (hw : w.Booked) {p : Pending} (hp : p ∈ w.waits)
    (ht : p.ticket = x.ticket) : p = x.timer looks.length :=
  List.inj_on_of_nodup_map hw.1 hp h.timer ht

theorem Reached.idle (h : x.Reached looks w) (hw : w.Booked) (hdrawn : x.ticket < w.nextTicket) :
    w.Idle x.ticket := by
  refine ⟨hdrawn, fun p hp ht g hread => ?_⟩
  cases h with
  | waiting h =>
    obtain rfl := h.eq_timer hw hp ht
    cases hread
  | told _ h => exact h.untimed p hp ht

theorem Reached.settle {readings : List Reading} (h : x.Reached looks w) (hx : Sound readings w)
    (hdrawn : x.ticket < w.nextTicket) : x.Reached looks w.settle :=
  h.spared (spares_settle hx (h.idle hx.booked hdrawn)) (steps_settle w).along fun _ _ hle =>
    ((steps_settle w).now.le).trans hle

theorem Reached.woken {readings : List Reading} (h : x.Reached looks w) (hx : Sound readings w)
    (hkept : w.At x.handle x.Kept) (hdrawn : x.ticket < w.nextTicket) {p : Pending}
    (ht : p.ticket = x.ticket) (hp : p ∈ w.waits) (hwake : p.wake ≤ w.now) :
    x.Reached (looks ++ [w]) (w.take (.expire p)) := by
  have hi := h.idle hx.booked hdrawn
  cases h with
  | told _ h => exact absurd ht (h.untimed p hp)
  | waiting h =>
    obtain rfl := h.eq_timer hx.booked hp ht
    have htake : w.take (.expire (x.timer looks.length)) =
        (w.look x.ticket x.handle (x.time + x.limit) x.register).settle := if_pos ⟨hp, hwake⟩
    have hsteps := steps_look hi x.handle (x.time + x.limit) x.register
    have hlook := reached_look hi hkept h.vain (Nat.le_antisymm h.now hwake) h.answer
    rw [htake]
    exact hlook.settle (hsteps.sound hx) (Nat.lt_of_lt_of_le hdrawn (Steps.nextTicket_le hsteps))

/-- What is known of the caller at any time. -/
structure Underway (x : Attempt σ) (looks : List (Switchboard σ)) (w : Switchboard σ) : Prop where
  good : ∃ readings, Watched.Good ⟨w, readings⟩
  kept : w.At x.handle x.Kept
  drawn : x.ticket < w.nextTicket
  reached : x.Reached looks w

theorem Underway.take (h : x.Underway looks w) {c : Call σ} (hc : c.punctual x.ticket w = true) :
    x.Underway (looks ++ if c.wakes x.ticket w then [w] else []) (w.take c) := by
  obtain ⟨readings, hgood⟩ := h.good
  have hx : Sound readings w := hgood.sound
  have hset : w.Settled := hgood.settled
  have hal : Along w (w.take c) := along_take hx.booked hset c
  have hi : w.Idle x.ticket := h.reached.idle hx.booked h.drawn
  refine ⟨⟨_, hgood.watch c⟩, h.kept.along x.lasting_kept hal,
    Nat.lt_of_lt_of_le h.drawn (nextTicket_take hx.booked hset c), ?_⟩
  cases hwakes : c.wakes x.ticket w with
  | false =>
    rw [if_neg (by simp), List.append_nil]
    refine h.reached.spared (spares_take hx hset hi hwakes) hal ?_
    exact fun k htimer hle => now_take hx.booked hset htimer hc hle
  | true =>
    cases c with
    | expire p =>
      obtain ⟨ht, hp, hwake⟩ := of_decide_eq_true hwakes
      exact h.reached.woken hx h.kept h.drawn ht hp hwake
    | _ => cases hwakes

variable (x)

theorem good_board : ∃ readings, Watched.Good ⟨x.board, readings⟩ := ⟨_, x.before.good⟩

theorem start_eq : x.session.start x.board.now x.rows x.cols x.board.transport =
    (.ok (), x.opened) := Prod.ext x.starts rfl

theorem kept_opened : x.Kept x.opened.1 := by
  obtain ⟨readings, hgood⟩ := x.good_board
  obtain ⟨life, hlife, -⟩ := hgood.sound.lives x.handle x.session x.found
  have hsession : life.session = x.session := congrArg Prod.fst hlife
  have hnew : x.session.established = false := by
    rw [← hsession]
    exact life.unestablished (hsession ▸ x.unstarted)
  obtain ⟨l, hl⟩ := Session.start_ok x.starts
  have hopened : x.opened.1 = _ := hl
  refine ⟨Session.standing_start x.starts x.isOpen hnew, ?_, ?_⟩ <;> rw [hopened] <;> rfl

theorem connected_eq : Steps x.board x.first ∧ x.connected =
    (x.first.look x.ticket x.handle (x.time + x.limit) x.register).settle := by
  have hkept := x.kept_opened
  rcases connect_cases x.board x.handle x.rows x.cols x.register with
    ⟨hno, -⟩ | ⟨s, p, hs, hput, hrest⟩
  · exact absurd (x.found.symm.trans hno) (by simp)
  · obtain rfl : x.session = s := Option.some.inj (x.found.symm.trans hs)
    rcases hrest with ⟨e, hstart, -⟩ | ⟨hstart, he⟩ <;> rw [x.start_eq] at hstart
    · cases hstart
    · obtain rfl : x.opened = p := congrArg Prod.snd hstart
      refine ⟨hput.trans (steps_collect _), ?_⟩
      have hlimit : x.opened.1.settings.linkTimeout = x.limit := by
        rw [hkept.settings]
        rfl
      rw [hlimit] at he
      exact congrArg Prod.snd he

theorem kept_first : x.first.At x.handle x.Kept := by
  have hlt := (List.getElem?_eq_some_iff.mp x.found).1
  have hput : (x.board.draw.2.put x.handle x.opened).At x.handle x.Kept :=
    ⟨x.opened.1, List.getElem?_set_self hlt, x.kept_opened⟩
  exact hput.along x.lasting_kept (steps_collect _).along

theorem underway_connected : x.Underway [x.first] x.connected := by
  obtain ⟨readings, hgood⟩ := x.good_board
  obtain ⟨hsteps, hconnected⟩ := x.connected_eq
  have hx : Sound readings x.first := hsteps.sound hgood.sound
  have hidle : x.first.Idle x.ticket := hgood.sound.booked.idle_draw.of_same rfl rfl
  have hans : x.first.answer? x.ticket = none := by
    refine List.find?_eq_none.mpr fun a ha => ?_
    have hlt : a.ticket < x.ticket := hgood.sound.answered a ha
    simpa using Nat.ne_of_lt hlt
  have hnow : x.first.now = x.tick ([] : List (Switchboard σ)).length := by
    simp only [tick, List.length_nil, Nat.zero_mul, Nat.add_zero]
    rfl
  have hreached : x.Reached ([] ++ [x.first]) _ :=
    reached_look hidle x.kept_first (fun k w hw => by simp at hw) hnow hans
  have hlook := steps_look hidle x.handle (x.time + x.limit) x.register
  refine ⟨⟨_, hgood.watch (.connect x.handle x.rows x.cols x.register)⟩, ?_, ?_, ?_⟩
  all_goals rw [hconnected]
  · exact (x.kept_first.along x.lasting_kept hlook.along).along x.lasting_kept
      (steps_settle _).along
  · rw [nextTicket_settle]
    exact Nat.lt_of_lt_of_le hidle.1 (Steps.nextTicket_le hlook)
  · exact hreached.settle (hlook.sound hx) (Nat.lt_of_lt_of_le hidle.1 (Steps.nextTicket_le hlook))

theorem underway_of_run {hist : List (Switchboard σ × Call σ)} {w : Switchboard σ}
    (hr : Run Switchboard.take x.connected hist w)
    (hp : ∀ u ∈ hist, u.2.punctual x.ticket u.1 = true) : x.Underway (x.looksIn hist) w := by
  induction hr with
  | nil => exact x.underway_connected
  | @snoc hist u c hr ih =>
    have hu := ih fun v hv => hp v (List.mem_append_left _ hv)
    have hlooks : x.looksIn (hist ++ [(u, c)]) =
        x.looksIn hist ++ if c.wakes x.ticket u then [u] else [] := by
      cases hw : c.wakes x.ticket u <;> simp [looksIn, hw]
    rw [hlooks]
    exact hu.take (hp (u, c) (by simp))

theorem underway_outcome : x.Underway x.looks x.outcome :=
  x.underway_of_run x.run (List.all_eq_true.mp x.punctual)

end Attempt

end MeshShell.Switchboard

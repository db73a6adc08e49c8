import MeshShell.Proofs.Switchboard.Reads

/-! # The end of a session reaches its readers

Over all runs of a switchboard the end of a session is the last thing that its
readers learn. Who waits for output when the session closes learns of it at
once, and nobody is sent away early. A switchboard lets everyone in line look
before the time of anybody runs out. Where readers wake up one by one, a caller
can overtake the output.
-/
namespace MeshShell.Switchboard

variable {σ : Type} [Transport σ] {readings : List Reading} {w w' : Switchboard σ}

/-- New answers come at the present moment, and who gets nothing does so at an open session. -/
structure Brings (readings : List Reading) (w w' : Switchboard σ) (new : List Answered) : Prop where
  answers : w'.answers = w.answers ++ new
  time : ∀ a ∈ new, a.time = w'.now
  isOpen : ∀ a ∈ new, a.answer = .read .empty → ∀ r ∈ readings, r.ticket = a.ticket →
    ∃ s, w.sessions[(r.session : Nat)]? = some s ∧ s.closed = false

omit [Transport σ] in
theorem Brings.nothing (hans : w'.answers = w.answers) : Brings readings w w' [] :=
  ⟨by simp [hans], by simp, by simp⟩

omit [Transport σ] in
theorem Brings.one {ticket : Ticket} {answer : Answer}
    (hans : w'.answers = w.answers ++ [⟨ticket, w.now, answer⟩]) (hnow : w'.now = w.now)
    (hopen : answer = .read .empty → ∀ r ∈ readings, r.ticket = ticket →
      ∃ s, w.sessions[(r.session : Nat)]? = some s ∧ s.closed = false) :
    Brings readings w w' [⟨ticket, w.now, answer⟩] := by
  refine ⟨hans, ?_, ?_⟩
  · intro a ha
    rw [List.mem_singleton.mp ha]
    exact hnow.symm
  · intro a ha
    rw [List.mem_singleton.mp ha]
    exact hopen

theorem Step.brings (hst : Step w w') (hx : Sound readings w) :
    ∃ new, Brings readings w w' new := by
  cases hst with
  | reply _ hno =>
    refine ⟨_, .one rfl rfl ?_⟩
    intro hempty
    exact absurd hempty (hno .empty)
  | served _ _ ht =>
    refine ⟨_, .one rfl rfl ?_⟩
    intro hempty
    obtain rfl := Answer.read.inj hempty
    exact absurd ht Session.take_ne_empty
  | @left h s p hp hwait hwake hs hq =>
    refine ⟨_, .one rfl rfl ?_⟩
    intro _ r hr ht
    obtain ⟨r₀, -, -, hsession, -, hsame⟩ := hx.reading hp hwait
    obtain rfl := hsame r hr ht
    refine ⟨s, by rw [hsession, hs], ?_⟩
    exact (hq (List.ne_nil_of_mem (hx.inLine hp hwait hs))).2
  | _ => exact ⟨[], .nothing rfl⟩

theorem Steps.wasOpen (hst : Steps w w') {h : Nat} {s' : Session} (hlt : h < w.sessions.length)
    (hs' : w'.sessions[h]? = some s') (hopen : s'.closed = false) :
    ∃ s, w.sessions[h]? = some s ∧ s.closed = false := by
  refine ⟨w.sessions[h], List.getElem?_eq_getElem hlt, ?_⟩
  cases hc : w.sessions[h].closed with
  | false => rfl
  | true =>
    have hclosed := hst.closed (List.getElem?_eq_getElem hlt) hs' hc
    simp [hopen] at hclosed

theorem Steps.brings (hst : Steps w w') (hx : Sound readings w) :
    ∃ new, Brings readings w w' new := by
  induction hst with
  | refl => exact ⟨[], .nothing rfl⟩
  | @tail w₁ w₂ hsteps hstep ih =>
    obtain ⟨new, hnew⟩ := ih
    obtain ⟨later, hlater⟩ := hstep.brings (Steps.sound hsteps hx)
    refine ⟨new ++ later, ?_, ?_, ?_⟩
    · rw [hlater.answers, hnew.answers, List.append_assoc]
    · intro a ha
      rcases List.mem_append.mp ha with ha | ha
      · exact (hnew.time a ha).trans hstep.now.symm
      · exact hlater.time a ha
    · intro a ha hempty r hr ht
      rcases List.mem_append.mp ha with ha | ha
      · exact hnew.isOpen a ha hempty r hr ht
      · obtain ⟨s, hs, hopen⟩ := hlater.isOpen a ha hempty r hr ht
        exact Steps.wasOpen hsteps (hx.drawn r hr).2 hs hopen

omit [Transport σ] in
theorem now_read (h : Nat) (span : Millis) : (w.read h span).2.now = w.now := by
  cases hs : w.sessions[h]? with
  | none =>
    rw [read_none hs]
    rfl
  | some s =>
    rw [read_eq hs]
    cases s.join w.nextTicket (0 < span) with
    | mk outcome s' => cases outcome <;> rfl

theorem read_brings (hx : Sound readings w) (hset : w.Settled) {h : Nat} {s : Session}
    (hs : w.sessions[h]? = some s) (span : Millis) :
    (∃ outcome, (w.read h span).2.answers = w.answers ++ [⟨w.nextTicket, w.now, .read outcome⟩] ∧
      (outcome = .empty → s.closed = false ∧ s.queued = [])) ∨
    (w.read h span).2.answers = w.answers ∧ s.closed = false ∧ s.queued = [] := by
  have hq : s.Quiet := hset s (List.mem_of_getElem? hs)
  rw [read_eq hs]
  cases hj : s.join w.nextTicket (0 < span) with
  | mk outcome s' =>
    cases outcome with
    | none => exact .inr ⟨rfl, (Session.join_none hq hj).2⟩
    | some outcome =>
      have hempty := (Session.join_some (hx.consistent hs) hq hj).2.2.2
      exact .inl ⟨outcome, rfl, fun he => (hempty he).2⟩

/-- A switchboard and the readings that were called for. -/
structure Watched (σ : Type) where
  board : Switchboard σ
  readings : List Reading

omit [Transport σ] in
/-- The reading that a call comes to, if its session is there. -/
def Call.reading? (w : Switchboard σ) : Call σ → Option Reading
  | .read h span => if h < w.sessions.length then some ⟨w.nextTicket, h, w.now, span⟩ else none
  | _ => none

/-- What a call makes of a switchboard that is watched. -/
def watch (c : Call σ) (u : Watched σ) : Watched σ :=
  ⟨u.board.take c, u.readings ++ (c.reading? u.board).toList⟩

namespace Watched

/-- The answers that a call brings. -/
def news (u : Watched σ) (c : Call σ) : List Answered :=
  (u.board.take c).answers.drop u.board.answers.length

/-- What readers of a session have learned, in the order in which they learned it. -/
def learned (u : Watched σ) (h : Handle) : List ReadOutcome := outcomes u.readings u.board h

structure Good (u : Watched σ) : Prop where
  sound : Sound u.readings u.board
  settled : u.board.Settled

end Watched

namespace Traffic

def start (x : Traffic σ) : Watched σ := ⟨.new x.transport x.settings, []⟩

def history (x : Traffic σ) : List (Watched σ × Call σ) := trail watch x.start x.calls

def outcome (x : Traffic σ) : Watched σ := reach watch x.start x.calls

theorem run (x : Traffic σ) : Run watch x.start x.history x.outcome := .of_actions watch x.start x.calls

end Traffic

theorem Sound.tick (hx : Sound readings w) (time : Millis) : Sound readings { w with
    now := max w.now time
    transport := Transport.wake (max w.now time) w.transport } :=
  hx.of_stirs_only (stirs_same rfl) rfl rfl rfl

theorem sound_read_none (hx : Sound readings w) {h : Nat} (hs : w.sessions[h]? = none)
    (span : Millis) : Sound readings (w.read h span).2 := by
  rw [read_none hs]
  have hidle : w.draw.2.Idle w.nextTicket := hx.booked.idle_draw
  have hdraw : Sound readings w.draw.2 := Step.draw.sound hx
  apply hdraw.reply hidle
  right
  intro r hr
  exact Nat.ne_of_lt (hx.drawn r hr).1

omit [Transport σ] in
theorem Call.reading?_plain {c : Call σ} (hc : c.Plain) : c.reading? w = none := by
  cases c with
  | read => cases hc
  | _ => rfl

/-- Every call leaves a switchboard sound and settled. -/
theorem Watched.Good.watch {u : Watched σ} (hu : u.Good) (c : Call σ) : (watch c u).Good := by
  refine ⟨?_, settled_take hu.settled c⟩
  unfold Switchboard.watch
  by_cases hc : c.Plain
  · rw [Call.reading?_plain hc, Option.toList_none, List.append_nil]
    exact (steps_take hu.sound.booked hu.settled hc).sound hu.sound
  · cases c with
    | read h span =>
      cases hs : u.board.sessions[h]? with
      | none =>
        have hno : ¬ h < u.board.sessions.length := by simpa using hs
        simpa [take, Call.reading?, hno] using sound_read_none hu.sound hs span
      | some s =>
        have hlt := (List.getElem?_eq_some_iff.mp hs).1
        simpa [take, Call.reading?, hlt] using hu.sound.read hu.settled hs span
    | advance time =>
      simpa [take, Call.reading?] using (steps_settle _).sound (hu.sound.tick time)
    | _ => exact absurd trivial hc

theorem Traffic.good_start (x : Traffic σ) : x.start.Good where
  sound :=
    { booked := ⟨by simp [start, new], by simp [start, new]⟩
      distinct := by simp [start]
      drawn := by simp [start]
      answered := by simp [start, new]
      line := by simp [start, new]
      timer := by simp [start, new]
      pending := by simp [start]
      lives := by simp [start, new]
      drained := by simp [start, new]
      final := by simp [start, new, outcomes]
      timely := by simp [start, new] }
  settled := by simp [start, new, Settled]

theorem Traffic.good (x : Traffic σ) : x.outcome.Good :=
  x.run.invariant x.good_start fun c _ hu => hu.watch c

theorem Traffic.good_of_mem {x : Traffic σ} {u : Watched σ} {c : Call σ}
    (hm : (u, c) ∈ x.history) : u.Good := by
  obtain ⟨before, after, -, hr, -⟩ := x.run.cut hm
  exact hr.invariant x.good_start fun c _ hu => hu.watch c

theorem Watched.Good.brings {u : Watched σ} (hu : u.Good) (c : Call σ) :
    ∃ new, Brings (Switchboard.watch c u).readings u.board (u.board.take c) new := by
  unfold Switchboard.watch
  by_cases hc : c.Plain
  · rw [Call.reading?_plain hc, Option.toList_none, List.append_nil]
    exact (steps_take hu.sound.booked hu.settled hc).brings hu.sound
  · cases c with
    | read h span =>
      cases hs : u.board.sessions[h]? with
      | none =>
        have hans : (u.board.read h span).2.answers = u.board.answers ++
            [⟨u.board.nextTicket, u.board.now, .read .disconnected⟩] := by
          rw [read_none hs]
          rfl
        refine ⟨_, .one hans (now_read h span) ?_⟩
        intro hempty
        cases Answer.read.inj hempty
      | some s =>
        have hlt := (List.getElem?_eq_some_iff.mp hs).1
        rcases read_brings hu.sound hu.settled hs span with ⟨outcome, hans, hout⟩ | ⟨hans, -⟩
        · refine ⟨_, .one hans (now_read h span) ?_⟩
          intro hempty r hr ht
          simp only [Call.reading?, hlt, if_true, Option.toList_some] at hr
          rcases List.mem_append.mp hr with hr | hr
          · exact absurd ht (Nat.ne_of_lt (hu.sound.drawn r hr).1)
          · obtain rfl := List.mem_singleton.mp hr
            exact ⟨s, hs, (hout (Answer.read.inj hempty)).1⟩
        · exact ⟨[], .nothing hans⟩
    | advance time =>
      obtain ⟨new, hnew⟩ := (steps_settle _).brings (hu.sound.tick time)
      refine ⟨new, hnew.answers, hnew.time, ?_⟩
      simpa [Call.reading?] using hnew.isOpen
    | _ => exact absurd trivial hc

/-- What readers can rely on over a run. -/
structure Traffic.Reliable (x : Traffic σ) : Prop where
  /-- Once a reader has learned that the session is closed, every later one learns the same. -/
  final : ∀ h, (x.outcome.learned h).Pairwise fun a b => a = .disconnected → b = .disconnected
  /-- By then the session is closed, and readers got everything that was in its queue. -/
  drained : ∀ (h : Nat) s, x.outcome.board.sessions[h]? = some s →
    .disconnected ∈ x.outcome.learned h → s.closed = true ∧ s.queued = []
  /-- Every session lives a life in which its readers have learned what they have learned, and
  what they got is what the driver took of output, up to what is in the queue. -/
  lives : ∀ (h : Nat) s, x.outcome.board.sessions[h]? = some s → ∃ l : Session.Life σ,
    l.session = s ∧ Session.returned l.history = x.outcome.learned h ∧
      (x.outcome.learned h).filterMap ReadOutcome.bytes? ++ s.queued =
        (Session.consumed l.history).filterMap Message.payload?
  /-- Who gets nothing has waited for the whole span and leaves an open session. -/
  patient : ∀ u c, (u, c) ∈ x.history → ∀ a ∈ u.news c, a.answer = .read .empty →
    ∀ r ∈ (watch c u).readings, r.ticket = a.ticket → r.deadline ≤ a.time ∧
      a.time = (watch c u).board.now ∧
      ∃ s, u.board.sessions[(r.session : Nat)]? = some s ∧ s.closed = false
  /-- Who reads a session that is closed or has output does not wait. -/
  prompt : ∀ u (h : Nat) span s, (u, .read h span) ∈ x.history →
    u.board.sessions[h]? = some s → s.closed = true ∨ s.queued ≠ [] →
    ∃ outcome, outcome ≠ .empty ∧
      u.news (.read h span) = [⟨u.board.nextTicket, u.board.now, .read outcome⟩]
  /-- Who waits when the session closes is answered at the same moment. -/
  released : ∀ u c, (u, c) ∈ x.history → ∀ r ∈ u.readings, ¬ u.board.Told r.ticket →
    ∀ s, (watch c u).board.sessions[(r.session : Nat)]? = some s → s.closed = true →
      ∃ a ∈ u.news c, a.ticket = r.ticket ∧ a.time = (watch c u).board.now ∧
        ∃ outcome, a.answer = .read outcome

omit [Transport σ] in
theorem drop_of_append {old new all : List Answered} (h : all = old ++ new) :
    all.drop old.length = new := by
  rw [h, List.drop_left]

theorem Traffic.reliable (x : Traffic σ) : x.Reliable where
  final := x.good.sound.final
  drained := x.good.sound.drained
  lives := by
    intro h s hs
    obtain ⟨l, hl, hret⟩ := x.good.sound.lives h s hs
    have hsession : l.session = s := congrArg Prod.fst hl
    have hqueue := Session.returned_append_queued l.run (Session.Consistent.new _ _ _) rfl
    refine ⟨l, hsession, hret, ?_⟩
    rw [← hsession, Watched.learned, ← hret]
    exact hqueue
  patient := by
    intro u c hm a ha hempty r hr ht
    have hu := x.good_of_mem hm
    obtain ⟨new, hnew⟩ := hu.brings c
    rw [Watched.news, drop_of_append hnew.answers] at ha
    refine ⟨?_, hnew.time a ha, hnew.isOpen a ha hempty r hr ht⟩
    have hall : a ∈ (watch c u).board.answers := by
      have hans : (watch c u).board.answers = u.board.answers ++ new := hnew.answers
      rw [hans]
      exact List.mem_append_right _ ha
    exact (hu.watch c).sound.timely a hall r hr ht hempty
  prompt := by
    intro u h span s hm hs hwhy
    have hu := x.good_of_mem hm
    rcases read_brings hu.sound hu.settled hs span with ⟨outcome, hans, hempty⟩ | ⟨-, hopen, hq⟩
    · refine ⟨outcome, ?_, drop_of_append hans⟩
      intro he
      obtain ⟨hopen, hq⟩ := hempty he
      simp [hopen, hq] at hwhy
    · simp [hopen, hq] at hwhy
  released := by
    intro u c hm r hr htold s hs hclosed
    have hu := x.good_of_mem hm
    have hu' := hu.watch c
    obtain ⟨new, hnew⟩ := hu.brings c
    rcases hu'.sound.pending r (List.mem_append_left _ hr) with ⟨a, ha, hat, hread⟩ | ⟨s₁, hs₁, hin⟩
    · have hans : (watch c u).board.answers = u.board.answers ++ new := hnew.answers
      rw [hans] at ha
      rcases List.mem_append.mp ha with ha | ha
      · exact absurd ⟨a, ha, hat, hread⟩ htold
      · refine ⟨a, ?_, hat, hnew.time a ha, hread⟩
        rwa [Watched.news, drop_of_append hnew.answers]
    · -- Nobody stands in line at a session that has closed.
      rw [hs] at hs₁
      obtain rfl : s = s₁ := Option.some.inj hs₁
      have hopen := (hu'.settled s (List.mem_of_getElem? hs) (List.ne_nil_of_mem hin)).2
      simp [hclosed] at hopen

end MeshShell.Switchboard

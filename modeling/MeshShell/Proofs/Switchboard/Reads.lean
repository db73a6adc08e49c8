import MeshShell.Proofs.Switchboard.Lines

/-! # What readers learn

A reader learns that a session is closed only after its queue has run empty, and
then nobody learns anything else. A reader that gets nothing has waited until
its time was up.
-/
namespace MeshShell

namespace Answered

/-- What an answer tells a reader of the given session. -/
def tells? (readings : List Reading) (h : Handle) (a : Answered) : Option ReadOutcome :=
  match a.answer with
  | .read outcome =>
    if ∃ r ∈ readings, r.ticket = a.ticket ∧ r.session = h then some outcome else none
  | _ => none

/-- An answer to nobody who reads. -/
def Foreign (readings : List Reading) (a : Answered) : Prop :=
  (∀ outcome, a.answer ≠ .read outcome) ∨ ∀ r ∈ readings, r.ticket ≠ a.ticket

variable {readings : List Reading} {a : Answered} {h : Handle}

theorem tells?_of_not (hno : ¬ ∃ r ∈ readings, r.ticket = a.ticket ∧ r.session = h) :
    a.tells? readings h = none := by
  unfold tells?
  cases a.answer <;> simp [hno]

theorem Foreign.tells? (ha : a.Foreign readings) (h : Handle) : a.tells? readings h = none := by
  rcases ha with hno | hno
  · unfold Answered.tells?
    cases ho : a.answer with
    | read outcome => exact absurd ho (hno outcome)
    | _ => rfl
  · apply tells?_of_not
    rintro ⟨r, hr, ht, -⟩
    exact hno r hr ht

end Answered

namespace Session

variable {σ : Type} [Transport σ] {s s' : Session}

omit [Transport σ] in
theorem join_none {ticket : Ticket} {patient : Bool} (hq : s.Quiet) (hj : s.join ticket patient = (none, s')) :
    s' = { s with readers := s.readers ++ [ticket] } ∧ s.closed = false ∧ s.queued = [] := by
  rcases s.join_cases ticket patient with ⟨-, _, _, -, he⟩ | ⟨hwhy, ⟨-, he⟩ | ⟨-, he⟩⟩
  · simp [he] at hj
  · obtain ⟨ho, hc⟩ := hq.nothing hwhy
    rw [he] at hj
    exact ⟨(Prod.mk.inj hj).2.symm, hc, by simp [queued, ho]⟩
  · simp [he] at hj

/-- What a caller learns that does not wait. -/
theorem join_some {ticket : Ticket} {patient : Bool} {outcome : ReadOutcome} (hc : Consistent s) (hq : s.Quiet)
    (hj : s.join ticket patient = (some outcome, s')) :
    s'.readers = s.readers ∧ (outcome = .disconnected → s'.closed = true ∧ s'.queued = []) ∧
      (s.closed = true → s.queued = [] → outcome = .disconnected) ∧
      (outcome = .empty → patient = false ∧ s.closed = false ∧ s.queued = []) := by
  rcases s.join_cases ticket patient with ⟨-, o, s₁, ht, he⟩ | ⟨hwhy, ⟨-, he⟩ | ⟨hp, he⟩⟩
  · rw [he] at hj
    obtain ⟨ho, rfl⟩ := Prod.mk.inj hj
    obtain rfl := Option.some.inj ho
    refine ⟨?_, ?_, fun hclosed hqueue => take_closed hclosed hqueue ht, ?_⟩
    · obtain ⟨queue, rfl⟩ := take_frame ht
      rfl
    · rintro rfl
      exact take_disconnected hc ht
    · rintro rfl
      exact absurd ht take_ne_empty
  · simp [he] at hj
  · obtain ⟨hout, hclosed⟩ := hq.nothing hwhy
    rw [he] at hj
    obtain ⟨ho, rfl⟩ := Prod.mk.inj hj
    have hidle : outcome = .empty := by simpa [idle, hclosed, eq_comm] using ho
    refine ⟨rfl, ?_, ?_, fun _ => ⟨hp, hclosed, by simp [queued, hout]⟩⟩
    · intro hdis
      rw [hidle] at hdis
      cases hdis
    · intro hclosed'
      simp [hclosed] at hclosed'

end Session

namespace Switchboard

variable {σ : Type}

/-- What readers of a session have learned, in the order in which they learned it. -/
def outcomes (readings : List Reading) (w : Switchboard σ) (h : Handle) : List ReadOutcome :=
  w.answers.filterMap (Answered.tells? readings h)

variable [Transport σ]

/-- What readers have learned is true. -/
structure Honest (readings : List Reading) (w : Switchboard σ) : Prop where
  /-- Every session lives a life in which its readers have learned what they have learned. -/
  lives : ∀ (h : Nat) s, w.sessions[h]? = some s → ∃ l : Session.Life σ,
    l.outcome = (s, w.transport) ∧ Session.returned l.history = outcomes readings w h
  /-- Who learns of the closing finds nothing more in the queue. -/
  drained : ∀ (h : Nat) s, w.sessions[h]? = some s → .disconnected ∈ outcomes readings w h →
    s.closed = true ∧ s.queued = []
  final : ∀ h, (outcomes readings w h).Pairwise fun a b => a = .disconnected → b = .disconnected
  timely : ∀ a ∈ w.answers, ∀ r ∈ readings, r.ticket = a.ticket → a.answer = .read .empty →
    r.deadline ≤ a.time

/-- Everyone who has read is taken care of, and has learned the truth. -/
structure Sound (readings : List Reading) (w : Switchboard σ) : Prop extends
    Attended readings w, Honest readings w

variable {readings : List Reading} {w w' : Switchboard σ}

theorem Honest.consistent (hx : Honest readings w) {h : Nat} {s : Session}
    (hs : w.sessions[h]? = some s) : s.Consistent := by
  obtain ⟨l, hl, -⟩ := hx.lives h s hs
  have hc := l.consistent
  rwa [Session.Life.session, hl] at hc

omit [Transport σ] in
theorem Attended.outcomes_none (hx : Attended readings w) {h : Nat}
    (hs : w.sessions[h]? = none) : outcomes readings w h = [] := by
  rw [outcomes, List.filterMap_eq_nil_iff]
  intro a _
  apply Answered.tells?_of_not
  rintro ⟨r, hr, -, rfl⟩
  exact absurd (hx.drawn r hr).2 (Nat.not_lt_of_le (List.getElem?_eq_none_iff.mp hs))

omit [Transport σ] in
theorem outcomes_foreign {new : List Answered} (hans : w'.answers = w.answers ++ new)
    (hnew : ∀ a ∈ new, a.Foreign readings) (h : Handle) :
    outcomes readings w' h = outcomes readings w h := by
  have hnil : new.filterMap (Answered.tells? readings h) = [] :=
    List.filterMap_eq_nil_iff.mpr fun a ha => (hnew a ha).tells? h
  rw [outcomes, hans, List.filterMap_append, hnil, List.append_nil]
  rfl

theorem Sound.of_stirs (hx : Sound readings w) (hst : Stirs w w') (hbooked : w'.Booked)
    (hnext : w.nextTicket ≤ w'.nextTicket)
    (hwaits : ∀ p h, p.wait = .reading h → (p ∈ w'.waits ↔ p ∈ w.waits)) (new : List Answered)
    (hans : w'.answers = w.answers ++ new)
    (hnew : ∀ a ∈ new, w'.Idle a.ticket ∧ a.Foreign readings) : Sound readings w' := by
  have hout := outcomes_foreign hans fun a ha => (hnew a ha).2
  refine
    { toAttended := hx.toAttended.of_stirs hst hbooked hnext hwaits new hans fun a ha => (hnew a ha).1
      lives := ?_
      drained := ?_
      final := fun h => hout h ▸ hx.final h
      timely := ?_ }
  · intro h s' hs'
    rw [hout]
    cases hold : w.sessions[h]? with
    | none =>
      obtain ⟨id, d, settings, rfl⟩ := hst.fresh h s' hold hs'
      exact ⟨⟨id, d, settings, w'.transport, []⟩, rfl, (hx.outcomes_none hold).symm⟩
    | some s =>
      obtain ⟨l, hl, hret⟩ := hx.lives h s hold
      obtain ⟨s₁, hs₁, hist, hr, hsilent⟩ := hst.kept h s hold
      obtain rfl : s₁ = s' := Option.some.inj (hs₁.symm.trans hs')
      obtain ⟨l', hl', hret'⟩ := Session.exists_life hl hr
      refine ⟨l', hl', ?_⟩
      rw [hret', Session.returned_silent hsilent, List.append_nil, hret]
  · intro h s' hs' hmem
    rw [hout] at hmem
    cases hold : w.sessions[h]? with
    | none => simp [hx.outcomes_none hold] at hmem
    | some s =>
      obtain ⟨s₁, hs₁, hact⟩ := hst.kept h s hold
      obtain rfl : s₁ = s' := Option.some.inj (hs₁.symm.trans hs')
      obtain ⟨hc, hq⟩ := hx.drained h s hold hmem
      obtain ⟨hist, hr, -⟩ := id hact
      exact ⟨Session.closed_of_run hr hc, (hact.queued (hx.consistent hold) hc).trans hq⟩
  · intro a ha r hr hra hempty
    rw [hans] at ha
    rcases List.mem_append.mp ha with ha | ha
    · exact hx.timely a ha r hr hra hempty
    · rcases (hnew a ha).2 with hno | hno
      · exact absurd hempty (hno _)
      · exact absurd hra (hno r hr)

theorem Sound.of_stirs_only (hx : Sound readings w) (hst : Stirs w w') (hwaits : w'.waits = w.waits)
    (hans : w'.answers = w.answers) (hnext : w'.nextTicket = w.nextTicket) : Sound readings w' := by
  have hbooked : w'.Booked := by
    unfold Booked
    rw [hwaits, hnext]
    exact hx.booked
  refine hx.of_stirs hst hbooked (Nat.le_of_eq hnext.symm) ?_ [] (by simp [hans]) (by simp)
  intro p h _
  rw [hwaits]

omit [Transport σ] in
theorem tells?_reading {r : Reading} (hr : r ∈ readings)
    (hsame : ∀ r' ∈ readings, r'.ticket = r.ticket → r' = r) (outcome : ReadOutcome)
    (time : Millis) (g : Handle) : Answered.tells? readings g ⟨r.ticket, time, .read outcome⟩ =
      if g = r.session then some outcome else none := by
  by_cases hg : g = r.session
  · rw [if_pos hg]
    exact if_pos ⟨r, hr, rfl, hg.symm⟩
  · rw [if_neg hg]
    apply if_neg
    rintro ⟨r', hr', ht, hr'g⟩
    obtain rfl := hsame r' hr' ht
    exact hg hr'g.symm

/-- A reader learns what there is to learn. -/
theorem Honest.tell (hx : Honest readings w) {r : Reading} {s s' : Session}
    {outcome : ReadOutcome} {a : Session.Action σ} (hr : r ∈ readings)
    (hsame : ∀ r' ∈ readings, r'.ticket = r.ticket → r' = r)
    (hs : w.sessions[(r.session : Nat)]? = some s)
    (hnext : Session.next a (s, w.transport) = (s', w.transport))
    (hres : s.results a = [outcome])
    (hdone : outcome = .disconnected → s'.closed = true ∧ s'.queued = [])
    (hlast : s.closed = true → s.queued = [] → outcome = .disconnected)
    (hempty : outcome = .empty → r.deadline ≤ w.now) :
    Honest readings (w.tell r.session s' r.ticket outcome) := by
  have hout : ∀ g, outcomes readings (w.tell r.session s' r.ticket outcome) g =
      outcomes readings w g ++ (if g = r.session then some outcome else none).toList := by
    intro g
    rw [outcomes, answers_tell, List.filterMap_append, ← tells?_reading hr hsame outcome w.now g]
    cases ht : Answered.tells? readings g ⟨r.ticket, w.now, .read outcome⟩ <;> simp [outcomes, ht]
  refine
    { lives := ?_
      drained := ?_
      final := ?_
      timely := ?_ }
  · intro g s₁ hs₁
    rw [hout]
    rcases sessions_tell_cases hs₁ with ⟨rfl, rfl⟩ | ⟨hg, hs₁⟩
    · obtain ⟨l, hl, hret⟩ := hx.lives r.session s hs
      have hrun : Run Session.next (s, w.transport) [_] _ := .single a (s, w.transport)
      rw [hnext] at hrun
      obtain ⟨l', hl', hret'⟩ := Session.exists_life hl hrun
      refine ⟨l', hl', ?_⟩
      rw [hret', hret]
      simp [Session.returned, hres]
    · simpa [hg] using hx.lives g s₁ hs₁
  · intro g s₁ hs₁ hdis
    rw [hout] at hdis
    rcases sessions_tell_cases hs₁ with ⟨rfl, rfl⟩ | ⟨hg, hs₁⟩
    · rcases List.mem_append.mp hdis with hdis | hdis
      · obtain ⟨hc, hq⟩ := hx.drained r.session s hs hdis
        exact hdone (hlast hc hq)
      · exact hdone (by simpa [eq_comm] using hdis)
    · exact hx.drained g s₁ hs₁ (by simpa [hg] using hdis)
  · intro g
    rw [hout]
    by_cases hg : g = r.session
    · subst hg
      refine List.pairwise_append.mpr ⟨hx.final _, by simp, ?_⟩
      intro b hb c hc hdis
      subst hdis
      obtain ⟨hclosed, hq⟩ := hx.drained r.session s hs hb
      have hlast := hlast hclosed hq
      simpa [hlast] using hc
    · simpa [hg] using hx.final g
  · intro b hb r' hr' hrb hbe
    rcases List.mem_append.mp hb with hb | hb
    · exact hx.timely b hb r' hr' hrb hbe
    · obtain rfl := List.mem_singleton.mp hb
      obtain rfl := hsame r' hr' hrb
      exact hempty (Answer.read.inj hbe)

theorem Sound.tell (hx : Sound readings w) {h : Nat} {s s' : Session} {p : Pending}
    {outcome : ReadOutcome} {a : Session.Action σ} (hp : p ∈ w.waits)
    (hwait : p.wait = .reading h) (hs : w.sessions[h]? = some s)
    (hnext : Session.next a (s, w.transport) = (s', w.transport))
    (hres : s.results a = [outcome]) (hline : s'.readers = s.readers.filter (· ≠ p.ticket))
    (hdone : outcome = .disconnected → s'.closed = true ∧ s'.queued = [])
    (hlast : s.closed = true → s.queued = [] → outcome = .disconnected)
    (hempty : outcome = .empty → p.wake ≤ w.now) :
    Sound readings (w.tell h s' p.ticket outcome) := by
  have hattended := hx.toAttended.tell hp hwait hs hline outcome
  obtain ⟨r, hr, hrt, rfl, hwake, hsame⟩ := hx.reading hp hwait
  rw [← hrt] at hsame hattended ⊢
  rw [hwake] at hempty
  exact ⟨hattended, hx.toHonest.tell hr hsame hs hnext hres hdone hlast hempty⟩

omit [Transport σ] in
theorem Attended.inLine (hx : Attended readings w) {p : Pending} {h : Nat} {s : Session}
    (hp : p ∈ w.waits) (hwait : p.wait = .reading h) (hs : w.sessions[h]? = some s) :
    p.ticket ∈ s.readers := by
  obtain ⟨hno, r, hr, hrt, hrh, -⟩ := hx.timer p hp h hwait
  rcases hx.pending r hr with ⟨a, ha, hat, -⟩ | ⟨s₁, hs₁, hin⟩
  · exact absurd (hat.trans hrt) (hno a ha)
  · rw [hrh, hs] at hs₁
    obtain rfl : s = s₁ := Option.some.inj hs₁
    rwa [hrt] at hin

theorem Sound.arm (hx : Sound readings w) {p : Pending} (hi : w.Idle p.ticket)
    (hno : ∀ h, p.wait ≠ .reading h) : Sound readings (w.arm p) := by
  refine hx.of_stirs (stirs_same rfl) (hx.booked.arm hi.1) (Nat.le_refl _) ?_ []
    (List.append_nil _).symm (by simp)
  intro q h hq
  rw [mem_waits_arm]
  constructor
  · rintro (⟨hmem, -⟩ | rfl)
    · exact hmem
    · exact absurd hq (hno h)
  · intro hmem
    exact .inl ⟨hmem, fun ht => hi.2 q hmem ht h hq⟩

theorem Sound.rearm (hx : Sound readings w) {p : Pending} (hp : p ∈ w.waits) :
    Sound readings (w.arm p) := by
  refine hx.of_stirs (stirs_same rfl) (hx.booked.arm (hx.booked.2 p hp)) (Nat.le_refl _) ?_ []
    (List.append_nil _).symm (by simp)
  intro q h _
  rw [mem_waits_arm]
  constructor
  · rintro (⟨hmem, -⟩ | rfl)
    · exact hmem
    · exact hp
  · intro hmem
    by_cases ht : q.ticket = p.ticket
    · exact .inr (List.inj_on_of_nodup_map hx.booked.1 hmem hp ht)
    · exact .inl ⟨hmem, ht⟩

theorem Sound.reply (hx : Sound readings w) {ticket : Ticket} (hi : w.Idle ticket)
    {answer : Answer} (hno : Answered.Foreign readings ⟨ticket, w.now, answer⟩) :
    Sound readings (w.reply ticket answer) := by
  refine hx.of_stirs (stirs_same rfl) (hx.booked.reply ticket answer) (Nat.le_refl _) ?_
    [⟨ticket, w.now, answer⟩] rfl ?_
  · intro q h hq
    rw [mem_waits_reply]
    exact and_iff_left_of_imp fun hmem ht => hi.2 q hmem ht h hq
  · intro a ha
    obtain rfl := List.mem_singleton.mp ha
    exact ⟨⟨hi.1, fun q hq => hi.2 q (mem_waits_reply.mp hq).1⟩, hno⟩

theorem Sound.serve (hx : Sound readings w) {h : Nat} {s s' : Session} {ticket : Ticket}
    {rest : List Ticket} {outcome : ReadOutcome} (hs : w.sessions[h]? = some s)
    (hl : s.readers = ticket :: rest) (ht : s.take = (some outcome, s')) :
    Sound readings (w.tell h { s' with readers := rest } ticket outcome) := by
  obtain ⟨hnodup, hall⟩ := hx.line h s hs
  obtain ⟨p, hp, rfl, hwait⟩ := hall ticket (by simp [hl])
  have hline : rest = s.readers.filter (· ≠ p.ticket) := by
    rw [hl] at hnodup ⊢
    have hne : ∀ t ∈ rest, t ≠ p.ticket := by
      rintro t hmem rfl
      exact (List.nodup_cons.mp hnodup).1 hmem
    simpa using (List.filter_eq_self.mpr fun t hmem => by simpa using hne t hmem).symm
  refine hx.tell (a := .serve) hp hwait hs ?_ ?_ hline ?_ ?_ ?_
  · simp [Session.next, Session.serveFirst, hl, ht]
  · simp [Session.results, Session.serveFirst, hl, ht]
  · rintro rfl
    have hend := Session.take_disconnected (hx.consistent hs) ht
    exact hend
  · intro hclosed hq
    exact Session.take_closed hclosed hq ht
  · rintro rfl
    exact absurd ht Session.take_ne_empty

theorem Sound.leave (hx : Sound readings w) {h : Nat} {s : Session} {p : Pending}
    (hp : p ∈ w.waits) (hwait : p.wait = .reading h) (hwake : p.wake ≤ w.now)
    (hs : w.sessions[h]? = some s) (hq : s.Quiet) :
    Sound readings (w.tell h (s.leave p.ticket).2 p.ticket (s.leave p.ticket).1) := by
  have hin := hx.inLine hp hwait hs
  have hopen : s.closed = false := (hq (List.ne_nil_of_mem hin)).2
  have hidle : (s.leave p.ticket).1 = .empty := by simp [Session.leave, Session.idle, hopen]
  refine hx.tell (a := .expire p.ticket) hp hwait hs rfl ?_ rfl ?_ ?_ ?_
  · simp [Session.results, hin]
  · intro hdis
    rw [hidle] at hdis
    cases hdis
  · intro hclosed
    simp [hopen] at hclosed
  · exact fun _ => hwake

theorem Step.sound (hst : Step w w') (hx : Sound readings w) : Sound readings w' := by
  cases hst with
  | act hg hact => exact hx.of_stirs_only (stirs_put hg hact) rfl rfl rfl
  | callback c => exact hx.of_stirs_only (stirs_callback c) rfl rfl rfl
  | transport t => exact hx.of_stirs_only (stirs_same rfl) rfl rfl rfl
  | made id d settings => exact hx.of_stirs_only (stirs_made id d settings) rfl rfl rfl
  | table rows => exact hx.of_stirs_only (stirs_same rfl) rfl rfl rfl
  | draw =>
    exact hx.of_stirs (stirs_same rfl) (Step.draw.booked hx.booked) (Nat.le_succ _)
      (fun _ _ _ => Iff.rfl) [] (List.append_nil _).symm (by simp)
  | arm hi hno => exact hx.arm hi hno
  | rearm hp => exact hx.rearm hp
  | reply hi hno => exact hx.reply hi (.inl hno)
  | served hs hl ht => exact hx.serve hs hl ht
  | left hp hwait hwake hs hq => exact hx.leave hp hwait hwake hs hq

theorem Steps.sound (hst : Steps w w') (hx : Sound readings w) : Sound readings w' := by
  induction hst with
  | refl => exact hx
  | tail _ hstep ih => exact hstep.sound ih

omit [Transport σ] in
theorem read_eq {h : Nat} {s : Session} (hs : w.sessions[h]? = some s) (span : Millis) :
    (w.read h span).2 =
      match s.join w.nextTicket (0 < span) with
      | (some outcome, s') => w.draw.2.tell h s' w.nextTicket outcome
      | (none, s') => { w.draw.2 with sessions := w.sessions.set h s' }.arm
          ⟨w.nextTicket, w.now + span, .reading h⟩ := by
  have hdraw : w.draw.2.sessions[h]? = some s := hs
  unfold read
  dsimp only
  rw [hdraw]
  dsimp only [draw]
  cases s.join w.nextTicket (0 < span) with
  | mk outcome s' => cases outcome <;> rfl

omit [Transport σ] in
theorem tell_lineUp (h : Handle) (s s' : Session) (span : Millis) (outcome : ReadOutcome) :
    (w.lineUp h s span).tell h s' w.nextTicket outcome =
      w.draw.2.tell h s' w.nextTicket outcome := by
  simp [lineUp, tell, arm, reply, draw]

omit [Transport σ] in
theorem read_none {h : Nat} (hs : w.sessions[h]? = none) (span : Millis) :
    (w.read h span).2 = w.draw.2.reply w.nextTicket (.read .disconnected) := by
  have hdraw : w.draw.2.sessions[h]? = none := hs
  unfold read
  dsimp only
  rw [hdraw]
  rfl

theorem Honest.more (hx : Honest readings w) {r : Reading}
    (hnew : ∀ a ∈ w.answers, a.ticket ≠ r.ticket) : Honest (readings ++ [r]) w := by
  have hout : ∀ h, outcomes (readings ++ [r]) w h = outcomes readings w h := by
    intro h
    apply List.filterMap_congr
    intro a ha
    have hiff : (∃ r' ∈ readings ++ [r], r'.ticket = a.ticket ∧ r'.session = h) ↔
        ∃ r' ∈ readings, r'.ticket = a.ticket ∧ r'.session = h := by
      simp [or_and_right, exists_or, Ne.symm (hnew a ha)]
    unfold Answered.tells?
    simp only [hiff]
  refine ⟨?_, ?_, fun h => hout h ▸ hx.final h, ?_⟩
  · intro h s hs
    rw [hout]
    exact hx.lives h s hs
  · intro h s hs
    rw [hout]
    exact hx.drained h s hs
  · intro a ha r' hr' ht hempty
    rcases List.mem_append.mp hr' with hr' | hr'
    · exact hx.timely a ha r' hr' ht hempty
    · rw [List.mem_singleton.mp hr'] at ht
      exact absurd ht.symm (hnew a ha)

theorem Honest.lineUp (hx : Honest readings w) {h : Nat} {s s' : Session} {patient : Bool}
    (hs : w.sessions[h]? = some s) (hq : s.Quiet)
    (hj : s.join w.nextTicket patient = (none, s')) (span : Millis) :
    Honest readings (w.lineUp h s span) := by
  obtain ⟨rfl, hopen, -⟩ := Session.join_none hq hj
  refine ⟨?_, ?_, hx.final, hx.timely⟩
  · intro g s₁ hs₁
    rcases sessions_lineUp_cases hs₁ with ⟨rfl, rfl⟩ | ⟨-, hs₁⟩
    · obtain ⟨l, hl, hret⟩ := hx.lives g s hs
      have hrun : Run Session.next (s, w.transport) [_] _ :=
        .single (.read w.nextTicket patient) (s, w.transport)
      obtain ⟨l', hl', hret'⟩ := Session.exists_life hl hrun
      refine ⟨l', hl'.trans ?_, ?_⟩
      · simp [Session.next, hj, Switchboard.lineUp, arm, draw]
      · rw [hret', hret]
        simp [Session.returned, Session.results, hj]
        rfl
    · exact hx.lives g s₁ hs₁
  · intro g s₁ hs₁ hdis
    rcases sessions_lineUp_cases hs₁ with ⟨rfl, rfl⟩ | ⟨-, hs₁⟩
    · have hclosed := (hx.drained g s hs hdis).1
      simp [hopen] at hclosed
    · exact hx.drained g s₁ hs₁ hdis

theorem Sound.read (hx : Sound readings w) (hset : w.Settled) {h : Nat} {s : Session}
    (hs : w.sessions[h]? = some s) (span : Millis) :
    Sound (readings ++ [⟨w.nextTicket, h, w.now, span⟩]) (w.read h span).2 := by
  have hq : s.Quiet := hset s (List.mem_of_getElem? hs)
  have hnew : ∀ a ∈ w.answers, a.ticket ≠ w.nextTicket :=
    fun a ha => Nat.ne_of_lt (hx.answered a ha)
  have hmore : Honest (readings ++ [⟨w.nextTicket, h, w.now, span⟩]) w := hx.toHonest.more hnew
  have hline := hx.toAttended.lineUp hs span
  rw [read_eq hs]
  cases hj : s.join w.nextTicket (0 < span) with
  | mk outcome s' =>
    cases outcome with
    | none =>
      have hjoined := hmore.lineUp hs hq hj span
      obtain ⟨rfl, -⟩ := Session.join_none hq hj
      exact ⟨hline, hjoined⟩
    | some outcome =>
      dsimp only
      obtain ⟨hreaders, hdone, hlast, hempty⟩ := Session.join_some (hx.consistent hs) hq hj
      have hfresh : ∀ t ∈ s.readers, decide (t ≠ w.nextTicket) = true := by
        intro t ht
        obtain ⟨p, hp, rfl, -⟩ := (hx.line h s hs).2 t ht
        have hlt : p.ticket < w.nextTicket := hx.booked.2 p hp
        simpa using Nat.ne_of_lt hlt
      have hleft : s'.readers = (s.readers ++ [w.nextTicket]).filter (· ≠ w.nextTicket) := by
        rw [hreaders, List.filter_append, List.filter_eq_self.mpr hfresh]
        simp
      have htold := hline.tell ((mem_waits_lineUp hx.booked).mpr (.inr rfl)) rfl
        (sessions_lineUp hs span) hleft outcome
      rw [tell_lineUp] at htold
      have hdraw : Honest (readings ++ [⟨w.nextTicket, h, w.now, span⟩]) w.draw.2 :=
        ⟨hmore.lives, hmore.drained, hmore.final, hmore.timely⟩
      refine ⟨htold, hdraw.tell (r := ⟨w.nextTicket, h, w.now, span⟩)
        (a := .read w.nextTicket (0 < span)) (by simp) ?_ hs ?_ ?_ hdone hlast ?_⟩
      · intro r hr ht
        exact List.inj_on_of_nodup_map hline.distinct hr (by simp) ht
      · simp [Session.next, hj, draw]
      · simp [Session.results, hj]
      · intro he
        have hspan : span = 0 := by simpa using (hempty he).1
        simp [Reading.deadline, hspan, draw]

end Switchboard

end MeshShell

import MeshShell.Proofs.Switchboard.Calls

/-! # Who stands in line

Who has read is written down when the call comes. From then on the reader is in
line with a timer, or has its answer.
-/
namespace MeshShell

/-- A call to read. -/
structure Reading where
  ticket : Ticket
  session : Handle
  start : Millis
  span : Millis
  deriving DecidableEq

def Reading.deadline (r : Reading) : Millis := r.start + r.span

namespace Switchboard

variable {σ : Type}

/-- A reader has its answer. -/
def Told (w : Switchboard σ) (ticket : Ticket) : Prop :=
  ∃ a ∈ w.answers, a.ticket = ticket ∧ ∃ outcome, a.answer = .read outcome

/-- Everyone who has read is taken care of. -/
structure Attended (readings : List Reading) (w : Switchboard σ) : Prop where
  booked : w.Booked
  distinct : (readings.map (·.ticket)).Nodup
  drawn : ∀ r ∈ readings, r.ticket < w.nextTicket ∧ r.session < w.sessions.length
  answered : ∀ a ∈ w.answers, a.ticket < w.nextTicket
  line : ∀ (h : Nat) s, w.sessions[h]? = some s → s.readers.Nodup ∧
    ∀ t ∈ s.readers, ∃ p ∈ w.waits, p.ticket = t ∧ p.wait = .reading h
  timer : ∀ p ∈ w.waits, ∀ h, p.wait = .reading h → (∀ a ∈ w.answers, a.ticket ≠ p.ticket) ∧
    ∃ r ∈ readings, r.ticket = p.ticket ∧ r.session = h ∧ p.wake = r.deadline
  pending : ∀ r ∈ readings, w.Told r.ticket ∨
    ∃ s, w.sessions[r.session]? = some s ∧ r.ticket ∈ s.readers

variable {readings : List Reading} {w w' : Switchboard σ}

theorem Told.append {t : Ticket} {new : List Answered} (hans : w'.answers = w.answers ++ new)
    (ht : w.Told t) : w'.Told t := by
  obtain ⟨a, ha, hat⟩ := ht
  exact ⟨a, by simp [hans, ha], hat⟩

theorem set_cases {l : List Session} {g h : Nat} {s s₁ : Session}
    (hs₁ : (l.set h s)[g]? = some s₁) : g = h ∧ s₁ = s ∨ g ≠ h ∧ l[g]? = some s₁ := by
  by_cases hgh : g = h
  · subst hgh
    obtain ⟨hlt, hget⟩ := List.getElem?_eq_some_iff.mp hs₁
    exact .inl ⟨rfl, by simpa [eq_comm] using hget⟩
  · rw [List.getElem?_set_ne (Ne.symm hgh)] at hs₁
    exact .inr ⟨hgh, hs₁⟩

theorem Attended.reading (hx : Attended readings w) {p : Pending} {h : Handle} (hp : p ∈ w.waits)
    (hwait : p.wait = .reading h) : ∃ r ∈ readings, r.ticket = p.ticket ∧ r.session = h ∧
      p.wake = r.deadline ∧ ∀ r' ∈ readings, r'.ticket = p.ticket → r' = r := by
  obtain ⟨-, r, hr, hrt, hrh, hwake⟩ := hx.timer p hp h hwait
  refine ⟨r, hr, hrt, hrh, hwake, ?_⟩
  intro r' hr' ht
  exact List.inj_on_of_nodup_map hx.distinct hr' hr (ht.trans hrt.symm)

section Tell

variable {h : Nat} {s s' : Session} {ticket : Ticket} {outcome : ReadOutcome}

theorem sessions_tell_cases {g : Nat} {s₁ : Session}
    (hs₁ : (w.tell h s' ticket outcome).sessions[g]? = some s₁) :
    g = h ∧ s₁ = s' ∨ g ≠ h ∧ w.sessions[g]? = some s₁ := set_cases hs₁

theorem sessions_tell (hs : w.sessions[h]? = some s) :
    (w.tell h s' ticket outcome).sessions[h]? = some s' := by
  simp [tell, (List.getElem?_eq_some_iff.mp hs).1]

theorem sessions_tell_ne {g : Nat} (hgh : g ≠ h) :
    (w.tell h s' ticket outcome).sessions[g]? = w.sessions[g]? := by
  simp [tell, hgh.symm]

@[simp] theorem transport_tell :
    (w.tell h s' ticket outcome).transport = w.transport := rfl

theorem answers_tell : (w.tell h s' ticket outcome).answers =
    w.answers ++ [⟨ticket, w.now, .read outcome⟩] := rfl

theorem mem_waits_tell {q : Pending} :
    q ∈ (w.tell h s' ticket outcome).waits ↔ q ∈ w.waits ∧ q.ticket ≠ ticket := mem_waits_reply

end Tell

theorem Attended.tell (hx : Attended readings w) {h : Nat} {s s' : Session} {p : Pending}
    (hp : p ∈ w.waits) (hwait : p.wait = .reading h) (hs : w.sessions[h]? = some s)
    (hline : s'.readers = s.readers.filter (· ≠ p.ticket)) (outcome : ReadOutcome) :
    Attended readings (w.tell h s' p.ticket outcome) where
  booked := hx.booked.tell h s' p.ticket outcome
  distinct := hx.distinct
  drawn := by simpa [Switchboard.tell, reply] using hx.drawn
  answered := by
    intro a ha
    rcases List.mem_append.mp ha with ha | ha
    · exact hx.answered a ha
    · rw [List.mem_singleton.mp ha]
      exact hx.booked.2 p hp
  line := by
    intro g s₁ hs₁
    rcases sessions_tell_cases hs₁ with ⟨rfl, rfl⟩ | ⟨hgh, hs₁⟩
    · obtain ⟨hnodup, hall⟩ := hx.line g s hs
      rw [hline]
      refine ⟨hnodup.filter _, ?_⟩
      intro t ht
      obtain ⟨ht, hne⟩ := List.mem_filter.mp ht
      obtain ⟨q, hq, rfl, hqwait⟩ := hall t ht
      exact ⟨q, mem_waits_tell.mpr ⟨hq, by simpa using hne⟩, rfl, hqwait⟩
    · obtain ⟨hnodup, hall⟩ := hx.line g s₁ hs₁
      refine ⟨hnodup, ?_⟩
      intro t ht
      obtain ⟨q, hq, rfl, hqwait⟩ := hall t ht
      refine ⟨q, mem_waits_tell.mpr ⟨hq, ?_⟩, rfl, hqwait⟩
      -- Who stands in another line has another ticket.
      intro heq
      obtain rfl : q = p := List.inj_on_of_nodup_map hx.booked.1 hq hp heq
      rw [hwait] at hqwait
      exact hgh (Wait.reading.inj hqwait).symm
  timer := by
    intro q hq g hqwait
    obtain ⟨hq, hne⟩ := mem_waits_tell.mp hq
    obtain ⟨hno, hr⟩ := hx.timer q hq g hqwait
    refine ⟨?_, hr⟩
    intro a ha
    rcases List.mem_append.mp ha with ha | ha
    · exact hno a ha
    · rw [List.mem_singleton.mp ha]
      exact hne.symm
  pending := by
    intro r hr
    by_cases hrt : r.ticket = p.ticket
    · have hmem : ⟨p.ticket, w.now, .read outcome⟩ ∈ (w.tell h s' p.ticket outcome).answers := by
        simp [answers_tell]
      exact .inl ⟨_, hmem, hrt.symm, outcome, rfl⟩
    · rcases hx.pending r hr with ht | ⟨s₁, hs₁, hin⟩
      · exact .inl (ht.append answers_tell)
      · by_cases hgh : r.session = h
        · rw [hgh, hs] at hs₁
          obtain rfl : s = s₁ := Option.some.inj hs₁
          refine .inr ⟨s', by rw [hgh, sessions_tell hs], ?_⟩
          rw [hline]
          exact List.mem_filter.mpr ⟨hin, by simpa using hrt⟩
        · exact .inr ⟨s₁, by rwa [sessions_tell_ne hgh], hin⟩

/-- A reader gets a ticket and a timer and joins the line. -/
def lineUp (w : Switchboard σ) (h : Handle) (s : Session) (span : Millis) : Switchboard σ :=
  { w.draw.2 with
    sessions := w.sessions.set h { s with readers := s.readers ++ [w.nextTicket] } }.arm
      ⟨w.nextTicket, w.now + span, .reading h⟩

theorem sessions_lineUp {h : Nat} {s : Session} (hs : w.sessions[h]? = some s) (span : Millis) :
    (w.lineUp h s span).sessions[h]? = some { s with readers := s.readers ++ [w.nextTicket] } := by
  simp [lineUp, (List.getElem?_eq_some_iff.mp hs).1]

theorem sessions_lineUp_cases {g h : Nat} {s s₁ : Session} {span : Millis}
    (hs₁ : (w.lineUp h s span).sessions[g]? = some s₁) :
    g = h ∧ s₁ = { s with readers := s.readers ++ [w.nextTicket] } ∨
      g ≠ h ∧ w.sessions[g]? = some s₁ := set_cases hs₁

theorem mem_waits_lineUp (hw : w.Booked) {h : Handle} {s : Session} {span : Millis} {q : Pending} :
    q ∈ (w.lineUp h s span).waits ↔
      q ∈ w.waits ∨ q = ⟨w.nextTicket, w.now + span, .reading h⟩ := by
  refine mem_waits_arm.trans (or_congr_left (and_iff_left_of_imp ?_))
  intro hq
  exact Nat.ne_of_lt (hw.2 q hq)

theorem Attended.lineUp (hx : Attended readings w) {h : Nat} {s : Session}
    (hs : w.sessions[h]? = some s) (span : Millis) :
    Attended (readings ++ [⟨w.nextTicket, h, w.now, span⟩]) (w.lineUp h s span) := by
  have hlt : h < w.sessions.length := (List.getElem?_eq_some_iff.mp hs).1
  refine
    { booked := ?_
      distinct := ?_
      drawn := ?_
      answered := fun a ha => Nat.lt_succ_of_lt (hx.answered a ha)
      line := ?_
      timer := ?_
      pending := ?_ }
  · refine Booked.arm (w := { w.draw.2 with
      sessions := w.sessions.set h { s with readers := s.readers ++ [w.nextTicket] } }) ?_
      (Nat.lt_succ_self _)
    exact ⟨hx.booked.1, fun p hp => Nat.lt_succ_of_lt (hx.booked.2 p hp)⟩
  · rw [List.map_append]
    refine List.nodup_append.mpr ⟨hx.distinct, by simp, ?_⟩
    intro t ht u hu htu
    obtain ⟨r, hr, rfl⟩ := List.mem_map.mp ht
    exact Nat.ne_of_lt (hx.drawn r hr).1 (htu.trans (List.mem_singleton.mp hu))
  · intro r hr
    have hlen : (w.lineUp h s span).sessions.length = w.sessions.length := by
      simp [Switchboard.lineUp]
    rw [hlen]
    rcases List.mem_append.mp hr with hr | hr
    · exact ⟨Nat.lt_succ_of_lt (hx.drawn r hr).1, (hx.drawn r hr).2⟩
    · rw [List.mem_singleton.mp hr]
      exact ⟨Nat.lt_succ_self _, hlt⟩
  · intro g s₁ hs₁
    have hkept : ∀ t, (∃ p ∈ w.waits, p.ticket = t ∧ p.wait = .reading g) →
        ∃ p ∈ (w.lineUp h s span).waits, p.ticket = t ∧ p.wait = .reading g := by
      rintro t ⟨p, hp, hpt⟩
      exact ⟨p, (mem_waits_lineUp hx.booked).mpr (.inl hp), hpt⟩
    rcases sessions_lineUp_cases hs₁ with ⟨rfl, rfl⟩ | ⟨hgh, hs₁⟩
    · obtain ⟨hnodup, hall⟩ := hx.line g s hs
      refine ⟨List.nodup_append.mpr ⟨hnodup, by simp, ?_⟩, ?_⟩
      · intro t ht u hu htu
        obtain ⟨p, hp, hpt, -⟩ := hall t ht
        have hlt : p.ticket < w.nextTicket := hx.booked.2 p hp
        exact Nat.ne_of_lt hlt (hpt.trans (htu.trans (List.mem_singleton.mp hu)))
      · intro t ht
        rcases List.mem_append.mp ht with ht | ht
        · exact hkept t (hall t ht)
        · exact ⟨_, (mem_waits_lineUp hx.booked).mpr (.inr rfl), (List.mem_singleton.mp ht).symm, rfl⟩
    · obtain ⟨hnodup, hall⟩ := hx.line g s₁ hs₁
      exact ⟨hnodup, fun t ht => hkept t (hall t ht)⟩
  · intro q hq g hqwait
    rcases (mem_waits_lineUp hx.booked).mp hq with hq | rfl
    · obtain ⟨hno, r, hr, hrq⟩ := hx.timer q hq g hqwait
      exact ⟨hno, r, List.mem_append_left _ hr, hrq⟩
    · refine ⟨fun a ha => Nat.ne_of_lt (hx.answered a ha), ?_⟩
      exact ⟨_, List.mem_append_right _ (List.mem_singleton.mpr rfl), rfl, Wait.reading.inj hqwait, rfl⟩
  · intro r hr
    rcases List.mem_append.mp hr with hr | hr
    · apply (hx.pending r hr).imp_right
      rintro ⟨s₁, hs₁, hin⟩
      by_cases hgh : r.session = h
      · rw [hgh, hs] at hs₁
        obtain rfl : s = s₁ := Option.some.inj hs₁
        exact ⟨_, by rw [hgh, sessions_lineUp hs], List.mem_append_left _ hin⟩
      · exact ⟨s₁, by simpa [Switchboard.lineUp, Ne.symm hgh] using hs₁, hin⟩
    · obtain rfl := List.mem_singleton.mp hr
      exact .inr ⟨_, sessions_lineUp hs span, by simp⟩

variable [Transport σ]

theorem Attended.of_stirs (hx : Attended readings w) (hst : Stirs w w') (hbooked : w'.Booked)
    (hnext : w.nextTicket ≤ w'.nextTicket)
    (hwaits : ∀ p h, p.wait = .reading h → (p ∈ w'.waits ↔ p ∈ w.waits)) (new : List Answered)
    (hans : w'.answers = w.answers ++ new) (hnew : ∀ a ∈ new, w'.Idle a.ticket) :
    Attended readings w' where
  booked := hbooked
  distinct := hx.distinct
  drawn := by
    intro r hr
    obtain ⟨ht, hlt⟩ := hx.drawn r hr
    obtain ⟨s', hs', -⟩ := hst.kept r.session _ (List.getElem?_eq_getElem hlt)
    constructor
    · exact Nat.lt_of_lt_of_le ht hnext
    · exact (List.getElem?_eq_some_iff.mp hs').1
  answered := by
    intro a ha
    rw [hans] at ha
    rcases List.mem_append.mp ha with ha | ha
    · exact Nat.lt_of_lt_of_le (hx.answered a ha) hnext
    · exact (hnew a ha).1
  line := by
    intro h s' hs'
    cases hold : w.sessions[h]? with
    | none =>
      obtain ⟨id, d, settings, rfl⟩ := hst.fresh h s' hold hs'
      simp [Session.new]
    | some s =>
      obtain ⟨s₁, hs₁, hact⟩ := hst.kept h s hold
      obtain rfl : s₁ = s' := Option.some.inj (hs₁.symm.trans hs')
      obtain ⟨hnodup, hline⟩ := hx.line h s hold
      rw [hact.readers]
      refine ⟨hnodup, ?_⟩
      intro t ht
      obtain ⟨p, hp, hpt, hwait⟩ := hline t ht
      exact ⟨p, (hwaits p h hwait).mpr hp, hpt, hwait⟩
  timer := by
    intro p hp h hwait
    obtain ⟨hno, hr⟩ := hx.timer p ((hwaits p h hwait).mp hp) h hwait
    refine ⟨?_, hr⟩
    intro a ha hat
    rw [hans] at ha
    rcases List.mem_append.mp ha with ha | ha
    · exact hno a ha hat
    · exact (hnew a ha).2 p hp hat.symm h hwait
  pending := by
    intro r hr
    rcases hx.pending r hr with ht | ⟨s, hold, hmem⟩
    · exact .inl (ht.append hans)
    · obtain ⟨s', hs', hact⟩ := hst.kept r.session s hold
      refine .inr ⟨s', hs', ?_⟩
      rwa [hact.readers]

end Switchboard

end MeshShell

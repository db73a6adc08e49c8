import MeshShell.Proofs.Switchboard.InStep

/-! # New sessions, callers and links

Whenever something new comes up on both sides, its numbers become partners; what
comes up on the larger side alone becomes a stranger. A caller that connects may
bring a ticket and a link at once.
-/
namespace MeshShell

namespace Bond

variable {b b' : Bond}

theorem Below.mono {m n m' n' : Nat} (h : b.Below m n) (hm : m ≤ m') (hn : n ≤ n') :
    b.Below m' n' where
  partner := fun hp => ⟨(h.partner hp).1.trans_le hm, (h.partner hp).2.trans_le hn⟩
  stranger := fun hs => (h.stranger hs).trans_le hn

end Bond

namespace Session

variable {σ : Type} [Transport σ] {s : Session} {t u : σ} {now : Millis} {rows cols : UInt16}
  {identity : RemoteIdentity}

theorem start_unresolved (hi : Transport.recallIdentity s.destination t = none) :
    s.start now rows cols t = (.error (.identityUnresolved s.destination), s, t) := by
  simp [start, hi]

theorem start_again (hi : Transport.recallIdentity s.destination t = some identity)
    (hd : s.driver ≠ .notStarted) :
    s.start now rows cols t = (.error (.alreadyStarted s.id), s, t) := by
  simp [start, hi, hd]

theorem start_refused {e : TransportError}
    (hi : Transport.recallIdentity s.destination t = some identity) (hd : s.driver = .notStarted)
    (ho : Transport.openLink now identity shellAspect t = (.error e, u)) :
    s.start now rows cols t = (.error (.transport e), ((s.dial rows cols).finish u).1.endDriver,
      ((s.dial rows cols).finish u).2) := by
  simp [start, hi, hd, ho, dial]

theorem start_opened {l : LinkId}
    (hi : Transport.recallIdentity s.destination t = some identity) (hd : s.driver = .notStarted)
    (ho : Transport.openLink now identity shellAspect t = (.ok l, u)) :
    s.start now rows cols t =
      (.ok (), { s.dial rows cols with link := some l, opened := some l, driver := .running }, u) := by
  simp [start, hi, hd, ho, dial]

end Session

theorem Kin.Alike.started {k : Kin} {s s' : Session} (hs : k.Alike s s') {l l' : LinkId}
    (hl : k.link l l') (rows cols : UInt16) :
    k.Alike { s.dial rows cols with link := some l, opened := some l, driver := .running }
      { s'.dial rows cols with link := some l', opened := some l', driver := .running } := by
  cases hs with
  | intro hid _ hc _ hi hr => exact .intro hid (.some hl) hc (.some hl) hi hr

theorem Kin.Alike.dial {k : Kin} {s s' : Session} (hs : k.Alike s s') (rows cols : UInt16) :
    k.Alike (s.dial rows cols) (s'.dial rows cols) := by
  cases hs with
  | intro hid hl hc ho hi hr => exact .intro hid hl hc ho hi hr

namespace Matching

variable {m : Matching}

def tieTicket (m : Matching) (x y : Ticket) : Matching := { m with ticket := m.ticket.tie x y }

def loseTicket (m : Matching) (y : Ticket) : Matching := { m with ticket := m.ticket.lose y }

def tieSession (m : Matching) (x y : Handle) : Matching := { m with session := m.session.tie x y }

def loseSession (m : Matching) (y : Handle) : Matching := { m with session := m.session.lose y }

def relink (m : Matching) (b : Bond) : Matching := { m with link := b }

theorem tieTicket_partner (m : Matching) (x y : Ticket) : (m.tieTicket x y).ticket.partner x y :=
  m.ticket.tie_partner x y

theorem loseTicket_own (m : Matching) (y : Ticket) : (m.loseTicket y).ticket.own y y :=
  m.ticket.lose_own y

theorem le_tieTicket (m : Matching) (x y : Ticket) : m.Le (m.tieTicket x y) :=
  ⟨rfl, .refl _, m.ticket.le_tie x y, .refl _⟩

theorem le_loseTicket (m : Matching) (y : Ticket) : m.Le (m.loseTicket y) :=
  ⟨rfl, .refl _, m.ticket.le_lose y, .refl _⟩

theorem le_tieSession (m : Matching) (x y : Handle) : m.Le (m.tieSession x y) :=
  ⟨rfl, m.session.le_tie x y, .refl _, .refl _⟩

theorem le_loseSession (m : Matching) (y : Handle) : m.Le (m.loseSession y) :=
  ⟨rfl, m.session.le_lose y, .refl _, .refl _⟩

theorem le_relink {b : Bond} (h : m.link.Le b) : m.Le (m.relink b) :=
  ⟨rfl, .refl _, .refl _, h⟩

theorem Fair.relink (hm : m.Fair) {b : Bond} (hb : b.Fair) : (m.relink b).Fair :=
  { hm with link := hb }

end Matching

namespace Switchboard

variable {σ : Type} [Transport σ] {S : Separation σ} {m m' : Matching} {v w : Switchboard σ}

/-- What partners and strangers were, they are under more partners and strangers. -/
theorem Mirrors.grow (hx : Mirrors S m v w) (hle : m.Le m') (hs : m'.session = m.session)
    (hm : m'.Fair) (ht : m'.ticket.Below v.nextTicket w.nextTicket)
    (hl : S.Agree m'.link v.transport w.transport) : Mirrors S m' v w where
  fair := hm
  sessions := hs ▸ hx.sessions
  tickets := ht
  now := hx.now
  settings := hx.settings
  transport := hl
  left := hs ▸ hx.left
  right := hs ▸ hx.right
  kept := by
    intro i h hh
    rw [hs] at hh
    obtain ⟨s, s', hs, hs', ha⟩ := hx.kept hh
    exact ⟨s, s', hs, hs', ha.mono hle.kept⟩
  lost := by
    intro h hh
    rw [hs] at hh
    obtain ⟨s, hs, ha⟩ := hx.lost hh
    exact ⟨s, hs, ha.mono hle.lost⟩
  table := by
    intro id hid
    rw [hs]
    exact hx.table (hle.gone ▸ hid)
  lostTable := by
    intro h hh
    rw [hs]
    exact hx.lostTable (hle.gone ▸ hh)
  waits := hx.waits.mono (fun _ _ => .mono hle.kept) fun _ => .mono hle.lost
  answers := hx.answers.mono (fun _ _ => .mono hle.kept) fun _ => hle.ticket.stranger

namespace Mirrors

theorem draw (hx : Mirrors S m v w) :
    Mirrors S (m.tieTicket v.nextTicket w.nextTicket) v.draw.2 w.draw.2 := by
  have hdrawn : Mirrors S m v.draw.2 w.draw.2 :=
    { hx with tickets := hx.tickets.mono (Nat.le_succ _) (Nat.le_succ _) }
  refine hdrawn.grow (m.le_tieTicket _ _) rfl ?_ hx.tickets.tie hx.transport
  exact { hx.fair with ticket := hx.fair.ticket.tie_next hx.tickets }

theorem draw_extra (hx : Mirrors S m v w) :
    Mirrors S (m.loseTicket w.nextTicket) v w.draw.2 := by
  have hdrawn : Mirrors S m v w.draw.2 :=
    { hx with tickets := hx.tickets.mono le_rfl (Nat.le_succ _) }
  refine hdrawn.grow (m.le_loseTicket _) rfl ?_ hx.tickets.lose hx.transport
  exact { hx.fair with ticket := hx.fair.ticket.lose_next hx.tickets }

theorem relink (hx : Mirrors S m v w) {b : Bond} (hle : m.link.Le b) (hb : b.Fair) {t t' : σ}
    (ht : S.Agree b t t') :
    Mirrors S (m.relink b) { v with transport := t } { w with transport := t' } :=
  (hx.transport_both (ht.weaken hle)).grow (Matching.le_relink hle) rfl (hx.fair.relink hb)
    hx.tickets ht

/-- A session is made on both sides. -/
theorem make (hx : Mirrors S m v w) {id : String} (hid : id ≠ m.gone) (d : Destination)
    (settings : SessionSettings) :
    Mirrors S (m.tieSession v.sessions.length w.sessions.length)
      (v.makeSession id d settings).2 (w.makeSession id d settings).2 := by
  have hle := m.le_tieSession v.sessions.length w.sessions.length
  exact
    { hx with
      fair :=
        { hx.fair with
          session := hx.fair.session.tie_next hx.sessions
          ordered := by
            rintro i j h g (hi | ⟨rfl, rfl⟩) (hj | ⟨rfl, rfl⟩)
            · exact hx.fair.ordered hi hj
            · exact iff_of_true (hx.sessions.partner hi).1 (hx.sessions.partner hi).2
            · exact iff_of_false (hx.sessions.partner hj).1.not_gt (hx.sessions.partner hj).2.not_gt
            · simp }
      sessions := by
        simp only [makeSession, List.length_append, List.length_singleton]
        exact hx.sessions.tie
      left := by
        intro i hi
        simp only [makeSession, List.length_append, List.length_singleton] at hi
        rcases Nat.lt_succ_iff_lt_or_eq.mp hi with hi | rfl
        · obtain ⟨h, hh⟩ := hx.left hi
          exact ⟨h, .inl hh⟩
        · exact ⟨_, .inr ⟨rfl, rfl⟩⟩
      right := by
        intro h hh
        simp only [makeSession, List.length_append, List.length_singleton] at hh
        rcases Nat.lt_succ_iff_lt_or_eq.mp hh with hh | rfl
        · exact (hx.right hh).imp_left fun ⟨i, hi⟩ => ⟨i, .inl hi⟩
        · exact .inl ⟨_, .inr ⟨rfl, rfl⟩⟩
      kept := by
        rintro i h (hh | ⟨rfl, rfl⟩)
        · obtain ⟨s, s', hs, hs', ha⟩ := hx.kept hh
          refine ⟨s, s', ?_, ?_, ha.mono hle.kept⟩
          · simpa [makeSession, List.getElem?_append_left (hx.sessions.partner hh).1] using hs
          · simpa [makeSession, List.getElem?_append_left (hx.sessions.partner hh).2] using hs'
        · exact ⟨.new id d settings, .new id d settings, by simp [makeSession],
            by simp [makeSession], .new hid d settings⟩
      lost := by
        intro h hh
        obtain ⟨s, hs, ha⟩ := hx.lost hh
        refine ⟨s, ?_, ha.mono hle.lost⟩
        simpa [makeSession, List.getElem?_append_left (hx.sessions.stranger hh)] using hs
      table := fun hid => Kin.rel_mono (fun _ _ => hle.session.partner) (hx.table hid)
      lostTable := hx.lostTable
      waits := hx.waits.mono (fun _ _ => .mono hle.kept) fun _ => .mono hle.lost
      answers := hx.answers.mono (fun _ _ => .mono hle.kept) fun _ => hle.ticket.stranger }

theorem make_extra (hx : Mirrors S m v w) (d : Destination) (settings : SessionSettings) :
    Mirrors S (m.loseSession w.sessions.length) v (w.makeSession m.gone d settings).2 := by
  have hle := m.le_loseSession w.sessions.length
  exact
    { hx with
      fair :=
        { hx.fair with
          session := hx.fair.session.lose_next hx.sessions
          ordered := hx.fair.ordered }
      sessions := by
        simp only [makeSession, List.length_append, List.length_singleton]
        exact hx.sessions.lose
      left := hx.left
      right := by
        intro h hh
        simp only [makeSession, List.length_append, List.length_singleton] at hh
        rcases Nat.lt_succ_iff_lt_or_eq.mp hh with hh | rfl
        · exact (hx.right hh).imp_right .inl
        · exact .inr (.inr rfl)
      kept := by
        intro i h hh
        obtain ⟨s, s', hs, hs', ha⟩ := hx.kept hh
        refine ⟨s, s', hs, ?_, ha.mono hle.kept⟩
        simpa [makeSession, List.getElem?_append_left (hx.sessions.partner hh).2] using hs'
      lost := by
        rintro h (hh | rfl)
        · obtain ⟨s, hs, ha⟩ := hx.lost hh
          refine ⟨s, ?_, ha.mono hle.lost⟩
          simpa [makeSession, List.getElem?_append_left (hx.sessions.stranger hh)] using hs
        · exact ⟨.new m.gone d settings, by simp [makeSession], .new rfl d settings⟩
      table := hx.table
      lostTable := fun hh => .inl (hx.lostTable hh)
      waits := hx.waits.mono (fun _ _ => .mono hle.kept) fun _ => .mono hle.lost
      answers := hx.answers.mono (fun _ _ => .mono hle.kept) fun _ => hle.ticket.stranger }

end Mirrors

section Start

variable {s s' : Session} {t t' : σ}

/-- Sessions that belong together open links that belong together. -/
theorem start_both (hm : m.Fair) (hs : m.kept.Alike s s') (ht : S.Agree m.link t t')
    (now : Millis) (rows cols : UInt16) :
    ∃ b, m.link.Le b ∧ b.Fair ∧ (s'.start now rows cols t').1 = (s.start now rows cols t).1 ∧
      (m.relink b).kept.Both (S.Agree b) (s.start now rows cols t).2
        (s'.start now rows cols t').2 := by
  have hsame : Transport.recallIdentity s'.destination t' = Transport.recallIdentity s.destination t := by
    rw [S.identity_eq, S.identity_eq, hs.destination, ht.common]
  cases hi : Transport.recallIdentity s.destination t with
  | none =>
    rw [Session.start_unresolved hi, Session.start_unresolved (hsame.trans hi), hs.destination]
    exact ⟨m.link, .refl _, hm.link, rfl, hs, ht⟩
  | some identity =>
    by_cases hd : s.driver = .notStarted
    · rcases Separation.open_both ht hm.link now identity shellAspect with
        ⟨e, u, u', hu, hu', hag⟩ | ⟨l, l', u, u', hu, hu', hfair, hag⟩
      · rw [Session.start_refused hi hd hu,
          Session.start_refused (hsame.trans hi) (hs.driver.trans hd) hu']
        obtain ⟨hfin, hrel⟩ := Kin.finish (couples_kept hm) (hs.dial rows cols) hag
        exact ⟨m.link, .refl _, hm.link, rfl, hfin.endDriver, hrel⟩
      · rw [Session.start_opened hi hd hu,
          Session.start_opened (hsame.trans hi) (hs.driver.trans hd) hu']
        have hle := Matching.le_relink (m.link.le_tie l l')
        exact ⟨_, m.link.le_tie l l', hfair, rfl,
          (hs.mono hle.kept).started (m.link.tie_partner l l') rows cols, hag⟩
    · rw [Session.start_again hi hd,
        Session.start_again (hsame.trans hi) fun h => hd (hs.driver.symm.trans h), hs.id_eq]
      exact ⟨m.link, .refl _, hm.link, rfl, hs, ht⟩

/-- What a stranger opens becomes a stranger. -/
theorem start_extra (hm : m.Fair) (hs : m.lost.Alike s' s') (ht : S.Agree m.link t t')
    (now : Millis) (rows cols : UInt16) :
    ∃ b, m.link.Le b ∧ b.Fair ∧
      (m.relink b).lost.Alike (s'.start now rows cols t').2.1 (s'.start now rows cols t').2.1 ∧
      S.Agree b t (s'.start now rows cols t').2.2 := by
  cases hi : Transport.recallIdentity s'.destination t' with
  | none =>
    rw [Session.start_unresolved hi]
    exact ⟨m.link, .refl _, hm.link, hs, ht⟩
  | some identity =>
    by_cases hd : s'.driver = .notStarted
    · rcases Separation.open_extra ht hm.link now identity shellAspect with
        ⟨e, u', hu', hag⟩ | ⟨l', u', hu', hfair, hag⟩
      · rw [Session.start_refused hi hd hu']
        obtain ⟨hfin, -, hrel⟩ := Kin.finish (couples_lost hm t) (hs.dial rows cols) ⟨rfl, hag⟩
        exact ⟨m.link, .refl _, hm.link, hfin.endDriver, hrel⟩
      · rw [Session.start_opened hi hd hu']
        have hle := Matching.le_relink (m.link.le_lose l')
        exact ⟨_, m.link.le_lose l', hfair,
          (hs.mono hle.lost).started (m.link.lose_own l') rows cols, hag⟩
    · rw [Session.start_again hi hd]
      exact ⟨m.link, .refl _, hm.link, hs, ht⟩

end Start

end Switchboard

end MeshShell

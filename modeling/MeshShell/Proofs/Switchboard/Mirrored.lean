import MeshShell.Proofs.Switchboard.Coupled
import MeshShell.Proofs.Switchboard.Table
import MeshShell.Proofs.Transport.Separation

/-! # One switchboard in another

A switchboard is mirrored in a larger one when the larger one has all of it,
under other numbers, and besides that only what belongs to sessions of one id.
What is done on both sides, and what is done to the strangers alone, keeps it so.
-/
namespace MeshShell

/-- Which numbers of the larger switchboard are whose. -/
structure Matching where
  /-- The id of the strangers. -/
  gone : String
  session : Bond
  ticket : Bond
  link : Bond

namespace Matching

variable {m m' m'' : Matching}

/-- What both switchboards have. -/
def kept (m : Matching) : Kin :=
  ⟨(· ≠ m.gone), m.session.partner, m.ticket.partner, m.link.partner⟩

/-- What only the larger one has. -/
def lost (m : Matching) : Kin := ⟨(· = m.gone), m.session.own, m.ticket.own, m.link.own⟩

structure Fair (m : Matching) : Prop where
  session : m.session.Fair
  ticket : m.ticket.Fair
  link : m.link.Fair
  /-- Sessions come in the same order on both sides. -/
  ordered : ∀ {i j h g}, m.session.partner i h → m.session.partner j g → (i < j ↔ h < g)

structure Le (m m' : Matching) : Prop where
  gone : m'.gone = m.gone
  session : m.session.Le m'.session
  ticket : m.ticket.Le m'.ticket
  link : m.link.Le m'.link

theorem Le.refl (m : Matching) : m.Le m := ⟨rfl, .refl _, .refl _, .refl _⟩

theorem Le.trans (h : m.Le m') (h' : m'.Le m'') : m.Le m'' :=
  ⟨h'.gone.trans h.gone, h.session.trans h'.session, h.ticket.trans h'.ticket, h.link.trans h'.link⟩

theorem Le.kept (h : m.Le m') : m.kept.Le m'.kept where
  id := fun hid => by simpa [Matching.kept, h.gone] using hid
  session := h.session.partner
  ticket := h.ticket.partner
  link := h.link.partner

theorem Le.lost (h : m.Le m') : m.lost.Le m'.lost where
  id := fun hid => by simpa [Matching.lost, h.gone] using hid
  session := h.session.own
  ticket := h.ticket.own
  link := h.link.own

theorem Fair.distinct (hm : m.Fair) : m.kept.Distinct := fun hx hy =>
  ⟨fun he => hm.ticket.left (he ▸ hx) hy, fun he => hm.ticket.right (he ▸ hx) hy⟩

theorem own_lost (m : Matching) : m.lost.Own := ⟨And.left, And.left, And.left⟩

theorem distinct_lost (m : Matching) : m.lost.Distinct := fun hx hy => by rw [hx.1, hy.1]

end Matching

/-- An answer with its time, and with its caller and session under other numbers. -/
structure Kin.Told (k : Kin) (a a' : Answered) : Prop where
  ticket : k.ticket a.ticket a'.ticket
  time : a'.time = a.time
  answer : k.Answers a.answer a'.answer

theorem Kin.Told.mono {k k' : Kin} (h : k.Le k') {a a' : Answered} (ha : k.Told a a') :
    k'.Told a a' := ⟨h.ticket ha.ticket, ha.time, ha.answer.mono h⟩

namespace Switchboard

variable {σ : Type} [Transport σ]

structure Mirrors (S : Separation σ) (m : Matching) (v w : Switchboard σ) : Prop where
  fair : m.Fair
  sessions : m.session.Below v.sessions.length w.sessions.length
  tickets : m.ticket.Below v.nextTicket w.nextTicket
  now : w.now = v.now
  settings : w.settings = v.settings
  transport : S.Agree m.link v.transport w.transport
  left : ∀ {i}, i < v.sessions.length → ∃ h, m.session.partner i h
  right : ∀ {h}, h < w.sessions.length → (∃ i, m.session.partner i h) ∨ m.session.stranger h
  kept : ∀ {i h}, m.session.partner i h →
    ∃ s s', v.sessions[i]? = some s ∧ w.sessions[h]? = some s' ∧ m.kept.Alike s s'
  lost : ∀ {h}, m.session.stranger h → ∃ s, w.sessions[h]? = some s ∧ m.lost.Alike s s
  table : ∀ {id}, id ≠ m.gone → Option.Rel m.session.partner (v.registered? id) (w.registered? id)
  lostTable : ∀ {h}, w.registered? m.gone = some h → m.session.stranger h
  waits : Woven m.kept.Pends (fun p => m.lost.Pends p p) v.waits w.waits
  answers : Woven m.kept.Told (fun a => m.ticket.stranger a.ticket) v.answers w.answers

variable {S : Separation σ} {m : Matching} {v w : Switchboard σ}

namespace Mirrors

theorem transport_both (hx : Mirrors S m v w) {t t' : σ} (ht : S.Agree m.link t t') :
    Mirrors S m { v with transport := t } { w with transport := t' } :=
  { hx with transport := ht }

theorem put (hx : Mirrors S m v w) {i h : Handle} (hh : m.session.partner i h) {s s' : Session}
    (hs : m.kept.Alike s s') {t t' : σ} (ht : S.Agree m.link t t') :
    Mirrors S m (v.put i (s, t)) (w.put h (s', t')) :=
  { hx with
    sessions := by simpa [Switchboard.put] using hx.sessions
    transport := ht
    left := fun hi => hx.left (by simpa [Switchboard.put] using hi)
    right := fun hg => hx.right (by simpa [Switchboard.put] using hg)
    kept := by
      intro j g hg
      obtain ⟨u, u', hu, hu', ha⟩ := hx.kept hg
      by_cases hj : i = j
      · subst hj
        obtain rfl := hx.fair.session.left hh hg
        exact ⟨s, s', by simp [Switchboard.put, (List.getElem?_eq_some_iff.mp hu).1],
          by simp [Switchboard.put, (List.getElem?_eq_some_iff.mp hu').1], hs⟩
      · have hne : h ≠ g := fun he => hj (hx.fair.session.right hh (he ▸ hg))
        exact ⟨u, u', by simpa [Switchboard.put, hj] using hu,
          by simpa [Switchboard.put, hne] using hu', ha⟩
    lost := by
      intro g hg
      have hne : h ≠ g := fun he => hx.fair.session.apart hh (he ▸ hg)
      simpa [Switchboard.put, hne] using hx.lost hg }

theorem waits_both (hx : Mirrors S m v w) {ticket ticket' : Ticket}
    (ht : m.ticket.partner ticket ticket') :
    Woven m.kept.Pends (fun p => m.lost.Pends p p) (v.waits.filter (·.ticket ≠ ticket))
      (w.waits.filter (·.ticket ≠ ticket')) := by
  apply hx.waits.filter
  intro p p' hp
  simp [hx.fair.distinct hp.ticket ht]

theorem reply (hx : Mirrors S m v w) {ticket ticket' : Ticket}
    (ht : m.ticket.partner ticket ticket') {a a' : Answer} (ha : m.kept.Answers a a') :
    Mirrors S m (v.reply ticket a) (w.reply ticket' a') :=
  { hx with
    waits := hx.waits_both ht
    answers := hx.answers.snoc ⟨ht, hx.now, ha⟩ }

theorem arm (hx : Mirrors S m v w) {p p' : Pending} (hp : m.kept.Pends p p') :
    Mirrors S m (v.arm p) (w.arm p') :=
  { hx with waits := (hx.waits_both hp.ticket).snoc hp }

theorem waiting (hx : Mirrors S m v w) {ticket ticket' : Ticket}
    (ht : m.ticket.partner ticket ticket') :
    Option.Rel m.kept.Pends (v.waits.find? (·.ticket = ticket))
      (w.waits.find? (·.ticket = ticket')) := by
  apply hx.waits.find?
  · intro p p' hp
    simp [hx.fair.distinct hp.ticket ht]
  · intro p hp
    have hne : p.ticket ≠ ticket' := fun he => hx.fair.ticket.apart ht (he ▸ hp.ticket.2)
    simpa using hne

theorem bind (hx : Mirrors S m v w) {id : String} (hid : id ≠ m.gone) {i h : Handle}
    (hh : m.session.partner i h) :
    Mirrors S m { v with table := Switchboard.bind id i v.table }
      { w with table := Switchboard.bind id h w.table } :=
  { hx with
    table := by
      intro id' hid'
      rw [registered_bind, registered_bind]
      split
      · exact .some hh
      · exact hx.table hid'
    lostTable := by
      intro g hg
      rw [registered_bind, if_neg (Ne.symm hid)] at hg
      exact hx.lostTable hg }

theorem transport_extra (hx : Mirrors S m v w) {t' : σ} (ht : S.Agree m.link v.transport t') :
    Mirrors S m v { w with transport := t' } :=
  { hx with transport := ht }

theorem put_extra (hx : Mirrors S m v w) {h : Handle} (hh : m.session.stranger h) {s' : Session}
    (hs : m.lost.Alike s' s') {t' : σ} (ht : S.Agree m.link v.transport t') :
    Mirrors S m v (w.put h (s', t')) :=
  { hx with
    sessions := by simpa [Switchboard.put] using hx.sessions
    transport := ht
    right := fun hg => hx.right (by simpa [Switchboard.put] using hg)
    kept := by
      intro j g hg
      obtain ⟨u, u', hu, hu', ha⟩ := hx.kept hg
      have hne : h ≠ g := fun he => hx.fair.session.apart hg (he ▸ hh)
      exact ⟨u, u', hu, by simpa [Switchboard.put, hne] using hu', ha⟩
    lost := by
      intro g hg
      by_cases he : h = g
      · subst he
        obtain ⟨u, hu, -⟩ := hx.lost hg
        exact ⟨s', by simp [Switchboard.put, (List.getElem?_eq_some_iff.mp hu).1], hs⟩
      · simpa [Switchboard.put, he] using hx.lost hg }

theorem waits_extra (hx : Mirrors S m v w) {ticket' : Ticket} (ht : m.ticket.stranger ticket') :
    Woven m.kept.Pends (fun p => m.lost.Pends p p) v.waits
      (w.waits.filter (·.ticket ≠ ticket')) := by
  apply hx.waits.filter_extra
  intro p p' hp
  have hne : p'.ticket ≠ ticket' := fun he => hx.fair.ticket.apart hp.ticket (he ▸ ht)
  simpa using hne

theorem reply_extra (hx : Mirrors S m v w) {ticket' : Ticket} (ht : m.ticket.stranger ticket')
    (a' : Answer) : Mirrors S m v (w.reply ticket' a') :=
  { hx with
    waits := hx.waits_extra ht
    answers := hx.answers.snoc_extra ht }

theorem arm_extra (hx : Mirrors S m v w) {p' : Pending} (hp : m.lost.Pends p' p') :
    Mirrors S m v (w.arm p') :=
  { hx with waits := (hx.waits_extra hp.ticket.2).snoc_extra hp }

theorem waiting_extra (hx : Mirrors S m v w) {ticket' : Ticket} (ht : m.ticket.stranger ticket')
    {p : Pending} (hp : w.waits.find? (·.ticket = ticket') = some p) : m.lost.Pends p p := by
  refine hx.waits.find?_extra ?_ hp
  intro p p' hp
  have hne : p'.ticket ≠ ticket' := fun he => hx.fair.ticket.apart hp.ticket (he ▸ ht)
  simpa using hne

theorem bind_extra (hx : Mirrors S m v w) {h : Handle} (hh : m.session.stranger h) :
    Mirrors S m v { w with table := Switchboard.bind m.gone h w.table } :=
  { hx with
    table := by
      intro id hid
      rw [registered_bind, if_neg hid]
      exact hx.table hid
    lostTable := by
      intro g hg
      rw [registered_bind, if_pos rfl] at hg
      exact Option.some.inj hg ▸ hh }

end Mirrors

theorem couples_kept (hm : m.Fair) : Kin.Couples m.kept.link (S.Agree m.link) where
  channel := by
    intro l l' t t' hl ht
    obtain ⟨x, hx, hx'⟩ := ht.partner hl
    rw [S.channel_eq hx, S.channel_eq hx']
  setHandler := fun hl ht => ht.both hm.link S.handling hl
  send := by
    intro l l' msg t t' hl ht
    obtain ⟨x, hx, hx'⟩ := ht.partner hl
    exact ⟨by rw [S.takes_eq hx, S.takes_eq hx'], ht.both hm.link (S.sending msg) hl⟩
  teardown := fun hl ht => ht.both hm.link S.tearing hl

theorem coupled_kept (hm : m.Fair) : Coupled m.kept (S.Agree m.link) (Mirrors S m) where
  couples := couples_kept hm
  distinct := hm.distinct
  hasPath := fun ht => by rw [S.hasPath_eq, S.hasPath_eq, ht.common]
  now := fun hx => hx.now
  settings := fun hx => hx.settings
  transport := fun hx => hx.transport
  session := fun hx hh => hx.kept hh
  put := fun hx hh hs ht => hx.put hh hs ht
  reply := fun hx ht ha => hx.reply ht ha
  arm := fun hx hp => hx.arm hp
  waiting := fun hx ht => hx.waiting ht
  registered := fun hx hid => hx.table hid
  bind := fun hx hid => hx.bind hid

/-- The larger switchboard goes its own way beside the smaller one, which stays as it is. -/
def Beside (S : Separation σ) (m : Matching) (v w w' : Switchboard σ) : Prop :=
  w = w' ∧ Mirrors S m v w

theorem couples_lost (hm : m.Fair) (t₀ : σ) :
    Kin.Couples m.lost.link fun t t' => t = t' ∧ S.Agree m.link t₀ t where
  channel := by
    rintro l l' t t' ⟨rfl, -⟩ ⟨rfl, -⟩
    rfl
  setHandler := by
    rintro l l' t t' ⟨rfl, hl⟩ ⟨rfl, ht⟩
    exact ⟨rfl, ht.extra hm.link S.handling hl⟩
  send := by
    rintro l l' msg t t' ⟨rfl, hl⟩ ⟨rfl, ht⟩
    exact ⟨rfl, rfl, ht.extra hm.link (S.sending msg) hl⟩
  teardown := by
    rintro l l' t t' ⟨rfl, hl⟩ ⟨rfl, ht⟩
    exact ⟨rfl, ht.extra hm.link S.tearing hl⟩

/-- What is done to strangers does not show in the smaller switchboard. -/
theorem coupled_lost (hm : m.Fair) (v : Switchboard σ) :
    Coupled m.lost (fun t t' => t = t' ∧ S.Agree m.link v.transport t) (Beside S m v) where
  couples := couples_lost hm v.transport
  distinct := m.distinct_lost
  hasPath := by
    rintro d t t' ⟨rfl, -⟩
    rfl
  now := by
    rintro w w' ⟨rfl, -⟩
    rfl
  settings := by
    rintro w w' ⟨rfl, -⟩
    rfl
  transport := by
    rintro w w' ⟨rfl, hx⟩
    exact ⟨rfl, hx.transport⟩
  session := by
    rintro w w' h h' ⟨rfl, hx⟩ ⟨rfl, hh⟩
    obtain ⟨s, hs, ha⟩ := hx.lost hh
    exact ⟨s, s, hs, hs, ha⟩
  put := by
    rintro w w' h h' s s' t t' ⟨rfl, hx⟩ ⟨rfl, hh⟩ hs ⟨rfl, ht⟩
    obtain rfl := hs.eq_of_own m.own_lost
    exact ⟨rfl, hx.put_extra hh hs ht⟩
  reply := by
    rintro w w' ticket ticket' a a' ⟨rfl, hx⟩ ⟨rfl, ht⟩ ha
    obtain rfl := ha.eq_of_own m.own_lost
    exact ⟨rfl, hx.reply_extra ht a'⟩
  arm := by
    rintro w w' p p' ⟨rfl, hx⟩ hp
    obtain rfl := hp.eq_of_own m.own_lost
    exact ⟨rfl, hx.arm_extra hp⟩
  waiting := by
    rintro w w' ticket ticket' ⟨rfl, hx⟩ ⟨rfl, ht⟩
    cases hp : w.waits.find? (·.ticket = ticket') with
    | none => exact .none
    | some p => exact .some (hx.waiting_extra ht hp)
  registered := by
    rintro w w' id ⟨rfl, hx⟩ rfl
    cases hr : w.registered? m.gone with
    | none => exact .none
    | some h => exact .some ⟨rfl, hx.lostTable hr⟩
  bind := by
    rintro w w' id h h' ⟨rfl, hx⟩ rfl ⟨rfl, hh⟩
    exact ⟨rfl, hx.bind_extra hh⟩

end Switchboard

end MeshShell

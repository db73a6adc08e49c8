import MeshShell.Proofs.Session.Kinship
import MeshShell.Proofs.Switchboard.Settled

/-! # Switchboards that go together

A relation between switchboards that survives a few small changes, each made to
sessions and callers that belong together, survives everything that is done for
one session: looking at it, registering it, serving its readers, letting a timer
run out.
-/
namespace MeshShell

namespace Kin

inductive Waits (k : Kin) : Wait → Wait → Prop
  | connecting {i h : Handle} (deadline : Millis) (register : Bool) : k.session i h →
      Waits k (.connecting i deadline register) (.connecting h deadline register)
  | resolving (d : Destination) (deadline : Millis) :
      Waits k (.resolving d deadline) (.resolving d deadline)
  | reading {i h : Handle} : k.session i h → Waits k (.reading i) (.reading h)
  | sleeping : Waits k .sleeping .sleeping

structure Pends (k : Kin) (p p' : Pending) : Prop where
  ticket : k.ticket p.ticket p'.ticket
  wake : p'.wake = p.wake
  wait : k.Waits p.wait p'.wait

inductive Answers (k : Kin) : Answer → Answer → Prop
  | connected (result : Except SessionError Unit) : Answers k (.connected result) (.connected result)
  | created {i h : Handle} : k.session i h → Answers k (.created (.ok i)) (.created (.ok h))
  | failed (e : SessionError) : Answers k (.created (.error e)) (.created (.error e))
  | resolved (found : Bool) : Answers k (.resolved found) (.resolved found)
  | read (outcome : ReadOutcome) : Answers k (.read outcome) (.read outcome)
  | slept : Answers k .slept .slept

variable {k k' : Kin}

theorem Waits.mono (h : k.Le k') {a a' : Wait} (ha : k.Waits a a') : k'.Waits a a' := by
  cases ha with
  | connecting deadline register hs => exact .connecting deadline register (h.session hs)
  | resolving d deadline => exact .resolving d deadline
  | reading hs => exact .reading (h.session hs)
  | sleeping => exact .sleeping

theorem Pends.mono (h : k.Le k') {p p' : Pending} (hp : k.Pends p p') : k'.Pends p p' :=
  ⟨h.ticket hp.ticket, hp.wake, hp.wait.mono h⟩

theorem Answers.mono (h : k.Le k') {a a' : Answer} (ha : k.Answers a a') : k'.Answers a a' := by
  cases ha with
  | connected result => exact .connected result
  | created hs => exact .created (h.session hs)
  | failed e => exact .failed e
  | resolved found => exact .resolved found
  | read outcome => exact .read outcome
  | slept => exact .slept

theorem Waits.eq_of_own (h : k.Own) {a a' : Wait} (ha : k.Waits a a') : a' = a := by
  cases ha with
  | connecting deadline register hs => rw [h.session hs]
  | reading hs => rw [h.session hs]
  | _ => rfl

theorem Pends.eq_of_own (h : k.Own) {p p' : Pending} (hp : k.Pends p p') : p' = p := by
  obtain ⟨ticket, wake, wait⟩ := p
  obtain ⟨ticket', wake', wait'⟩ := p'
  obtain ⟨ht, hw, ha⟩ := hp
  simp only [Pending.mk.injEq]
  exact ⟨h.ticket ht, hw, ha.eq_of_own h⟩

theorem Answers.eq_of_own (h : k.Own) {a a' : Answer} (ha : k.Answers a a') : a' = a := by
  cases ha with
  | created hs => rw [h.session hs]
  | _ => rfl

end Kin

namespace Switchboard

variable {σ : Type} [Transport σ] {k : Kin} {alike : σ → σ → Prop}
  {rel : Switchboard σ → Switchboard σ → Prop}

/-- What a relation between switchboards survives, and what it says about their parts. -/
structure Coupled (k : Kin) (alike : σ → σ → Prop) (rel : Switchboard σ → Switchboard σ → Prop) :
    Prop where
  couples : Kin.Couples k.link alike
  distinct : k.Distinct
  hasPath : ∀ {d t t'}, alike t t' → Transport.hasPath d t' = Transport.hasPath d t
  now : ∀ {v w}, rel v w → w.now = v.now
  settings : ∀ {v w}, rel v w → w.settings = v.settings
  transport : ∀ {v w}, rel v w → alike v.transport w.transport
  session : ∀ {v w i h}, rel v w → k.session i h →
    ∃ s s', v.sessions[i]? = some s ∧ w.sessions[h]? = some s' ∧ k.Alike s s'
  put : ∀ {v w i h s s' t t'}, rel v w → k.session i h → k.Alike s s' → alike t t' →
    rel (v.put i (s, t)) (w.put h (s', t'))
  reply : ∀ {v w ticket ticket' a a'}, rel v w → k.ticket ticket ticket' → k.Answers a a' →
    rel (v.reply ticket a) (w.reply ticket' a')
  arm : ∀ {v w p p'}, rel v w → k.Pends p p' → rel (v.arm p) (w.arm p')
  waiting : ∀ {v w ticket ticket'}, rel v w → k.ticket ticket ticket' →
    Option.Rel k.Pends (v.waits.find? (·.ticket = ticket)) (w.waits.find? (·.ticket = ticket'))
  registered : ∀ {v w id}, rel v w → k.id id →
    Option.Rel k.session (v.registered? id) (w.registered? id)
  bind : ∀ {v w id i h}, rel v w → k.id id → k.session i h →
    rel { v with table := bind id i v.table } { w with table := Switchboard.bind id h w.table }

namespace Coupled

variable {v w : Switchboard σ} {i h : Handle} {ticket ticket' : Ticket}

theorem update (hc : Coupled k alike rel) {f : Session → σ → Session × σ}
    (hf : ∀ {s s' t t'}, k.Alike s s' → alike t t' → k.Both alike (f s t) (f s' t'))
    (hr : rel v w) (hh : k.session i h) : rel (v.updateSession i f) (w.updateSession h f) := by
  obtain ⟨s, s', hs, hs', ha⟩ := hc.session hr hh
  obtain ⟨hsession, ht⟩ := hf ha (hc.transport hr)
  rw [updateSession_eq hs, updateSession_eq hs']
  exact hc.put hr hh hsession ht

theorem set (hc : Coupled k alike rel) (hr : rel v w) (hh : k.session i h) {s s' : Session}
    (hs : k.Alike s s') :
    rel { v with sessions := v.sessions.set i s } { w with sessions := w.sessions.set h s' } :=
  hc.put hr hh hs (hc.transport hr)

theorem closeSession (hc : Coupled k alike rel) (hr : rel v w) (hh : k.session i h) :
    rel (v.closeSession i) (w.closeSession h) := hc.update (Kin.close hc.couples) hr hh

theorem register (hc : Coupled k alike rel) (hr : rel v w) (hh : k.session i h) :
    rel (v.register i) (w.register h) := by
  obtain ⟨s, s', hs, hs', ha⟩ := hc.session hr hh
  have hbind := hc.bind hr ha.known hh
  unfold Switchboard.register
  rw [hs, hs']
  dsimp only
  rw [ha.id_eq]
  rcases Kin.rel_cases (hc.registered hr ha.known) with ⟨hn, hn'⟩ | ⟨p, p', hp, hp', hpp⟩
  · rw [hn, hn']
    exact hbind
  · rw [hp, hp']
    exact hc.closeSession hbind hpp

theorem conclude (hc : Coupled k alike rel) (hr : rel v w) (ht : k.ticket ticket ticket')
    (hh : k.session i h) (register : Bool) (result : Except SessionError Unit) :
    rel (v.conclude ticket i register result) (w.conclude ticket' h register result) := by
  unfold Switchboard.conclude
  cases register with
  | false => exact hc.reply hr ht (.connected result)
  | true =>
    cases result with
    | error e => exact hc.reply hr ht (.failed e)
    | ok => exact hc.reply (hc.register hr hh) ht (.created hh)

theorem look (hc : Coupled k alike rel) (hr : rel v w) (ht : k.ticket ticket ticket')
    (hh : k.session i h) (deadline : Millis) (register : Bool) :
    rel (v.look ticket i deadline register) (w.look ticket' h deadline register) := by
  obtain ⟨s, s', hs, hs', ha⟩ := hc.session hr hh
  unfold Switchboard.look
  rw [hs, hs']
  dsimp only
  rw [ha.progress, ha.destination, ha.settings, hc.now hr]
  cases s.progress with
  | some result => exact hc.conclude hr ht hh register result
  | none =>
    dsimp only
    split
    · exact hc.conclude (hc.update (Kin.giveUp hc.couples) hr hh) ht hh register _
    · exact hc.arm hr ⟨ht, rfl, .connecting deadline register hh⟩

theorem lookForPath (hc : Coupled k alike rel) (hr : rel v w) (ht : k.ticket ticket ticket')
    (d : Destination) (deadline : Millis) :
    rel (v.lookForPath ticket d deadline) (w.lookForPath ticket' d deadline) := by
  unfold Switchboard.lookForPath pathPoll
  rw [hc.hasPath (hc.transport hr), hc.now hr, hc.settings hr]
  split
  · exact hc.reply hr ht (.resolved true)
  · split
    · exact hc.arm hr ⟨ht, rfl, .resolving d deadline⟩
    · exact hc.reply hr ht (.resolved false)

theorem rearmFirst (hc : Coupled k alike rel) (hr : rel v w) {s s' : Session} (hs : k.Alike s s') :
    rel (v.rearmFirst s) (w.rearmFirst s') := by
  unfold Switchboard.rearmFirst
  cases hl : s.readers with
  | nil =>
    have hl' : s'.readers = [] := by simpa [hl] using hs.readers
    simpa [hl'] using hr
  | cons r rest =>
    obtain ⟨r', rest', hhead, -, hl'⟩ := List.forall₂_cons_left_iff.mp (hl ▸ hs.readers)
    rw [hl']
    dsimp only [List.head?_cons]
    rcases Kin.rel_cases (hc.waiting hr hhead) with ⟨hn, hn'⟩ | ⟨p, p', hp, hp', hpp⟩
    · rw [hn, hn']
      exact hr
    · rw [hp, hp']
      exact hc.arm hr hpp

theorem replyAll (hc : Coupled k alike rel) {served served' : List (Ticket × ReadOutcome)}
    (hs : List.Forall₂ k.Served served served') (hr : rel v w) :
    rel (replyAll served v) (replyAll served' w) := by
  induction hs generalizing v w with
  | nil => exact hr
  | @cons a a' rest rest' ha _ ih =>
    obtain ⟨r, outcome⟩ := a
    obtain ⟨r', outcome'⟩ := a'
    obtain ⟨ht, rfl⟩ : k.ticket r r' ∧ outcome' = outcome := ha
    exact ih (hc.reply hr ht (.read outcome'))

theorem serve (hc : Coupled k alike rel) (hr : rel v w) (hh : k.session i h) :
    rel (v.serve i) (w.serve h) := by
  obtain ⟨s, s', hs, hs', ha⟩ := hc.session hr hh
  obtain ⟨hserved, hnext⟩ := Kin.serveLine ha.readers ha
  unfold Switchboard.serve Session.serve
  rw [hs, hs']
  dsimp only
  cases hl : s.serveLine s.readers with
  | mk served u =>
    cases hl' : s'.serveLine s'.readers with
    | mk served' u' =>
      rw [hl, hl'] at hserved hnext
      cases hserved with
      | nil => exact hr
      | cons hfirst hrest =>
        exact hc.rearmFirst (hc.replyAll (.cons hfirst hrest) (hc.set hr hh hnext)) hnext

theorem leave (hc : Coupled k alike rel) (hr : rel v w) (ht : k.ticket ticket ticket')
    (hh : k.session i h) : rel (v.leave ticket i) (w.leave ticket' h) := by
  obtain ⟨s, s', hs, hs', ha⟩ := hc.session hr hh
  obtain ⟨hsame, hnext⟩ := Kin.leave hc.distinct ha ht
  have htold := hc.reply (hc.set hr hh hnext) ht (.read (s.leave ticket).1)
  unfold Switchboard.leave
  rw [hs, hs']
  dsimp only
  rw [hsame]
  by_cases hfirst : s.readers.head? = some ticket
  · rw [if_pos (by simpa using hfirst), if_pos (by simpa using (Kin.first hc.distinct ha ht).mpr hfirst)]
    exact hc.rearmFirst htold hnext
  · rw [if_neg (by simpa using hfirst),
      if_neg (by simpa using fun h => hfirst ((Kin.first hc.distinct ha ht).mp h))]
    exact htold

theorem expire (hc : Coupled k alike rel) (hr : rel v w) {p p' : Pending} (hp : k.Pends p p') :
    rel (v.expire p) (w.expire p') := by
  obtain ⟨ticket, wake, wait⟩ := p
  obtain ⟨ticket', wake', wait'⟩ := p'
  obtain ⟨ht, -, hwait⟩ : k.ticket ticket ticket' ∧ wake' = wake ∧ k.Waits wait wait' :=
    ⟨hp.ticket, hp.wake, hp.wait⟩
  cases hwait with
  | connecting deadline register hh => exact hc.look hr ht hh deadline register
  | resolving d deadline => exact hc.lookForPath hr ht d deadline
  | reading hh => exact hc.leave hr ht hh
  | sleeping => exact hc.reply hr ht .slept

end Coupled

end Switchboard

end MeshShell

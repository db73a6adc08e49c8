import MeshShell.Proofs.Switchboard.Growing
import MeshShell.Proofs.Switchboard.Reads
import MeshShell.Proofs.Switchboard.Removal

/-! # Calls on one switchboard and on both

Whoever calls on both switchboards calls on partners and leaves them in step. A
call that comes on the larger one alone, on behalf of a stranger, leaves them in
step too.
-/
namespace MeshShell.Switchboard

variable {σ : Type} [Transport σ] {S : Separation σ} {m : Matching} {v w : Switchboard σ}

theorem Calm.of_same {v' : Switchboard σ} (hc : Calm S v) (hs : v'.sessions = v.sessions)
    (ht : v'.transport = v.transport) : Calm S v' where
  sated := hs ▸ hc.sated
  idle := hs ▸ hc.idle
  consistent := hc.consistent.of_same hs
  drained := ht ▸ hc.drained

theorem Calm.set (hc : Calm S v) {s : Session} (hs : s.Sated) (hi : s.Idle) (hcons : s.Consistent)
    (h : Handle) : Calm S { v with sessions := v.sessions.set h s } where
  sated := fun u hu => (List.mem_or_eq_of_mem_set hu).elim (hc.sated u) fun he => he ▸ hs
  idle := fun u hu => (List.mem_or_eq_of_mem_set hu).elim (hc.idle u) fun he => he ▸ hi
  consistent := hc.consistent.set h hcons rfl
  drained := hc.drained

theorem Calm.make (hc : Calm S v) (id : String) (d : Destination) (settings : SessionSettings) :
    Calm S (v.makeSession id d settings).2 where
  sated := by
    intro s hs
    rcases List.mem_append.mp hs with hs | hs
    · exact hc.sated s hs
    · rw [List.mem_singleton.mp hs]
      exact Session.sated_of_take (.inl rfl)
  idle := by
    intro s hs
    rcases List.mem_append.mp hs with hs | hs
    · exact hc.idle s hs
    · rw [List.mem_singleton.mp hs]
      exact fun _ => rfl
  consistent := (Step.made id d settings).consistent hc.consistent
  drained := hc.drained

omit [Transport σ] in
theorem fst_read (w : Switchboard σ) (h : Handle) (span : Millis) :
    (w.read h span).1 = w.nextTicket := by
  unfold read
  dsimp only [draw]
  cases w.sessions[h]? with
  | none => rfl
  | some s =>
    dsimp only
    cases s.join w.nextTicket (0 < span) with
    | mk outcome s' => cases outcome <;> rfl

theorem fst_resolve (w : Switchboard σ) (d : Destination) (span : Millis) :
    (w.resolve d span).1 = w.nextTicket := by
  unfold resolve
  dsimp only [draw]
  split
  · rfl
  · split <;> rfl

omit [Transport σ] in
theorem fst_sleep (w : Switchboard σ) (span : Millis) : (w.sleep span).1 = w.nextTicket := by
  unfold sleep
  dsimp only [draw]
  split <;> rfl

namespace InStep

variable {i h : Handle}

theorem connect (hx : InStep S m v w) (hh : m.session.partner i h) (rows cols : UInt16)
    (register : Bool) : ∃ m', m.Le m' ∧
      InStep S m' (v.connect i rows cols register).2 (w.connect h rows cols register).2 ∧
      m'.ticket.partner (v.connect i rows cols register).1 (w.connect h rows cols register).1 := by
  have hdraw := hx.mirrors.draw
  have htie := m.le_tieTicket v.nextTicket w.nextTicket
  obtain ⟨s₀, s₀', hs₀, hs₀', ha⟩ := hx.mirrors.kept hh
  obtain ⟨b, hle, hb, hsame, hboth⟩ :=
    start_both hdraw.fair (ha.mono htie.kept) hx.mirrors.transport v.now rows cols
  rcases connect_cases v i rows cols register with ⟨hnone, -⟩ | ⟨s, p, hs, hsteps, hways⟩
  · simp [hs₀] at hnone
  have hcons := hsteps.consistent hx.calm.consistent
  rcases connect_cases w h rows cols register with ⟨hnone, -⟩ | ⟨s', p', hs', -, hways'⟩
  · simp [hs₀'] at hnone
  obtain rfl : s₀ = s := Option.some.inj (hs₀.symm.trans hs)
  obtain rfl : s₀' = s' := Option.some.inj (hs₀'.symm.trans hs')
  rw [hx.mirrors.now] at hways'
  have hlink := Matching.le_relink (m := m.tieTicket v.nextTicket w.nextTicket) hle
  have hticket : ((m.tieTicket v.nextTicket w.nextTicket).relink b).ticket.partner v.nextTicket
      w.nextTicket := m.ticket.tie_partner _ _
  refine ⟨_, htie.trans hlink, ?_⟩
  rcases hways with ⟨e, hstart, he⟩ | ⟨hstart, he⟩
  · rcases hways' with ⟨e', hstart', he'⟩ | ⟨hstart', -⟩
    · rw [hstart, hstart'] at hsame hboth
      obtain rfl : e' = e := Except.error.inj hsame
      have hput := (hdraw.relink hle hb hboth.2).put (i := i) (h := h) hh hboth.1 hboth.2
      rw [he, he']
      exact ⟨((coupled_kept hput.fair).conclude hput hticket hh register _).inStep
        (hcons.conclude _ i register _), hticket⟩
    · rw [hstart, hstart'] at hsame
      cases hsame
  · rcases hways' with ⟨e', hstart', -⟩ | ⟨hstart', he'⟩
    · rw [hstart, hstart'] at hsame
      cases hsame
    · rw [hstart, hstart'] at hboth
      have hput := (hdraw.relink hle hb hboth.2).put (i := i) (h := h) hh hboth.1 hboth.2
      have hcollect := hput.collect
      rw [he, he', hboth.1.settings]
      have hlook := ((steps_collect _).consistent hcons).look v.nextTicket i
      exact ⟨((coupled_kept hput.fair).look hcollect hticket hh _ register).inStep (hlook _ register),
        hticket⟩

theorem connect_extra (hx : InStep S m v w) (hh : m.session.stranger h) (rows cols : UInt16)
    (register : Bool) :
    ∃ m', m.Le m' ∧ InStep S m' v (w.connect h rows cols register).2 := by
  have hdraw := hx.mirrors.draw_extra
  have hlose := m.le_loseTicket w.nextTicket
  obtain ⟨s₀, hs₀, ha⟩ := hx.mirrors.lost hh
  obtain ⟨b, hle, hb, hsession, hag⟩ :=
    start_extra hdraw.fair (ha.mono hlose.lost) hx.mirrors.transport w.now rows cols
  rcases connect_cases w h rows cols register with ⟨hnone, -⟩ | ⟨s, p, hs, -, hways⟩
  · simp [hs₀] at hnone
  obtain rfl : s₀ = s := Option.some.inj (hs₀.symm.trans hs)
  have hlink := Matching.le_relink (m := m.loseTicket w.nextTicket) hle
  have hticket : ((m.loseTicket w.nextTicket).relink b).ticket.own w.nextTicket w.nextTicket :=
    m.ticket.lose_own _
  refine ⟨_, hlose.trans hlink, ?_⟩
  rcases hways with ⟨e, hstart, he⟩ | ⟨hstart, he⟩
  · rw [hstart] at hsession hag
    have hput := (hdraw.relink hle hb hag).put_extra (h := h) hh hsession hag
    have hc := coupled_lost (S := S) hput.fair v
    rw [he]
    exact settle_extra ⟨(hc.conclude ⟨rfl, hput⟩ hticket ⟨rfl, hh⟩ register _).2, hx.calm⟩
  · rw [hstart] at hsession hag
    have hput := (hdraw.relink hle hb hag).put_extra (h := h) hh hsession hag
    have hc := coupled_lost (S := S) hput.fair v
    have hcollect := hput.collect_extra hx.calm
    rw [he]
    exact settle_extra ⟨(hc.look ⟨rfl, hcollect⟩ hticket ⟨rfl, hh⟩ _ register).2, hx.calm⟩

theorem make (hx : InStep S m v w) {id : String} (hid : id ≠ m.gone) (d : Destination)
    (settings : SessionSettings) : InStep S (m.tieSession v.sessions.length w.sessions.length)
      (v.makeSession id d settings).2 (w.makeSession id d settings).2 :=
  ⟨hx.mirrors.make hid d settings, hx.calm.make id d settings⟩

theorem make_extra (hx : InStep S m v w) (d : Destination) (settings : SessionSettings) :
    InStep S (m.loseSession w.sessions.length) v (w.makeSession m.gone d settings).2 :=
  ⟨hx.mirrors.make_extra d settings, hx.calm⟩

theorem create (hx : InStep S m v w) {id : String} (hid : id ≠ m.gone) (d : Destination)
    (rows cols : UInt16) : ∃ m', m.Le m' ∧
      InStep S m' (v.create id d rows cols).2 (w.create id d rows cols).2 ∧
      m'.ticket.partner (v.create id d rows cols).1 (w.create id d rows cols).1 ∧
      m'.session.partner v.sessions.length w.sessions.length := by
  have hmade := hx.make hid d v.settings
  obtain ⟨m', hle, hconnect, ht⟩ := hmade.connect (m.session.tie_partner _ _) rows cols true
  unfold Switchboard.create
  rw [hx.mirrors.settings]
  exact ⟨m', (m.le_tieSession _ _).trans hle, hconnect, ht,
    hle.session.partner (m.session.tie_partner _ _)⟩

theorem create_extra (hx : InStep S m v w) (d : Destination) (rows cols : UInt16) :
    ∃ m', m.Le m' ∧ InStep S m' v (w.create m.gone d rows cols).2 ∧
      m'.session.stranger w.sessions.length := by
  have hmade := hx.make_extra d w.settings
  obtain ⟨m', hle, hconnect⟩ := hmade.connect_extra (m.session.lose_own _).2 rows cols true
  exact ⟨m', (m.le_loseSession _).trans hle, hconnect, hle.session.stranger (m.session.lose_own _).2⟩

theorem read (hx : InStep S m v w) (hh : m.session.partner i h) (span : Millis) :
    InStep S (m.tieTicket v.nextTicket w.nextTicket) (v.read i span).2 (w.read h span).2 := by
  have hdraw := hx.mirrors.draw
  have hle := m.le_tieTicket v.nextTicket w.nextTicket
  have hticket := m.tieTicket_partner v.nextTicket w.nextTicket
  obtain ⟨s, s', hs, hs', ha⟩ := hx.mirrors.kept hh
  obtain ⟨hsame, hnext⟩ := Kin.join hticket (0 < span) (ha.mono hle.kept)
  have hmem := List.mem_of_getElem? hs
  have hcons := (hx.calm.consistent s hmem).next (.read v.nextTicket (0 < span)) v.transport
  have hcalm := hx.calm.set ((hx.calm.sated s hmem).join v.nextTicket (0 < span))
    (Session.idle_join (hx.calm.idle s hmem) v.nextTicket (0 < span)) hcons i
  have hset := (coupled_kept hdraw.fair).set hdraw hh hnext
  rw [read_eq hs, read_eq hs']
  cases hj : s.join v.nextTicket (0 < span) with
  | mk outcome u =>
    cases hj' : s'.join w.nextTicket (0 < span) with
    | mk outcome' u' =>
      rw [hj, hj'] at hsame hset
      rw [hj] at hcalm
      obtain rfl : outcome' = outcome := hsame
      cases outcome' with
      | some outcome => exact ⟨hset.reply hticket (.read outcome), hcalm.of_same rfl rfl⟩
      | none =>
        refine ⟨hset.arm ⟨hticket, ?_, .reading hh⟩, hcalm.of_same rfl rfl⟩
        rw [hx.mirrors.now]

theorem read_extra (hx : InStep S m v w) (hh : m.session.stranger h) (span : Millis) :
    InStep S (m.loseTicket w.nextTicket) v (w.read h span).2 := by
  have hdraw := hx.mirrors.draw_extra
  have hle := m.le_loseTicket w.nextTicket
  have hticket := m.loseTicket_own w.nextTicket
  obtain ⟨s, hs, ha⟩ := hx.mirrors.lost hh
  obtain ⟨-, hnext⟩ := Kin.join (k := (m.loseTicket w.nextTicket).lost) hticket (0 < span)
    (ha.mono hle.lost)
  have hset := (coupled_lost hdraw.fair v).set ⟨rfl, hdraw⟩ ⟨rfl, hh⟩ hnext
  rw [read_eq hs]
  cases hj : s.join w.nextTicket (0 < span) with
  | mk outcome u =>
    rw [hj] at hset
    cases outcome with
    | some outcome => exact ⟨hset.2.reply_extra hticket.2 _, hx.calm⟩
    | none => exact ⟨hset.2.arm_extra ⟨hticket, rfl, .reading ⟨rfl, hh⟩⟩, hx.calm⟩

theorem update (hx : InStep S m v w) (hh : m.session.partner i h) {f : Session → σ → Session × σ}
    (hacts : ∀ s t, Session.Acts (s, t) (f s t))
    (hf : ∀ {k : Kin} {alike : σ → σ → Prop} {s s' t t'}, Kin.Couples k.link alike →
      k.Alike s s' → alike t t' → k.Both alike (f s t) (f s' t')) :
    InStep S m (v.updateSession i f).settle (w.updateSession h f).settle :=
  have hc := coupled_kept (S := S) hx.mirrors.fair
  (hc.update (hf hc.couples) hx.mirrors hh).inStep
    ((steps_updateSession v i hacts).consistent hx.calm.consistent)

theorem update_extra (hx : InStep S m v w) (hh : m.session.stranger h)
    {f : Session → σ → Session × σ}
    (hf : ∀ {k : Kin} {alike : σ → σ → Prop} {s s' t t'}, Kin.Couples k.link alike →
      k.Alike s s' → alike t t' → k.Both alike (f s t) (f s' t')) :
    InStep S m v (w.updateSession h f).settle :=
  have hc := coupled_lost (S := S) hx.mirrors.fair v
  settle_extra ⟨(hc.update (hf hc.couples) ⟨rfl, hx.mirrors⟩ ⟨rfl, hh⟩).2, hx.calm⟩

theorem sendInput_eq {h : Handle} {s : Session} (hs : w.sessions[h]? = some s) (data : Bytes) :
    w.sendInput h data = ((s.sendInput data w.transport).1,
      (w.put h (s, (s.sendInput data w.transport).2)).settle) := by
  unfold Switchboard.sendInput onSession
  rw [hs]
  rfl

theorem sendInput (hx : InStep S m v w) (hh : m.session.partner i h) (data : Bytes) :
    (w.sendInput h data).1 = (v.sendInput i data).1 ∧
      InStep S m (v.sendInput i data).2 (w.sendInput h data).2 := by
  obtain ⟨s, s', hs, hs', ha⟩ := hx.mirrors.kept hh
  obtain ⟨hsame, hrel⟩ :=
    Kin.sendInput (couples_kept hx.mirrors.fair) data ha hx.mirrors.transport
  rw [sendInput_eq hs, sendInput_eq hs']
  have hcons := hx.calm.consistent s (List.mem_of_getElem? hs)
  exact ⟨hsame, (hx.mirrors.put hh ha hrel).inStep (hx.calm.consistent.set i hcons rfl)⟩

theorem sendInput_extra (hx : InStep S m v w) (hh : m.session.stranger h) (data : Bytes) :
    InStep S m v (w.sendInput h data).2 := by
  obtain ⟨s, hs, ha⟩ := hx.mirrors.lost hh
  obtain ⟨-, -, hrel⟩ := Kin.sendInput (couples_lost hx.mirrors.fair v.transport) data ha
    ⟨rfl, hx.mirrors.transport⟩
  rw [sendInput_eq hs]
  exact settle_extra ⟨hx.mirrors.put_extra hh ha hrel, hx.calm⟩

theorem register (hx : InStep S m v w) (hh : m.session.partner i h) :
    InStep S m (v.register i).settle (w.register h).settle :=
  ((coupled_kept hx.mirrors.fair).register hx.mirrors hh).inStep
    ((steps_register v i).consistent hx.calm.consistent)

theorem register_extra (hx : InStep S m v w) (hh : m.session.stranger h) :
    InStep S m v (w.register h).settle :=
  settle_extra ⟨((coupled_lost hx.mirrors.fair v).register ⟨rfl, hx.mirrors⟩ ⟨rfl, hh⟩).2, hx.calm⟩

theorem remove_mirrors (hx : Mirrors S m v w) {id : String} (hid : id ≠ m.gone) :
    Mirrors S m (v.remove id).2 (w.remove id).2 :=
  { hx with
    table := by
      intro id' hid'
      rw [registered_remove, registered_remove]
      split
      · exact .none
      · exact hx.table hid'
    lostTable := by
      intro g hg
      rw [registered_remove, if_neg (Ne.symm hid)] at hg
      exact hx.lostTable hg }

theorem remove_mirrors_extra (hx : Mirrors S m v w) : Mirrors S m v (w.remove m.gone).2 :=
  { hx with
    table := by
      intro id hid
      rw [registered_remove, if_neg hid]
      exact hx.table hid
    lostTable := by
      intro g hg
      rw [registered_remove, if_pos rfl] at hg
      cases hg }

theorem remove (hx : InStep S m v w) {id : String} (hid : id ≠ m.gone) :
    (w.remove id).1.isSome = (v.remove id).1.isSome ∧
      InStep S m (v.remove id).2 (w.remove id).2 := by
  refine ⟨?_, remove_mirrors hx.mirrors hid, hx.calm.of_same rfl rfl⟩
  unfold Switchboard.remove
  rcases Kin.rel_cases (hx.mirrors.table hid) with ⟨hn, hn'⟩ | ⟨p, p', hp, hp', -⟩
  · rw [hn, hn']
  · rw [hp, hp']
    rfl

theorem remove_extra (hx : InStep S m v w) : InStep S m v (w.remove m.gone).2 :=
  ⟨remove_mirrors_extra hx.mirrors, hx.calm⟩

theorem closeId (hx : InStep S m v w) {id : String} (hid : id ≠ m.gone) :
    (w.closeId id).1 = (v.closeId id).1 ∧
      InStep S m (v.closeId id).2.settle (w.closeId id).2.settle := by
  have hremoved := remove_mirrors hx.mirrors hid
  have hcons := (steps_remove v id).consistent hx.calm.consistent
  have hrel := hx.mirrors.table hid
  rcases closeId_cases v id with ⟨hv, he⟩ | ⟨p, hv, he⟩
  · rcases closeId_cases w id with ⟨-, he'⟩ | ⟨p', hw, -⟩
    · rw [he, he']
      exact ⟨rfl, hremoved.inStep hcons⟩
    · rw [hv, hw] at hrel
      cases hrel
  · rcases closeId_cases w id with ⟨hw, -⟩ | ⟨p', hw, he'⟩
    · rw [hv, hw] at hrel
      cases hrel
    · rw [hv, hw] at hrel
      rw [he, he']
      exact ⟨rfl, ((coupled_kept hremoved.fair).closeSession hremoved (Option.rel_some_some.mp hrel)).inStep
        ((steps_closeSession _ p).consistent hcons)⟩

theorem closeId_extra (hx : InStep S m v w) : InStep S m v (w.closeId m.gone).2.settle := by
  have hremoved := remove_mirrors_extra hx.mirrors
  rcases closeId_cases w m.gone with ⟨-, he⟩ | ⟨p, hw, he⟩
  · rw [he]
    exact settle_extra ⟨hremoved, hx.calm⟩
  · rw [he]
    have hp := hx.mirrors.lostTable hw
    exact settle_extra
      ⟨((coupled_lost hremoved.fair v).closeSession ⟨rfl, hremoved⟩ ⟨rfl, hp⟩).2, hx.calm⟩

theorem asked (hx : InStep S m v w) (d : Destination) :
    S.Agree m.link (Transport.requestPath v.now d v.transport)
      (Transport.requestPath w.now d w.transport) := by
  rw [hx.mirrors.now]
  exact hx.mirrors.transport.uniform (S.asking v.now d)

theorem hasPath (hx : InStep S m v w) (d : Destination) :
    Transport.hasPath d w.transport = Transport.hasPath d v.transport :=
  (coupled_kept hx.mirrors.fair).hasPath hx.mirrors.transport

theorem requestPath (hx : InStep S m v w) (d : Destination) :
    (w.requestPath d).1 = (v.requestPath d).1 ∧
      InStep S m (v.requestPath d).2 (w.requestPath d).2 := by
  have hpath := hx.hasPath d
  unfold Switchboard.requestPath
  by_cases hp : Transport.hasPath d v.transport = true
  · rw [if_pos hp, if_pos (hpath.trans hp)]
    exact ⟨rfl, hx⟩
  · have hp' : ¬ Transport.hasPath d w.transport = true := by rwa [hpath]
    rw [if_neg hp, if_neg hp']
    exact ⟨rfl, (hx.mirrors.transport_both (hx.asked d)).inStep (hx.calm.consistent.of_same rfl)⟩

theorem resolve (hx : InStep S m v w) (d : Destination) (span : Millis) :
    InStep S (m.tieTicket v.nextTicket w.nextTicket) (v.resolve d span).2 (w.resolve d span).2 := by
  have hdraw := hx.mirrors.draw
  have hasked := hdraw.transport_both (hx.asked d)
  have hticket := m.tieTicket_partner v.nextTicket w.nextTicket
  have hpath := hx.hasPath d
  have hnow := hx.mirrors.now
  unfold Switchboard.resolve
  dsimp only [Switchboard.draw]
  by_cases hp : Transport.hasPath d v.transport = true
  · rw [if_pos hp, if_pos (hpath.trans hp)]
    exact ⟨hdraw.reply hticket (.resolved true), hx.calm.of_same rfl rfl⟩
  · have hp' : ¬ Transport.hasPath d w.transport = true := by rwa [hpath]
    rw [if_neg hp, if_neg hp']
    by_cases hspan : v.now < v.now + span
    · have hspan' : w.now < w.now + span := by rwa [hnow]
      rw [if_pos hspan, if_pos hspan']
      have hpends : (m.tieTicket v.nextTicket w.nextTicket).kept.Pends
          ⟨v.nextTicket, v.now + v.pathPoll, .resolving d (v.now + span)⟩
          ⟨w.nextTicket, w.now + w.pathPoll, .resolving d (w.now + span)⟩ := by
        refine ⟨hticket, ?_, ?_⟩
        · simp [pathPoll, hnow, hx.mirrors.settings]
        · rw [hnow]
          exact .resolving d _
      exact (hasked.arm hpends).inStep (hx.calm.consistent.of_same rfl)
    · have hspan' : ¬ w.now < w.now + span := by rwa [hnow]
      rw [if_neg hspan, if_neg hspan']
      exact (hasked.reply hticket (.resolved false)).inStep (hx.calm.consistent.of_same rfl)

theorem sleep (hx : InStep S m v w) (span : Millis) :
    InStep S (m.tieTicket v.nextTicket w.nextTicket) (v.sleep span).2 (w.sleep span).2 := by
  have hdraw := hx.mirrors.draw
  have hticket := m.tieTicket_partner v.nextTicket w.nextTicket
  unfold Switchboard.sleep
  dsimp only [Switchboard.draw]
  split
  · exact ⟨hdraw.reply hticket .slept, hx.calm.of_same rfl rfl⟩
  · refine ⟨hdraw.arm (Kin.Pends.mk hticket ?_ .sleeping), hx.calm.of_same rfl rfl⟩
    exact congrArg (· + span) hx.mirrors.now

theorem everywhere (hx : InStep S m v w) {f : σ → σ} (hf : S.Uniform f) :
    InStep S m (v.disturb f) (w.disturb f) :=
  (hx.mirrors.transport_both (hx.mirrors.transport.uniform hf)).inStep
    (hx.calm.consistent.of_same rfl)

theorem onLink (hx : InStep S m v w) {f : LinkId → σ → σ} (hf : S.Local f) {l l' : LinkId}
    (hl : m.link.partner l l') : InStep S m (v.disturb (f l)) (w.disturb (f l')) :=
  (hx.mirrors.transport_both (hx.mirrors.transport.both hx.mirrors.fair.link hf hl)).inStep
    (hx.calm.consistent.of_same rfl)

theorem onLink_extra (hx : InStep S m v w) {f : LinkId → σ → σ} (hf : S.Local f) {l' : LinkId}
    (hl : m.link.stranger l') : InStep S m v (w.disturb (f l')) :=
  settle_extra
    ⟨hx.mirrors.transport_extra (hx.mirrors.transport.extra hx.mirrors.fair.link hf hl), hx.calm⟩

end InStep

end MeshShell.Switchboard

import MeshShell.Proofs.Session.Teardown
import MeshShell.Proofs.Switchboard.Table
import MeshShell.Proofs.Switchboard.Turns

/-! # Sessions on their way into the table

Every creation has a ticket and a session of its own. It waits, or it came to
its end, and then its session is where its id leads, was taken out, or closed.
-/
namespace MeshShell

structure Creation where
  ticket : Ticket
  session : Handle
  id : String
  deriving DecidableEq

namespace Switchboard

variable {σ : Type} [Transport σ] {w w' w'' : Switchboard σ}

/-- Every session goes on in a run of its own. -/
def Along (w w' : Switchboard σ) : Prop := ∀ (h : Nat) s, w.sessions[h]? = some s → Goes w w' h s

theorem Steps.along (hst : Steps w w') : Along w w' := fun _ _ hs => Steps.goes hst hs

theorem Along.trans (h : Along w w') (h' : Along w' w'') : Along w w'' := by
  intro g s hs
  obtain ⟨s', hist, hs', hr⟩ := h g s hs
  obtain ⟨s'', later, hs'', hr'⟩ := h' g s' hs'
  exact ⟨s'', hist ++ later, hs'', hr.append hr'⟩

theorem along_read (w : Switchboard σ) (h : Nat) (span : Millis) : Along w (w.read h span).2 := by
  cases hg : w.sessions[h]? with
  | none =>
    rw [read_none hg]
    exact fun _ _ hs => (stirs_same rfl).goes hs
  | some s₀ =>
    intro g s hs
    have hnext : ∀ outcome s', s₀.join w.nextTicket (0 < span) = (outcome, s') →
        Session.next (.read w.nextTicket (0 < span)) (s₀, w.transport) = (s', w.transport) := by
      intro outcome s' hj
      simp [Session.next, hj]
    rw [read_eq hg]
    cases hj : s₀.join w.nextTicket (0 < span) with
    | mk outcome s' => cases outcome <;> exact goes_one _ hg rfl rfl (hnext _ _ hj) hs

theorem along_take (hw : w.Booked) (hset : w.Settled) (c : Call σ) : Along w (w.take c) := by
  by_cases hc : c.Plain
  · exact (steps_take hw hset hc).along
  · cases c with
    | read h span => exact along_read w h span
    | advance time =>
      have htick : Stirs w { w with
          now := max w.now time
          transport := Transport.wake (max w.now time) w.transport } := stirs_same rfl
      have hfirst : Along w _ := fun _ _ hs => htick.goes hs
      exact hfirst.trans (steps_settle _).along
    | _ => exact absurd trivial hc

def At (w : Switchboard σ) (h : Handle) (P : Session → Prop) : Prop :=
  ∃ s, w.sessions[(h : Nat)]? = some s ∧ P s

/-- What a session never loses. -/
def Lasting (σ : Type) [Transport σ] (P : Session → Prop) : Prop :=
  ∀ (a : Session.Action σ) p, P p.1 → P (Session.next a p).1

theorem lasting_closed : Lasting σ (·.closed = true) :=
  fun a p h => (Session.effect a p.1 p.2).closed h

theorem lasting_tidy : Lasting σ Session.Tidy := fun a p h => (Session.effect a p.1 p.2).tidy h

theorem lasting_id (id : String) : Lasting σ (·.id = id) :=
  fun a p h => (Session.effect a p.1 p.2).id.trans h

theorem At.along {P : Session → Prop} {h : Handle} (hat : w.At h P) (hP : Lasting σ P)
    (ha : Along w w') : w'.At h P := by
  obtain ⟨s, hs, hp⟩ := hat
  obtain ⟨s', hist, hs', hr⟩ := ha h s hs
  exact ⟨s', hs', hr.invariant (P := fun p : Session × σ => P p.1) hp hP⟩

structure Tracked (ks : List Creation) (w : Switchboard σ) : Prop where
  tickets : (ks.map (·.ticket)).Nodup
  sessions : (ks.map (·.session)).Nodup
  drawn : ∀ k ∈ ks, k.ticket < w.nextTicket
  made : ∀ k ∈ ks, w.At k.session (·.id = k.id)
  waiting : ∀ p ∈ w.creating, ∃ k ∈ ks, k.ticket = p.ticket ∧
    (∃ deadline, p.wait = .connecting k.session deadline true) ∧ w.At k.session Session.Tidy ∧
    ∀ e ∈ w.created, e.1 ≠ p.ticket
  told : ∀ e ∈ w.created, ∃ k ∈ ks, k.ticket = e.1 ∧
    ∀ h, e.2 = .ok h → h = k.session ∧ w.At h Session.Tidy

/-- The table leads to created sessions, and no other one is left open. -/
structure Filed (ks : List Creation) (handed : List Handle) (bound : String → Option Handle)
    (w : Switchboard σ) : Prop where
  table : leads w.table = bound
  sorted : Sorted w.table
  rows : ∀ id h, bound id = some h → ∃ k ∈ ks, k.id = id ∧ k.session = h ∧
    (k.ticket, .ok h) ∈ w.created
  kept : ∀ k ∈ ks, (k.ticket, .ok k.session) ∈ w.created →
    bound k.id = some k.session ∨ k.session ∈ handed ∨ w.At k.session (·.closed = true)

structure Registry (ks : List Creation) (handed : List Handle) (bound : String → Option Handle)
    (w : Switchboard σ) : Prop extends Tracked ks w, Filed ks handed bound w

/-- A creation waits or came to its end. -/
def Heeds (w : Switchboard σ) (k : Creation) : Prop :=
  (∃ p ∈ w.creating, p.ticket = k.ticket) ∨ ∃ e ∈ w.created, e.1 = k.ticket

variable {ks : List Creation} {handed : List Handle} {bound : String → Option Handle}

omit [Transport σ] in
theorem Tracked.eq_of_ticket (hx : Tracked ks w) {k k' : Creation} (hk : k ∈ ks) (hk' : k' ∈ ks)
    (ht : k.ticket = k'.ticket) : k = k' := List.inj_on_of_nodup_map hx.tickets hk hk' ht

omit [Transport σ] in
theorem Tracked.eq_of_session (hx : Tracked ks w) {k k' : Creation} (hk : k ∈ ks) (hk' : k' ∈ ks)
    (hs : k.session = k'.session) : k = k' := List.inj_on_of_nodup_map hx.sessions hk hk' hs

theorem Tracked.along (hx : Tracked ks w) (ha : Along w w') (hn : w.nextTicket ≤ w'.nextTicket)
    (hcreating : w'.creating = w.creating) (hcreated : w'.created = w.created) :
    Tracked ks w' where
  tickets := hx.tickets
  sessions := hx.sessions
  drawn := fun k hk => Nat.lt_of_lt_of_le (hx.drawn k hk) hn
  made := fun k hk => (hx.made k hk).along (lasting_id k.id) ha
  waiting := by
    intro p hp
    rw [hcreating] at hp
    obtain ⟨k, hk, ht, hwait, htidy, hnew⟩ := hx.waiting p hp
    exact ⟨k, hk, ht, hwait, htidy.along lasting_tidy ha, by rwa [hcreated]⟩
  told := by
    intro e he
    rw [hcreated] at he
    obtain ⟨k, hk, ht, hok⟩ := hx.told e he
    exact ⟨k, hk, ht, fun h heq => (hok h heq).imp_right (·.along lasting_tidy ha)⟩

theorem Registry.aside (hx : Registry ks handed bound w) (ha : Aside w w') (hal : Along w w')
    (hn : w.nextTicket ≤ w'.nextTicket) : Registry ks handed bound w' where
  toTracked := hx.toTracked.along hal hn ha.creating ha.created
  table := by rw [ha.table]; exact hx.table
  sorted := by rw [ha.table]; exact hx.sorted
  rows := by rw [ha.created]; exact hx.rows
  kept := by
    rw [ha.created]
    intro k hk hok
    exact (hx.kept k hk hok).imp_right fun h => h.imp_right (·.along lasting_closed hal)

/-- Rows are taken out of the table, and whose session is not handed over is closed. -/
theorem Registry.unbind (hx : Registry ks handed bound w) {handed' : List Handle}
    {bound' : String → Option Handle} (hcreating : w'.creating = w.creating)
    (hcreated : w'.created = w.created) (ha : Along w w') (hn : w.nextTicket ≤ w'.nextTicket)
    (htable : leads w'.table = bound') (hsorted : Sorted w'.table)
    (hless : ∀ id h, bound' id = some h → bound id = some h) (hhanded : handed ⊆ handed')
    (hout : ∀ id h, bound id = some h → bound' id = some h ∨ h ∈ handed' ∨ w'.At h (·.closed = true)) :
    Registry ks handed' bound' w' where
  toTracked := hx.toTracked.along ha hn hcreating hcreated
  table := htable
  sorted := hsorted
  rows := by
    rw [hcreated]
    exact fun id h hb => hx.rows id h (hless id h hb)
  kept := by
    rw [hcreated]
    intro k hk hok
    rcases hx.kept k hk hok with hb | hm | hc
    · exact hout k.id k.session hb
    · exact .inr (.inl (hhanded hm))
    · exact .inr (.inr (hc.along lasting_closed ha))

omit [Transport σ] in
theorem Tracked.reply (hx : Tracked ks w) {k : Creation} (hk : k ∈ ks)
    {result : Except SessionError Handle}
    (hok : ∀ h, result = .ok h → h = k.session ∧ w.At h Session.Tidy) :
    Tracked ks (w.reply k.ticket (.created result)) where
  tickets := hx.tickets
  sessions := hx.sessions
  drawn := hx.drawn
  made := hx.made
  waiting := by
    intro p hp
    rw [creating_reply] at hp
    obtain ⟨hp, hne⟩ := List.mem_filter.mp hp
    obtain ⟨k', hk', ht, hwait, htidy, hnew⟩ := hx.waiting p hp
    refine ⟨k', hk', ht, hwait, htidy, ?_⟩
    rw [created_reply]
    intro e he
    rcases List.mem_append.mp he with he | he
    · exact hnew e he
    · rw [List.mem_singleton.mp he]
      exact (of_decide_eq_true hne).symm
  told := by
    rw [created_reply]
    intro e he
    rcases List.mem_append.mp he with he | he
    · exact hx.told e he
    · rw [List.mem_singleton.mp he]
      exact ⟨k, hk, rfl, hok⟩

omit [Transport σ] in
theorem Registry.fail (hx : Registry ks handed bound w) {k : Creation} (hk : k ∈ ks)
    (e : SessionError) : Registry ks handed bound (w.reply k.ticket (.created (.error e))) where
  toTracked := hx.toTracked.reply hk (by simp)
  table := hx.table
  sorted := hx.sorted
  rows := by
    intro id h hb
    obtain ⟨k', hk', hid, hs, hm⟩ := hx.rows id h hb
    exact ⟨k', hk', hid, hs, by simp [created_reply, hm]⟩
  kept := by
    intro k' hk' hok
    refine hx.kept k' hk' ?_
    simpa [created_reply, Answer.created?] using hok

omit [Transport σ] in
theorem Registry.wait (hx : Registry ks handed bound w) {k : Creation} (hk : k ∈ ks)
    (htidy : w.At k.session Session.Tidy) (hnew : ∀ e ∈ w.created, e.1 ≠ k.ticket)
    (wake deadline : Millis) :
    Registry ks handed bound (w.arm ⟨k.ticket, wake, .connecting k.session deadline true⟩) where
  tickets := hx.tickets
  sessions := hx.sessions
  drawn := hx.drawn
  made := hx.made
  waiting := by
    intro p hp
    rw [creating_arm] at hp
    rcases List.mem_append.mp hp with hp | hp
    · exact hx.waiting p (List.mem_of_mem_filter hp)
    · obtain rfl := by simpa [Wait.registers] using hp
      exact ⟨k, hk, rfl, ⟨deadline, rfl⟩, htidy, hnew⟩
  told := hx.told
  table := hx.table
  sorted := hx.sorted
  rows := hx.rows
  kept := hx.kept

theorem register_cases {h : Nat} {s : Session} (hs : w.sessions[h]? = some s) :
    (w.registered? s.id = none ∧ w.register h = { w with table := bind s.id h w.table }) ∨
    ∃ p, w.registered? s.id = some p ∧
      w.register h = { w with table := bind s.id h w.table }.closeSession p := by
  unfold register
  rw [hs]
  dsimp only
  cases w.registered? s.id with
  | none => exact .inl ⟨rfl, rfl⟩
  | some p => exact .inr ⟨p, rfl, rfl⟩

theorem closed_closeSession {h : Nat} {s : Session} (hs : w.sessions[h]? = some s) :
    (w.closeSession h).At h (·.closed = true) := by
  have hlt := (List.getElem?_eq_some_iff.mp hs).1
  exact ⟨(s.close w.transport).1, by simp [closeSession, updateSession_eq hs, put, hlt],
    s.closed_close w.transport⟩

theorem table_closeSession (w : Switchboard σ) (p : Handle) : (w.closeSession p).table = w.table := by
  obtain ⟨_, _, hf⟩ := updateSession_frame w p Session.close
  rw [closeSession, hf]

theorem table_register {h : Nat} {s : Session} (hs : w.sessions[h]? = some s) :
    (w.register h).table = bind s.id h w.table := by
  rcases register_cases hs with ⟨-, he⟩ | ⟨p, -, he⟩
  · rw [he]
  · rw [he, table_closeSession]

/-- A creation that registers its session. Whose place it takes is closed. -/
theorem Registry.done (hx : Registry ks handed bound w) {k : Creation} (hk : k ∈ ks)
    (htidy : w.At k.session Session.Tidy) :
    Registry ks handed (Function.update bound k.id (some k.session))
      ((w.register k.session).reply k.ticket (.created (.ok k.session))) := by
  obtain ⟨s, hs, hid⟩ := hx.made k hk
  have hal : Along w (w.register k.session) := (steps_register w k.session).along
  obtain ⟨sessions, t, rows, hf⟩ := register_frame w k.session
  have htable : (w.register k.session).table = bind k.id k.session w.table := by
    rw [← hid]
    exact table_register hs
  have hcreating : (w.register k.session).creating = w.creating := by rw [hf]; rfl
  have hcreated : ((w.register k.session).reply k.ticket (.created (.ok k.session))).created =
      w.created ++ [(k.ticket, .ok k.session)] := by
    rw [created_reply, hf]
    rfl
  have htracked : Tracked ks (w.register k.session) :=
    hx.toTracked.along hal (by rw [hf]) hcreating (by rw [hf]; rfl)
  exact
    { toTracked := by
        refine htracked.reply hk fun h heq => ?_
        obtain rfl := Except.ok.inj heq
        exact ⟨rfl, htidy.along lasting_tidy hal⟩
      table := by
        have hleads := leads_bind k.id k.session w.table
        rwa [hx.table, ← htable] at hleads
      sorted := by
        have hsorted := hx.sorted.bind k.id k.session
        rwa [← htable] at hsorted
      rows := by
        rw [hcreated]
        intro id h hb
        by_cases hidk : id = k.id
        · subst hidk
          rw [Function.update_self] at hb
          obtain rfl := Option.some.inj hb
          exact ⟨k, hk, rfl, rfl, by simp⟩
        · rw [Function.update_of_ne hidk] at hb
          obtain ⟨k', hk', hid', hs', hm⟩ := hx.rows id h hb
          exact ⟨k', hk', hid', hs', List.mem_append_left _ hm⟩
      kept := by
        rw [hcreated]
        intro k' hk' hok
        by_cases hkk : k' = k
        · subst hkk
          exact .inl (Function.update_self ..)
        · have hold : (k'.ticket, .ok k'.session) ∈ w.created := by
            rcases List.mem_append.mp hok with hok | hok
            · exact hok
            · have ht := (Prod.mk.inj (List.mem_singleton.mp hok)).1
              exact absurd (hx.eq_of_ticket hk' hk ht) hkk
          rcases hx.kept k' hk' hold with hb | hm | hc
          · by_cases hidk : k'.id = k.id
            · -- The session that had the id before is closed.
              have hprev : w.registered? s.id = some k'.session := by
                rw [hid, ← hidk, ← hb, ← hx.table]
                rfl
              obtain ⟨s', hs', -⟩ := hx.made k' hk'
              rcases register_cases hs with ⟨hnone, -⟩ | ⟨p, hsome, he⟩
              · simp [hnone] at hprev
              · obtain rfl : p = k'.session := Option.some.inj (hsome.symm.trans hprev)
                rw [he]
                exact .inr (.inr (closed_closeSession
                  (w := { w with table := bind s.id k.session w.table }) hs'))
            · exact .inl (by rwa [Function.update_of_ne hidk])
          · exact .inr (.inl hm)
          · exact .inr (.inr (hc.along lasting_closed hal)) }

end Switchboard

end MeshShell

import MeshShell.Proofs.Session.Delivery
import MeshShell.Proofs.Switchboard.Settled

/-! # The sessions of a switchboard

Seen from one of its sessions, a small step of the switchboard is an action of
this session, or something that happens elsewhere. So every session of a
switchboard lives a life of its own, and what holds in every life holds for it.
-/
namespace MeshShell

namespace Switchboard

variable {σ : Type} [Transport σ] {w w' : Switchboard σ}

/-- Sessions go on, new ones come, and readers have no part in it. -/
structure Stirs (w w' : Switchboard σ) : Prop where
  kept : ∀ (h : Nat) s, w.sessions[h]? = some s →
    ∃ s', w'.sessions[h]? = some s' ∧ Session.Acts (s, w.transport) (s', w'.transport)
  fresh : ∀ (h : Nat) s', w.sessions[h]? = none → w'.sessions[h]? = some s' →
    ∃ id d settings, s' = .new id d settings

theorem acts_elsewhere (s : Session) (t t' : σ) : Session.Acts (s, t) (s, t') :=
  Session.Acts.single (a := .elsewhere fun _ => t') (s, t) trivial

theorem stirs_same (hs : w'.sessions = w.sessions) : Stirs w w' where
  kept := by
    intro h s hold
    rw [← hs] at hold
    exact ⟨s, hold, acts_elsewhere s w.transport w'.transport⟩
  fresh := by
    intro h s' hnone hsome
    rw [hs, hnone] at hsome
    cases hsome

theorem stirs_put {g : Handle} {s₀ : Session} {p : Session × σ} (hg : w.sessions[g]? = some s₀)
    (hact : Session.Acts (s₀, w.transport) p) : Stirs w (w.put g p) where
  kept := by
    intro h s hold
    by_cases hgh : g = h
    · subst hgh
      obtain rfl : s₀ = s := Option.some.inj (hg.symm.trans hold)
      have hlt : g < w.sessions.length := (List.getElem?_eq_some_iff.mp hg).1
      exact ⟨p.1, by simp [put, hlt], hact⟩
    · exact ⟨s, by simpa [put, hgh] using hold, acts_elsewhere s w.transport p.2⟩
  fresh := by
    intro h s' hnone hsome
    have hlt := (List.getElem?_eq_some_iff.mp hsome).1
    simp only [put, List.length_set] at hlt
    exact absurd hlt (Nat.not_lt_of_le (List.getElem?_eq_none_iff.mp hnone))

theorem stirs_callback (c : LinkId × Callback) :
    Stirs w { w with sessions := receive w.sessions c } where
  kept := by
    intro h s hold
    obtain ⟨l, c⟩ := c
    by_cases ho : s.opened = some l
    · have hnext : Session.next (.report c : Session.Action σ) (s, w.transport) =
          (s.push (eventOf l c), w.transport) := by
        simp [Session.next, Session.receive, ho]
      refine ⟨s.push (eventOf l c), by simp [receive, hold, ho], ?_⟩
      exact hnext ▸ Session.Acts.single (a := .report c) (s, w.transport) trivial
    · exact ⟨s, by simp [receive, hold, ho], .refl _⟩
  fresh := by
    intro h s' hnone hsome
    simp [receive, hnone] at hsome

theorem stirs_made (id : String) (d : Destination) (settings : SessionSettings) :
    Stirs w { w with sessions := w.sessions ++ [.new id d settings] } where
  kept := by
    intro h s hold
    have hlt : h < w.sessions.length := (List.getElem?_eq_some_iff.mp hold).1
    exact ⟨s, by simpa [List.getElem?_append_left hlt] using hold, .refl _⟩
  fresh := by
    intro h s' hnone hsome
    have hle : w.sessions.length ≤ h := List.getElem?_eq_none_iff.mp hnone
    rw [List.getElem?_append_right hle, List.getElem?_singleton] at hsome
    split at hsome
    · exact ⟨id, d, settings, (Option.some.inj hsome).symm⟩
    · cases hsome

/-- What happened on the switchboard is for this session a run. -/
def Goes (w w' : Switchboard σ) (h : Handle) (s : Session) : Prop :=
  ∃ s' hist, w'.sessions[h]? = some s' ∧
    Run Session.next (s, w.transport) hist (s', w'.transport)

variable {h : Handle} {s : Session}

theorem Stirs.goes (hst : Stirs w w') (hs : w.sessions[h]? = some s) : Goes w w' h s := by
  obtain ⟨s', hs', hist, hr, -⟩ := hst.kept h s hs
  exact ⟨s', hist, hs', hr⟩

theorem goes_one {g : Handle} {s₀ s' : Session} (a : Session.Action σ)
    (hg : w.sessions[g]? = some s₀) (ht : w'.transport = w.transport)
    (hw : w'.sessions = w.sessions.set g s')
    (hn : Session.next a (s₀, w.transport) = (s', w.transport)) (hs : w.sessions[h]? = some s) :
    Goes w w' h s := by
  by_cases hgh : g = h
  · subst hgh
    obtain rfl : s₀ = s := Option.some.inj (hg.symm.trans hs)
    have hlt : g < w.sessions.length := (List.getElem?_eq_some_iff.mp hg).1
    have hr : Run Session.next (s₀, w.transport) [_] _ := .single a (s₀, w.transport)
    rw [hn] at hr
    refine ⟨s', [((s₀, w.transport), a)], by simp [hw, hlt], ?_⟩
    rw [ht]
    exact hr
  · have hr : Run Session.next (s, w.transport) [_] _ :=
      .single (.elsewhere fun _ => w'.transport) (s, w.transport)
    exact ⟨s, _, by simpa [hw, hgh] using hs, hr⟩

theorem Step.goes (hst : Step w w') (hs : w.sessions[h]? = some s) : Goes w w' h s := by
  cases hst with
  | act hg hact => exact (stirs_put hg hact).goes hs
  | callback c => exact (stirs_callback c).goes hs
  | made id d settings => exact (stirs_made id d settings).goes hs
  | @served g s₀ s' r rest outcome hg hl ht =>
    refine goes_one .serve hg rfl rfl ?_ hs
    simp [Session.next, Session.serveFirst, hl, ht]
  | @left g s₀ p _ _ _ hg _ => exact goes_one (.expire p.ticket) hg rfl rfl rfl hs
  | _ => exact Stirs.goes (stirs_same rfl) hs

theorem Steps.goes (hst : Steps w w') (hs : w.sessions[h]? = some s) : Goes w w' h s := by
  induction hst with
  | refl => exact ⟨s, [], hs, .nil⟩
  | tail _ hstep ih =>
    obtain ⟨s₁, hist, hs₁, hr⟩ := ih
    obtain ⟨s₂, later, hs₂, hr₂⟩ := hstep.goes hs₁
    exact ⟨s₂, hist ++ later, hs₂, hr.append hr₂⟩

theorem Steps.closed {s' : Session} (hst : Steps w w') (hs : w.sessions[h]? = some s)
    (hs' : w'.sessions[h]? = some s') (hc : s.closed = true) : s'.closed = true := by
  obtain ⟨s₁, hist, hs₁, hr⟩ := hst.goes hs
  obtain rfl : s₁ = s' := Option.some.inj (hs₁.symm.trans hs')
  exact Session.closed_of_run hr hc

def Consistent (w : Switchboard σ) : Prop := ∀ s ∈ w.sessions, s.Consistent

omit [Transport σ] in
theorem Consistent.of_same (hw : w.Consistent) (hs : w'.sessions = w.sessions) : w'.Consistent :=
  fun s h => hw s (hs ▸ h)

omit [Transport σ] in
theorem Consistent.set (hw : w.Consistent) (h : Handle) (hs : s.Consistent)
    (hsame : w'.sessions = w.sessions.set h s) : w'.Consistent := by
  intro s' hs'
  rcases List.mem_or_eq_of_mem_set (hsame ▸ hs') with hs' | rfl
  · exact hw s' hs'
  · exact hs

theorem Step.consistent (hst : Step w w') (hw : w.Consistent) : w'.Consistent := by
  intro s' hs'
  obtain ⟨h, hlt, rfl⟩ := List.getElem_of_mem hs'
  cases hs : w.sessions[h]? with
  | some s =>
    obtain ⟨s₁, hist, hs₁, hr⟩ := hst.goes hs
    obtain rfl := Option.some.inj ((List.getElem?_eq_getElem hlt).symm.trans hs₁)
    exact (hw s (List.mem_of_getElem? hs)).of_run hr
  | none =>
    -- Only a session that has just been made was not there before.
    have hle : w.sessions.length ≤ h := List.getElem?_eq_none_iff.mp hs
    cases hst with
    | made id d settings =>
      dsimp only
      rw [List.getElem_append_right hle, List.getElem_singleton]
      exact .new id d settings
    | _ => exact absurd hlt (by simpa [put, tell, receive, reply, arm] using hle)

theorem Steps.consistent (hst : Steps w w') (hw : w.Consistent) : w'.Consistent := by
  induction hst with
  | refl => exact hw
  | tail _ hstep ih => exact hstep.consistent ih

namespace Consistent

theorem conclude (hw : w.Consistent) (ticket : Ticket) (h : Handle) (register : Bool)
    (result : Except SessionError Unit) : (w.conclude ticket h register result).Consistent := by
  unfold Switchboard.conclude
  split
  · split
    · exact ((steps_register w h).consistent hw).of_same rfl
    · exact hw.of_same rfl
  · exact hw.of_same rfl

theorem look (hw : w.Consistent) (ticket : Ticket) (h : Handle) (deadline : Millis)
    (register : Bool) : (w.look ticket h deadline register).Consistent := by
  unfold Switchboard.look
  cases hs : w.sessions[h]? with
  | none => exact hw
  | some s =>
    dsimp only
    cases hp : s.progress with
    | some result => exact hw.conclude ticket h register result
    | none =>
      dsimp only
      split
      · have hgive : s.giveUp w.transport = Session.next .giveUp (s, w.transport) := by
          simp [Session.next, Session.timeOut, hp]
        rw [updateSession_eq hs, hgive]
        have hnext := (hw s (List.mem_of_getElem? hs)).next .giveUp w.transport
        exact Consistent.conclude (hw.set h hnext rfl) ticket h register _
      · exact hw.of_same rfl

theorem leave (hw : w.Consistent) (ticket : Ticket) (h : Handle) : (w.leave ticket h).Consistent := by
  unfold Switchboard.leave
  cases hs : w.sessions[h]? with
  | none => exact hw
  | some s =>
    have hleft := (hw s (List.mem_of_getElem? hs)).next (.expire ticket) w.transport
    dsimp only
    split
    · exact hw.set h hleft (sessions_rearmFirst _ _)
    · exact hw.set h hleft rfl

theorem expire (hw : w.Consistent) (p : Pending) : (w.expire p).Consistent := by
  unfold Switchboard.expire
  split
  · exact hw.look _ _ _ _
  · unfold lookForPath
    split
    · exact hw.of_same rfl
    · split
      · exact hw.of_same rfl
      · exact hw.of_same rfl
  · exact hw.leave _ _
  · exact hw.of_same rfl

end Consistent

end Switchboard

end MeshShell

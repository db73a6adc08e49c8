import MeshShell.Proofs.Switchboard.Sessions
import MeshShell.Proofs.Switchboard.Settled

/-! # What happens by itself

When a switchboard settles, reports reach the sessions, drivers take events and
readers get what there is. Nobody calls a session meanwhile, and the table, the
clock and the tickets are left alone.
-/
namespace MeshShell

namespace Session

variable {σ : Type} [Transport σ]

/-- An action that does not come from a caller of its own. -/
def Action.Inner : Action σ → Prop
  | .report _ => True
  | .drive => True
  | .serve => True
  | .elsewhere _ => True
  | _ => False

/-- Serving a line is serving the first in line again and again. -/
theorem inner_serveLine (line : List Ticket) (s : Session) (t : σ) (hl : s.readers = line) :
    ActsBy Action.Inner (s, t) ((s.serveLine line).2, t) := by
  induction line generalizing s with
  | nil =>
    have hsame : { s with readers := [] } = s := by rw [← hl]
    simpa only [serveLine, hsame] using ActsBy.refl (s, t)
  | cons r rest ih =>
    rcases s.take_some_or_none with ⟨outcome, s', ht⟩ | ht
    · have hfirst : next .serve (s, t) = ({ s' with readers := rest }, t) := by
        simp [next, serveFirst, hl, ht]
      have hrest := ih { s' with readers := rest } rfl
      rw [Switchboard.serveLine_readers, ← hfirst] at hrest
      have hall : (s.serveLine (r :: rest)).2 = (s'.serveLine rest).2 := by simp [serveLine, ht]
      rw [hall]
      exact (ActsBy.single (s, t) trivial).trans hrest
    · have hsame : { s with readers := r :: rest } = s := by rw [← hl]
      simpa only [serveLine, ht, hsame] using ActsBy.refl (s, t)

theorem inner_elsewhere (s : Session) (t t' : σ) : ActsBy Action.Inner (s, t) (s, t') :=
  ActsBy.single (a := .elsewhere fun _ => t') (s, t) trivial

end Session

namespace Switchboard

variable {σ : Type} [Transport σ] {w w' w'' : Switchboard σ} {h : Handle} {s : Session}

/-- What happened on the switchboard is for this session nothing that a caller did to it. -/
def Drifts (w w' : Switchboard σ) (h : Handle) (s : Session) : Prop :=
  ∃ s', w'.sessions[(h : Nat)]? = some s' ∧
    Session.ActsBy Session.Action.Inner (s, w.transport) (s', w'.transport)

theorem drifts_same (hs : w'.sessions[(h : Nat)]? = some s) : Drifts w w' h s :=
  ⟨s, hs, Session.inner_elsewhere s w.transport w'.transport⟩

theorem Drifts.trans (hd : Drifts w w' h s)
    (hd' : ∀ s', w'.sessions[(h : Nat)]? = some s' → Drifts w' w'' h s') : Drifts w w'' h s := by
  obtain ⟨s', hs', hact⟩ := hd
  obtain ⟨s'', hs'', hact'⟩ := hd' s' hs'
  exact ⟨s'', hs'', hact.trans hact'⟩

theorem drifts_callback (c : LinkId × Callback) (hs : w.sessions[(h : Nat)]? = some s) :
    Drifts w { w with sessions := receive w.sessions c } h s := by
  obtain ⟨l, c⟩ := c
  by_cases ho : s.opened = some l
  · have hnext : Session.next (.report c : Session.Action σ) (s, w.transport) =
        (s.push (eventOf l c), w.transport) := by
      simp [Session.next, Session.receive, ho]
    refine ⟨s.push (eventOf l c), by simp [receive, hs, ho], ?_⟩
    exact hnext ▸ Session.ActsBy.single (a := .report c) (s, w.transport) trivial
  · exact drifts_same (by simp [receive, hs, ho])

theorem drifts_collect (hs : w.sessions[(h : Nat)]? = some s) : Drifts w w.collect h s := by
  suffices hall : ∀ (callbacks : List (LinkId × Callback)) (w : Switchboard σ) s,
      w.sessions[(h : Nat)]? = some s →
        Drifts w { w with sessions := callbacks.foldl receive w.sessions } h s by
    have hfirst : Drifts w { w with transport := (Transport.deliver w.transport).2 } h s :=
      drifts_same hs
    exact hfirst.trans fun s' => hall (Transport.deliver w.transport).1 _ s'
  intro callbacks
  induction callbacks with
  | nil =>
    intro w s hs
    exact drifts_same hs
  | cons c rest ih =>
    intro w s hs
    exact (drifts_callback c hs).trans fun s' => ih { w with sessions := receive w.sessions c } s'

theorem inner_driveAll (sessions : List Session) (t : σ) {i : Nat} (hs : sessions[i]? = some s) :
    ∃ s', (driveAll sessions t).1[i]? = some s' ∧
      Session.ActsBy Session.Action.Inner (s, t) (s', (driveAll sessions t).2) := by
  induction sessions generalizing t i with
  | nil => simp at hs
  | cons first rest ih =>
    have hfirst : Session.ActsBy Session.Action.Inner (first, t) (first.drive t) :=
      (first.driven_drive t).mono fun _ ha => ha ▸ trivial
    cases hd : first.drive t with
    | mk first' t' =>
      rw [hd] at hfirst
      have hall : driveAll (first :: rest) t =
          (first' :: (driveAll rest t').1, (driveAll rest t').2) := by
        simp [driveAll, hd]
      rw [hall]
      cases i with
      | zero =>
        obtain rfl : first = s := by simpa using hs
        exact ⟨first', rfl, hfirst.trans (Session.inner_elsewhere first' t' _)⟩
      | succ i =>
        obtain ⟨s', hs', hact⟩ := ih t' hs
        exact ⟨s', hs', (Session.inner_elsewhere s t t').trans hact⟩

theorem drifts_round (hs : w.sessions[(h : Nat)]? = some s) : Drifts w w.round h s :=
  (drifts_collect hs).trans fun _ hs' => inner_driveAll w.collect.sessions w.collect.transport hs'

omit [Transport σ] in
theorem replyAll_frame (served : List (Ticket × ReadOutcome)) (w : Switchboard σ) :
    ∃ waits answers, replyAll served w = { w with waits, answers } := by
  induction served generalizing w with
  | nil => exact ⟨_, _, rfl⟩
  | cons first rest ih => exact ih (w.reply first.1 (.read first.2))

omit [Transport σ] in
theorem rearmFirst_frame (w : Switchboard σ) (s : Session) :
    ∃ waits, w.rearmFirst s = { w with waits } := by
  unfold rearmFirst
  cases s.readers.head? with
  | none => exact ⟨_, rfl⟩
  | some ticket =>
    dsimp only
    cases w.waits.find? (·.ticket = ticket) <;> exact ⟨_, rfl⟩

omit [Transport σ] in
theorem serve_frame (w : Switchboard σ) (h : Handle) :
    ∃ sessions waits answers, w.serve h = { w with sessions, waits, answers } := by
  unfold serve
  cases w.sessions[h]? with
  | none => exact ⟨_, _, _, rfl⟩
  | some s =>
    dsimp only
    cases hserved : s.serve with
    | mk served s' =>
      cases served with
      | nil => exact ⟨_, _, _, rfl⟩
      | cons first rest =>
        obtain ⟨waits, answers, hr⟩ :=
          replyAll_frame (first :: rest) { w with sessions := w.sessions.set h s' }
        obtain ⟨waits', hr'⟩ := rearmFirst_frame (replyAll (first :: rest)
          { w with sessions := w.sessions.set h s' }) s'
        refine ⟨w.sessions.set h s', waits', answers, ?_⟩
        dsimp only
        refine hr'.trans ?_
        rw [hr]

omit [Transport σ] in
theorem serveAll_frame (handles : List Handle) (w : Switchboard σ) :
    ∃ sessions waits answers, handles.foldl serve w = { w with sessions, waits, answers } := by
  induction handles generalizing w with
  | nil => exact ⟨_, _, _, rfl⟩
  | cons g rest ih =>
    obtain ⟨_, _, _, hg⟩ := serve_frame w g
    obtain ⟨sessions, waits, answers, hrest⟩ := ih (w.serve g)
    refine ⟨sessions, waits, answers, hrest.trans ?_⟩
    rw [hg]

theorem settle_frame (w : Switchboard σ) : ∃ sessions t waits answers,
    w.settle = { w with sessions, transport := t, waits, answers } := by
  obtain ⟨sessions, waits, answers, hs⟩ :=
    serveAll_frame (List.range w.round.round.sessions.length) w.round.round
  exact ⟨sessions, _, waits, answers, hs⟩

theorem drifts_serve (g : Handle) (hs : w.sessions[(h : Nat)]? = some s) :
    Drifts w (w.serve g) h s := by
  cases hg : w.sessions[g]? with
  | none =>
    have hsame : w.serve g = w := by simp [serve, hg]
    rw [hsame]
    exact drifts_same hs
  | some s₀ =>
    have ht : (w.serve g).transport = w.transport := by
      obtain ⟨_, _, _, hf⟩ := serve_frame w g
      rw [hf]
    by_cases hgh : g = h
    · subst hgh
      obtain rfl : s₀ = s := Option.some.inj (hg.symm.trans hs)
      have hlt := (List.getElem?_eq_some_iff.mp hs).1
      refine ⟨s₀.serve.2, by simp [sessions_serve hg, hlt], ?_⟩
      rw [ht]
      exact Session.inner_serveLine s₀.readers s₀ w.transport rfl
    · exact drifts_same (by rwa [sessions_serve hg, List.getElem?_set_ne hgh])

theorem drifts_settle (hs : w.sessions[(h : Nat)]? = some s) : Drifts w w.settle h s := by
  suffices hall : ∀ (handles : List Handle) (w : Switchboard σ) s,
      w.sessions[(h : Nat)]? = some s → Drifts w (handles.foldl serve w) h s from
    ((drifts_round hs).trans fun _ => drifts_round).trans fun s' => hall _ w.round.round s'
  intro handles
  induction handles with
  | nil =>
    intro w s hs
    exact drifts_same hs
  | cons g rest ih =>
    intro w s hs
    exact (drifts_serve g hs).trans fun s' => ih (w.serve g) s'

end Switchboard

end MeshShell

import MeshShell.Proofs.Session.Steps

/-! # Emptying the inbox

The driver empties the inbox in one go, and a line of readers is served in one
go. Both come to the same as taking one event, or serving one reader, at a time.
-/
namespace MeshShell.Session

variable {σ : Type} [Transport σ]

/-- A session goes from one state to another by actions of one kind. -/
def ActsBy (kind : Action σ → Prop) (p q : Session × σ) : Prop :=
  ∃ hist, Run next p hist q ∧ ∀ u a, (u, a) ∈ hist → kind a

namespace ActsBy

variable {kind : Action σ → Prop} {p q r : Session × σ}

theorem refl (p : Session × σ) : ActsBy kind p p := ⟨[], .nil, by simp⟩

theorem single {a : Action σ} (p : Session × σ) (ha : kind a) : ActsBy kind p (next a p) :=
  ⟨[(p, a)], .single a p, by simpa using ha⟩

theorem trans (h : ActsBy kind p q) (h' : ActsBy kind q r) : ActsBy kind p r := by
  obtain ⟨hist, hr, hs⟩ := h
  obtain ⟨later, hr', hs'⟩ := h'
  refine ⟨hist ++ later, hr.append hr', ?_⟩
  intro u a hm
  rcases List.mem_append.mp hm with hm | hm
  · exact hs u a hm
  · exact hs' u a hm

theorem mono {other : Action σ → Prop} (h : ActsBy kind p q) (hk : ∀ a, kind a → other a) :
    ActsBy other p q := by
  obtain ⟨hist, hr, hs⟩ := h
  exact ⟨hist, hr, fun u a hm => hk a (hs u a hm)⟩

end ActsBy

/-- A session goes from one state to another by actions in which readers have no part. -/
def Acts (p q : Session × σ) : Prop :=
  ∃ hist, Run next p hist q ∧ ∀ u a, (u, a) ∈ hist → a.Silent

theorem Acts.refl (p : Session × σ) : Acts p p := ActsBy.refl p

theorem Acts.single {a : Action σ} (p : Session × σ) (ha : a.Silent) : Acts p (next a p) :=
  ActsBy.single p ha

theorem finish_inbox (s : Session) (t : σ) (i : List LinkEvent) :
    finish { s with inbox := i } t = ({ (s.finish t).1 with inbox := i }, (s.finish t).2) := by
  unfold finish
  split <;> rfl

theorem handshake_inbox (s : Session) (l : LinkId) (t : σ) (i : List LinkEvent) :
    handshake { s with inbox := i } l t =
      ((s.handshake l t).1, { (s.handshake l t).2.1 with inbox := i }, (s.handshake l t).2.2) := by
  unfold handshake
  cases Transport.channel l t with
  | error e => rfl
  | ok =>
    -- The greeting reads the settings and the size, and nothing else of the session.
    have hg : greet { s with inbox := i, phase := .handshaking } l (Transport.setHandler l t) =
        greet { s with phase := .handshaking } l (Transport.setHandler l t) := rfl
    dsimp only
    rw [hg]
    cases greet { s with phase := .handshaking } l (Transport.setHandler l t) with
    | mk result t' => cases result <;> rfl

theorem enqueue_inbox (s : Session) (data : Bytes) (i : List LinkEvent) :
    enqueue { s with inbox := i } data = { s.enqueue data with inbox := i } := by
  unfold enqueue
  split <;> rfl

theorem dispatch_inbox (m : Message) {s : Session} (t : σ) (i : List LinkEvent)
    (hd : s.driver = .running) :
    dispatch m { s with inbox := i } t =
      ({ (s.dispatch m t).1 with inbox := i }, (s.dispatch m t).2) ∧
      (s.dispatch m t).1.driver = .running := by
  have hfinish : (s.finish t).1.driver = .running := by simpa using hd
  unfold dispatch
  by_cases hc : s.closed = true
  · simp [hc, hd]
  · rw [if_neg hc, if_neg hc]
    cases m with
    | streamData n data eof compressed =>
      cases data with
      | nil => exact ⟨rfl, hd⟩
      | cons b rest =>
        have hq := enqueue_inbox s (b :: rest) i
        have hqd : (s.enqueue (b :: rest)).driver = .running := by
          obtain ⟨queue, h⟩ := s.enqueue_frame (b :: rest)
          rwa [h]
        exact ⟨congrArg (·, t) hq, hqd⟩
    | commandExited code => exact ⟨finish_inbox s t i, hfinish⟩
    | error text fatal =>
      cases fatal with
      | true => exact ⟨finish_inbox s t i, hfinish⟩
      | false => exact ⟨rfl, hd⟩
    | _ => exact ⟨rfl, hd⟩

theorem handle_established {s : Session} (hc : ¬ s.closed = true) (l : LinkId) (t : σ) :
    s.handle (.established l) t =
      match s.handshake l t with
      | (.ok (), s, t) => (s, t)
      | (.error _, s, t) => s.finish t := by
  unfold handle
  dsimp only
  exact if_neg hc

/-- What the driver makes of an event does not depend on the rest of the inbox, which is lost if
the driver ends. -/
theorem handle_inbox (e : LinkEvent) {s : Session} (t : σ) (i : List LinkEvent)
    (hd : s.driver = .running) :
    ∃ s' t', s.handle e t = (s', t') ∧
      (s'.driver = .running ∧ handle e { s with inbox := i } t = ({ s' with inbox := i }, t') ∨
        s'.driver = .ended ∧ s'.inbox = [] ∧ handle e { s with inbox := i } t = (s', t')) := by
  cases e with
  | established l =>
    by_cases hc : s.closed = true
    · exact ⟨s, Transport.teardown l t, by simp [handle, hc], .inl ⟨hd, by simp [handle, hc]⟩⟩
    · rcases s.handshake_cases l t with ⟨e, t', h⟩ | ⟨t', h⟩
      · refine ⟨(finish { s with phase := .handshaking } t').1,
          (finish { s with phase := .handshaking } t').2, ?_, .inl ⟨by simpa using hd, ?_⟩⟩
        · rw [handle_established hc, h]
        · rw [handle_established (s := { s with inbox := i }) hc, handshake_inbox, h]
          exact finish_inbox { s with phase := .handshaking } t' i
      · refine ⟨{ s with channel := some l, established := true, connected := true, phase := .active },
          t', ?_, .inl ⟨hd, ?_⟩⟩
        · rw [handle_established hc, h]
        · rw [handle_established (s := { s with inbox := i }) hc, handshake_inbox, h]
  | message m =>
    obtain ⟨h, hdr⟩ := dispatch_inbox m t i hd
    exact ⟨_, _, rfl, .inl ⟨hdr, h⟩⟩
  | closed =>
    refine ⟨_, _, rfl, .inr ⟨rfl, rfl, ?_⟩⟩
    simp only [handle, finish_inbox]
    rfl
  | shutdown => exact ⟨_, _, rfl, .inr ⟨rfl, rfl, rfl⟩⟩

/-- Taking everything out of the inbox is taking one event after the other. -/
theorem driven_handleAll (events : List LinkEvent) (s : Session) (t : σ) (hd : s.driver = .running)
    (hi : s.inbox = []) :
    ActsBy (· = .drive) ({ s with inbox := events }, t) (s.handleAll t events) := by
  induction events generalizing s t with
  | nil =>
    have hs : { s with inbox := [] } = s := by rw [← hi]
    rw [hs]
    exact .refl _
  | cons e rest ih =>
    obtain ⟨s', t', h, hh⟩ := handle_inbox e t rest hd
    have hone : driveOne { s with inbox := e :: rest } t = handle e { s with inbox := rest } t := by
      simp [driveOne, hd]
    have hfirst : ActsBy (· = .drive) ({ s with inbox := e :: rest }, t)
        (handle e { s with inbox := rest } t) :=
      hone ▸ ActsBy.single (a := .drive) _ rfl
    have hall : s.handleAll t (e :: rest) = s'.handleAll t' rest := by
      simp [handleAll, hd, h]
    rw [hall]
    rcases hh with ⟨hd', hrest⟩ | ⟨hd', hi', hrest⟩
    · rw [hrest] at hfirst
      have hi' : s'.inbox = [] := by
        have hs : Handled s e s' := by simpa [h] using handled e s t
        rw [hs.inbox (by simp [hd']), hi]
      exact hfirst.trans (ih s' t' hd' hi')
    · rw [hrest] at hfirst
      have hstop : s'.handleAll t' rest = (s', t') := by
        cases rest <;> simp [handleAll, hd']
      rwa [hstop]

theorem driven_drive (s : Session) (t : σ) : ActsBy (· = .drive) (s, t) (s.drive t) := by
  unfold drive
  split
  · rename_i hd
    exact driven_handleAll s.inbox { s with inbox := [] } t hd rfl
  · exact .refl _

theorem acts_drive (s : Session) (t : σ) : Acts (s, t) (s.drive t) :=
  (driven_drive s t).mono fun _ ha => ha ▸ trivial

end MeshShell.Session

import MeshShell.Proofs.Session.Driving
import MeshShell.Proofs.Session.Teardown

/-! # Where a session stands

The phase of a session whose link was opened in time follows from two facts:
whether the handshake has succeeded, and whether the session has closed since.
Once it is closed, nothing that happens makes it speak or puts anything into its
queue.
-/
namespace MeshShell.Session

variable {σ : Type} [Transport σ] {s s' : Session} {t : σ} {a : Action σ}

/-- A session that was started in time, and whose phase follows from its flags. -/
structure Standing (s : Session) : Prop where
  tidy : s.Tidy
  phase : s.phase = if s.closed then .closed else if s.established then .active else .linking

theorem Standing.closed_iff (h : Standing s) : s.phase = .closed ↔ s.closed = true := by
  rw [h.phase]
  cases s.closed <;> cases s.established <;> simp

theorem Standing.active_iff (h : Standing s) :
    s.phase = .active ↔ s.established = true ∧ s.closed = false := by
  rw [h.phase]
  cases s.closed <;> cases s.established <;> simp

/-- Who looks at a session learns whether the handshake has succeeded, if not whether the session
is closed, and if that is not so either, nothing. -/
theorem Standing.progress (h : Standing s) :
    s.progress = if s.established then some (.ok ())
      else if s.closed then some (.error (.linkClosed s.destination)) else none := by
  unfold Session.progress
  rw [h.phase]
  cases s.closed <;> cases s.established <;> simp

theorem start_ok {now : Millis} {rows cols : UInt16} (h : (s.start now rows cols t).1 = .ok ()) :
    ∃ l, (s.start now rows cols t).2.1 =
      { s.dial rows cols with link := some l, opened := some l, driver := .running } := by
  unfold start at h ⊢
  cases hi : Transport.recallIdentity s.destination t with
  | none => simp [hi] at h
  | some identity =>
    by_cases hd : s.driver = .notStarted
    · cases ho : Transport.openLink now identity shellAspect t with
      | mk result t' =>
        cases result with
        | error e => simp [hi, hd, ho] at h
        | ok l => exact ⟨l, by simp [hd, ho, dial]⟩
    · simp [hi, hd] at h

theorem standing_start {now : Millis} {rows cols : UInt16}
    (h : (s.start now rows cols t).1 = .ok ()) (hc : s.closed = false)
    (he : s.established = false) : Standing (s.start now rows cols t).2.1 := by
  obtain ⟨l, hl⟩ := start_ok h
  rw [hl]
  exact ⟨⟨by simp, by simp [dial, hc]⟩, by simp [dial, hc, he]⟩

theorem phase_shut (h : Standing s) : s.shut.phase = .closed := by
  by_cases hc : s.closed = true
  · rw [shut_of_closed hc]
    exact h.closed_iff.mpr hc
  · simp [shut, hc]

theorem Handled.phase {e : LinkEvent} (hs : Handled s e s') (h : Standing s) :
    s'.phase = if s'.closed then .closed else if s'.established then .active else .linking := by
  cases hs with
  | late => exact h.phase
  | failed => simp [phase_shut h]
  | greeted hc => simp [hc]
  | dropped => exact h.phase
  | output =>
    obtain ⟨_, hq⟩ := s.enqueue_frame _
    rw [hq]
    exact h.phase
  | suppressed => exact h.phase
  | ended => simp [phase_shut h]
  | ignored => exact h.phase
  | gone => simp [phase_shut h]
  | shutdown => exact h.phase

theorem Effect.standing (he : Effect s t a s') (h : Standing s) : Standing s' := by
  refine ⟨he.tidy h.tidy, ?_⟩
  cases he with
  | none => exact h.phase
  | refused _ hd => exact absurd (unstarted_of_dials hd) h.tidy.1
  | opened _ hd => exact absurd (unstarted_of_dials hd) h.tidy.1
  | finished => simp [phase_shut h]
  | @reported c l =>
    obtain ⟨_, hi⟩ := s.push_frame (Switchboard.eventOf l c)
    rw [hi]
    exact h.phase
  | handled _ _ _ hs => exact hs.phase ⟨h.tidy, h.phase⟩
  | resized => exact h.phase
  | took _ _ _ ht =>
    obtain ⟨_, rfl⟩ := take_frame ht
    exact h.phase
  | lined => exact h.phase

@[simp] theorem destination_shut (s : Session) : s.shut.destination = s.destination := by
  unfold shut
  split <;> rfl

theorem Handled.destination {e : LinkEvent} (h : Handled s e s') :
    s'.destination = s.destination := by
  cases h with
  | failed => exact destination_shut s
  | ended => exact destination_shut s
  | gone => exact destination_shut s
  | @output _ bytes =>
    obtain ⟨_, h⟩ := s.enqueue_frame bytes
    rw [h]
  | _ => rfl

theorem Effect.destination (he : Effect s t a s') : s'.destination = s.destination := by
  cases he with
  | refused => exact destination_shut _
  | finished =>
    obtain ⟨_, h⟩ := s.shut.push_frame .shutdown
    rw [h]
    exact destination_shut s
  | @reported c l =>
    obtain ⟨_, h⟩ := s.push_frame (Switchboard.eventOf l c)
    rw [h]
  | handled _ _ _ hs => exact hs.destination
  | took _ _ _ ht =>
    obtain ⟨_, rfl⟩ := take_frame ht
    rfl
  | _ => rfl

/-- The driver shakes hands with an action, and the handshake succeeds. -/
def succeeds (s : Session) (t : σ) (a : Action σ) : Bool :=
  match s.taken a with
  | some (.established l) => !s.closed && (s.handshake l t).1.isOk
  | _ => false

/-- The handshake has succeeded at some time in a life. -/
def Life.Shook (l : Life σ) : Prop := ∃ p a, (p, a) ∈ l.history ∧ p.1.succeeds p.2 a = true

@[simp] theorem established_shut (s : Session) : s.shut.established = s.established := by
  unfold shut
  split <;> rfl

theorem Handled.established {e : LinkEvent} (hs : Handled s e s')
    (he : ∀ l, e ≠ .established l) : s'.established = s.established := by
  cases hs with
  | late => exact absurd rfl (he _)
  | failed => exact absurd rfl (he _)
  | greeted => exact absurd rfl (he _)
  | ended => exact established_shut s
  | gone => exact established_shut s
  | output =>
    obtain ⟨_, hq⟩ := s.enqueue_frame _
    rw [hq]
  | _ => rfl

theorem established_handle (e : LinkEvent) (s : Session) (t : σ) :
    (s.handle e t).1.established = (s.established ||
      match e with
      | .established l => !s.closed && (s.handshake l t).1.isOk
      | _ => false) := by
  cases e with
  | established l =>
    by_cases hc : s.closed = true
    · simp [handle, hc]
    · rw [handle_established hc, eq_false_of_ne_true hc]
      rcases s.handshake_cases l t with ⟨e, t', h⟩ | ⟨t', h⟩
      · simp [h, Except.isOk, Except.toBool]
      · simp [h, Except.isOk, Except.toBool]
  | _ => simpa using (handled _ s t).established (by simp)

theorem succeeds_of_untaken (h : s.taken a = none) (t : σ) : s.succeeds t a = false := by
  simp [succeeds, h]

/-- A session is established by a handshake that succeeds, and stays so. -/
theorem established_next (a : Action σ) (s : Session) (t : σ) :
    (next a (s, t)).1.established = (s.established || s.succeeds t a) := by
  by_cases ha : a = .drive
  · subst ha
    dsimp only [next]
    rcases s.driveOne_cases t with ⟨he, ht⟩ | ⟨e, rest, -, -, ht, he⟩
    · rw [he, succeeds_of_untaken ht]
      simp
    · rw [he, established_handle]
      -- What the driver makes of an event does not depend on the rest of the inbox.
      simp only [succeeds, ht, handshake_inbox]
      cases e <;> rfl
  · have ht : s.taken a = none := by
      cases a with
      | drive => exact absurd rfl ha
      | _ => rfl
    rw [succeeds_of_untaken ht, Bool.or_false]
    have he := effect a s t
    generalize (next a (s, t)).1 = s' at he ⊢
    cases he with
    | refused => exact established_shut _
    | finished =>
      obtain ⟨_, hi⟩ := s.shut.push_frame .shutdown
      rw [hi]
      exact established_shut s
    | @reported c l =>
      obtain ⟨_, hi⟩ := s.push_frame (Switchboard.eventOf l c)
      rw [hi]
    | handled hd => exact absurd hd ha
    | took _ _ _ htake =>
      obtain ⟨_, rfl⟩ := take_frame htake
      rfl
    | _ => rfl

theorem established_of_run {start p : Session × σ} {hist : History σ}
    (hr : Run next start hist p) : p.1.established = true ↔
      start.1.established = true ∨ ∃ u a, (u, a) ∈ hist ∧ u.1.succeeds u.2 a = true := by
  induction hr with
  | nil => simp
  | @snoc hist u a hr ih =>
    rw [established_next, Bool.or_eq_true, ih]
    constructor
    · rintro ((h | ⟨v, b, hm, h⟩) | h)
      · exact .inl h
      · exact .inr ⟨v, b, List.mem_append_left _ hm, h⟩
      · exact .inr ⟨u, a, by simp, h⟩
    · rintro (h | ⟨v, b, hm, h⟩)
      · exact .inl (.inl h)
      · rcases List.mem_append.mp hm with hm | hm
        · exact .inl (.inr ⟨v, b, hm, h⟩)
        · obtain ⟨rfl, rfl⟩ := Prod.mk.inj (List.mem_singleton.mp hm)
          exact .inr h

theorem Life.established_iff (l : Life σ) : l.session.established = true ↔ l.Shook := by
  refine (established_of_run l.run).trans ⟨?_, .inr⟩
  rintro (h | h)
  · exact absurd h (by simp [Life.start, Session.new])
  · exact h

theorem Life.unestablished (l : Life σ) (hd : l.session.driver = .notStarted) :
    l.session.established = false := by
  refine l.run.invariant
    (P := fun p => p.1.driver = .notStarted → p.1.established = false) (fun _ => rfl) ?_ hd
  intro a p hp hd'
  have hd := ((effect a p.1 p.2).driver.mp hd').1
  have ht : p.1.taken a = none := by
    cases ht : p.1.taken a with
    | none => rfl
    | some e => exact absurd (running_of_taken ht) (by simp [hd])
  exact (established_next a p.1 p.2).trans (by simp [hp hd, succeeds_of_untaken ht])

/-- Whatever happens, the session sends nothing, puts nothing into its queue and keeps its phase. -/
def Mute (σ : Type) [Transport σ] (s : Session) : Prop :=
  ∀ (r : Recorded σ) (actions : List (Action σ)),
    let later := actions.map Action.recorded
    (reach next (s, r) later).2.sent = r.sent ∧ everPut (trail next (s, r) later) = [] ∧
      (reach next (s, r) later).1.phase = s.phase

theorem puts_closed (h : Consistent s) (hc : s.closed = true) (t : σ) (a : Action σ) :
    s.puts t a = [] := by
  obtain ⟨chunks, hp, hnone⟩ := puts_eq h t a
  have hc' : (next a (s, t)).1.closed = true := (effect a s t).closed hc
  rw [hp, hnone hc, endMark_same (hc'.trans hc.symm)]
  rfl

theorem sent_closed {p : Session × Recorded σ} (h : Consistent p.1) (hc : p.1.closed = true)
    (a : Action σ) : (next a.recorded p).2.sent = p.2.sent := by
  have hspoken := spoken h (quiet_recorded a)
  cases hspoken with
  | silent _ _ hs => exact hs
  | called _ _ _ _ _ hopen => simp [hc] at hopen
  | broken _ _ _ hopen => simp [hc] at hopen
  | greeted _ _ _ hopen => simp [hc] at hopen

theorem Standing.mute (h : Standing s) (hcons : Consistent s) (hc : s.closed = true) :
    Mute σ s := by
  intro r actions
  induction actions generalizing s r with
  | nil => exact ⟨rfl, rfl, rfl⟩
  | cons a rest ih =>
    have he := effect a.recorded s r
    have hc' := he.closed hc
    obtain ⟨hsent, hput, hphase⟩ := ih (he.standing h) (hcons.next a.recorded r) hc'
      (next a.recorded (s, r)).2
    refine ⟨hsent.trans (sent_closed hcons hc a), ?_, hphase.trans ?_⟩
    · have hnone : s.puts r a.recorded = [] := puts_closed hcons hc r a.recorded
      simp only [List.map_cons, trail, everPut, List.flatMap_cons]
      rw [hnone]
      exact hput
    · exact ((he.standing h).closed_iff.mpr hc').trans (h.closed_iff.mpr hc).symm

end MeshShell.Session

import MeshShell.Proofs.Session.Steps
import MeshShell.Proofs.Transport.Recorded

/-! # Sessions under record

Every session has a record of what it does on the transport. Keeping it changes
nothing: the session and the transport become what they become without it.
-/
namespace MeshShell.Session

variable {σ : Type}

def Action.recorded : Action σ → Action (Recorded σ)
  | .connect now rows cols => .connect now rows cols
  | .giveUp => .giveUp
  | .report c => .report c
  | .drive => .drive
  | .sendInput data => .sendInput data
  | .resize size => .resize size
  | .close => .close
  | .read ticket patient => .read ticket patient
  | .serve => .serve
  | .expire ticket => .expire ticket
  | .elsewhere f => .elsewhere fun r => r.pass (f r.inner)

/-- A session and the transport without its log. -/
def plain (p : Session × Recorded σ) : Session × σ := (p.1, p.2.inner)

variable [Transport σ]

def Life.recorded (l : Life σ) : Life (Recorded σ) :=
  { l with transport := .blank l.transport, actions := l.actions.map Action.recorded }

theorem plain_finish (s : Session) (r : Recorded σ) : plain (s.finish r) = s.finish r.inner := by
  unfold finish
  split
  · rfl
  · cases s.link <;> rfl

theorem greet_recorded (s : Session) (l : LinkId) (r : Recorded σ) :
    ∃ result r', s.greet l r = (result, r') ∧ s.greet l r.inner = (result, r'.inner) ∧
      (result = .ok () ∧
          r'.sent = r.sent ++ [(l, .hello), (l, .loginShell s.settings.term s.geometry)] ∨
        ∃ e, result = .error e ∧ (r'.sent = r.sent ∨ r'.sent = r.sent ++ [(l, .hello)])) := by
  unfold greet
  rcases r.send_cases l .hello with ⟨e, t, h, hr⟩ | ⟨t, h, hr⟩
  · rw [h, hr]
    exact ⟨_, _, rfl, rfl, .inr ⟨e, rfl, .inl rfl⟩⟩
  · rw [h, hr]
    dsimp only
    rcases (r.note (.sent l .hello) t).send_cases l (.loginShell s.settings.term s.geometry) with
      ⟨e, t', h', hr'⟩ | ⟨t', h', hr'⟩
    · rw [hr']
      refine ⟨_, _, rfl, h', .inr ⟨e, rfl, .inr ?_⟩⟩
      simp [Recorded.sent_note, Deed.message?]
    · rw [hr']
      refine ⟨_, _, rfl, h', .inl ⟨rfl, ?_⟩⟩
      simp [Recorded.sent_note, Deed.message?]

@[simp] theorem sent_finish (s : Session) (r : Recorded σ) : (s.finish r).2.sent = r.sent := by
  unfold finish
  split
  · rfl
  · cases s.link with
    | none => rfl
    | some l => exact (Recorded.sent_note _ _ _).trans (List.append_nil _)

/-- The session after a handshake that went through. -/
def active (s : Session) (l : LinkId) : Session :=
  { s with channel := some l, established := true, connected := true, phase := .active }

theorem handshake_recorded (s : Session) (l : LinkId) (r : Recorded σ) :
    ∃ result s' r', s.handshake l r = (result, s', r') ∧
      s.handshake l r.inner = (result, s', r'.inner) ∧
      (result = .ok () ∧ s' = s.active l ∧
          r'.sent = r.sent ++ [(l, .hello), (l, .loginShell s.settings.term s.geometry)] ∨
        ∃ e, result = .error e ∧ s' = { s with phase := .handshaking } ∧
          (r'.sent = r.sent ∨ r'.sent = r.sent ++ [(l, .hello)])) := by
  have hch : Transport.channel l r = Transport.channel l r.inner := rfl
  unfold handshake
  rw [hch]
  cases Transport.channel l r.inner with
  | error e => exact ⟨_, _, r, rfl, rfl, .inr ⟨e, rfl, rfl, .inl rfl⟩⟩
  | ok =>
    obtain ⟨result, r', h, hp, hs⟩ :=
      greet_recorded { s with phase := .handshaking } l (Transport.setHandler l r)
    have hp' : greet { s with phase := .handshaking } l (Transport.setHandler l r.inner) =
        (result, r'.inner) := hp
    dsimp only
    rw [h, hp']
    rcases hs with ⟨rfl, hs⟩ | ⟨e, rfl, hs⟩
    · exact ⟨_, _, r', rfl, rfl, .inl ⟨rfl, rfl, hs⟩⟩
    · exact ⟨_, _, r', rfl, rfl, .inr ⟨e, rfl, rfl, hs⟩⟩

theorem dispatch_recorded (m : Message) (s : Session) (r : Recorded σ) :
    plain (s.dispatch m r) = s.dispatch m r.inner ∧ (s.dispatch m r).2.sent = r.sent := by
  have hfinish : plain (s.finish r) = s.finish r.inner ∧ (s.finish r).2.sent = r.sent :=
    ⟨plain_finish s r, sent_finish s r⟩
  unfold dispatch
  by_cases hc : s.closed = true
  · rw [if_pos hc, if_pos hc]
    exact ⟨rfl, rfl⟩
  · rw [if_neg hc, if_neg hc]
    cases m with
    | commandExited code => exact hfinish
    | error text fatal =>
      cases fatal with
      | true => exact hfinish
      | false => exact ⟨rfl, rfl⟩
    | _ => exact ⟨rfl, rfl⟩

/-- How an event that the driver takes shows in the record. -/
inductive Noted (s : Session) (r : Recorded σ) (e : LinkEvent) (p : Session × Recorded σ) : Prop
  | silent : (∀ l, e = .established l → s.closed = true) → p.2.sent = r.sent → Noted s r e p
  | broken (l : LinkId) : e = .established l → s.closed = false → p.1 = s.shut →
      p.2.sent = r.sent ∨ p.2.sent = r.sent ++ [(l, .hello)] → Noted s r e p
  | greeted (l : LinkId) : e = .established l → s.closed = false → p.1 = s.active l →
      p.2.sent = r.sent ++ [(l, .hello), (l, .loginShell s.settings.term s.geometry)] →
      Noted s r e p

theorem handle_recorded (e : LinkEvent) (s : Session) (r : Recorded σ) :
    plain (s.handle e r) = s.handle e r.inner ∧ Noted s r e (s.handle e r) := by
  cases e with
  | established l =>
    unfold handle
    dsimp only
    by_cases hc : s.closed = true
    · rw [if_pos hc, if_pos hc]
      refine ⟨rfl, .silent (fun _ _ => hc) ?_⟩
      exact (Recorded.sent_note _ _ _).trans (List.append_nil _)
    · rw [if_neg hc, if_neg hc]
      replace hc := eq_false_of_ne_true hc
      obtain ⟨result, s', r', h, hp, hs⟩ := handshake_recorded s l r
      rw [h, hp]
      rcases hs with ⟨rfl, rfl, hs⟩ | ⟨e, rfl, rfl, hs⟩
      · exact ⟨rfl, .greeted l rfl hc rfl hs⟩
      · refine ⟨plain_finish _ r', .broken l rfl hc ?_ ?_⟩
        · exact (fst_finish _ r').trans (shut_phase hc _)
        · simpa using hs
  | message m =>
    obtain ⟨hp, hs⟩ := dispatch_recorded m s r
    exact ⟨hp, .silent (by simp) hs⟩
  | closed =>
    have hp := plain_finish s r
    refine ⟨?_, .silent (by simp) (sent_finish s r)⟩
    unfold handle
    dsimp only
    rw [← hp]
    rfl
  | shutdown => exact ⟨rfl, .silent (by simp) rfl⟩

theorem sendInput_recorded (data : Bytes) (s : Session) (r : Recorded σ) :
    ∃ b r', s.sendInput data r = (b, r') ∧ s.sendInput data r.inner = (b, r'.inner) ∧
      (b = false ∧ r'.sent = r.sent ∨
        b = true ∧ ∃ l, s.channel = some l ∧ s.closed = false ∧
          r'.sent = r.sent ++ [(l, .stdin data)]) := by
  unfold sendInput
  cases hch : s.channel with
  | none => exact ⟨false, r, rfl, rfl, .inl ⟨rfl, rfl⟩⟩
  | some l =>
    by_cases hc : s.closed = true
    · exact ⟨false, r, by simp [hc], by simp [hc], .inl ⟨rfl, rfl⟩⟩
    · replace hc := eq_false_of_ne_true hc
      rcases r.send_cases l (.stdin data) with ⟨e, t, h, hr⟩ | ⟨t, h, hr⟩
      · exact ⟨false, r.pass t, by simp [hc, hr], by simp [hc, h], .inl ⟨rfl, rfl⟩⟩
      · refine ⟨true, r.note (.sent l (.stdin data)) t, by simp [hc, hr], by simp [hc, h], .inr ⟨rfl, l, rfl, hc, ?_⟩⟩
        exact Recorded.sent_note _ _ _

/-- Whether the channel takes the notice of a new size. -/
def takesSize (s : Session) (t : σ) (size : Geometry) : Bool :=
  s.channel.any fun l => !s.closed && (Transport.send l (.resized size) t).1.isOk

theorem resize_recorded (size : Geometry) (s : Session) (r : Recorded σ) :
    plain (s.resize size r) = s.resize size r.inner ∧
      s.takesSize r size = s.takesSize r.inner size ∧
      (s.takesSize r size = false ∧ (s.resize size r).2.sent = r.sent ∨
        s.takesSize r size = true ∧ ∃ l, s.channel = some l ∧ s.closed = false ∧
          (s.resize size r).2.sent = r.sent ++ [(l, .resized size)]) := by
  unfold resize takesSize
  cases hch : s.channel with
  | none => exact ⟨rfl, rfl, .inl ⟨rfl, rfl⟩⟩
  | some l =>
    by_cases hc : s.closed = true
    · simp [hc, plain]
    · replace hc := eq_false_of_ne_true hc
      rcases r.send_cases l (.resized size) with ⟨e, t, h, hr⟩ | ⟨t, h, hr⟩
      · simp [hc, h, hr, plain, Except.isOk, Except.toBool]
      · simp [hc, h, hr, plain, Except.isOk, Except.toBool, Recorded.sent_note, Deed.message?]

theorem start_recorded (now : Millis) (rows cols : UInt16) (s : Session) (r : Recorded σ) :
    plain (s.start now rows cols r).2 = (s.start now rows cols r.inner).2 ∧
      (s.start now rows cols r).2.2.sent = r.sent := by
  have hi : Transport.recallIdentity s.destination r = Transport.recallIdentity s.destination r.inner := rfl
  unfold start
  rw [hi]
  cases Transport.recallIdentity s.destination r.inner with
  | none => exact ⟨rfl, rfl⟩
  | some identity =>
    by_cases hd : s.driver = .notStarted
    · dsimp only
      rw [if_neg (not_not_intro hd), if_neg (not_not_intro hd)]
      rcases r.openLink_cases now identity shellAspect with ⟨e, t, h, hr⟩ | ⟨l, t, h, hr⟩
      · rw [h, hr]
        have hp := plain_finish (s.dial rows cols) (r.pass t)
        refine ⟨?_, sent_finish (s.dial rows cols) (r.pass t)⟩
        have hended := congrArg (fun p : Session × σ => (p.1.endDriver, p.2)) hp
        exact hended
      · rw [h, hr]
        exact ⟨rfl, (Recorded.sent_note _ _ _).trans (List.append_nil _)⟩
    · dsimp only
      rw [if_pos hd, if_pos hd]
      exact ⟨rfl, rfl⟩

theorem plain_timeOut (s : Session) (r : Recorded σ) : plain (s.timeOut r) = s.timeOut r.inner := by
  unfold timeOut
  cases s.progress with
  | some _ => rfl
  | none => exact congrArg (fun p : Session × σ => (p.1.push .shutdown, p.2)) (plain_finish s r)

theorem plain_close (s : Session) (r : Recorded σ) : plain (s.close r) = s.close r.inner := by
  unfold close
  split
  · rfl
  · exact congrArg (fun p : Session × σ => (p.1.push .shutdown, p.2)) (plain_finish s r)

theorem plain_driveOne (s : Session) (r : Recorded σ) :
    plain (s.driveOne r) = s.driveOne r.inner := by
  unfold driveOne
  cases s.inbox with
  | nil => rfl
  | cons e rest =>
    by_cases hd : s.driver = .running
    · simp only [if_pos hd]
      exact (handle_recorded e _ r).1
    · simp only [if_neg hd]
      rfl

theorem plain_next (a : Action σ) (p : Session × Recorded σ) :
    plain (next a.recorded p) = next a (plain p) := by
  obtain ⟨s, r⟩ := p
  cases a with
  | connect now rows cols => exact (start_recorded now rows cols s r).1
  | giveUp => exact plain_timeOut s r
  | drive => exact plain_driveOne s r
  | sendInput data =>
    obtain ⟨b, r', h, hp, -⟩ := sendInput_recorded data s r
    dsimp only [Action.recorded, next, plain]
    rw [h, hp]
  | resize size => exact (resize_recorded size s r).1
  | close => exact plain_close s r
  | _ => rfl

theorem plain_outcome (l : Life σ) : plain l.recorded.outcome = l.outcome := by
  suffices h : ∀ (as : List (Action σ)) (p : Session × Recorded σ),
      plain (reach next p (as.map Action.recorded)) = reach next (plain p) as from
    h l.actions l.recorded.start
  intro as
  induction as with
  | nil => intro p; rfl
  | cons a as ih =>
    intro p
    exact (ih (next a.recorded p)).trans (congrArg (reach next · as) (plain_next a p))

theorem Life.exists_recorded (l : Life σ) {p : Session × Recorded σ}
    {a : Action (Recorded σ)} (h : (p, a) ∈ l.recorded.history) : ∃ b : Action σ, a = b.recorded := by
  have ha : a ∈ (trail next l.recorded.start l.recorded.actions).map (·.2) := List.mem_map_of_mem h
  rw [trail_actions] at ha
  obtain ⟨b, -, rfl⟩ := List.mem_map.mp ha
  exact ⟨b, rfl⟩

end MeshShell.Session

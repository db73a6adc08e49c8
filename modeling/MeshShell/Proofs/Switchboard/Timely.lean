import MeshShell.Proofs.Switchboard.Connecting

/-! # The outcome and duration of connecting

Whoever connects an open session that was not started before learns how it went
at the first look that finds the session active or closed, or at the first one
after the limit, and so within the limit and one interval. It learns of success
exactly if the handshake had succeeded by then. A timeout leaves a closed session
without a link that stays silent.
-/
namespace MeshShell.Switchboard

variable {σ : Type} [Transport σ] {w w' : Switchboard σ}

namespace Attempt

variable {x : Attempt σ}

theorem Reached.look {looks : List (Switchboard σ)} (h : x.Reached looks w) {k : Nat}
    {v : Switchboard σ} (hk : looks[k]? = some v) :
    x.Vain k v ∨ k + 1 = looks.length ∧ v.now = x.tick k ∧
      ∃ s, v.sessions[(x.handle : Nat)]? = some s ∧ x.Decides k s ∧
        w.answer? x.ticket = some (x.answer k s) := by
  cases h with
  | waiting h => exact .inl (h.vain k v hk)
  | @told past last s hlooks h =>
    subst hlooks
    have hlt : k < past.length + 1 := by simpa using (List.getElem?_eq_some_iff.mp hk).1
    rcases Nat.lt_or_eq_of_le (Nat.le_of_lt_succ hlt) with hlt | rfl
    · rw [List.getElem?_append_left hlt] at hk
      exact .inl (h.vain k v hk)
    · rw [List.getElem?_concat_length] at hk
      obtain rfl := Option.some.inj hk
      exact .inr ⟨by simp, h.now, s, h.found, h.decides, h.answer⟩

theorem Vain.early {k : Nat} (h : x.Vain k w) : k * x.poll < x.limit := by
  obtain ⟨-, s, -, hno⟩ := h
  exact Nat.lt_of_not_le fun hle => hno (.inr (.inr hle))

theorem tick_lt {k : Nat} (h : ∀ j, j + 1 = k → j * x.poll < x.limit) :
    x.tick k < x.time + x.limit + x.poll := by
  unfold tick
  cases k with
  | zero =>
    rw [Nat.zero_mul, Nat.add_zero, Nat.add_assoc]
    exact Nat.lt_add_of_pos_right (Nat.add_pos_right _ x.interval)
  | succ j =>
    rw [Nat.succ_mul, ← Nat.add_assoc]
    exact Nat.add_lt_add_right (Nat.add_lt_add_left (h j rfl) _) _

theorem underway_of_mem {u : Switchboard σ} {c : Call σ} (hm : (u, c) ∈ x.history) :
    ∃ looks, x.Underway looks u := by
  obtain ⟨before, after, hhist, hr, -⟩ := x.run.cut hm
  refine ⟨_, x.underway_of_run hr fun v hv => List.all_eq_true.mp x.punctual v ?_⟩
  have hmem : v ∈ x.history := by simp [hhist, hv]
  exact hmem

theorem sound_of_look (hm : w ∈ x.looks) :
    (∃ readings, Sound readings w) ∧ w.At x.handle x.Kept := by
  rcases List.mem_cons.mp hm with rfl | hm
  · obtain ⟨readings, hgood⟩ := x.good_board
    exact ⟨⟨readings, x.connected_eq.1.sound hgood.sound⟩, x.kept_first⟩
  · obtain ⟨⟨u, c⟩, hmem, rfl⟩ := List.mem_map.mp hm
    obtain ⟨_, hunder⟩ := underway_of_mem (List.mem_of_mem_filter hmem)
    obtain ⟨readings, hgood⟩ := hunder.good
    exact ⟨⟨readings, hgood.sound⟩, hunder.kept⟩

theorem Kept.verdict {s : Session} (hk : x.Kept s) :
    (x.result s = .ok () ↔ s.established = true) ∧
      (x.result s = .error (.linkClosed x.session.destination) ↔
        s.phase = .closed ∧ ¬ s.established = true) ∧
      (x.result s = .error (.linkTimeout x.session.destination x.limit) ↔
        s.phase ≠ .active ∧ s.phase ≠ .closed) := by
  unfold Attempt.result
  rw [ne_eq, ne_eq, hk.standing.active_iff, hk.standing.closed_iff]
  cases s.established <;> cases s.closed <;> simp

variable (x)

theorem answer_iff (a : Answered) : x.outcome.answer? x.ticket = some a ↔
    ∃ k w, k + 1 = x.looks.length ∧ x.looks[k]? = some w ∧
      w.At x.handle fun s => x.Decides k s ∧ a = x.answer k s := by
  have hreached := x.underway_outcome.reached
  constructor
  · intro ha
    cases hreached with
    | waiting h => simp [h.answer] at ha
    | @told past v s hlooks h =>
      refine ⟨past.length, v, by simp [hlooks], by simp [hlooks], s, h.found, h.decides, ?_⟩
      exact Option.some.inj (ha.symm.trans h.answer)
  · rintro ⟨k, w, -, hk, s, hs, hd, rfl⟩
    rcases hreached.look hk with ⟨-, s', hs', hno⟩ | ⟨-, -, s', hs', -, hans⟩
    · obtain rfl : s = s' := Option.some.inj (hs.symm.trans hs')
      exact absurd hd hno
    · obtain rfl : s = s' := Option.some.inj (hs.symm.trans hs')
      exact hans

/-- All looks but the last find nothing. -/
theorem vain_of_lt {k : Nat} (hlt : k + 1 < x.looks.length) :
    ∃ w, x.looks[k]? = some w ∧ x.Vain k w := by
  obtain ⟨w, hk⟩ : ∃ w, x.looks[k]? = some w :=
    ⟨_, List.getElem?_eq_getElem (by omega)⟩
  refine ⟨w, hk, (x.underway_outcome.reached.look hk).resolve_right ?_⟩
  rintro ⟨hlast, -⟩
  omega

theorem waiting_of_unanswered (h : x.outcome.answer? x.ticket = none) :
    x.Waiting x.looks x.outcome ∧ x.tick x.looks.length < x.time + x.limit + x.poll := by
  have hreached := x.underway_outcome.reached
  cases hreached with
  | told _ htold => simp [htold.answer] at h
  | waiting hw =>
    refine ⟨hw, tick_lt fun j hj => ?_⟩
    have hlt : j < x.looks.length := by omega
    exact (hw.vain j _ (List.getElem?_eq_getElem hlt)).early

theorem time_lt {a : Answered} (h : x.outcome.answer? x.ticket = some a) :
    a.time < x.time + x.limit + x.poll := by
  obtain ⟨k, w, hlast, -, s, -, -, rfl⟩ := (x.answer_iff a).mp h
  refine tick_lt fun j hj => ?_
  obtain ⟨v, -, hv⟩ := x.vain_of_lt (k := j) (by omega)
  exact hv.early

theorem closed_of_error {a : Answered} {e : SessionError}
    (h : x.outcome.answer? x.ticket = some a)
    (he : a.answer = conclusion x.handle x.register (.error e)) :
    x.outcome.At x.handle (·.closed = true) := by
  have hreached := x.underway_outcome.reached
  cases hreached with
  | waiting hw => simp [hw.answer] at h
  | @told past v s _ htold =>
    obtain rfl : x.answer past.length s = a := Option.some.inj (htold.answer.symm.trans h)
    have hresult : x.result s = .error e := conclusion_error he
    refine htold.closed (Bool.eq_false_iff.mpr fun hest => ?_)
    rw [htold.kept.verdict.1.mpr hest] at hresult
    cases hresult

/-- What a caller that connects can rely on. -/
structure Timely (x : Attempt σ) : Prop where
  /-- It looks at once, and again after every interval. -/
  ticks : ∀ k w, x.looks[k]? = some w → w.now = x.tick k
  /-- It looks again only if the session is neither active nor closed and the limit is not
  reached. -/
  again : ∀ k w, x.looks[k]? = some w → k + 1 < x.looks.length →
    w.At x.handle fun s => s.phase ≠ .active ∧ s.phase ≠ .closed ∧ k * x.poll < x.limit
  /-- It is answered at the first look that finds something else, and not before. -/
  answered : ∀ a, x.outcome.answer? x.ticket = some a ↔
    ∃ k w, k + 1 = x.looks.length ∧ x.looks[k]? = some w ∧
      w.At x.handle fun s => x.Decides k s ∧ a = x.answer k s
  /-- What it learns depends on whether the handshake had succeeded by then, and if not, on whether
  the session is closed. -/
  verdict : ∀ w ∈ x.looks, w.At x.handle fun s =>
    (s.phase = .closed ↔ s.closed = true) ∧
    (∃ l : Session.Life σ, l.outcome = (s, w.transport)) ∧
    ∀ l : Session.Life σ, l.session = s →
      (x.result s = .ok () ↔ l.Shook) ∧
      (x.result s = .error (.linkClosed x.session.destination) ↔ s.phase = .closed ∧ ¬ l.Shook) ∧
      (x.result s = .error (.linkTimeout x.session.destination x.limit) ↔
        s.phase ≠ .active ∧ s.phase ≠ .closed)
  /-- As long as it waits, its timer is set to the next look. -/
  waits : x.outcome.answer? x.ticket = none → x.timer x.looks.length ∈ x.outcome.waits ∧
    x.outcome.now ≤ x.tick x.looks.length ∧ x.tick x.looks.length < x.time + x.limit + x.poll
  /-- It is answered before one more interval has passed after the limit. -/
  soon : ∀ a, x.outcome.answer? x.ticket = some a → a.time < x.time + x.limit + x.poll
  ends : x.time + x.limit + x.poll ≤ x.outcome.now → (x.outcome.answer? x.ticket).isSome = true
  /-- After a timeout the session is closed, its link is torn down, and whatever happens to it later
  on the switchboard, it stays silent. -/
  silenced : ∀ a, x.outcome.answer? x.ticket = some a →
    a.answer = conclusion x.handle x.register
      (.error (.linkTimeout x.session.destination x.limit)) →
    x.outcome.Over x.handle ∧ x.outcome.At x.handle fun s =>
      s.phase = .closed ∧ s.Mute σ ∧
        ∀ more, Goes x.outcome (reach take x.outcome more) x.handle s

theorem connect_timely : x.Timely where
  ticks := fun k w hk => (x.underway_outcome.reached.look hk).elim (·.1) (·.2.1)
  again := by
    intro k w hk hlt
    obtain ⟨v, hv, -, s, hs, hno⟩ := x.vain_of_lt hlt
    obtain rfl : w = v := Option.some.inj (hk.symm.trans hv)
    simp only [Decides, not_or, Nat.not_le] at hno
    exact ⟨s, hs, hno⟩
  answered := x.answer_iff
  verdict := by
    intro w hw
    obtain ⟨⟨_, hx⟩, s, hs, hk⟩ := sound_of_look hw
    obtain ⟨life, hlife, -⟩ := hx.lives x.handle s hs
    refine ⟨s, hs, hk.standing.closed_iff, ⟨life, hlife⟩, ?_⟩
    rintro l rfl
    rw [← l.established_iff]
    exact hk.verdict
  waits := by
    intro hnone
    obtain ⟨hw, hlt⟩ := x.waiting_of_unanswered hnone
    exact ⟨hw.timer, hw.now, hlt⟩
  soon := fun a ha => x.time_lt ha
  ends := by
    intro hlate
    cases hans : x.outcome.answer? x.ticket with
    | some a => rfl
    | none =>
      obtain ⟨hw, hlt⟩ := x.waiting_of_unanswered hans
      exact absurd (hlate.trans hw.now) (Nat.not_le_of_lt hlt)
  silenced := by
    intro a ha htimeout
    obtain ⟨readings, hgood⟩ := x.underway_outcome.good
    obtain ⟨s, hs, hk⟩ := x.underway_outcome.kept
    obtain ⟨s', hs', hclosed⟩ := x.closed_of_error ha htimeout
    obtain rfl : s = s' := Option.some.inj (hs.symm.trans hs')
    refine ⟨over_of_tidy hgood.sound hs hclosed hk.standing.tidy, s, hs,
      hk.standing.closed_iff.mpr hclosed, hk.standing.mute (hgood.sound.consistent hs) hclosed, ?_⟩
    exact fun more => along_reach more x.outcome hgood.sound.booked hgood.settled x.handle s hs

end Attempt

theorem le_wake_of_next? {time : Millis} (h : w.next? = some time) {p : Pending}
    (hp : p ∈ w.waits) : time ≤ p.wake := by
  unfold next? at h
  exact (List.min?_eq_some_iff.mp h).2 p.wake (List.mem_append_right _ (List.mem_map_of_mem hp))

theorem punctual_moment {time : Millis} (h : w.next? = some time) (ticket : Ticket)
    (ps : List Pending) :
    (trail take w (.advance time :: ps.map .expire)).all (fun (u, c) => c.punctual ticket u) := by
  refine List.all_eq_true.mpr fun ⟨u, c⟩ hm => ?_
  rcases List.mem_cons.mp hm with heq | hm
  · obtain ⟨rfl, rfl⟩ := Prod.mk.inj heq
    refine List.all_eq_true.mpr fun p hp => ?_
    simpa using .inr (.inr (le_wake_of_next? h hp))
  · have hc : c ∈ ps.map Call.expire := by
      rw [← trail_actions take (w.take (.advance time)) (ps.map .expire)]
      exact List.mem_map_of_mem hm
    obtain ⟨p, -, rfl⟩ := List.mem_map.mp hc
    rfl

theorem exists_punctual_awaitWithin (ticket caller : Ticket) (n : Nat) (w : Switchboard σ)
    (hw : w.Booked) (hset : w.Settled) :
    ∃ calls, awaitWithin n caller w = reach take w calls ∧
      (trail take w calls).all fun (u, c) => c.punctual ticket u := by
  induction n generalizing w with
  | zero => exact ⟨[], rfl, rfl⟩
  | succ n ih =>
    unfold awaitWithin
    split
    · exact ⟨[], rfl, rfl⟩
    · cases hnext : w.next? with
      | none => exact ⟨[], rfl, rfl⟩
      | some time =>
        obtain ⟨ps, hmoment⟩ := exists_calls_moment hw hset time
        obtain ⟨hw', hset'⟩ := booked_reach (.advance time :: ps.map .expire) w hw hset
        obtain ⟨later, hlater, hpunctual⟩ := ih _ hw' hset'
        refine ⟨(.advance time :: ps.map .expire) ++ later, ?_, ?_⟩
        · rw [reach_append, ← hlater, ← hmoment]
        · rw [trail_append, List.all_append, hpunctual, punctual_moment hnext]
          rfl

theorem Attempt.exists_awaitWithin (x : Attempt σ) (caller : Ticket) (n : Nat) :
    ∃ y : Attempt σ, y.board = x.board ∧ y.connected = x.connected ∧
      y.outcome = awaitWithin n caller x.outcome := by
  obtain ⟨readings, hgood⟩ := x.underway_outcome.good
  obtain ⟨calls, hcalls, hpunctual⟩ :=
    exists_punctual_awaitWithin x.ticket caller n x.outcome hgood.sound.booked hgood.settled
  refine ⟨{ x with later := x.later ++ calls, punctual := ?_ }, rfl, rfl, ?_⟩
  · rw [trail_append, List.all_append, x.punctual, Bool.true_and]
    exact hpunctual
  · rw [hcalls]
    exact reach_append take x.connected x.later calls

def stallingSettings : SessionSettings := { linkTimeout := 50, poll := 20, term := "xterm" }

/-- A session is made for a destination whose links never come up. -/
def stalling (d : Destination) : Traffic ScriptedTransport :=
  { transport := .ofScripts [(d, { Script.blank with known := true })]
    settings := stallingSettings
    calls := [.make "s" d stallingSettings] }

/-- The session is connected, and time goes on from look to look. -/
def stalled : Attempt ScriptedTransport :=
  let d : Destination := ⟨List.replicate 16 0xef, rfl⟩
  { before := stalling d
    handle := 0
    session := .new "s" d stallingSettings
    rows := 24
    cols := 80
    register := false
    later :=
      [.advance 20, .expire ⟨0, 20, .connecting 0 50 false⟩, .advance 40,
        .expire ⟨0, 40, .connecting 0 50 false⟩, .advance 60,
        .expire ⟨0, 60, .connecting 0 50 false⟩]
    found := rfl
    isOpen := rfl
    unstarted := rfl
    starts := rfl
    interval := by decide
    punctual := by decide +kernel }

theorem connect_timely_stalled :
    stalled.Timely ∧ stalled.looks.map (·.now) = [0, 20, 40, 60] ∧
      (stalled.outcome.answer? stalled.ticket).map (·.time) = some 60 ∧
      stalled.outcome.sessions.map (·.closed) = [true] ∧
      stalled.outcome.transport.links.map (·.teardowns) = [1] :=
  ⟨stalled.connect_timely, by decide +kernel⟩

end MeshShell.Switchboard

import MeshShell.Proofs.Session.Asking
import MeshShell.Proofs.Session.Delivery
import MeshShell.Proofs.Session.Outbound

/-! # One link for a session

A session asks for a link once in its life. Whoever tells it to open one again, or
before it is known whom to call, is refused and leaves everything as it is. When
the link cannot be opened the session is closed, and nobody reads anything from
it any more.
-/
namespace MeshShell.Session

variable {σ : Type} [Transport σ] {s s' : Session} {t : σ} {a : Action σ}

/-- The errors of a session that does not try to open a link. -/
def Refusal (s : Session) (e : SessionError) : Prop :=
  e = .identityUnresolved s.destination ∨ e = .alreadyStarted s.id

/-- A session refuses to open a link exactly if it does not ask for one. -/
theorem refusal_cases (now : Millis) (rows cols : UInt16) (s : Session) (t : σ) :
    (Transport.recallIdentity s.destination t = none ∧ s.seeks t = [] ∧
      s.start now rows cols t = (.error (.identityUnresolved s.destination), s, t)) ∨
    ∃ identity, Transport.recallIdentity s.destination t = some identity ∧
      (s.driver ≠ .notStarted ∧ s.seeks t = [] ∧
          s.start now rows cols t = (.error (.alreadyStarted s.id), s, t) ∨
        s.driver = .notStarted ∧ s.seeks t = [.link identity shellAspect] ∧
          ∀ e, (s.start now rows cols t).1 = .error e → ∃ cause, e = .transport cause) := by
  unfold start seeks
  cases hi : Transport.recallIdentity s.destination t with
  | none => exact .inl ⟨rfl, rfl, rfl⟩
  | some identity =>
    refine .inr ⟨identity, rfl, ?_⟩
    by_cases hd : s.driver = .notStarted
    · refine .inr ⟨hd, if_pos hd, fun e he => ?_⟩
      dsimp only at he
      rw [if_neg (not_not_intro hd)] at he
      rcases ho : Transport.openLink now identity shellAspect t with ⟨cause | l, t'⟩ <;>
        rw [ho] at he <;> cases he
      exact ⟨cause, rfl⟩
    · exact .inl ⟨hd, if_neg hd, if_pos hd⟩

theorem start_of_refusal {now : Millis} {rows cols : UInt16} {e : SessionError}
    (h : (s.start now rows cols t).1 = .error e) (he : s.Refusal e) :
    s.seeks t = [] ∧ s.start now rows cols t = (.error e, s, t) := by
  rcases refusal_cases now rows cols s t with
    ⟨-, hseeks, hs⟩ | ⟨identity, -, ⟨-, hseeks, hs⟩ | ⟨-, -, hcause⟩⟩
  · rw [hs] at h ⊢
    cases h
    exact ⟨hseeks, rfl⟩
  · rw [hs] at h ⊢
    cases h
    exact ⟨hseeks, rfl⟩
  · obtain ⟨cause, rfl⟩ := hcause e h
    rcases he with he | he <;> cases he

theorem length_asksOf (p : Session × σ) (a : Action σ) :
    (asksOf p a).length = if p.1.dials p.2 a then 1 else 0 := by
  cases a with
  | connect now rows cols =>
    unfold asksOf seeks dials
    cases Transport.recallIdentity p.1.destination p.2 with
    | none => simp
    | some identity => by_cases hd : p.1.driver = .notStarted <;> simp [hd]
  | _ => rfl

theorem link_of_mem_asksOf {p : Session × σ} {ask : Ask} (h : ask ∈ asksOf p a) :
    ∃ identity, ask = .link identity shellAspect := by
  cases a with
  | connect now rows cols =>
    unfold asksOf seeks at h
    cases hi : Transport.recallIdentity p.1.destination p.2 with
    | none => simp [hi] at h
    | some identity =>
      refine ⟨identity, ?_⟩
      by_cases hd : p.1.driver = .notStarted <;> simp_all
  | _ => cases h

theorem link_of_mem_everAsked {hist : History σ} {ask : Ask} (h : ask ∈ everAsked hist) :
    ∃ identity, ask = .link identity shellAspect := by
  obtain ⟨⟨p, a⟩, -, hm⟩ := List.mem_flatMap.mp h
  exact link_of_mem_asksOf hm

theorem length_everAsked (hist : History σ) : (everAsked hist).length = (dialed hist).length := by
  induction hist with
  | nil => rfl
  | cons first rest ih =>
    obtain ⟨p, a⟩ := first
    have hrest : everAsked ((p, a) :: rest) = asksOf p a ++ everAsked rest := rfl
    have hdialed : dialed ((p, a) :: rest) =
        (if p.1.dials p.2 a then a.size? else none).toList ++ dialed rest := by
      unfold dialed
      rw [List.filterMap_cons]
      cases h : (if p.1.dials p.2 a then a.size? else none) <;> simp [h]
    rw [hrest, hdialed, List.length_append, List.length_append, length_asksOf, ih]
    cases a with
    | connect now rows cols => cases h : p.1.dials p.2 (.connect now rows cols) <;> simp [Action.size?]
    | _ => rfl

theorem Life.everAsked_iff (l : Life σ) :
    (everAsked l.history = [] ↔ l.session.driver = .notStarted) ∧
      (everAsked l.history).length ≤ 1 := by
  have hdialed := dialed_of_run l.run (.new l.id l.destination l.settings) rfl
  have hlength := length_everAsked l.history
  by_cases hd : l.session.driver = .notStarted
  · have hnone : dialed l.history = [] := hdialed.1 hd
    rw [hnone] at hlength
    exact ⟨iff_of_true (List.length_eq_zero_iff.mp hlength) hd, hlength.le.trans (Nat.zero_le 1)⟩
  · obtain ⟨g, hg, -⟩ := hdialed.2 hd
    rw [hg] at hlength
    refine ⟨iff_of_false (fun hnil => ?_) hd, hlength.le⟩
    rw [hnil] at hlength
    cases hlength

theorem Life.everAsked_cases (l : Life σ) :
    everAsked l.history = [] ∨ ∃ identity, everAsked l.history = [.link identity shellAspect] := by
  match hall : everAsked l.history with
  | [] => exact .inl rfl
  | [ask] =>
    have hm : ask ∈ everAsked l.history := by simp [hall]
    obtain ⟨identity, rfl⟩ := link_of_mem_everAsked hm
    exact .inr ⟨identity, rfl⟩
  | _ :: _ :: _ => simpa [hall] using l.everAsked_iff.2

/-- A closed session that was started and has nothing left to read. -/
structure Spent (s : Session) : Prop where
  closed : s.closed = true
  started : s.driver ≠ .notStarted
  drained : s.queued = []

theorem Effect.spent (he : Effect s t a s') (h : Spent s) (hc : Consistent s) : Spent s' where
  closed := he.closed h.closed
  started := fun hn => h.started (he.driver.mp hn).1
  drained := by
    have hq := queued_effect hc he
    rw [heard_of_closed h.closed, h.drained] at hq
    exact (List.append_eq_nil_iff.mp hq).2

theorem Spent.results (h : Spent s) (a : Action σ) (t : σ) :
    ∀ o ∈ s.results a, o = .disconnected := by
  have hidle : s.idle = .disconnected := by simp [idle, h.closed]
  have he := effect a s t
  generalize (next a (s, t)).1 = s' at he
  cases he with
  | none _ hr => exact fun o ho => (hr o ho).trans hidle
  | lined _ _ hr => exact fun o ho => (hr o ho).trans hidle
  | took _ _ hr ht =>
    rw [hr]
    intro o ho
    rw [List.mem_singleton.mp ho]
    exact take_closed h.closed h.drained ht
  | finished _ hr => simp [hr]
  | refused ha => simp [ha, Session.results]
  | opened ha => simp [ha, Session.results]
  | reported ha => simp [ha, Session.results]
  | handled ha => simp [ha, Session.results]
  | resized ha => simp [ha, Session.results]

/-- What is left of a session whose link could not be opened. -/
structure Hopeless (σ : Type) [Transport σ] (s : Session) : Prop where
  closed : s.closed = true
  /-- Whoever learns anything from reading learns that the session is over. -/
  reads : ∀ a : Action σ, ∀ o ∈ s.results a, o = .disconnected
  /-- Nobody waits who comes first, or is first in line. -/
  joins : s.readers = [] → ∀ ticket patient, (s.join ticket patient).1 = some .disconnected
  serves : ∀ r rest, s.readers = r :: rest → s.serveFirst.1 = some (r, .disconnected)
  refuses : ∀ now rows cols (t : σ), ∃ e, s.Refusal e ∧ s.start now rows cols t = (.error e, s, t)

theorem Spent.takes (h : Spent s) : ∃ s', s.take = (some .disconnected, s') := by
  rcases s.take_some_or_none with ⟨o, s', ht⟩ | ht
  · exact ⟨s', by rw [ht, take_closed h.closed h.drained ht]⟩
  · rcases s.take_cases with ⟨_, _, -, h'⟩ | ⟨_, -, h'⟩ | ⟨-, -, h'⟩ | ⟨-, -, hopen, -⟩
    · simp [h'] at ht
    · simp [h'] at ht
    · simp [h'] at ht
    · simp [h.closed] at hopen

theorem Spent.hopeless (h : Spent s) (t : σ) : Hopeless σ s where
  closed := h.closed
  reads := fun a => h.results a t
  joins := by
    intro hr ticket patient
    obtain ⟨s', ht⟩ := h.takes
    simp [join, hr, ht]
  serves := by
    intro r rest hr
    obtain ⟨s', ht⟩ := h.takes
    simp [serveFirst, hr, ht]
  refuses := by
    intro now rows cols t
    rcases refusal_cases now rows cols s t with
      ⟨-, -, hs⟩ | ⟨_, -, ⟨-, -, hs⟩ | ⟨hn, -, -⟩⟩
    · exact ⟨_, .inl rfl, hs⟩
    · exact ⟨_, .inr rfl, hs⟩
    · exact absurd hn h.started

theorem drained_of_run {start p : Session × σ} {hist : History σ} (hr : Run next start hist p)
    (hc : Consistent start.1) (hq : start.1.queued = []) (hn : p.1.driver = .notStarted) :
    p.1.queued = [] := by
  induction hr with
  | nil => exact hq
  | @snoc hist p a hr ih =>
    have he := effect a p.1 p.2
    obtain ⟨hn', -⟩ := he.driver.mp hn
    have hheard : p.1.heard a = none := by
      refine heard_of_untaken (Option.eq_none_iff_forall_ne_some.mpr fun e ht => ?_)
      simp [running_of_taken ht] at hn'
    have hsame := queued_effect (hc.of_run hr) he
    rw [hheard, ih hn'] at hsame
    exact (List.append_eq_nil_iff.mp hsame).2

theorem spent_of_failed {now : Millis} {rows cols : UInt16} {cause : TransportError}
    (hq : s.driver = .notStarted → s.queued = [])
    (h : (s.start now rows cols t).1 = .error (.transport cause)) :
    Spent (s.start now rows cols t).2.1 := by
  unfold start at h ⊢
  cases hi : Transport.recallIdentity s.destination t with
  | none => simp [hi] at h
  | some identity =>
    rw [hi] at h
    dsimp only at h ⊢
    by_cases hd : s.driver = .notStarted
    · rw [if_neg (not_not_intro hd)] at h ⊢
      rcases ho : Transport.openLink now identity shellAspect t with ⟨e | l, t'⟩ <;> rw [ho] at h
      · dsimp only
        rw [fst_finish]
        have hqueued : (s.dial rows cols).shut.queued = [] := (queued_shut _).trans (hq hd)
        exact ⟨closed_shut _, by simp [endDriver], hqueued⟩
      · cases h
    · rw [if_pos hd] at h
      cases h

/-- What happens to a session after its life so far. -/
def Life.andThen (l : Life σ) (more : List (Action σ)) : Life σ := { l with actions := l.actions ++ more }

theorem Life.outcome_andThen (l : Life σ) (more : List (Action σ)) :
    (l.andThen more).outcome = reach next l.outcome more := reach_append next l.start l.actions more

theorem Life.outcome_asked_andThen (l : Life σ) (more : List (Action σ)) :
    (l.andThen more).asked.outcome =
      withAsks (everAsked l.history ++ everAsked (trail next l.outcome more))
        (reach next l.outcome more) := by
  have hhist : (l.andThen more).history = l.history ++ trail next l.outcome more :=
    trail_append next l.start l.actions more
  rw [Life.outcome_asked, hhist, l.outcome_andThen]
  unfold everAsked
  rw [List.flatMap_append]

theorem Life.forgets (l : Life σ) {now : Millis} {rows cols : UInt16} {e : SessionError}
    (h : (l.session.start now rows cols l.outcome.2).1 = .error e) (he : l.session.Refusal e)
    (more : List (Action σ)) :
    (l.andThen (.connect now rows cols :: more)).asked.outcome = (l.andThen more).asked.outcome := by
  obtain ⟨hseeks, hs⟩ := start_of_refusal h he
  have hsame : next (.connect now rows cols) l.outcome = l.outcome := congrArg Prod.snd hs
  have hnone : asksOf l.outcome (.connect now rows cols) = [] := hseeks
  have hreach : reach next l.outcome (.connect now rows cols :: more) =
      reach next (next (.connect now rows cols) l.outcome) more := rfl
  have hasked : everAsked (trail next l.outcome (.connect now rows cols :: more)) =
      asksOf l.outcome (.connect now rows cols) ++
        everAsked (trail next (next (.connect now rows cols) l.outcome) more) := rfl
  rw [outcome_asked_andThen, outcome_asked_andThen, hreach, hasked, hnone, hsame, List.nil_append]

theorem Life.hopeless (l : Life σ) {now : Millis} {rows cols : UInt16} {cause : TransportError}
    (h : (l.session.start now rows cols l.outcome.2).1 = .error (.transport cause))
    (more : List (Action σ)) : Hopeless σ (l.andThen (.connect now rows cols :: more)).session := by
  have hnew := Consistent.new l.id l.destination l.settings
  have hfirst : Spent (next (.connect now rows cols) l.outcome).1 :=
    spent_of_failed (drained_of_run l.run hnew rfl) h
  have hrun := Run.of_actions next (next (.connect now rows cols) l.outcome) more
  have hlast := hrun.invariant (P := fun p => Spent p.1 ∧ Consistent p.1)
    ⟨hfirst, l.consistent.next _ _⟩
    fun a p hp => ⟨(effect a p.1 p.2).spent hp.1 hp.2, hp.2.next a p.2⟩
  have hsession : (l.andThen (.connect now rows cols :: more)).session = _ :=
    congrArg Prod.fst (l.outcome_andThen (.connect now rows cols :: more))
  rw [hsession]
  exact hlast.1.hopeless l.transport

/-- The requests for a link in the notes on a life, and what becomes of them. -/
structure OneLink (l : Life σ) : Prop where
  /-- The notes change nothing. -/
  plainly : (l.asked.outcome.1, l.asked.outcome.2.inner) = l.outcome
  atMostOnce : l.asked.outcome.2.asks = [] ∨
    ∃ identity, l.asked.outcome.2.asks = [.link identity shellAspect]
  /-- It is not known whom to call. -/
  unresolved : ∀ now rows cols,
    (l.session.start now rows cols l.outcome.2).1 = .error (.identityUnresolved l.session.destination) ↔
      Transport.recallIdentity l.session.destination l.outcome.2 = none
  /-- A link was asked for before. -/
  started : ∀ now rows cols,
    (l.session.start now rows cols l.outcome.2).1 = .error (.alreadyStarted l.session.id) ↔
      Transport.recallIdentity l.session.destination l.outcome.2 ≠ none ∧
        l.asked.outcome.2.asks ≠ []
  /-- Who is refused leaves the session, the transport and the notes as they are, -/
  unchanged : ∀ now rows cols e, (l.session.start now rows cols l.outcome.2).1 = .error e →
    l.session.Refusal e →
    l.asked.outcome.1.start now rows cols l.asked.outcome.2 = (.error e, l.asked.outcome)
  /-- and whatever happens later happens as if nobody had been refused. -/
  forgotten : ∀ now rows cols e, (l.session.start now rows cols l.outcome.2).1 = .error e →
    l.session.Refusal e → ∀ more,
      (l.andThen (.connect now rows cols :: more)).asked.outcome = (l.andThen more).asked.outcome
  /-- The first one who knows whom to call asks for a link. -/
  opens : ∀ now rows cols identity,
    Transport.recallIdentity l.session.destination l.outcome.2 = some identity →
    l.asked.outcome.2.asks = [] →
      (l.andThen [.connect now rows cols]).asked.outcome.2.asks = [.link identity shellAspect]
  /-- If it cannot be opened, this is the end. -/
  failed : ∀ now rows cols cause,
    (l.session.start now rows cols l.outcome.2).1 = .error (.transport cause) →
      ∀ more, Hopeless σ (l.andThen (.connect now rows cols :: more)).session

theorem one_link (l : Life σ) : OneLink l := by
  have hnotes := l.outcome_asked
  have hasks : l.asked.outcome.2.asks = everAsked l.history := by rw [hnotes, withAsks]
  have hnone := l.everAsked_iff.1
  exact
    { plainly := by
        rw [hnotes]
        rfl
      atMostOnce := hasks ▸ l.everAsked_cases
      unresolved := by
        intro now rows cols
        rcases refusal_cases now rows cols l.session l.outcome.2 with
          ⟨hi, -, hs⟩ | ⟨identity, hi, ⟨-, -, hs⟩ | ⟨-, -, hcause⟩⟩
        · simp [hi, hs]
        · simp [hi, hs]
        · refine iff_of_false (fun h => ?_) (by simp [hi])
          obtain ⟨_, hc⟩ := hcause _ h
          cases hc
      started := by
        intro now rows cols
        rw [hasks, ne_eq, ne_eq, hnone]
        rcases refusal_cases now rows cols l.session l.outcome.2 with
          ⟨hi, -, hs⟩ | ⟨identity, hi, ⟨hd, -, hs⟩ | ⟨hd, -, hcause⟩⟩
        · simp [hi, hs]
        · simp [hi, hs, hd]
        · refine iff_of_false (fun h => ?_) fun h => h.2 hd
          obtain ⟨_, hc⟩ := hcause _ h
          cases hc
      unchanged := by
        intro now rows cols e h he
        obtain ⟨hseeks, hs⟩ := start_of_refusal h he
        rw [hnotes]
        refine (start_asked l.session l.outcome.2 _ now rows cols).trans ?_
        rw [hs, hseeks, List.append_nil]
        rfl
      forgotten := fun _ _ _ _ h he more => l.forgets h he more
      opens := by
        intro now rows cols identity hi hempty
        have hd : l.session.driver = .notStarted := hnone.mp (hasks ▸ hempty)
        have hseeks : l.session.seeks l.outcome.2 = [.link identity shellAspect] := by
          simp [seeks, hi, hd]
        have hlater : everAsked (trail next l.outcome [.connect now rows cols]) =
            l.session.seeks l.outcome.2 := List.append_nil _
        rw [Life.outcome_asked_andThen, withAsks, hlater, hseeks, ← hasks, hempty]
        rfl
      failed := fun _ _ _ _ h more => l.hopeless h more }

/-- A session of a destination that is known and takes no links. -/
def unopenable (actions : List (Action ScriptedTransport)) : Life ScriptedTransport :=
  let l := known actions
  let script : Script := { Script.blank with known := true, openError := some .channelClosed }
  { l with transport := .ofScripts [(l.destination, script)] }

theorem one_link_unopenable :
    let l := unopenable []
    OneLink l ∧ (l.session.start 0 24 80 l.outcome.2).1 = .error (.transport .channelClosed) ∧
      returned (l.andThen [.connect 0 24 80, .read 0 true, .connect 0 24 80, .read 1 true]).history =
        [.disconnected, .disconnected] :=
  ⟨one_link (unopenable []), by decide, by decide⟩

end MeshShell.Session

import MeshShell.Proofs.Session.Phases
import MeshShell.Proofs.Session.Recording

/-! # What a session says on its link

On the link of a session stands a greeting of two messages, or as much of it as
the channel took, and behind a complete greeting the input and the sizes that
the host got through, in the order of its calls.
-/
namespace MeshShell

def LinkEvent.establishes : LinkEvent → Bool
  | .established _ => true
  | _ => false

namespace Session

variable {σ : Type}

/-- The size with which a link is to be opened. -/
def Action.size? : Action σ → Option Geometry
  | .connect _ rows cols => some ⟨rows, cols⟩
  | _ => none

variable [Transport σ]

/-- The message that a call of the host gets through. -/
def call? (s : Session) (t : σ) : Action σ → Option Message
  | .sendInput data =>
    if (s.sendInput data t).1 then some (.streamData 0 data false false) else none
  | .resize size =>
    if s.phase = .active ∧ s.takesSize t size = true then some (.windowSize size.rows size.cols 0 0)
    else none
  | _ => none

/-- The messages that the host got through, in the order of its calls. -/
def calls (hist : History σ) : List Message := hist.filterMap fun (p, a) => p.1.call? p.2 a

/-- How often the transport has reported the link of the session up. -/
def establishments (hist : History σ) : Nat :=
  hist.countP fun (p, a) => (p.1.delivered a).any LinkEvent.establishes

/-- The sizes with which the opening of the link was tried. -/
def dialed (hist : History σ) : List Geometry :=
  hist.filterMap fun (p, a) => if p.1.dials p.2 a then a.size? else none

omit [Transport σ] in
theorem establishments_snoc (hist : History σ) (p : Session × σ) (a : Action σ) :
    establishments (hist ++ [(p, a)]) =
      establishments hist + if (p.1.delivered a).any LinkEvent.establishes then 1 else 0 := by
  simp [establishments, List.countP_append, List.countP_cons]

theorem calls_snoc (hist : History σ) (p : Session × σ) (a : Action σ) :
    calls (hist ++ [(p, a)]) = calls hist ++ (p.1.call? p.2 a).toList := by
  unfold calls
  rw [List.filterMap_append]
  cases h : p.1.call? p.2 a <;> simp [h]

theorem dialed_snoc (hist : History σ) (p : Session × σ) (a : Action σ) :
    dialed (hist ++ [(p, a)]) =
      dialed hist ++ (if p.1.dials p.2 a then a.size? else none).toList := by
  unfold dialed
  rw [List.filterMap_append]
  cases h : (if p.1.dials p.2 a then a.size? else none) <;> simp [h]

variable {s s' : Session} {t : σ} {a : Action σ}

theorem Effect.settings (he : Effect s t a s') : s'.settings = s.settings := by
  cases he with
  | refused => exact settings_shut _
  | finished =>
    obtain ⟨_, h⟩ := s.shut.push_frame .shutdown
    rw [h]
    exact settings_shut s
  | @reported c l =>
    obtain ⟨_, h⟩ := s.push_frame (Switchboard.eventOf l c)
    rw [h]
  | handled _ _ _ hs =>
    cases hs with
    | failed => exact settings_shut _
    | ended => exact settings_shut _
    | gone => exact settings_shut _
    | @output _ bytes =>
      obtain ⟨_, h⟩ := enqueue_frame _ bytes
      rw [h]
    | _ => rfl
  | took _ _ _ ht =>
    obtain ⟨_, rfl⟩ := take_frame ht
    rfl
  | _ => rfl

/-- The link that was opened stays the one that was opened. -/
theorem Effect.keeps_opened {l : LinkId} (he : Effect s t a s') (h : Consistent s)
    (ho : s.opened = some l) : s'.opened = some l := by
  have hd : s.driver ≠ .notStarted := by
    intro hd
    simp [(h.unstarted hd).1] at ho
  cases he with
  | refused _ hn => exact absurd (unstarted_of_dials hn) hd
  | opened _ hn => exact absurd (unstarted_of_dials hn) hd
  | finished =>
    obtain ⟨_, h⟩ := s.shut.push_frame .shutdown
    rw [h]
    simpa using ho
  | @reported c l =>
    obtain ⟨_, h⟩ := s.push_frame (Switchboard.eventOf l c)
    rwa [h]
  | handled _ _ _ hs =>
    cases hs with
    | failed => simpa using ho
    | ended => simpa using ho
    | gone => exact (opened_shut _).trans ho
    | @output _ bytes =>
      obtain ⟨_, h⟩ := enqueue_frame _ bytes
      rwa [h]
    | _ => exact ho
  | took _ _ _ ht =>
    obtain ⟨_, rfl⟩ := take_frame ht
    exact ho
  | _ => exact ho

theorem Handled.started {e : LinkEvent} (hs : Handled s e s') (hd : s.driver ≠ .notStarted) :
    s'.driver ≠ .notStarted := by
  cases hs with
  | failed => simpa using hd
  | ended => simpa using hd
  | gone => simp [endDriver]
  | shutdown => simp [endDriver]
  | @output _ bytes =>
    obtain ⟨_, h⟩ := s.enqueue_frame bytes
    rwa [h]
  | _ => exact hd

theorem Effect.driver (he : Effect s t a s') :
    s'.driver = .notStarted ↔ s.driver = .notStarted ∧ s.dials t a = false := by
  cases he with
  | none hap => simp [hap.undialed]
  | refused _ hd => simp [hd, endDriver]
  | opened _ hd => simp [hd]
  | finished hap => simp [hap.undialed]
  | reported ha => simp [ha, dials]
  | handled ha hr _ hs =>
    have hn : s'.driver ≠ .notStarted := hs.started (by simp [hr])
    simp [hn, hr]
  | resized ha => simp [ha, dials]
  | took _ hap _ ht =>
    obtain ⟨_, rfl⟩ := take_frame ht
    simp [hap.undialed]
  | lined _ hap => simp [hap.undialed]

theorem Effect.dialed (he : Effect s t a s') (hd : s.dials t a = true) :
    ∃ g, a.size? = some g ∧ (s'.closed = false → s'.geometry = g) := by
  cases he with
  | refused ha => simp [ha, Action.size?]
  | opened ha => simp [ha, Action.size?, dial]
  | none hap => simp [hap.undialed] at hd
  | finished hap => simp [hap.undialed] at hd
  | reported ha => simp [ha, dials] at hd
  | handled ha => simp [ha, dials] at hd
  | resized ha => simp [ha, dials] at hd
  | took _ hap => simp [hap.undialed] at hd
  | lined _ hap => simp [hap.undialed] at hd

theorem Effect.geometry (he : Effect s t a s') (h : Consistent s) (hd : s.dials t a = false)
    (hc : s'.closed = false) (hp : s'.phase = .linking) :
    s.phase = .linking ∧ s'.geometry = s.geometry := by
  cases he with
  | none => exact ⟨hp, rfl⟩
  | refused _ hn => simp [hd] at hn
  | opened _ hn => simp [hd] at hn
  | finished => simp at hc
  | @reported c l =>
    obtain ⟨_, h⟩ := s.push_frame (Switchboard.eventOf l c)
    rw [h] at hp ⊢
    exact ⟨hp, rfl⟩
  | handled _ _ _ hs =>
    cases hs with
    | failed => simp at hc
    | greeted => simp at hp
    | ended => simp at hc
    | gone => simp at hc
    | @output _ bytes =>
      obtain ⟨_, h⟩ := enqueue_frame _ bytes
      rw [h] at hp ⊢
      exact ⟨hp, rfl⟩
    | _ => exact ⟨hp, rfl⟩
  | resized _ hch =>
    have hact : s.phase = .active := h.channel_active.mp hch
    simp [hact] at hp
  | took _ _ _ ht =>
    obtain ⟨_, rfl⟩ := take_frame ht
    exact ⟨hp, rfl⟩
  | lined => exact ⟨hp, rfl⟩

/-- The reports in the inbox that the link is up. -/
def ups (s : Session) : Nat := s.inbox.countP LinkEvent.establishes

theorem ups_push_le (s : Session) (e : LinkEvent) :
    (s.push e).ups ≤ s.ups + if e.establishes then 1 else 0 := by
  unfold push
  split
  · exact Nat.le_add_right _ _
  · simp [ups, List.countP_append]

theorem Handled.ups_le {e : LinkEvent} (hs : Handled s e s') : s'.ups ≤ s.ups := by
  unfold ups
  cases hs with
  | failed => simp
  | ended => simp
  | gone => simp [endDriver]
  | shutdown => simp [endDriver]
  | output => simp
  | _ => exact Nat.le_refl _

/-- Every handshake uses up a report that the link is up. -/
theorem Effect.ups_le (he : Effect s t a s') :
    s'.ups + (if s.greets a then 1 else 0) ≤
      s.ups + if (s.delivered a).any LinkEvent.establishes then 1 else 0 := by
  cases he with
  | none hap => simp [hap.ungreeted]
  | refused ha => simp [ha, greets, taken, ups, endDriver]
  | opened ha => simp [ha, greets, taken, ups, dial]
  | finished hap =>
    have hle := s.shut.ups_push_le .shutdown
    have hsame : s.shut.ups = s.ups := by simp [ups]
    simp [LinkEvent.establishes] at hle
    simp [hap.ungreeted]
    omega
  | @reported c l ha ho =>
    have hle := s.ups_push_le (Switchboard.eventOf l c)
    have hev : s.delivered a = some (Switchboard.eventOf l c) := by simp [ha, delivered, ho]
    have hg : s.greets a = false := by simp [ha, greets, taken]
    simpa [hg, hev] using hle
  | @handled e rest s' ha hr hi hs =>
    have hle := hs.ups_le
    have hups : s.ups = rest.countP LinkEvent.establishes + if e.establishes then 1 else 0 := by
      simp [ups, hi, List.countP_cons]
    have hg : s.greets a = true → e.establishes = true := by
      intro hg
      cases e <;> simp_all [greets, taken, LinkEvent.establishes]
    have hrest : s'.ups ≤ rest.countP LinkEvent.establishes := hle
    split <;> simp_all <;> omega
  | resized ha => simp [ha, greets, taken, ups]
  | took _ hap _ ht =>
    obtain ⟨_, rfl⟩ := take_frame ht
    simp [hap.ungreeted, ups]
  | lined _ hap => simp [hap.ungreeted, ups]

theorem active_of_shut (h : s.shut.phase = .active) : s.phase = .active := by
  unfold shut at h
  split at h
  · exact h
  · cases h

theorem Effect.active (he : Effect s t a s') (hp : s'.phase = .active) :
    s.phase = .active ∨ s.greets a = true := by
  cases he with
  | refused => cases active_of_shut hp
  | opened => cases hp
  | finished => exact .inl (active_of_shut (by simpa using hp))
  | reported => exact .inl (by simpa using hp)
  | @handled e rest s' ha hr hi hs =>
    have ht : s.taken a = some e := by simp [ha, taken, hr, hi]
    cases hs with
    | failed => exact .inl (active_of_shut (s := { s with inbox := rest }) hp)
    | greeted hc => exact .inr (by simpa [greets, ht] using hc)
    | output => exact .inl (by simpa using hp)
    | ended => exact .inl (active_of_shut (s := { s with inbox := rest }) hp)
    | gone => exact .inl (active_of_shut (s := { s with inbox := rest }) hp)
    | _ => exact .inl hp
  | took _ _ _ ht =>
    obtain ⟨_, rfl⟩ := take_frame ht
    exact .inl hp
  | _ => exact .inl hp

variable {start p : Session × σ} {hist : History σ}

theorem handshakes_le_of_run (hr : Run next start hist p) :
    p.1.ups + handshakes hist ≤ start.1.ups + establishments hist := by
  induction hr with
  | nil => simp [handshakes]
  | @snoc hist p a hr ih =>
    have hle : (next a p).1.ups + (if p.1.greets a then 1 else 0) ≤
        p.1.ups + if (p.1.delivered a).any LinkEvent.establishes then 1 else 0 :=
      (effect a p.1 p.2).ups_le
    rw [handshakes_snoc, establishments_snoc]
    omega

theorem handshaken_of_active (hr : Run next start hist p) (hp : start.1.phase ≠ .active)
    (h : p.1.phase = .active) : 0 < handshakes hist := by
  induction hr with
  | nil => exact absurd h hp
  | @snoc hist p a hr ih =>
    rw [handshakes_snoc]
    rcases (effect a p.1 p.2).active h with hact | hg
    · exact Nat.lt_of_lt_of_le (ih hact) (Nat.le_add_right _ _)
    · simp [hg]

/-- A session dials once, and its size is that of the dial until it shakes hands. -/
theorem dialed_of_run (hr : Run next start hist p) (hc : Consistent start.1)
    (hd : start.1.driver = .notStarted) :
    (p.1.driver = .notStarted → dialed hist = []) ∧
      (p.1.driver ≠ .notStarted → ∃ g, dialed hist = [g] ∧
        (p.1.closed = false → p.1.phase = .linking → p.1.geometry = g)) := by
  induction hr with
  | nil => exact ⟨fun _ => rfl, fun h => absurd hd h⟩
  | @snoc hist p a hr ih =>
    obtain ⟨hnone, hone⟩ := ih
    have he := effect a p.1 p.2
    rw [dialed_snoc]
    constructor
    · intro hn
      obtain ⟨hn, hun⟩ := he.driver.mp hn
      simp [hnone hn, hun]
    · intro hn
      cases hdial : p.1.dials p.2 a with
      | true =>
        obtain ⟨g, hg, hsize⟩ := he.dialed hdial
        exact ⟨g, by simp [hnone (unstarted_of_dials hdial), hg], fun hopen _ => hsize hopen⟩
      | false =>
        have hstarted : p.1.driver ≠ .notStarted := fun h => hn (he.driver.mpr ⟨h, hdial⟩)
        obtain ⟨g, hg, hsize⟩ := hone hstarted
        refine ⟨g, by simp [hg], ?_⟩
        intro hopen hp
        obtain ⟨hp', hsame⟩ := he.geometry (hc.of_run hr) hdial hopen hp
        exact hsame.trans (hsize (he.wasOpen hopen) hp')

/-- An action that puts nothing into the record behind the back of the session. -/
def Action.Quiet (a : Action (Recorded σ)) : Prop :=
  ∀ f, a = .elsewhere f → ∀ r, (f r).sent = r.sent

omit [Transport σ] in
theorem quiet_recorded (a : Action σ) : a.recorded.Quiet := by
  intro f hf r
  cases a with
  | elsewhere g =>
    cases hf
    rfl
  | _ => cases hf

/-- What an action adds to the messages of the record. -/
inductive Spoken (p : Session × Recorded σ) (a : Action (Recorded σ)) (q : Session × Recorded σ) : Prop
  | silent : p.1.call? p.2 a = none → p.1.greets a = false → q.2.sent = p.2.sent → Spoken p a q
  | called (l : LinkId) (m : Message) : p.1.call? p.2 a = some m → p.1.greets a = false →
      p.1.channel = some l → p.1.closed = false → q.2.sent = p.2.sent ++ [(l, m)] → Spoken p a q
  | broken (l : LinkId) : p.1.call? p.2 a = none → p.1.taken a = some (.established l) →
      p.1.closed = false → q.1.closed = true →
      q.2.sent = p.2.sent ∨ q.2.sent = p.2.sent ++ [(l, .hello)] → Spoken p a q
  | greeted (l : LinkId) : p.1.call? p.2 a = none → p.1.taken a = some (.established l) →
      p.1.closed = false → q.1.phase = .active →
      q.2.sent = p.2.sent ++ [(l, .hello), (l, .loginShell p.1.settings.term p.1.geometry)] →
      Spoken p a q

theorem Spoken.nothing {p q : Session × Recorded σ} {a : Action (Recorded σ)}
    (hc : p.1.call? p.2 a = none) (ht : p.1.taken a = none) (hs : q.2.sent = p.2.sent) :
    Spoken p a q :=
  .silent hc (by simp [greets, ht]) hs

theorem spoken {p : Session × Recorded σ} {a : Action (Recorded σ)} (h : Consistent p.1)
    (ha : a.Quiet) : Spoken p a (next a p) := by
  obtain ⟨s, r⟩ := p
  cases a with
  | connect now rows cols => exact .nothing rfl rfl (start_recorded now rows cols s r).2
  | giveUp =>
    refine .nothing rfl rfl ?_
    dsimp only [next, timeOut]
    cases s.progress with
    | some _ => rfl
    | none => exact sent_finish s r
  | report c => exact .nothing rfl rfl rfl
  | drive =>
    rcases s.driveOne_cases r with ⟨he, ht⟩ | ⟨e, rest, -, -, ht, he⟩
    · exact .nothing rfl ht (by rw [next, he])
    · have hn := (handle_recorded e { s with inbox := rest } r).2
      dsimp only [next]
      rw [he]
      cases hn with
      | silent hc hs =>
        refine .silent rfl ?_ hs
        cases e with
        | established l => simpa [greets, ht] using hc l rfl
        | _ => simp [greets, ht]
      | broken l hl hc hq hs =>
        subst hl
        refine .broken l rfl ht hc ?_ hs
        rw [hq]
        exact closed_shut _
      | greeted l hl hc hq hs =>
        subst hl
        refine .greeted l rfl ht hc ?_ hs
        rw [hq]
        rfl
  | sendInput data =>
    obtain ⟨b, r', hr, -, ⟨rfl, hs⟩ | ⟨rfl, l, hch, hc, hs⟩⟩ := sendInput_recorded data s r
    · refine .nothing ?_ rfl ?_
      · simp [call?, hr]
      · simpa [next, hr] using hs
    · refine .called l (.stdin data) ?_ rfl hch hc ?_
      · simp [call?, hr]
        rfl
      · simpa [next, hr] using hs
  | resize size =>
    obtain ⟨-, -, ⟨ht, hs⟩ | ⟨ht, l, hch, hc, hs⟩⟩ := resize_recorded size s r
    · exact .nothing (by simp [call?, ht]) rfl hs
    · have hp : s.phase = .active := h.channel_active.mp (by simp [hch])
      refine .called l (.resized size) ?_ rfl hch hc hs
      simp [call?, hp, ht]
      rfl
  | close =>
    refine .nothing rfl rfl ?_
    dsimp only [next, close]
    split
    · rfl
    · exact sent_finish s r
  | read ticket patient => exact .nothing rfl rfl rfl
  | serve => exact .nothing rfl rfl rfl
  | expire ticket => exact .nothing rfl rfl rfl
  | elsewhere f => exact .nothing rfl rfl (ha f rfl r)

omit [Transport σ] in
theorem greets_of_taken {l : LinkId} (ht : s.taken a = some (.established l))
    (hc : s.closed = false) : s.greets a = true := by
  simp [greets, ht, hc]

theorem undialed_of_opened {l : LinkId} (h : Consistent s) (ho : s.opened = some l) :
    s.dials t a = false := by
  cases hd : s.dials t a with
  | false => rfl
  | true => simp [(h.unstarted (unstarted_of_dials hd)).1] at ho

/-- The messages of the record are a greeting, as far as it went, and behind a complete one the
messages that the host got through. -/
inductive Logged (hist : History (Recorded σ)) (p : Session × Recorded σ) : Prop
  | unsaid : handshakes hist = 0 → calls hist = [] → p.2.sent = [] → Logged hist p
  | said (l : LinkId) (g : Geometry) (greeting : List Message) : 0 < handshakes hist →
      p.1.opened = some l → dialed hist = [g] →
      (greeting = [.hello, .loginShell p.1.settings.term g] ∨
        greeting <+: [.hello] ∧ calls hist = [] ∧ p.1.closed = true) →
      p.2.sent = (greeting ++ calls hist).map (l, ·) → Logged hist p

/-- What the history says of a session before an action that the record is about. -/
structure Backed (hist : History (Recorded σ)) (s : Session) : Prop where
  consistent : Consistent s
  active : s.phase = .active → 0 < handshakes hist
  dialed : s.driver ≠ .notStarted → ∃ g, dialed hist = [g] ∧
    (s.closed = false → s.phase = .linking → s.geometry = g)

theorem Backed.handshake {hist : History (Recorded σ)} {s : Session} {a : Action (Recorded σ)}
    {l : LinkId} (hb : Backed hist s) (ht : s.taken a = some (.established l))
    (hc : s.closed = false) (hfirst : handshakes hist = 0) :
    s.opened = some l ∧ Session.dialed hist = [s.geometry] := by
  have hd : s.driver = .running := running_of_taken ht
  obtain ⟨g, hg, hsize⟩ := hb.dialed (by simp [hd])
  have hl : s.phase = .linking := by
    rcases hb.consistent.open_phase hc with ⟨hn, -⟩ | ⟨-, hp | hp⟩
    · simp [hd] at hn
    · exact hp
    · have := hb.active hp
      omega
  rw [hsize hc hl]
  exact ⟨hb.consistent.inbox_opened l (mem_inbox_of_taken ht), hg⟩

theorem Logged.fresh {hist : History (Recorded σ)} {p : Session × Recorded σ} (h : Logged hist p)
    (h0 : handshakes hist = 0) : calls hist = [] ∧ p.2.sent = [] := by
  cases h with
  | unsaid _ hnone hempty => exact ⟨hnone, hempty⟩
  | said _ _ _ hpos => omega

theorem Logged.next {hist : History (Recorded σ)} {p q : Session × Recorded σ}
    {a : Action (Recorded σ)} (h : Logged hist p) (hb : Backed hist p.1)
    (he : Effect p.1 p.2 a q.1) (hs : Spoken p a q)
    (honce : handshakes (hist ++ [(p, a)]) ≤ 1) : Logged (hist ++ [(p, a)]) q := by
  have hcalls := calls_snoc hist p a
  have hshakes := handshakes_snoc hist p a
  have hdialed := dialed_snoc hist p a
  cases hs with
  | silent hcall hg hsent =>
    rw [hcall, Option.toList_none, List.append_nil] at hcalls
    rw [hg] at hshakes
    cases h with
    | unsaid h0 hnone hempty =>
      exact .unsaid (hshakes.trans h0) (hcalls.trans hnone) (hsent.trans hempty)
    | said l g greeting hpos ho hg1 hgreet hlog =>
      have hun : p.1.dials p.2 a = false := undialed_of_opened hb.consistent ho
      refine .said l g greeting (hshakes ▸ hpos) (he.keeps_opened hb.consistent ho) ?_ ?_ ?_
      · simp [hdialed, hg1, hun]
      · rw [he.settings, hcalls]
        exact hgreet.imp_right fun ⟨hpre, hnone, hclosed⟩ => ⟨hpre, hnone, he.closed hclosed⟩
      · rw [hsent, hcalls, hlog]
  | called k m hcall hg hch hc hsent =>
    rw [hcall] at hcalls
    rw [hg] at hshakes
    cases h with
    | unsaid h0 =>
      have hpos := hb.active (hb.consistent.channel_active.mp (by simp [hch]))
      omega
    | said l g greeting hpos ho hg1 hgreet hlog =>
      have hun : p.1.dials p.2 a = false := undialed_of_opened hb.consistent ho
      have hk : k = l := Option.some.inj ((hb.consistent.channel_opened k hch).symm.trans ho)
      refine .said l g greeting (hshakes ▸ hpos) (he.keeps_opened hb.consistent ho) ?_ ?_ ?_
      · simp [hdialed, hg1, hun]
      · rw [he.settings]
        rcases hgreet with hfull | ⟨-, -, hclosed⟩
        · exact .inl hfull
        · simp [hc] at hclosed
      · rw [hsent, hcalls, hlog, hk]
        simp
  | broken l hcall ht hc hq hsent =>
    have hg : p.1.greets a = true := greets_of_taken ht hc
    rw [hcall, Option.toList_none, List.append_nil] at hcalls
    rw [hg, if_pos rfl] at hshakes
    have h0 : handshakes hist = 0 := by omega
    obtain ⟨hnone, hempty⟩ := h.fresh h0
    obtain ⟨ho, hsize⟩ := hb.handshake ht hc h0
    rw [hnone] at hcalls
    have hsaid : ∃ greeting, greeting <+: [Message.hello] ∧ q.2.sent = greeting.map (l, ·) := by
      rcases hsent with hsent | hsent
      · exact ⟨[], List.nil_prefix, by simp [hsent, hempty]⟩
      · exact ⟨[.hello], List.prefix_refl _, by simp [hsent, hempty]⟩
    obtain ⟨greeting, hpre, hlog⟩ := hsaid
    refine .said l p.1.geometry greeting (by omega) (he.keeps_opened hb.consistent ho) ?_
      (.inr ⟨hpre, hcalls, hq⟩) (by simp [hlog, hcalls])
    simp [hdialed, hsize, undialed_of_greets hg]
  | greeted l hcall ht hc hq hsent =>
    have hg : p.1.greets a = true := greets_of_taken ht hc
    rw [hcall, Option.toList_none, List.append_nil] at hcalls
    rw [hg, if_pos rfl] at hshakes
    have h0 : handshakes hist = 0 := by omega
    obtain ⟨hnone, hempty⟩ := h.fresh h0
    obtain ⟨ho, hsize⟩ := hb.handshake ht hc h0
    rw [hnone] at hcalls
    refine .said l p.1.geometry _ (by omega) (he.keeps_opened hb.consistent ho) ?_
      (.inl (by rw [he.settings])) (by simp [hsent, hempty, hcalls])
    simp [hdialed, hsize, undialed_of_greets hg]

theorem logged_of_run {start p : Session × Recorded σ} {hist : History (Recorded σ)}
    (hr : Run next start hist p) (hc : Consistent start.1) (hd : start.1.driver = .notStarted)
    (hin : start.1.inbox = []) (hs : start.2.sent = [])
    (hquiet : ∀ p a, (p, a) ∈ hist → a.Quiet)
    (hup : establishments hist ≤ 1) : Logged hist p := by
  induction hr with
  | nil => exact .unsaid rfl rfl hs
  | @snoc hist p a hr ih =>
    have hcons : Consistent p.1 := hc.of_run hr
    have hup' : establishments hist ≤ 1 := by
      rw [establishments_snoc] at hup
      omega
    have honce : handshakes (hist ++ [(p, a)]) ≤ 1 := by
      have hle := handshakes_le_of_run (hr.snoc a)
      have h0 : start.1.ups = 0 := by simp [ups, hin]
      omega
    have hb : Backed hist p.1 :=
      { consistent := hcons
        active := handshaken_of_active hr (hc.unstarted hd).2.2
        dialed := (dialed_of_run hr hc hd).2 }
    have hprev := ih (fun p a h => hquiet p a (List.mem_append_left _ h)) hup'
    exact hprev.next hb (effect a p.1 p.2) (spoken hcons (hquiet p a (by simp))) honce

/-- What the record of a life says about the messages on its link. -/
structure OutboundLog (l : Life σ) : Prop where
  plain : plain l.recorded.outcome = l.outcome
  /-- A greeting, as far as it went, and behind a complete one what the host got through. -/
  messages : ∃ (greeting : List Message) (g : Geometry),
    l.recorded.outcome.2.sent.map (·.2) = greeting ++ calls l.recorded.history ∧
    greeting <+: [.versionInfo "0.1.0" 1,
      .executeCommand [] false false false l.settings.term g.rows g.cols 0 0] ∧
    (calls l.recorded.history ≠ [] → greeting.length = 2) ∧
    (greeting ≠ [] → dialed l.recorded.history = [g])
  link : ∀ e ∈ l.recorded.outcome.2.sent, l.session.opened = some e.1
  refused : ∀ p data, (p, .sendInput data) ∈ l.recorded.history →
    (p.1.sendInput data p.2).1 = false → (next (.sendInput data) p).2.sent = p.2.sent
  closed : ∀ p a, (p, a) ∈ l.recorded.history → p.1.closed = true →
    (next a p).2.sent = p.2.sent
  /-- The session is active after a complete greeting and closed after any other. -/
  greeting : ∀ p a, (p, a) ∈ l.recorded.history → p.1.greets a = true →
    (next a p).1.phase = .active ∧ (next a p).2.sent.length = p.2.sent.length + 2 ∨
      (next a p).1.closed = true ∧ (next a p).2.sent.length ≤ p.2.sent.length + 1

theorem quiet_of_mem {l : Life σ} {p : Session × Recorded σ} {a : Action (Recorded σ)}
    (h : (p, a) ∈ l.recorded.history) : a.Quiet := by
  obtain ⟨b, rfl⟩ := l.exists_recorded h
  exact quiet_recorded b

theorem spoken_of_mem {l : Life σ} {p : Session × Recorded σ} {a : Action (Recorded σ)}
    (h : (p, a) ∈ l.recorded.history) : Spoken p a (next a p) := by
  obtain ⟨before, after, -, hr, -⟩ := l.recorded.run.cut h
  have hnew : Consistent l.recorded.start.1 := .new l.id l.destination l.settings
  exact spoken (hnew.of_run hr) (quiet_of_mem h)

theorem Logged.messages {l : Life σ} (h : Logged l.recorded.history l.recorded.outcome)
    (hs : l.recorded.outcome.1.settings = l.settings) :
    ∃ (greeting : List Message) (g : Geometry),
      l.recorded.outcome.2.sent.map (·.2) = greeting ++ calls l.recorded.history ∧
      greeting <+: [.versionInfo "0.1.0" 1,
        .executeCommand [] false false false l.settings.term g.rows g.cols 0 0] ∧
      (calls l.recorded.history ≠ [] → greeting.length = 2) ∧
      (greeting ≠ [] → dialed l.recorded.history = [g]) := by
  cases h with
  | unsaid _ hnone hempty =>
    exact ⟨[], .standard, by simp [hnone, hempty], List.nil_prefix, by simp [hnone], by simp⟩
  | said k g greeting _ _ hg hgreet hlog =>
    refine ⟨greeting, g, by simp [hlog, Function.comp_def], ?_, ?_, fun _ => hg⟩
    · rcases hgreet with hfull | ⟨hpre, -, -⟩
      · rw [hfull, hs]
        exact List.prefix_refl _
      · exact hpre.trans (List.prefix_append [Message.hello] _)
    · rcases hgreet with hfull | ⟨-, hnone, -⟩
      · simp [hfull]
      · simp [hnone]

/-- If the transport reports the link up at most once, whatever else happens, the messages on the
link of a session are its greeting and what the host got through. -/
theorem outbound_log (l : Life σ) (h : establishments l.recorded.history ≤ 1) :
    OutboundLog l := by
  have hnew : Consistent l.recorded.start.1 := .new l.id l.destination l.settings
  have hsettings : l.recorded.outcome.1.settings = l.settings :=
    l.recorded.run.invariant (P := fun p => p.1.settings = l.settings) rfl
      fun a p hp => (effect a p.1 p.2).settings.trans hp
  have hlogged : Logged l.recorded.history l.recorded.outcome :=
    logged_of_run l.recorded.run hnew rfl rfl rfl (fun _ _ => quiet_of_mem) h
  have hsame : l.recorded.outcome.1 = l.session := congrArg Prod.fst (plain_outcome l)
  refine ⟨plain_outcome l, hlogged.messages hsettings, ?_, ?_, ?_, ?_⟩
  · intro e hm
    rw [← hsame]
    cases hlogged with
    | unsaid _ _ hempty => simp [hempty] at hm
    | said k _ _ _ ho _ _ hlog =>
      rw [hlog] at hm
      obtain ⟨m, -, rfl⟩ := List.mem_map.mp hm
      exact ho
  · intro p data hm hfalse
    cases spoken_of_mem hm with
    | silent _ _ hs => exact hs
    | called _ _ hcall => simp [call?, hfalse] at hcall
    | broken _ _ ht => cases ht
    | greeted _ _ ht => cases ht
  · intro p a hm hc
    cases spoken_of_mem hm with
    | silent _ _ hs => exact hs
    | called _ _ _ _ _ hopen => simp [hc] at hopen
    | broken _ _ _ hopen => simp [hc] at hopen
    | greeted _ _ _ hopen => simp [hc] at hopen
  · intro p a hm hg
    cases spoken_of_mem hm with
    | silent _ hno => simp [hg] at hno
    | called _ _ _ hno => simp [hg] at hno
    | broken _ _ _ _ hclosed hs =>
      refine .inr ⟨hclosed, ?_⟩
      rcases hs with hs | hs <;> simp [hs]
    | greeted _ _ _ _ hact hs => exact .inl ⟨hact, by simp [hs]⟩

/-- A session that is greeted, takes input and a new size, and is closed. -/
theorem outbound_log_known :
    let l := known [.connect 0 24 80, .report .established, .resize ⟨9, 9⟩, .drive,
      .sendInput [104, 105], .resize ⟨30, 100⟩, .close, .sendInput [33]]
    establishments l.recorded.history ≤ 1 ∧ OutboundLog l ∧
      l.recorded.outcome.2.sent = [(0, .versionInfo "0.1.0" 1),
        (0, .executeCommand [] false false false "xterm" 24 80 0 0),
        (0, .streamData 0 [104, 105] false false), (0, .windowSize 30 100 0 0)] :=
  ⟨by decide, outbound_log _ (by decide), by decide⟩

end Session

end MeshShell

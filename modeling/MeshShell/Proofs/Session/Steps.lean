import MeshShell.Proofs.Session.Actions

/-! # What each operation does to the session

The transport decides whether a link opens or a message goes out. Apart from
that each operation changes the session in one of a few ways, which are listed
here, so that no later argument has to open an operation again.
-/
namespace MeshShell.Session

variable {σ : Type} [Transport σ]

/-- The session after its closing. -/
def shut (s : Session) : Session :=
  if s.closed then s
  else
    { s with
      closed := true
      connected := false
      phase := .closed
      output := if s.outputOpen then s.output ++ [.finish] else s.output
      outputOpen := false
      channel := none
      link := none }

@[simp] theorem fst_finish (s : Session) (t : σ) : (s.finish t).1 = s.shut := by
  unfold finish shut
  split <;> rfl

theorem shut_of_closed {s : Session} (h : s.closed = true) : s.shut = s := by simp [shut, h]

@[simp] theorem closed_shut (s : Session) : s.shut.closed = true := by
  unfold shut
  split
  · assumption
  · rfl

@[simp] theorem driver_shut (s : Session) : s.shut.driver = s.driver := by
  unfold shut
  split <;> rfl

@[simp] theorem opened_shut (s : Session) : s.shut.opened = s.opened := by
  unfold shut
  split <;> rfl

@[simp] theorem inbox_shut (s : Session) : s.shut.inbox = s.inbox := by
  unfold shut
  split <;> rfl

@[simp] theorem readers_shut (s : Session) : s.shut.readers = s.readers := by
  unfold shut
  split <;> rfl

@[simp] theorem settings_shut (s : Session) : s.shut.settings = s.settings := by
  unfold shut
  split <;> rfl

@[simp] theorem suppressedErrors_shut (s : Session) :
    s.shut.suppressedErrors = s.suppressedErrors := by
  unfold shut
  split <;> rfl

theorem shut_phase {s : Session} (h : s.closed = false) (p : Phase) :
    { s with phase := p }.shut = s.shut := by
  simp [shut, h]

/-- The session that is about to open its link. -/
def dial (rows cols : UInt16) (s : Session) : Session :=
  { s with geometry := ⟨rows, cols⟩, phase := .linking }

/-- Opening the link does nothing to a session that was started before or does not know whom to
call. Otherwise the transport refuses, and the session closes, or the driver starts. -/
theorem start_cases (now : Millis) (rows cols : UInt16) (s : Session) (t : σ) :
    s.dials t (.connect now rows cols) = false ∧ (s.start now rows cols t).2 = (s, t) ∨
    s.dials t (.connect now rows cols) = true ∧
      ∃ identity, Transport.recallIdentity s.destination t = some identity ∧
      ((∃ e t', Transport.openLink now identity shellAspect t = (.error e, t') ∧
          (s.start now rows cols t).2 =
            ((s.dial rows cols).shut.endDriver, ((s.dial rows cols).finish t').2)) ∨
        ∃ l t', Transport.openLink now identity shellAspect t = (.ok l, t') ∧
          (s.start now rows cols t).2 =
            ({ s.dial rows cols with link := some l, opened := some l, driver := .running }, t')) := by
  unfold start
  cases hi : Transport.recallIdentity s.destination t with
  | none => exact .inl ⟨by simp [dials, hi], rfl⟩
  | some identity =>
    by_cases hd : s.driver = .notStarted
    · refine .inr ⟨by simp [dials, hd, hi], identity, rfl, ?_⟩
      dsimp only
      rw [if_neg (not_not_intro hd)]
      cases ho : Transport.openLink now identity shellAspect t with
      | mk result t' =>
        cases result with
        | error e =>
          refine .inl ⟨e, t', rfl, ?_⟩
          rw [← fst_finish _ t']
          rfl
        | ok l => exact .inr ⟨l, t', rfl, rfl⟩
    · dsimp only
      rw [if_pos hd]
      exact .inl ⟨by simp [dials, hd], rfl⟩

theorem unstarted_of_dials {s : Session} {t : σ} {a : Action σ} (h : s.dials t a = true) :
    s.driver = .notStarted := by
  cases a with
  | connect now rows cols => exact of_decide_eq_true (Bool.and_eq_true_iff.mp h).1
  | _ => simp [dials] at h

theorem handshake_cases (s : Session) (l : LinkId) (t : σ) :
    (∃ e t', s.handshake l t = (.error e, { s with phase := .handshaking }, t')) ∨
    ∃ t', s.handshake l t =
      (.ok (), { s with channel := some l, established := true, connected := true, phase := .active }, t') := by
  unfold handshake
  cases Transport.channel l t with
  | error e => exact .inl ⟨e, t, rfl⟩
  | ok =>
    dsimp only
    cases greet _ l (Transport.setHandler l t) with
    | mk result t' =>
      cases result with
      | error e => exact .inl ⟨e, t', rfl⟩
      | ok => exact .inr ⟨t', rfl⟩

/-- The ways in which an event changes the session that takes it. -/
inductive Handled (s : Session) : LinkEvent → Session → Prop
  | late {l : LinkId} : s.closed = true → Handled s (.established l) s
  | failed {l : LinkId} : s.closed = false → Handled s (.established l) s.shut
  | greeted {l : LinkId} : s.closed = false → Handled s (.established l)
      { s with channel := some l, established := true, connected := true, phase := .active }
  | dropped {m : Message} : s.closed = true → Handled s (.message m) s
  | output {m : Message} {bytes : Bytes} : s.closed = false → m.payload? = some bytes →
      m.complains = false → m.ends = false → Handled s (.message m) (s.enqueue bytes)
  | suppressed {m : Message} : s.closed = false → m.payload? = none → m.complains = true →
      m.ends = false →
      Handled s (.message m) { s with suppressedErrors := s.suppressedErrors + 1 }
  | ended {m : Message} : s.closed = false → m.payload? = none → m.complains = false →
      m.ends = true → Handled s (.message m) s.shut
  | ignored {m : Message} : s.closed = false → m.payload? = none → m.complains = false →
      m.ends = false → Handled s (.message m) s
  | gone : Handled s .closed s.shut.endDriver
  | shutdown : Handled s .shutdown s.endDriver

theorem handled_message (m : Message) (s : Session) (t : σ) :
    Handled s (.message m) (s.dispatch m t).1 := by
  unfold dispatch
  by_cases hc : s.closed = true
  · rw [if_pos hc]
    exact .dropped hc
  · rw [if_neg hc]
    replace hc := eq_false_of_ne_true hc
    cases m with
    | streamData n data eof compressed =>
      cases data with
      | nil => exact .ignored hc rfl rfl rfl
      | cons b rest => exact .output hc rfl rfl rfl
    | error text fatal =>
      cases fatal with
      | false => exact .suppressed (m := .error text false) hc rfl rfl rfl
      | true =>
        dsimp only
        rw [fst_finish]
        exact .ended hc rfl rfl rfl
    | commandExited code =>
      dsimp only
      rw [fst_finish]
      exact .ended hc rfl rfl rfl
    | versionInfo => exact .ignored hc rfl rfl rfl
    | windowSize => exact .ignored hc rfl rfl rfl
    | executeCommand => exact .ignored hc rfl rfl rfl

theorem handled (e : LinkEvent) (s : Session) (t : σ) : Handled s e (s.handle e t).1 := by
  cases e with
  | established l =>
    unfold handle
    dsimp only
    by_cases hc : s.closed = true
    · rw [if_pos hc]
      exact .late hc
    · rw [if_neg hc]
      replace hc := eq_false_of_ne_true hc
      rcases s.handshake_cases l t with ⟨e, t', h⟩ | ⟨t', h⟩
      · simpa [h, shut_phase hc] using Handled.failed (s := s) (l := l) hc
      · simpa [h] using Handled.greeted (s := s) (l := l) hc
  | message m => exact handled_message m s t
  | closed => simpa [handle] using Handled.gone (s := s)
  | shutdown => exact .shutdown

theorem driveOne_cases (s : Session) (t : σ) :
    s.driveOne t = (s, t) ∧ s.taken (.drive : Action σ) = none ∨
    ∃ e rest, s.driver = .running ∧ s.inbox = e :: rest ∧ s.taken (.drive : Action σ) = some e ∧
      s.driveOne t = handle e { s with inbox := rest } t := by
  unfold driveOne taken
  cases hi : s.inbox with
  | nil => simp
  | cons e rest =>
    by_cases hd : s.driver = .running
    · exact .inr ⟨e, rest, hd, rfl, by simp [hd], by simp [hd]⟩
    · exact .inl (by simp [hd])

omit [Transport σ] in
theorem running_of_taken {s : Session} {a : Action σ} {e : LinkEvent} (h : s.taken a = some e) :
    s.driver = .running := by
  cases a with
  | drive =>
    by_cases hd : s.driver = .running
    · exact hd
    · simp [taken, hd] at h
  | _ => simp [taken] at h

omit [Transport σ] in
theorem mem_inbox_of_taken {s : Session} {a : Action σ} {e : LinkEvent} (h : s.taken a = some e) :
    e ∈ s.inbox := by
  cases a with
  | drive =>
    have hd := running_of_taken h
    exact List.mem_of_head? (by simpa [taken, hd] using h)
  | _ => simp [taken] at h

theorem take_cases (s : Session) :
    (∃ data rest, s.output = .chunk data :: rest ∧
      s.take = (some (.data data), { s with output := rest })) ∨
    (∃ rest, s.output = .finish :: rest ∧
      s.take = (some .disconnected, { s with output := rest })) ∨
    (s.output = [] ∧ (s.outputOpen = false ∨ s.closed = true) ∧ s.take = (some .disconnected, s)) ∨
    (s.output = [] ∧ s.outputOpen = true ∧ s.closed = false ∧ s.take = (none, s)) := by
  unfold take
  cases ho : s.output with
  | nil => cases s.outputOpen <;> cases s.closed <;> simp
  | cons o rest => cases o <;> simp

theorem take_some_or_none (s : Session) :
    (∃ outcome s', s.take = (some outcome, s')) ∨ s.take = (none, s) := by
  rcases s.take_cases with ⟨_, _, -, h⟩ | ⟨_, -, h⟩ | ⟨-, -, h⟩ | ⟨-, -, -, h⟩
  · exact .inl ⟨_, _, h⟩
  · exact .inl ⟨_, _, h⟩
  · exact .inl ⟨_, _, h⟩
  · exact .inr h

theorem join_cases (ticket : Ticket) (patient : Bool) (s : Session) :
    (s.readers = [] ∧ ∃ outcome s', s.take = (some outcome, s') ∧
      s.join ticket patient = (some outcome, s')) ∨
    ((s.readers ≠ [] ∨ s.take = (none, s)) ∧
      (patient = true ∧ s.join ticket patient = (none, { s with readers := s.readers ++ [ticket] }) ∨
        patient = false ∧ s.join ticket patient = (some s.idle, s))) := by
  unfold join
  cases hr : s.readers with
  | nil =>
    rcases s.take_some_or_none with ⟨outcome, s', ht⟩ | ht
    · exact .inl ⟨rfl, outcome, s', ht, by simp [ht]⟩
    · exact .inr ⟨.inr ht, by cases patient <;> simp [ht]⟩
  | cons r rest => exact .inr ⟨.inl (by simp), by cases patient <;> simp⟩

theorem serveFirst_cases (s : Session) :
    (s.serveFirst = (none, s) ∧ (s.readers = [] ∨ s.take = (none, s))) ∨
    ∃ r rest outcome s', s.readers = r :: rest ∧ s.take = (some outcome, s') ∧
      s.serveFirst = (some (r, outcome), { s' with readers := rest }) := by
  unfold serveFirst
  cases hr : s.readers with
  | nil => exact .inl ⟨rfl, .inl rfl⟩
  | cons r rest =>
    rcases s.take_some_or_none with ⟨outcome, s', ht⟩ | ht
    · exact .inr ⟨r, rest, outcome, s', rfl, ht, by simp [ht]⟩
    · exact .inl ⟨by simp [ht], .inr ht⟩

theorem fst_close (s : Session) (t : σ) :
    (s.close t).1 = if s.closed then s else s.shut.push .shutdown := by
  unfold close
  split
  · rfl
  · simp

@[simp] theorem fst_giveUp (s : Session) (t : σ) : (s.giveUp t).1 = s.shut.push .shutdown := by
  simp [giveUp]

theorem fst_timeOut (s : Session) (t : σ) :
    (s.timeOut t).1 = s ∨ s.progress = none ∧ (s.timeOut t).1 = s.shut.push .shutdown := by
  unfold timeOut
  cases s.progress with
  | some r => exact .inl rfl
  | none => exact .inr ⟨rfl, fst_giveUp s t⟩

theorem fst_resize (size : Geometry) (s : Session) (t : σ) :
    (s.resize size t).1 =
      if s.channel.isSome && !s.closed then { s with geometry := size } else s := by
  unfold resize
  cases s.channel with
  | none => rfl
  | some l => cases hc : s.closed <;> simp

/-- The ways in which an action changes a session, with what the driver takes and what readers
learn meanwhile. -/
inductive Effect (s : Session) (t : σ) (a : Action σ) : Session → Prop
  | none : Apart s t a → (∀ o ∈ s.results a, o = s.idle) → Effect s t a s
  | refused {now : Millis} {rows cols : UInt16} : a = .connect now rows cols →
      s.dials t a = true → Effect s t a (s.dial rows cols).shut.endDriver
  | opened {now : Millis} {rows cols : UInt16} {l : LinkId} : a = .connect now rows cols →
      s.dials t a = true →
      Effect s t a { s.dial rows cols with link := some l, opened := some l, driver := .running }
  | finished : Apart s t a → s.results a = [] → Effect s t a (s.shut.push .shutdown)
  | reported {c : Callback} {l : LinkId} : a = .report c → s.opened = some l →
      Effect s t a (s.push (Switchboard.eventOf l c))
  | handled {e : LinkEvent} {rest : List LinkEvent} {s' : Session} : a = .drive →
      s.driver = .running → s.inbox = e :: rest → Handled { s with inbox := rest } e s' →
      Effect s t a s'
  | resized {size : Geometry} : a = .resize size → s.channel.isSome = true → s.closed = false →
      Effect s t a { s with geometry := size }
  | took {outcome : ReadOutcome} {s' : Session} (line : List Ticket) : Apart s t a →
      s.results a = [outcome] → s.take = (some outcome, s') → ¬ a.Silent →
      Effect s t a { s' with readers := line }
  | lined (line : List Ticket) : Apart s t a → (∀ o ∈ s.results a, o = s.idle) → ¬ a.Silent →
      Effect s t a { s with readers := line }

theorem effect (a : Action σ) (s : Session) (t : σ) : Effect s t a (next a (s, t)).1 := by
  cases a with
  | connect now rows cols =>
    rcases s.start_cases now rows cols t with ⟨hd, he⟩ | ⟨hd, _, -, ⟨_, _, -, he⟩ | ⟨_, _, -, he⟩⟩
    all_goals
      dsimp only [next]
      rw [he]
    · exact .none ⟨hd, rfl, rfl⟩ (by simp [results])
    · exact .refused rfl hd
    · exact .opened rfl hd
  | giveUp =>
    dsimp only [next]
    rcases s.fst_timeOut t with he | ⟨-, he⟩ <;> rw [he]
    · exact .none ⟨rfl, rfl, rfl⟩ (by simp [results])
    · exact .finished ⟨rfl, rfl, rfl⟩ rfl
  | report c =>
    dsimp only [next, receive]
    cases ho : s.opened with
    | none => exact .none ⟨rfl, rfl, by simp [delivered, ho]⟩ (by simp [results])
    | some l => exact .reported rfl ho
  | drive =>
    dsimp only [next]
    rcases s.driveOne_cases t with ⟨he, ht⟩ | ⟨e, rest, hd, hi, -, he⟩ <;> rw [he]
    · exact .none ⟨rfl, ht, rfl⟩ (by simp [results])
    · exact .handled rfl hd hi (Session.handled e _ t)
  | sendInput data => exact .none ⟨rfl, rfl, rfl⟩ (by simp [results])
  | resize size =>
    dsimp only [next]
    rw [fst_resize]
    split
    · rename_i h
      obtain ⟨hch, hc⟩ := (Bool.and_eq_true _ _).mp h
      exact .resized rfl hch (by simpa using hc)
    · exact .none ⟨rfl, rfl, rfl⟩ (by simp [results])
  | close =>
    dsimp only [next]
    rw [fst_close]
    split
    · exact .none ⟨rfl, rfl, rfl⟩ (by simp [results])
    · exact .finished ⟨rfl, rfl, rfl⟩ rfl
  | read ticket patient =>
    dsimp only [next]
    rcases s.join_cases ticket patient with ⟨-, _, _, ht, he⟩ | ⟨-, ⟨-, he⟩ | ⟨-, he⟩⟩
    · simpa [he] using Effect.took (a := .read ticket patient) _ ⟨rfl, rfl, rfl⟩ (by simp [results, he]) ht not_false
    · rw [he]
      exact .lined _ ⟨rfl, rfl, rfl⟩ (by simp [results, he]) not_false
    · rw [he]
      exact .none ⟨rfl, rfl, rfl⟩ (by simp [results, he])
  | serve =>
    dsimp only [next]
    rcases s.serveFirst_cases with ⟨he, -⟩ | ⟨_, rest, _, s', -, ht, he⟩ <;> rw [he]
    · exact .none ⟨rfl, rfl, rfl⟩ (by simp [results, he])
    · exact .took rest ⟨rfl, rfl, rfl⟩ (by simp [results, he]) ht not_false
  | expire ticket =>
    refine .lined _ ⟨rfl, rfl, rfl⟩ ?_ not_false
    intro o ho
    by_cases hm : ticket ∈ s.readers <;> simp_all [results, leave]
  | elsewhere f => exact .none ⟨rfl, rfl, rfl⟩ (by simp [results])

@[simp] theorem closed_push (s : Session) (e : LinkEvent) : (s.push e).closed = s.closed := by
  unfold push
  split <;> rfl

theorem closed_close (s : Session) (t : σ) : (s.close t).1.closed = true := by
  rw [fst_close]
  split
  · assumption
  · simp

@[simp] theorem closed_enqueue (s : Session) (data : Bytes) :
    (s.enqueue data).closed = s.closed := by
  unfold enqueue
  split <;> rfl

@[simp] theorem closed_endDriver (s : Session) : s.endDriver.closed = s.closed := rfl

@[simp] theorem driver_push (s : Session) (e : LinkEvent) : (s.push e).driver = s.driver := by
  unfold push
  split <;> rfl

@[simp] theorem inbox_enqueue (s : Session) (data : Bytes) :
    (s.enqueue data).inbox = s.inbox := by
  unfold enqueue
  split <;> rfl

theorem inbox_push {s : Session} (h : s.driver ≠ .ended) (e : LinkEvent) :
    (s.push e).inbox = s.inbox ++ [e] := by
  simp [push, h]

@[simp] theorem suppressedErrors_push (s : Session) (e : LinkEvent) :
    (s.push e).suppressedErrors = s.suppressedErrors := by
  unfold push
  split <;> rfl

@[simp] theorem suppressedErrors_enqueue (s : Session) (data : Bytes) :
    (s.enqueue data).suppressedErrors = s.suppressedErrors := by
  unfold enqueue
  split <;> rfl

@[simp] theorem suppressedErrors_endDriver (s : Session) :
    s.endDriver.suppressedErrors = s.suppressedErrors := rfl

theorem push_frame (s : Session) (e : LinkEvent) :
    ∃ inbox, s.push e = { s with inbox := inbox } := by
  unfold push
  split
  · exact ⟨s.inbox, rfl⟩
  · exact ⟨s.inbox ++ [e], rfl⟩

theorem enqueue_frame (s : Session) (data : Bytes) :
    ∃ queue, s.enqueue data = { s with output := queue } := by
  unfold enqueue
  split
  · exact ⟨s.output ++ [.chunk data], rfl⟩
  · exact ⟨s.output, rfl⟩

theorem take_frame {s s' : Session} {outcome : Option ReadOutcome} (h : s.take = (outcome, s')) :
    ∃ queue, s' = { s with output := queue } := by
  rcases s.take_cases with ⟨_, _, -, ht⟩ | ⟨_, -, ht⟩ | ⟨-, -, ht⟩ | ⟨-, -, -, ht⟩
  all_goals
    rw [ht] at h
    cases h
    exact ⟨_, rfl⟩

@[simp] theorem id_shut (s : Session) : s.shut.id = s.id := by
  unfold shut
  split <;> rfl

theorem Handled.closed {s s' : Session} {e : LinkEvent} (h : Handled s e s')
    (hc : s.closed = true) : s'.closed = true := by
  cases h with
  | failed => exact closed_shut s
  | ended => exact closed_shut s
  | output => simpa using hc
  | gone => simp
  | _ => exact hc

/-- An event leaves the inbox alone unless the driver ends with it. -/
theorem Handled.inbox {s s' : Session} {e : LinkEvent} (h : Handled s e s')
    (hd : s'.driver ≠ .ended) : s'.inbox = s.inbox := by
  cases h with
  | gone => simp [endDriver] at hd
  | shutdown => simp [endDriver] at hd
  | failed => exact inbox_shut s
  | ended => exact inbox_shut s
  | output => exact inbox_enqueue s _
  | _ => rfl

theorem Handled.id {s s' : Session} {e : LinkEvent} (h : Handled s e s') : s'.id = s.id := by
  cases h with
  | failed => exact id_shut s
  | ended => exact id_shut s
  | gone => exact id_shut s
  | @output _ bytes =>
    obtain ⟨_, h⟩ := s.enqueue_frame bytes
    rw [h]
  | _ => rfl

theorem Effect.id {s s' : Session} {t : σ} {a : Action σ} (he : Effect s t a s') : s'.id = s.id := by
  cases he with
  | refused => exact id_shut _
  | finished =>
    obtain ⟨_, h⟩ := s.shut.push_frame .shutdown
    rw [h]
    exact id_shut s
  | @reported c l =>
    obtain ⟨_, h⟩ := s.push_frame (Switchboard.eventOf l c)
    rw [h]
  | handled _ _ _ hs => exact hs.id
  | took _ _ _ ht =>
    obtain ⟨_, rfl⟩ := take_frame ht
    rfl
  | _ => rfl

theorem Effect.closed {s s' : Session} {t : σ} {a : Action σ} (he : Effect s t a s') (hc : s.closed = true) :
    s'.closed = true := by
  cases he with
  | none => exact hc
  | refused => simp
  | opened => exact hc
  | finished => simp
  | reported => simpa using hc
  | handled _ _ _ hs => exact hs.closed hc
  | resized => exact hc
  | took _ _ _ ht =>
    obtain ⟨_, rfl⟩ := take_frame ht
    exact hc
  | lined => exact hc

theorem Effect.wasOpen {s s' : Session} {t : σ} {a : Action σ} (he : Effect s t a s')
    (hc : s'.closed = false) : s.closed = false := by
  cases h : s.closed with
  | false => rfl
  | true => exact absurd (he.closed h) (by simp [hc])

theorem Effect.ended {s s' : Session} {t : σ} {a : Action σ} (he : Effect s t a s') (hd : s.driver = .ended) :
    s'.driver = .ended := by
  cases he with
  | none => exact hd
  | refused _ hn => simp [unstarted_of_dials hn] at hd
  | opened _ hn => simp [unstarted_of_dials hn] at hd
  | finished => simpa using hd
  | reported => simpa using hd
  | handled _ hn => simp [hd] at hn
  | resized => exact hd
  | took _ _ _ ht =>
    obtain ⟨_, rfl⟩ := take_frame ht
    exact hd
  | lined => exact hd

theorem Handled.readers {s s' : Session} {e : LinkEvent} (h : Handled s e s') :
    s'.readers = s.readers := by
  cases h with
  | failed => exact readers_shut s
  | ended => exact readers_shut s
  | gone => exact readers_shut s
  | @output _ bytes =>
    obtain ⟨_, h⟩ := s.enqueue_frame bytes
    rw [h]
  | _ => rfl

theorem Effect.readers {s s' : Session} {t : σ} {a : Action σ} (he : Effect s t a s')
    (ha : a.Silent) : s'.readers = s.readers := by
  cases he with
  | refused => exact readers_shut _
  | finished =>
    obtain ⟨_, h⟩ := s.shut.push_frame .shutdown
    rw [h]
    exact readers_shut s
  | @reported c l =>
    obtain ⟨_, h⟩ := s.push_frame (Switchboard.eventOf l c)
    rw [h]
  | handled _ _ _ hs => exact hs.readers
  | took _ _ _ _ hn => exact absurd ha hn
  | lined _ _ _ hn => exact absurd ha hn
  | _ => rfl

end MeshShell.Session

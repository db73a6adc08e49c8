import MeshShell.Proofs.Session.Consistency
import MeshShell.Proofs.Session.Driving

/-! # Output reaches the host as the remote sent it

What readers have got so far, followed by what waits in the queue, is what the
driver took from the remote before the session closed, in the same order and in
the same pieces.
-/
namespace MeshShell

/-- The output in an item of the queue. -/
def Output.bytes? : Output → Option Bytes
  | .chunk bytes => some bytes
  | .finish => none

/-- The output that a reader got. -/
def ReadOutcome.bytes? : ReadOutcome → Option Bytes
  | .data bytes => some bytes
  | _ => none

def LinkEvent.message? : LinkEvent → Option Message
  | .message m => some m
  | _ => none

namespace Session

variable {σ : Type} [Transport σ]

/-- The output that waits in the queue. -/
def queued (s : Session) : List Bytes := s.output.filterMap Output.bytes?

/-- The message that the driver takes while the session is open. -/
def heard (s : Session) (a : Action σ) : Option Message :=
  if s.closed then none else (s.taken a).bind LinkEvent.message?

/-- What readers have learned, in the order in which they learned it. -/
def returned (hist : History σ) : List ReadOutcome :=
  hist.flatMap fun (p, a) => p.1.results a

/-- The messages that the transport has reported on the link of the session. -/
def reported (hist : History σ) : List Message :=
  hist.filterMap fun (p, a) => (p.1.delivered a).bind LinkEvent.message?

/-- The messages that the driver took before the session closed. -/
def consumed (hist : History σ) : List Message := hist.filterMap fun (p, a) => p.1.heard a

omit [Transport σ] in
theorem reported_snoc (hist : History σ) (p : Session × σ) (a : Action σ) :
    reported (hist ++ [(p, a)]) =
      reported hist ++ ((p.1.delivered a).bind LinkEvent.message?).toList := by
  unfold reported
  rw [List.filterMap_append]
  cases h : (p.1.delivered a).bind LinkEvent.message? <;> simp [h]

omit [Transport σ] in
theorem consumed_snoc (hist : History σ) (p : Session × σ) (a : Action σ) :
    consumed (hist ++ [(p, a)]) = consumed hist ++ (p.1.heard a).toList := by
  unfold consumed
  rw [List.filterMap_append]
  cases h : p.1.heard a <;> simp [h]

omit [Transport σ] in
theorem heard_of_untaken {s : Session} {a : Action σ} (h : s.taken a = none) : s.heard a = none := by
  simp [heard, h]

omit [Transport σ] in
theorem heard_of_closed {s : Session} {a : Action σ} (h : s.closed = true) : s.heard a = none := by
  simp [heard, h]

@[simp] theorem queued_shut (s : Session) : s.shut.queued = s.queued := by
  unfold shut
  split
  · rfl
  · cases ho : s.outputOpen <;> simp [queued, Output.bytes?]

@[simp] theorem queued_push (s : Session) (e : LinkEvent) : (s.push e).queued = s.queued := by
  unfold push
  split <;> rfl

@[simp] theorem queued_endDriver (s : Session) : s.endDriver.queued = s.queued := rfl

theorem queued_enqueue {s : Session} (h : Consistent s) (hc : s.closed = false) (data : Bytes) :
    (s.enqueue data).queued = s.queued ++ [data] := by
  have ho : s.outputOpen = true := by simpa [hc] using h.outputOpen
  simp [enqueue, ho, queued, Output.bytes?]

@[simp] theorem bytes?_idle (s : Session) : s.idle.bytes? = none := by
  unfold idle
  split <;> rfl

theorem queued_take {s s' : Session} {outcome : ReadOutcome} (h : s.take = (some outcome, s')) :
    [outcome].filterMap ReadOutcome.bytes? ++ s'.queued = s.queued := by
  rcases s.take_cases with ⟨bytes, rest, ho, ht⟩ | ⟨rest, ho, ht⟩ | ⟨-, -, ht⟩ | ⟨-, -, -, ht⟩
  all_goals
    rw [ht] at h
    cases h
  · simp [ReadOutcome.bytes?, queued, Output.bytes?, ho]
  · rw [queued, queued, ho]
    rfl
  · rfl

/-- When everything was taken from a closed session there is nothing but its end to learn. -/
theorem take_closed {s s' : Session} {outcome : ReadOutcome} (hclosed : s.closed = true) (hq : s.queued = [])
    (ht : s.take = (some outcome, s')) : outcome = .disconnected := by
  rcases s.take_cases with ⟨bytes, rest, ho, -⟩ | ⟨_, -, he⟩ | ⟨-, -, he⟩ | ⟨-, -, hopen, -⟩
  · simp [queued, ho, Output.bytes?] at hq
  · rw [he] at ht
    exact (Option.some.inj (Prod.mk.inj ht).1).symm
  · rw [he] at ht
    exact (Option.some.inj (Prod.mk.inj ht).1).symm
  · simp [hclosed] at hopen

/-- The end mark comes last in the queue of a closed session. -/
theorem take_disconnected {s s' : Session} (hc : Consistent s) (ht : s.take = (some .disconnected, s')) :
    s'.closed = true ∧ s'.queued = [] := by
  rcases s.take_cases with ⟨_, _, -, he⟩ | ⟨rest, ho, he⟩ | ⟨ho, hclosed, he⟩ | ⟨-, -, -, he⟩
  all_goals
    rw [he] at ht
    cases ht
  · obtain ⟨chunks, hq | ⟨hclosed, hq⟩⟩ := hc.queue
    · cases chunks <;> simp [ho] at hq
    · cases chunks with
      | nil =>
        obtain rfl : rest = [] := by simpa [ho] using hq
        exact ⟨hclosed, rfl⟩
      | cons bytes chunks => simp [ho] at hq
  · refine ⟨?_, by simp [queued, ho]⟩
    rcases hclosed with hopen | hclosed
    · simpa [hopen] using hc.outputOpen
    · exact hclosed

theorem open_of_take {s s' : Session} (h : s.take = (none, s')) : s.closed = false := by
  rcases s.take_cases with ⟨_, _, -, he⟩ | ⟨_, -, he⟩ | ⟨-, -, he⟩ | ⟨-, -, hc, -⟩
  · simp [he] at h
  · simp [he] at h
  · simp [he] at h
  · exact hc

theorem queued_of_take_none {s s' : Session} (h : s.take = (none, s')) : s.queued = [] := by
  rcases s.take_cases with ⟨_, _, -, he⟩ | ⟨_, -, he⟩ | ⟨-, -, he⟩ | ⟨ho, -, -, -⟩
  · simp [he] at h
  · simp [he] at h
  · simp [he] at h
  · simp [queued, ho]

theorem idle_eq_empty_iff {s : Session} : s.idle = .empty ↔ s.closed = false := by
  unfold idle
  cases s.closed <;> simp

theorem idle_eq_disconnected_iff {s : Session} : s.idle = .disconnected ↔ s.closed = true := by
  unfold idle
  cases s.closed <;> simp

theorem take_ne_empty {s s' : Session} : s.take ≠ (some .empty, s') := by
  rcases s.take_cases with ⟨_, _, -, he⟩ | ⟨_, -, he⟩ | ⟨-, -, he⟩ | ⟨-, -, -, he⟩ <;> simp [he]

theorem bytes?_idles {s : Session} {os : List ReadOutcome} (h : ∀ o ∈ os, o = s.idle) :
    os.filterMap ReadOutcome.bytes? = [] := by
  rw [List.filterMap_eq_nil_iff]
  intro o ho
  rw [h o ho]
  exact bytes?_idle s

theorem queued_handled {s s' : Session} {e : LinkEvent} (h : Consistent s) (hs : Handled s e s') :
    s'.queued = s.queued ++
      ((if s.closed then none else e.message?).bind Message.payload?).toList := by
  cases hs with
  | late hc => simp [hc]
  | failed hc => simp [LinkEvent.message?]
  | greeted hc => simp [queued, LinkEvent.message?]
  | dropped hc => simp [hc]
  | output hc hp => simp [hc, hp, queued_enqueue h hc, LinkEvent.message?]
  | suppressed hc hp => simp [hp, queued, LinkEvent.message?]
  | ended hc hp => simp [hp, LinkEvent.message?]
  | ignored hc hp => simp [hp, LinkEvent.message?]
  | gone => simp [LinkEvent.message?]
  | shutdown => simp [LinkEvent.message?]

/-- What readers get with an action, followed by what waits afterwards, is what waited before,
followed by what the driver hears of output. -/
theorem queued_effect {s s' : Session} {t : σ} {a : Action σ} (h : Consistent s)
    (he : Effect s t a s') :
    (s.results a).filterMap ReadOutcome.bytes? ++ s'.queued =
      s.queued ++ ((s.heard a).bind Message.payload?).toList := by
  cases he with
  | none ha hr => simp [heard_of_untaken ha.untaken, bytes?_idles hr]
  | refused ha => simp [ha, heard, taken, results]; rfl
  | opened ha => simp [ha, heard, taken, results]; rfl
  | finished ha hr => simp [heard_of_untaken ha.untaken, hr]
  | reported ha => simp [ha, heard, taken, results]
  | @handled e rest s' ha hd hi hs =>
    have ht : s.taken a = some e := by simp [ha, taken, hd, hi]
    have hr : s.results a = [] := by simp [ha, results]
    have hq := queued_handled (h.withoutFirst hi) hs
    rw [heard, ht, hr]
    exact hq
  | resized ha => simp [ha, heard, taken, results]; rfl
  | @took outcome s' line ha hr hs =>
    rw [heard_of_untaken ha.untaken, hr]
    calc [outcome].filterMap ReadOutcome.bytes? ++ s'.queued
        = s.queued := queued_take hs
      _ = s.queued ++ (none : Option Bytes).toList := (List.append_nil _).symm
  | lined line ha hr => simp [heard_of_untaken ha.untaken, bytes?_idles hr]; rfl

theorem exists_life {l : Life σ} {p q : Session × σ} {hist : History σ} (hl : l.outcome = p)
    (hr : Run next p hist q) :
    ∃ l' : Life σ, l'.outcome = q ∧ returned l'.history = returned l.history ++ returned hist := by
  subst hl
  refine ⟨{ l with actions := l.actions ++ hist.map (·.2) }, ?_, ?_⟩
  · exact (reach_append next l.start l.actions _).trans hr.eq_reach.symm
  · have hhist : trail next l.start (l.actions ++ hist.map (·.2)) = l.history ++ hist := by
      rw [trail_append]
      exact congrArg (l.history ++ ·) hr.eq_trail.symm
    unfold Life.history
    exact (congrArg returned hhist).trans List.flatMap_append

/-- Everything that was heard of output is with the readers or in the queue. -/
theorem returned_append_queued {start p : Session × σ} {hist : History σ}
    (hr : Run next start hist p) (hc : Consistent start.1) (hq : start.1.queued = []) :
    (returned hist).filterMap ReadOutcome.bytes? ++ p.1.queued =
      (consumed hist).filterMap Message.payload? := by
  induction hr with
  | nil => simp [returned, consumed, hq]
  | @snoc hist p a hr ih =>
    have hp : Consistent p.1 := hc.of_run hr
    have hret : returned (hist ++ [(p, a)]) = returned hist ++ p.1.results a := by simp [returned]
    have hpay : ((p.1.heard a).bind Message.payload?).toList =
        (p.1.heard a).toList.filterMap Message.payload? := by
      cases p.1.heard a with
      | none => rfl
      | some m => cases hm : m.payload? <;> simp [hm]
    calc (returned (hist ++ [(p, a)])).filterMap ReadOutcome.bytes? ++ (next a p).1.queued
        = (returned hist).filterMap ReadOutcome.bytes? ++
            ((p.1.results a).filterMap ReadOutcome.bytes? ++ (next a p).1.queued) := by
          rw [hret, List.filterMap_append, List.append_assoc]
      _ = ((returned hist).filterMap ReadOutcome.bytes? ++ p.1.queued) ++
            ((p.1.heard a).bind Message.payload?).toList := by
          rw [queued_effect hp (effect a p.1 p.2), List.append_assoc]
      _ = (consumed (hist ++ [(p, a)])).filterMap Message.payload? := by
          rw [ih, consumed_snoc, List.filterMap_append, hpay]

omit [Transport σ] in
theorem results_silent {a : Action σ} (ha : a.Silent) (s : Session) : s.results a = [] := by
  cases a with
  | read => cases ha
  | serve => cases ha
  | expire => cases ha
  | _ => rfl

omit [Transport σ] in
theorem returned_silent {hist : History σ} (h : ∀ u a, (u, a) ∈ hist → a.Silent) :
    returned hist = [] := by
  rw [returned, List.flatMap_eq_nil_iff]
  rintro ⟨u, a⟩ hm
  exact results_silent (h u a hm) u.1

theorem closed_of_run {p q : Session × σ} {hist : History σ} (hr : Run next p hist q)
    (hc : p.1.closed = true) : q.1.closed = true :=
  hr.invariant (P := fun p => p.1.closed = true) hc fun a u h => (effect a u.1 u.2).closed h

theorem Acts.readers {p q : Session × σ} (h : Acts p q) : q.1.readers = p.1.readers := by
  obtain ⟨hist, hr, hs⟩ := h
  induction hr with
  | nil => rfl
  | @snoc hist u a hr ih =>
    have hline := ih fun u a hm => hs u a (List.mem_append_left _ hm)
    exact ((effect a u.1 u.2).readers (hs u a (by simp))).trans hline

theorem Acts.queued {p q : Session × σ} (h : Acts p q) (hc : Consistent p.1)
    (hclosed : p.1.closed = true) : q.1.queued = p.1.queued := by
  obtain ⟨hist, hr, hs⟩ := h
  induction hr with
  | nil => rfl
  | @snoc hist u a hr ih =>
    have hu : Consistent u.1 := hc.of_run hr
    have hq := queued_effect hu (effect a u.1 u.2)
    rw [results_silent (hs u a (by simp)), heard_of_closed (closed_of_run hr hclosed)] at hq
    have hkept : (next a u).1.queued = u.1.queued := by simpa using hq
    exact hkept.trans (ih fun u a hm => hs u a (List.mem_append_left _ hm))

/-- The messages among the events of the inbox. -/
def awaiting (s : Session) : List Message := s.inbox.filterMap LinkEvent.message?

omit [Transport σ] in
theorem heard_isPrefix (s : Session) (a : Action σ) : (s.heard a).toList <+: s.awaiting := by
  unfold heard awaiting
  by_cases hc : s.closed = true
  · simp [hc]
  · rw [if_neg hc]
    cases a with
    | drive =>
      cases hi : s.inbox with
      | nil => simp [taken, hi]
      | cons e rest =>
        by_cases hd : s.driver = .running
        · cases hm : e.message? <;> simp [taken, hi, hd, hm]
        · simp [taken, hd]
    | _ => simp [taken]

/-- While the session is open and its driver has not ended, no message gets lost. -/
theorem awaiting_effect {s s' : Session} {t : σ} {a : Action σ} (he : Effect s t a s')
    (hc : s'.closed = false) (hd : s'.driver ≠ .ended) :
    (s.heard a).toList ++ s'.awaiting =
      s.awaiting ++ ((s.delivered a).bind LinkEvent.message?).toList := by
  cases he with
  | none ha => simp [heard_of_untaken ha.untaken, ha.undelivered]
  | refused => simp at hc
  | opened ha => simp [ha, heard, taken, delivered]; rfl
  | finished => simp at hc
  | @reported c l ha ho =>
    have hm : s.delivered a = some (Switchboard.eventOf l c) := by simp [ha, delivered, ho]
    rw [heard_of_untaken (by simp [ha, taken]), hm]
    simp only [driver_push] at hd
    cases hb : (Switchboard.eventOf l c).message? <;> simp [awaiting, inbox_push hd, hb]
  | @handled e rest s' ha hr hi hs =>
    have hopen : s.closed = false := Effect.wasOpen (t := t) (.handled ha hr hi hs) hc
    have ht : s.heard a = e.message? := by simp [ha, heard, taken, hr, hi, hopen]
    have hrest : s'.inbox = rest := hs.inbox hd
    rw [ht, awaiting, hrest, awaiting, hi]
    cases hm : e.message? <;> simp [ha, delivered, hm]
  | resized ha => simp [ha, heard, taken, delivered]; rfl
  | took line ha _ ht =>
    obtain ⟨_, rfl⟩ := take_frame ht
    simp [heard_of_untaken ha.untaken, ha.undelivered, awaiting]
  | lined line ha => simp [heard_of_untaken ha.untaken, ha.undelivered]; rfl

/-- The driver takes the messages in the order in which they were reported. As long as it may go
on, those that it has not taken wait in the inbox. -/
theorem consumed_isPrefix {start p : Session × σ} {hist : History σ}
    (hr : Run next start hist p) (hstart : start.1.inbox = []) :
    consumed hist <+: reported hist ∧
      (p.1.closed = false → p.1.driver ≠ .ended →
        consumed hist ++ p.1.awaiting = reported hist) := by
  induction hr with
  | nil => simp [consumed, reported, awaiting, hstart]
  | @snoc hist p a hr ih =>
    obtain ⟨hpre, heq⟩ := ih
    have he := effect a p.1 p.2
    have hgrow : reported hist <+: reported (hist ++ [(p, a)]) := by
      rw [reported_snoc]
      exact List.prefix_append _ _
    rw [consumed_snoc]
    constructor
    · cases hh : p.1.heard a with
      | none => simpa using hpre.trans hgrow
      | some m =>
        -- Only an open session with a running driver hears a message.
        have hc : p.1.closed = false := by
          cases hc : p.1.closed with
          | false => rfl
          | true => simp [heard_of_closed hc] at hh
        have hd : p.1.driver ≠ .ended := by
          intro hd
          cases a <;> simp [heard, taken, hd] at hh
        have hfirst := heard_isPrefix p.1 a
        rw [hh] at hfirst
        refine List.IsPrefix.trans ?_ hgrow
        rw [← heq hc hd]
        exact (List.prefix_append_right_inj _).mpr hfirst
    · intro hc hd
      have hc' : p.1.closed = false := he.wasOpen hc
      have hd' : p.1.driver ≠ .ended := fun h => hd (he.ended h)
      rw [List.append_assoc, awaiting_effect he hc hd, ← List.append_assoc, heq hc' hd',
        reported_snoc]

theorem heard_handled {s s' : Session} {e : LinkEvent} (hs : Handled s e s') :
    s'.suppressedErrors = s.suppressedErrors +
        (if s.closed then none else e.message?).toList.countP Message.complains ∧
      ∀ m, (if s.closed then none else e.message?) = some m →
        (s'.closed = true ↔ m.ends = true) := by
  cases hs with
  | late hc => simp [hc]
  | failed hc => simp [LinkEvent.message?]
  | greeted hc => simp [LinkEvent.message?]
  | dropped hc => simp [hc]
  | output hc _ hn he => simp [hc, hn, he, LinkEvent.message?]
  | suppressed hc _ hn he => simp [hc, hn, he, LinkEvent.message?]
  | ended hc _ hn he => simp [hc, hn, he, LinkEvent.message?]
  | ignored hc _ hn he => simp [hc, hn, he, LinkEvent.message?]
  | gone => simp [LinkEvent.message?]
  | shutdown => simp [LinkEvent.message?]

/-- A message is counted if it is a complaint, and closes the session if it is an ending. -/
theorem heard_effect {s s' : Session} {t : σ} {a : Action σ} (he : Effect s t a s') :
    s'.suppressedErrors = s.suppressedErrors + (s.heard a).toList.countP Message.complains ∧
      ∀ m, s.heard a = some m → (s'.closed = true ↔ m.ends = true) := by
  cases he with
  | none ha => simp [heard_of_untaken ha.untaken]
  | refused ha => simp [ha, heard, taken]; rfl
  | opened ha => simp [ha, heard, taken]; rfl
  | finished ha => simp [heard_of_untaken ha.untaken]
  | reported ha => simp [ha, heard, taken]
  | @handled e rest s' ha hd hi hs =>
    have ht : s.heard a = if s.closed then none else e.message? := by simp [ha, heard, taken, hd, hi]
    rw [ht]
    have hh := heard_handled hs
    exact hh
  | resized ha => simp [ha, heard, taken]
  | took line ha _ ht =>
    obtain ⟨_, rfl⟩ := take_frame ht
    simp [heard_of_untaken ha.untaken]
  | lined line ha => simp [heard_of_untaken ha.untaken]

theorem suppressedErrors_of_run {start p : Session × σ} {hist : History σ}
    (hr : Run next start hist p) (hstart : start.1.suppressedErrors = 0) :
    p.1.suppressedErrors = (consumed hist).countP Message.complains := by
  induction hr with
  | nil => simpa [consumed] using hstart
  | @snoc hist p a hr ih =>
    rw [(heard_effect (effect a p.1 p.2)).1, ih, consumed_snoc, List.countP_append]

theorem ne_nil_of_payload {m : Message} {bytes : Bytes} (h : m.payload? = some bytes) :
    bytes ≠ [] := by
  cases m with
  | streamData n data eof compressed =>
    cases data with
    | nil => simp [Message.payload?] at h
    | cons b rest =>
      obtain rfl : b :: rest = bytes := by simpa [Message.payload?] using h
      simp
  | _ => simp [Message.payload?] at h

/-- Whatever happens to a session and in whatever order, the driver takes messages in the order of
their delivery, and what readers have got, followed by what waits in the queue, is exactly the
output among the messages taken before the closing, in the same pieces and none of them empty.
The counter of errors counts the complaints among these messages, and no message but an exit and
a fatal error closes the session. -/
theorem output_fidelity (l : Life σ) :
    consumed l.history <+: reported l.history ∧
    (returned l.history).filterMap ReadOutcome.bytes? ++ l.session.queued =
      (consumed l.history).filterMap Message.payload? ∧
    (∀ bytes ∈ (consumed l.history).filterMap Message.payload?, bytes ≠ []) ∧
    l.session.suppressedErrors = (consumed l.history).countP Message.complains ∧
    ∀ p a m, (p, a) ∈ l.history → p.1.heard a = some m →
      ((next a p).1.closed = true ↔ m.ends = true) := by
  have hnew := Consistent.new l.id l.destination l.settings
  refine ⟨(consumed_isPrefix l.run rfl).1, returned_append_queued l.run hnew rfl, ?_,
    suppressedErrors_of_run l.run rfl, ?_⟩
  · intro bytes hb
    obtain ⟨m, -, hm⟩ := List.mem_filterMap.mp hb
    exact ne_nil_of_payload hm
  · intro p a m _ hm
    exact (heard_effect (effect a p.1 p.2)).2 m hm

end Session

end MeshShell

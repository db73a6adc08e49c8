import MeshShell.Proofs.Switchboard.Sessions
import MeshShell.Proofs.Switchboard.Settled

/-! # Runs of a switchboard

Callers come in any order, the transport changes at any moment, and time goes
on. Each of these is a call that the switchboard takes before the next one, and
the loops that wait for an answer are made of calls in which time passes.
-/
namespace MeshShell.Switchboard

variable {σ : Type} [Transport σ]

inductive Call (σ : Type)
  | make (id : String) (d : Destination) (settings : SessionSettings)
  | connect (h : Handle) (rows cols : UInt16) (register : Bool)
  | create (id : String) (d : Destination) (rows cols : UInt16)
  | read (h : Handle) (span : Millis)
  | sendInput (h : Handle) (data : Bytes)
  | resize (h : Handle) (size : Geometry)
  | close (h : Handle)
  | register (h : Handle)
  | remove (id : String)
  | closeId (id : String)
  | closeAll
  | requestPath (d : Destination)
  | resolve (d : Destination) (span : Millis)
  | sleep (span : Millis)
  /-- The transport changes, and what follows from it happens at once. -/
  | disturb (f : σ → σ)
  /-- The transport changes, and what follows from it happens with the next call. -/
  | alter (f : σ → σ)
  | advance (time : Millis)
  /-- The timer of a caller has run out. -/
  | expire (p : Pending)

/-- What the switchboard makes of a call. -/
def take (c : Call σ) (w : Switchboard σ) : Switchboard σ :=
  match c with
  | .make id d settings => (w.makeSession id d settings).2
  | .connect h rows cols register => (w.connect h rows cols register).2
  | .create id d rows cols => (w.create id d rows cols).2
  | .read h span => (w.read h span).2
  | .sendInput h data => (w.sendInput h data).2
  | .resize h size => w.resize h size
  | .close h => w.close h
  | .register h => (w.register h).settle
  | .remove id => (w.remove id).2
  | .closeId id => (w.closeId id).2.settle
  | .closeAll => w.closeAll.2.settle
  | .requestPath d => (w.requestPath d).2
  | .resolve d span => (w.resolve d span).2
  | .sleep span => (w.sleep span).2
  | .disturb f => w.disturb f
  | .alter f => { w with transport := f w.transport }
  | .advance time =>
    { w with
      now := max w.now time
      transport := Transport.wake (max w.now time) w.transport }.settle
  | .expire p => if p ∈ w.waits ∧ p.wake ≤ w.now then (w.expire p).settle else w

/-- A switchboard without sessions and the calls that it takes. -/
structure Traffic (σ : Type) where
  transport : σ
  settings : SessionSettings
  calls : List (Call σ)

/-- A call in which no reader comes and no time passes. -/
def Call.Plain : Call σ → Prop
  | .read _ _ => False
  | .advance _ => False
  | _ => True

variable {w w' : Switchboard σ}

theorem steps_take (hw : w.Booked) (hset : w.Settled) {c : Call σ} (hc : c.Plain) :
    Steps w (w.take c) := by
  cases c with
  | make id d settings => exact .single (.made id d settings)
  | connect h rows cols register => exact steps_connect hw h rows cols register
  | create id d rows cols => exact steps_create hw id d rows cols
  | read => cases hc
  | sendInput h data => exact steps_sendInput w h data
  | resize h size => exact steps_resize w h size
  | close h => exact steps_close w h
  | register h => exact (steps_register w h).trans (steps_settle _)
  | remove id => exact steps_remove w id
  | closeId id => exact (steps_closeId w id).trans (steps_settle _)
  | closeAll => exact (steps_closeAll w).trans (steps_settle _)
  | requestPath d => exact steps_requestPath w d
  | resolve d span => exact steps_resolve hw d span
  | sleep span => exact steps_sleep hw span
  | disturb f => exact steps_disturb w f
  | alter f => exact .single (.transport _)
  | advance => cases hc
  | expire p =>
    dsimp only [take]
    split
    · rename_i h
      exact (steps_expire hw h.1 h.2 hset).trans (steps_settle _)
    · exact .refl

omit [Transport σ] in
theorem settled_make (hset : w.Settled) (id : String) (d : Destination)
    (settings : SessionSettings) : (w.makeSession id d settings).2.Settled := by
  intro s hs
  rcases List.mem_append.mp hs with hs | hs
  · exact hset s hs
  · rw [List.mem_singleton.mp hs]
    intro hne
    exact absurd rfl hne

theorem settled_connect (hset : w.Settled) (h : Handle) (rows cols : UInt16) (register : Bool) :
    (w.connect h rows cols register).2.Settled := by
  unfold connect
  dsimp only
  unfold onSession
  cases w.draw.2.sessions[h]? with
  | none => exact hset
  | some s =>
    dsimp only
    cases s.start w.draw.2.now rows cols w.draw.2.transport with
    | mk result p => cases result <;> exact settled_settle _

omit [Transport σ] in
theorem settled_read (hset : w.Settled) (h : Handle) (span : Millis) :
    (w.read h span).2.Settled := by
  unfold read
  dsimp only
  cases hs : w.draw.2.sessions[h]? with
  | none => exact hset
  | some s =>
    have hq : s.Quiet := hset s (List.mem_of_getElem? hs)
    have hj := quiet_join hq w.draw.1 (0 < span)
    dsimp only
    cases hjoin : s.join w.draw.1 (0 < span) with
    | mk outcome s' =>
      rw [hjoin] at hj
      have hall : ∀ u ∈ w.sessions.set h s', u.Quiet := by
        intro u hu
        rcases List.mem_or_eq_of_mem_set hu with hu | rfl
        · exact hset u hu
        · exact hj
      cases outcome with
      | none => exact hall
      | some o => exact hall

/-- Every call leaves the switchboard settled. -/
theorem settled_take (hset : w.Settled) (c : Call σ) : (w.take c).Settled := by
  cases c with
  | make id d settings => exact settled_make hset id d settings
  | connect h rows cols register => exact settled_connect hset h rows cols register
  | create id d rows cols => exact settled_connect (settled_make hset id d w.settings) _ rows cols true
  | read h span => exact settled_read hset h span
  | remove id => exact hset
  | requestPath d =>
    dsimp only [take, requestPath]
    split
    · exact hset
    · exact settled_settle _
  | resolve d span =>
    dsimp only [take, resolve]
    split
    · exact hset
    · split <;> exact settled_settle _
  | sleep span =>
    dsimp only [take, sleep]
    split <;> exact hset
  | alter f => exact hset
  | expire p =>
    dsimp only [take]
    split
    · exact settled_settle _
    · exact hset
  | _ => exact settled_settle _

omit [Transport σ] in
theorem mem_waits_arm {p q : Pending} :
    q ∈ (w.arm p).waits ↔ q ∈ w.waits ∧ q.ticket ≠ p.ticket ∨ q = p := by
  simp [arm, List.mem_filter]

omit [Transport σ] in
theorem mem_waits_reply {ticket : Ticket} {answer : Answer} {q : Pending} :
    q ∈ (w.reply ticket answer).waits ↔ q ∈ w.waits ∧ q.ticket ≠ ticket := by
  simp [reply, List.mem_filter]

omit [Transport σ] in
theorem Booked.arm (hw : w.Booked) {p : Pending} (hp : p.ticket < w.nextTicket) :
    (w.arm p).Booked := by
  refine ⟨?_, ?_⟩
  · have hrest : ((w.waits.filter (·.ticket ≠ p.ticket)).map (·.ticket)).Nodup :=
      hw.1.sublist (List.filter_sublist.map _)
    simp only [Switchboard.arm, List.map_append, List.map_cons, List.map_nil]
    refine List.nodup_append.mpr ⟨hrest, by simp, ?_⟩
    intro t ht u hu htu
    obtain ⟨q, hq, rfl⟩ := List.mem_map.mp ht
    have hne : q.ticket ≠ p.ticket := by simpa using (List.mem_filter.mp hq).2
    exact hne (htu.trans (List.mem_singleton.mp hu))
  · intro q hq
    rcases mem_waits_arm.mp hq with ⟨hq, -⟩ | rfl
    · exact hw.2 q hq
    · exact hp

omit [Transport σ] in
theorem Booked.reply (hw : w.Booked) (ticket : Ticket) (answer : Answer) :
    (w.reply ticket answer).Booked := by
  refine ⟨hw.1.sublist (List.filter_sublist.map _), ?_⟩
  intro q hq
  exact hw.2 q (mem_waits_reply.mp hq).1

omit [Transport σ] in
theorem Booked.tell (hw : w.Booked) (h : Handle) (s : Session) (ticket : Ticket)
    (outcome : ReadOutcome) : (w.tell h s ticket outcome).Booked :=
  Booked.reply (w := { w with sessions := w.sessions.set h s }) hw ticket (.read outcome)

theorem Step.booked (hst : Step w w') (hw : w.Booked) : w'.Booked := by
  cases hst with
  | act => exact hw
  | callback => exact hw
  | transport => exact hw
  | made => exact hw
  | table => exact hw
  | draw => exact ⟨hw.1, fun p hp => Nat.lt_succ_of_lt (hw.2 p hp)⟩
  | arm hi => exact hw.arm hi.1
  | rearm hp => exact hw.arm (hw.2 _ hp)
  | reply => exact hw.reply _ _
  | served => exact hw.tell _ _ _ _
  | left => exact hw.tell _ _ _ _

theorem Steps.booked (hst : Steps w w') (hw : w.Booked) : w'.Booked := by
  induction hst with
  | refl => exact hw
  | tail _ hstep ih => exact hstep.booked ih

omit [Transport σ] in
theorem booked_read (hw : w.Booked) (h : Handle) (span : Millis) : (w.read h span).2.Booked := by
  have hdraw : w.draw.2.Booked := ⟨hw.1, fun p hp => Nat.lt_succ_of_lt (hw.2 p hp)⟩
  unfold read
  dsimp only
  cases w.draw.2.sessions[h]? with
  | none => exact hdraw.reply _ _
  | some s =>
    dsimp only
    cases s.join w.draw.1 (0 < span) with
    | mk outcome s' =>
      cases outcome with
      | some o =>
        exact Booked.reply (w := { w.draw.2 with sessions := w.draw.2.sessions.set h s' }) hdraw _ _
      | none =>
        exact Booked.arm (w := { w.draw.2 with sessions := w.draw.2.sessions.set h s' }) hdraw
          (Nat.lt_succ_self _)

theorem booked_take (hw : w.Booked) (hset : w.Settled) (c : Call σ) : (w.take c).Booked := by
  by_cases hc : c.Plain
  · exact (steps_take hw hset hc).booked hw
  · cases c with
    | read h span => exact booked_read hw h span
    | advance time =>
      exact (steps_settle { w with
        now := max w.now time
        transport := Transport.wake (max w.now time) w.transport }).booked hw
    | _ => exact absurd trivial hc

theorem Step.now (hst : Step w w') : w'.now = w.now := by
  cases hst <;> rfl

theorem Steps.now (hst : Steps w w') : w'.now = w.now := by
  induction hst with
  | refl => rfl
  | tail _ hstep ih => exact hstep.now.trans ih

omit [Transport σ] in
theorem waits_replyAll (served : List (Ticket × ReadOutcome)) (w : Switchboard σ) {q : Pending}
    (hq : q ∈ (replyAll served w).waits) : q ∈ w.waits := by
  induction served generalizing w with
  | nil => exact hq
  | cons first rest ih => exact (mem_waits_reply.mp (ih (w.reply first.1 (.read first.2)) hq)).1

omit [Transport σ] in
theorem waits_rearmFirst {s : Session} {q : Pending} (hq : q ∈ (w.rearmFirst s).waits) :
    q ∈ w.waits := by
  unfold rearmFirst at hq
  cases hr : s.readers.head? with
  | none => rwa [hr] at hq
  | some ticket =>
    rw [hr] at hq
    dsimp only at hq
    cases hp : w.waits.find? (·.ticket = ticket) with
    | none => rwa [hp] at hq
    | some p =>
      rw [hp] at hq
      rcases mem_waits_arm.mp hq with ⟨hq, -⟩ | rfl
      · exact hq
      · exact List.mem_of_find?_eq_some hp

omit [Transport σ] in
theorem waits_serve {h : Handle} {q : Pending} (hq : q ∈ (w.serve h).waits) : q ∈ w.waits := by
  unfold serve at hq
  cases hs : w.sessions[h]? with
  | none => rwa [hs] at hq
  | some s =>
    rw [hs] at hq
    dsimp only at hq
    cases hserved : s.serve with
    | mk served s' =>
      rw [hserved] at hq
      cases served with
      | nil => exact hq
      | cons first rest =>
        have hmem := waits_rearmFirst (s := s')
          (w := replyAll (first :: rest) { w with sessions := w.sessions.set h s' }) hq
        exact waits_replyAll (first :: rest) { w with sessions := w.sessions.set h s' } hmem

omit [Transport σ] in
theorem waits_serveAll (handles : List Handle) (w : Switchboard σ) {q : Pending}
    (hq : q ∈ (handles.foldl serve w).waits) : q ∈ w.waits := by
  induction handles generalizing w with
  | nil => exact hq
  | cons g rest ih => exact waits_serve (ih (w.serve g) hq)

theorem waits_settle {q : Pending} (hq : q ∈ w.settle.waits) : q ∈ w.waits :=
  waits_serveAll _ w.round.round hq

theorem waits_conclude {ticket : Ticket} {h : Handle} {register : Bool}
    {result : Except SessionError Unit} {q : Pending}
    (hq : q ∈ (w.conclude ticket h register result).waits) : q ∈ w.waits := by
  unfold conclude at hq
  cases register with
  | false => exact (mem_waits_reply.mp hq).1
  | true =>
    cases result with
    | error e => exact (mem_waits_reply.mp hq).1
    | ok =>
      obtain ⟨sessions, t, rows, hf⟩ := register_frame w h
      have hmem := (mem_waits_reply.mp hq).1
      rwa [hf] at hmem

theorem waits_look {ticket : Ticket} {h : Handle} {deadline : Millis} {register : Bool} {q : Pending}
    (hq : q ∈ (w.look ticket h deadline register).waits) : q ∈ w.waits ∨ q.ticket = ticket := by
  unfold look at hq
  cases hs : w.sessions[h]? with
  | none =>
    rw [hs] at hq
    exact .inl hq
  | some s =>
    rw [hs] at hq
    dsimp only at hq
    cases hp : s.progress with
    | some result =>
      rw [hp] at hq
      exact .inl (waits_conclude hq)
    | none =>
      rw [hp] at hq
      dsimp only at hq
      split at hq
      · obtain ⟨sessions, t, hf⟩ := updateSession_frame w h (Session.giveUp (σ := σ))
        have hmem := waits_conclude hq
        rw [hf] at hmem
        exact .inl hmem
      · rcases mem_waits_arm.mp hq with ⟨hq, -⟩ | rfl
        · exact .inl hq
        · exact .inr rfl

theorem waits_lookForPath {ticket : Ticket} {d : Destination} {deadline : Millis} {q : Pending}
    (hq : q ∈ (w.lookForPath ticket d deadline).waits) : q ∈ w.waits ∨ q.ticket = ticket := by
  unfold lookForPath at hq
  split at hq
  · exact .inl (mem_waits_reply.mp hq).1
  · split at hq
    · rcases mem_waits_arm.mp hq with ⟨hq, -⟩ | rfl
      · exact .inl hq
      · exact .inr rfl
    · exact .inl (mem_waits_reply.mp hq).1

omit [Transport σ] in
theorem waits_leave {ticket : Ticket} {h : Handle} {q : Pending}
    (hq : q ∈ (w.leave ticket h).waits) : q ∈ w.waits := by
  unfold leave at hq
  cases hs : w.sessions[h]? with
  | none => rwa [hs] at hq
  | some s =>
    rw [hs] at hq
    dsimp only at hq
    split at hq
    · exact (mem_waits_reply.mp (waits_rearmFirst hq)).1
    · exact (mem_waits_reply.mp hq).1

theorem waits_expire {p q : Pending} (hq : q ∈ (w.expire p).waits) :
    q ∈ w.waits ∨ q.ticket = p.ticket := by
  unfold expire at hq
  cases hwait : p.wait with
  | connecting h deadline register =>
    rw [hwait] at hq
    exact waits_look hq
  | resolving d deadline =>
    rw [hwait] at hq
    exact waits_lookForPath hq
  | reading h =>
    rw [hwait] at hq
    exact .inl (waits_leave hq)
  | sleeping =>
    rw [hwait] at hq
    exact .inl (mem_waits_reply.mp hq).1

theorem expireIfPending_eq {p : Pending} (hp : ∀ q ∈ w.waits, q.ticket = p.ticket → q = p)
    (hwake : p.wake ≤ w.now) : w.expireIfPending p = w.take (.expire p) := by
  dsimp only [expireIfPending, take]
  by_cases hmem : p ∈ w.waits
  · rw [if_pos (List.any_eq_true.mpr ⟨p, hmem, by simp⟩), if_pos ⟨hmem, hwake⟩]
  · rw [if_neg, if_neg (fun h => hmem h.1)]
    intro hany
    obtain ⟨q, hq, ht⟩ := List.any_eq_true.mp hany
    exact hmem (hp q hq (by simpa using ht) ▸ hq)

/-- The timers of a moment run out one after the other. -/
theorem expireAll_eq (ps : List Pending) (w : Switchboard σ) (hw : w.Booked) (hset : w.Settled)
    (hnodup : (ps.map (·.ticket)).Nodup) (hwake : ∀ p ∈ ps, p.wake ≤ w.now)
    (hp : ∀ p ∈ ps, ∀ q ∈ w.waits, q.ticket = p.ticket → q = p) :
    ps.foldl expireIfPending w = reach take w (ps.map Call.expire) := by
  induction ps generalizing w with
  | nil => rfl
  | cons p rest ih =>
    obtain ⟨hnew, hnodup⟩ := List.nodup_cons.mp hnodup
    have hone : w.expireIfPending p = w.take (.expire p) :=
      expireIfPending_eq (hp p (by simp)) (hwake p (by simp))
    have hnow : (w.take (.expire p)).now = w.now := (steps_take hw hset (c := .expire p) trivial).now
    rw [List.foldl_cons, hone]
    refine ih _ (booked_take hw hset _) (settled_take hset _) hnodup ?_ ?_
    · intro q hq
      rw [hnow]
      exact hwake q (List.mem_cons_of_mem p hq)
    · intro q hq u hu ht
      have hne : q.ticket ≠ p.ticket := by
        intro heq
        exact hnew (List.mem_map.mpr ⟨q, hq, heq⟩)
      have hold : u ∈ w.waits := by
        dsimp only [take] at hu
        split at hu
        · rcases waits_expire (waits_settle hu) with hu | hu
          · exact hu
          · exact absurd (ht.symm.trans hu) hne
        · exact hu
      exact hp q (List.mem_cons_of_mem p hq) u hold ht

theorem booked_reach (calls : List (Call σ)) (w : Switchboard σ) (hw : w.Booked)
    (hset : w.Settled) : (reach take w calls).Booked ∧ (reach take w calls).Settled := by
  induction calls generalizing w with
  | nil => exact ⟨hw, hset⟩
  | cons c rest ih => exact ih (w.take c) (booked_take hw hset c) (settled_take hset c)

/-- What happens at a moment is that time goes on to it and timers run out. -/
theorem exists_calls_moment (hw : w.Booked) (hset : w.Settled) (time : Millis) :
    ∃ ps : List Pending,
      w.moment (max w.now time) = reach take w (.advance time :: ps.map Call.expire) := by
  have hw' := booked_take hw hset (.advance time)
  have hset' := settled_take hset (.advance time)
  have hnow : (w.take (.advance time)).now = max w.now time := (steps_settle _).now
  have hmoment : w.moment (max w.now time) =
      ((w.take (.advance time)).waits.filter (·.wake ≤ max w.now time)).foldl expireIfPending
        (w.take (.advance time)) := rfl
  refine ⟨(w.take (.advance time)).waits.filter (·.wake ≤ max w.now time), ?_⟩
  refine hmoment.trans (expireAll_eq _ (w.take (.advance time)) hw' hset' ?_ ?_ ?_)
  · exact hw'.1.sublist (List.filter_sublist.map _)
  · intro p hp
    rw [hnow]
    simpa using (List.mem_filter.mp hp).2
  · intro p hp q hq ht
    exact List.inj_on_of_nodup_map hw'.1 hq (List.mem_filter.mp hp).1 ht

theorem exists_calls_awaitWithin (n : Nat) (ticket : Ticket) (w : Switchboard σ) (hw : w.Booked)
    (hset : w.Settled) : ∃ calls, awaitWithin n ticket w = reach take w calls := by
  induction n generalizing w with
  | zero => exact ⟨[], rfl⟩
  | succ n ih =>
    unfold awaitWithin
    split
    · exact ⟨[], rfl⟩
    · cases w.next? with
      | none => exact ⟨[], rfl⟩
      | some time =>
        obtain ⟨ps, hfirst⟩ := exists_calls_moment hw hset time
        obtain ⟨hw', hset'⟩ := booked_reach (.advance time :: ps.map .expire) w hw hset
        obtain ⟨later, hlater⟩ := ih _ hw' hset'
        refine ⟨(.advance time :: ps.map .expire) ++ later, ?_⟩
        rw [reach_append, ← hlater, ← hfirst]

theorem exists_calls_settleTransport (n : Nat) (w : Switchboard σ) (hw : w.Booked)
    (hset : w.Settled) : ∃ calls, w.settleTransport n = reach take w calls := by
  induction n generalizing w with
  | zero => exact ⟨[], rfl⟩
  | succ n ih =>
    unfold settleTransport
    cases Transport.due? w.transport with
    | none => exact ⟨[], rfl⟩
    | some time =>
      obtain ⟨ps, hfirst⟩ := exists_calls_moment hw hset time
      obtain ⟨hw', hset'⟩ := booked_reach (.advance time :: ps.map .expire) w hw hset
      obtain ⟨later, hlater⟩ := ih _ hw' hset'
      refine ⟨(.advance time :: ps.map .expire) ++ later, ?_⟩
      rw [reach_append, ← hlater, ← hfirst]

end MeshShell.Switchboard

import MeshShell.Proofs.Switchboard.Ledger

/-! # Callers that nobody disturbs

A caller whose timer has not run out is left alone by everything else that
happens on the switchboard: its timer stays what it is, and it is told nothing.
This holds for all callers but those who read, whom their session may serve at
any time.
-/
namespace MeshShell.Switchboard

variable {σ : Type} {w w' w'' : Switchboard σ} {ticket : Ticket}

/-- The timer of a caller stays what it is, and the caller is told nothing. -/
structure Spares (ticket : Ticket) (w w' : Switchboard σ) : Prop where
  waits : ∀ p : Pending, p.ticket = ticket → (p ∈ w'.waits ↔ p ∈ w.waits)
  answer : w'.answer? ticket = w.answer? ticket

theorem spares_same (hw : w'.waits = w.waits) (ha : w'.answers = w.answers) :
    Spares ticket w w' where
  waits := by simp [hw]
  answer := by simp [answer?, ha]

theorem Spares.trans (h : Spares ticket w w') (h' : Spares ticket w' w'') :
    Spares ticket w w'' where
  waits := fun p hp => (h'.waits p hp).trans (h.waits p hp)
  answer := h'.answer.trans h.answer

theorem Spares.idle (h : Spares ticket w w') (hi : w.Idle ticket)
    (hn : w.nextTicket ≤ w'.nextTicket) : w'.Idle ticket :=
  ⟨Nat.lt_of_lt_of_le hi.1 hn, fun p hp ht => hi.2 p ((h.waits p ht).mp hp) ht⟩

theorem spares_reply {t : Ticket} (ht : t ≠ ticket) (w : Switchboard σ) (answer : Answer) :
    Spares ticket w (w.reply t answer) where
  waits := by
    rintro p rfl
    rw [mem_waits_reply, and_iff_left ht.symm]
  answer := by simp [answer?, reply, List.find?_append, ht]

theorem spares_arm {q : Pending} (hq : q.ticket ≠ ticket) (w : Switchboard σ) :
    Spares ticket w (w.arm q) where
  waits := by
    rintro p rfl
    rw [mem_waits_arm]
    constructor
    · rintro (⟨hp, -⟩ | rfl)
      · exact hp
      · exact absurd rfl hq
    · exact fun hp => .inl ⟨hp, hq.symm⟩
  answer := rfl

theorem Spares.reply (h : Spares ticket w w') {t : Ticket} (ht : t ≠ ticket) (answer : Answer) :
    Spares ticket w (w'.reply t answer) := h.trans (spares_reply ht w' answer)

theorem Spares.arm (h : Spares ticket w w') {q : Pending} (hq : q.ticket ≠ ticket) :
    Spares ticket w (w'.arm q) := h.trans (spares_arm hq w')

theorem Idle.ne_next (hi : w.Idle ticket) : w.nextTicket ≠ ticket := (Nat.ne_of_lt hi.1).symm

variable {readings : List Reading}

theorem Attended.ne_of_line (hx : Attended readings w) (hi : w.Idle ticket) {h : Nat} {s : Session}
    (hs : w.sessions[h]? = some s) {t : Ticket} (ht : t ∈ s.readers) : t ≠ ticket := by
  obtain ⟨p, hp, rfl, hwait⟩ := (hx.line h s hs).2 t ht
  exact fun heq => hi.2 p hp heq h hwait

theorem spares_replyAll (served : List (Ticket × ReadOutcome)) (w : Switchboard σ)
    (hne : ∀ e ∈ served, e.1 ≠ ticket) : Spares ticket w (replyAll served w) := by
  induction served generalizing w with
  | nil => exact spares_same rfl rfl
  | cons first rest ih =>
    have hrest := ih (w.reply first.1 (.read first.2)) fun e he =>
      hne e (List.mem_cons_of_mem first he)
    exact (spares_reply (hne first (by simp)) w _).trans hrest

theorem spares_rearmFirst {s : Session} (hne : ∀ t ∈ s.readers, t ≠ ticket) (w : Switchboard σ) :
    Spares ticket w (w.rearmFirst s) := by
  unfold rearmFirst
  cases hr : s.readers.head? with
  | none => exact spares_same rfl rfl
  | some t =>
    dsimp only
    cases hp : w.waits.find? (·.ticket = t) with
    | none => exact spares_same rfl rfl
    | some p =>
      have ht : p.ticket = t := by simpa using List.find?_some hp
      exact spares_arm (ht ▸ hne t (List.mem_of_head? hr)) w

theorem spares_serve (hx : Attended readings w) (hi : w.Idle ticket) (h : Handle) :
    Spares ticket w (w.serve h) := by
  unfold serve
  cases hs : w.sessions[h]? with
  | none => exact spares_same rfl rfl
  | some s =>
    obtain ⟨hserved, hline⟩ := serveLine_tickets s.readers s
    have hne : ∀ t ∈ s.readers, t ≠ ticket := fun t ht => hx.ne_of_line hi hs ht
    dsimp only
    unfold Session.serve
    cases hl : s.serveLine s.readers with
    | mk served s' =>
      rw [hl] at hserved hline
      cases served with
      | nil => exact spares_same rfl rfl
      | cons first rest =>
        have hput : Spares ticket w { w with sessions := w.sessions.set h s' } := spares_same rfl rfl
        have hall := hput.trans
          (spares_replyAll (first :: rest) _ fun e he => hne e.1 (hserved e he))
        exact hall.trans (spares_rearmFirst (fun t ht => hne t (hline t ht)) _)

variable [Transport σ]

theorem spares_settle (hx : Sound readings w) (hi : w.Idle ticket) :
    Spares ticket w w.settle := by
  suffices hall : ∀ (handles : List Handle) (w : Switchboard σ), Sound readings w →
      w.Idle ticket → Spares ticket w (handles.foldl serve w) by
    have hsteps : Steps w w.round.round := (steps_round w).trans (steps_round w.round)
    have hround : Spares ticket w w.round.round := spares_same rfl rfl
    exact hround.trans (hall _ _ (Steps.sound hsteps hx) (hi.of_same rfl rfl))
  intro handles
  induction handles with
  | nil => exact fun w _ _ => spares_same rfl rfl
  | cons g rest ih =>
    intro w hx hi
    have hsteps := steps_serve w g
    have hfirst := spares_serve hx.toAttended hi g
    exact hfirst.trans (ih _ (hsteps.sound hx) (hfirst.idle hi (Steps.nextTicket_le hsteps)))

theorem Spares.settle (h : Spares ticket w w') (hst : Steps w w') (hx : Sound readings w)
    (hi : w.Idle ticket) : Spares ticket w w'.settle :=
  h.trans (spares_settle (hst.sound hx) (h.idle hi (Steps.nextTicket_le hst)))

omit [Transport σ] in
theorem spares_updateSession (w : Switchboard σ) (h : Handle) (f : Session → σ → Session × σ) :
    Spares ticket w (w.updateSession h f) := by
  obtain ⟨sessions, t, hf⟩ := updateSession_frame w h f
  rw [hf]
  exact spares_same rfl rfl

theorem spares_register (w : Switchboard σ) (h : Handle) : Spares ticket w (w.register h) := by
  obtain ⟨sessions, t, rows, hf⟩ := register_frame w h
  rw [hf]
  exact spares_same rfl rfl

theorem spares_conclude {t : Ticket} (ht : t ≠ ticket) (w : Switchboard σ) (h : Handle)
    (register : Bool) (result : Except SessionError Unit) :
    Spares ticket w (w.conclude t h register result) := by
  unfold conclude
  cases register with
  | false => exact spares_reply ht w _
  | true =>
    cases result with
    | error e => exact spares_reply ht w _
    | ok => exact (spares_register w h).reply ht _

theorem spares_look {t : Ticket} (ht : t ≠ ticket) (w : Switchboard σ) (h : Handle)
    (deadline : Millis) (register : Bool) :
    Spares ticket w (w.look t h deadline register) := by
  unfold look
  cases w.sessions[h]? with
  | none => exact spares_same rfl rfl
  | some s =>
    dsimp only
    cases s.progress with
    | some result => exact spares_conclude ht w h register result
    | none =>
      dsimp only
      split
      · exact (spares_updateSession w h Session.giveUp).trans (spares_conclude ht _ h register _)
      · exact spares_arm ht w

theorem spares_lookForPath {t : Ticket} (ht : t ≠ ticket) (w : Switchboard σ) (d : Destination)
    (deadline : Millis) : Spares ticket w (w.lookForPath t d deadline) := by
  unfold lookForPath
  split
  · exact spares_reply ht w _
  · split
    · exact spares_arm ht w
    · exact spares_reply ht w _

omit [Transport σ] in
theorem spares_leave (hx : Attended readings w) (hi : w.Idle ticket) {t : Ticket}
    (ht : t ≠ ticket) (h : Handle) : Spares ticket w (w.leave t h) := by
  unfold leave
  cases hs : w.sessions[h]? with
  | none => exact spares_same rfl rfl
  | some s =>
    have hput : Spares ticket w { w with sessions := w.sessions.set h (s.leave t).2 } :=
      spares_same rfl rfl
    have htold := hput.reply ht (.read (s.leave t).1)
    dsimp only
    split
    · refine htold.trans (spares_rearmFirst (fun t' ht' => ?_) _)
      exact hx.ne_of_line hi hs (List.mem_of_mem_filter ht')
    · exact htold

theorem spares_expire (hx : Attended readings w) (hi : w.Idle ticket) {p : Pending}
    (hp : p.ticket ≠ ticket) : Spares ticket w (w.expire p) := by
  unfold expire
  cases p.wait with
  | connecting h deadline register => exact spares_look hp w h deadline register
  | resolving d deadline => exact spares_lookForPath hp w d deadline
  | reading h => exact spares_leave hx hi hp h
  | sleeping => exact spares_reply hp w _

theorem spares_connect (hx : Sound readings w) (hi : w.Idle ticket) (h : Handle)
    (rows cols : UInt16) (register : Bool) :
    Spares ticket w (w.connect h rows cols register).2 := by
  have hne := hi.ne_next
  rcases connect_cases w h rows cols register with
    ⟨-, he⟩ | ⟨s, p, -, hput, ⟨e, -, he⟩ | ⟨-, he⟩⟩ <;> rw [he]
  · exact spares_same rfl rfl
  · have hfirst : Spares ticket w (w.draw.2.put h p) := spares_same rfl rfl
    have hidle : (w.draw.2.put h p).Idle w.nextTicket := hx.booked.idle_draw.of_same rfl rfl
    exact (hfirst.trans (spares_conclude hne _ h register _)).settle
      (hput.trans (steps_conclude hidle h register _)) hx hi
  · have hfirst : Spares ticket w (w.draw.2.put h p).collect := spares_same rfl rfl
    have hidle : (w.draw.2.put h p).collect.Idle w.nextTicket := hx.booked.idle_draw.of_same rfl rfl
    exact (hfirst.trans (spares_look hne _ h _ register)).settle
      ((hput.trans (steps_collect _)).trans (steps_look hidle h _ register)) hx hi

omit [Transport σ] in
theorem spares_read (hi : w.Idle ticket) (h : Nat) (span : Millis) :
    Spares ticket w (w.read h span).2 := by
  have hne := hi.ne_next
  have hdraw : Spares ticket w w.draw.2 := spares_same rfl rfl
  cases hs : w.sessions[h]? with
  | none =>
    rw [read_none hs]
    exact hdraw.reply hne _
  | some s =>
    rw [read_eq hs]
    cases s.join w.nextTicket (0 < span) with
    | mk outcome s' =>
      have hput : Spares ticket w { w.draw.2 with sessions := w.sessions.set h s' } :=
        spares_same rfl rfl
      cases outcome with
      | some outcome => exact hput.reply hne _
      | none => exact hput.arm hne

theorem spares_resolve (hx : Sound readings w) (hi : w.Idle ticket) (d : Destination)
    (span : Millis) : Spares ticket w (w.resolve d span).2 := by
  have hne := hi.ne_next
  have hdraw : Spares ticket w w.draw.2 := spares_same rfl rfl
  unfold resolve
  dsimp only
  split
  · exact hdraw.reply hne _
  · have hask : Steps w { w.draw.2 with
        transport := Transport.requestPath w.draw.2.now d w.draw.2.transport } :=
      .head .draw (.single (.transport _))
    have hasked : Spares ticket w { w.draw.2 with
        transport := Transport.requestPath w.draw.2.now d w.draw.2.transport } := spares_same rfl rfl
    have hidle : Idle { w.draw.2 with
        transport := Transport.requestPath w.draw.2.now d w.draw.2.transport } w.nextTicket :=
      hx.booked.idle_draw.of_same rfl rfl
    split
    · exact (hasked.arm hne).settle (hask.tail (.arm hidle (by simp))) hx hi
    · exact (hasked.reply hne _).settle (hask.tail (.reply hidle (by simp))) hx hi

omit [Transport σ] in
/-- The timer of a caller runs out with a call. -/
def Call.wakes (ticket : Ticket) (w : Switchboard σ) : Call σ → Bool
  | .expire p => decide (p.ticket = ticket ∧ p ∈ w.waits ∧ p.wake ≤ w.now)
  | _ => false

/-- A call leaves a caller alone unless the timer of this caller runs out. -/
theorem spares_take (hx : Sound readings w) (hset : w.Settled) (hi : w.Idle ticket) {c : Call σ}
    (hc : c.wakes ticket w = false) : Spares ticket w (w.take c) := by
  have hne := hi.ne_next
  cases c with
  | make id d settings => exact spares_same rfl rfl
  | connect h rows cols register => exact spares_connect hx hi h rows cols register
  | create id d rows cols =>
    have hmade : Steps w (w.makeSession id d w.settings).2 := .single (.made id d w.settings)
    have hfirst : Spares ticket w (w.makeSession id d w.settings).2 := spares_same rfl rfl
    exact hfirst.trans (spares_connect (hmade.sound hx) (hi.of_same rfl rfl) _ rows cols true)
  | read h span => exact spares_read hi h span
  | sendInput h data =>
    dsimp only [take, sendInput]
    unfold onSession
    cases hs : w.sessions[h]? with
    | none => exact spares_settle hx hi
    | some s =>
      have hact : Session.Acts (s, w.transport) (s, (s.sendInput data w.transport).2) :=
        Session.Acts.single (a := .sendInput data) (s, w.transport) trivial
      exact Spares.settle (spares_same rfl rfl) (.single (.act hs hact)) hx hi
  | resize h size =>
    have hst := steps_updateSession w h (f := Session.resize (σ := σ) size) fun s t =>
      Session.Acts.single (a := .resize size) (s, t) trivial
    exact (spares_updateSession w h _).settle hst hx hi
  | close h => exact (spares_updateSession w h _).settle (steps_closeSession w h) hx hi
  | register h => exact (spares_register w h).settle (steps_register w h) hx hi
  | remove id => exact spares_same rfl rfl
  | closeId id =>
    obtain ⟨sessions, t, hf⟩ := closeId_frame w id
    have hfirst : Spares ticket w (w.closeId id).2 := spares_same (by rw [hf]; rfl) (by rw [hf]; rfl)
    exact hfirst.settle (steps_closeId w id) hx hi
  | closeAll =>
    obtain ⟨sessions, t, hf⟩ := closeAll_frame w
    have hfirst : Spares ticket w w.closeAll.2 := spares_same (by rw [hf]) (by rw [hf])
    exact hfirst.settle (steps_closeAll w) hx hi
  | requestPath d =>
    dsimp only [take, requestPath]
    split
    · exact spares_same rfl rfl
    · exact Spares.settle (spares_same rfl rfl) (.single (.transport _)) hx hi
  | resolve d span => exact spares_resolve hx hi d span
  | sleep span =>
    have hdraw : Spares ticket w w.draw.2 := spares_same rfl rfl
    dsimp only [take, sleep]
    split
    · exact hdraw.reply hne _
    · exact hdraw.arm hne
  | disturb f => exact Spares.settle (spares_same rfl rfl) (.single (.transport _)) hx hi
  | alter f => exact spares_same rfl rfl
  | advance time =>
    have htick : Spares ticket w { w with
        now := max w.now time
        transport := Transport.wake (max w.now time) w.transport } := spares_same rfl rfl
    exact htick.trans (spares_settle (hx.tick time) (hi.of_same rfl rfl))
  | expire p =>
    dsimp only [take]
    split
    · rename_i h
      have hp : p.ticket ≠ ticket := by
        intro ht
        simp [Call.wakes, ht, h] at hc
      exact (spares_expire hx.toAttended hi hp).settle (steps_expire hx.booked h.1 h.2 hset) hx hi
    · exact spares_same rfl rfl

end MeshShell.Switchboard

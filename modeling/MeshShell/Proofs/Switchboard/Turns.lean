import MeshShell.Proofs.Switchboard.Drift
import MeshShell.Proofs.Switchboard.Closing

/-! # What a call does to the registry

Of a switchboard the registry is the table, the callers whose sessions are to be
registered, and what creations came to. Most calls leave all three alone. A
caller that looks at its session registers it, fails, or goes on waiting.
-/
namespace MeshShell

/-- Whether a session is to be registered when the waiting is over. -/
def Wait.registers : Wait → Bool
  | .connecting _ _ register => register
  | _ => false

def Answer.created? : Answer → Option (Except SessionError Handle)
  | .created result => some result
  | _ => none

namespace Switchboard

variable {σ : Type}

/-- The callers whose sessions are to be registered. -/
def creating (w : Switchboard σ) : List Pending := w.waits.filter (·.wait.registers)

/-- What creations came to, in the order in which they were done. -/
def created (w : Switchboard σ) : List (Ticket × Except SessionError Handle) :=
  w.answers.filterMap fun a => a.answer.created?.map (a.ticket, ·)

/-- Nobody waits under a ticket for a session to be registered. -/
def Free (w : Switchboard σ) (ticket : Ticket) : Prop := ∀ p ∈ w.creating, p.ticket ≠ ticket

structure Aside (w w' : Switchboard σ) : Prop where
  table : w'.table = w.table
  creating : w'.creating = w.creating
  created : w'.created = w.created

variable {w w' w'' : Switchboard σ}

theorem Aside.refl (w : Switchboard σ) : Aside w w := ⟨rfl, rfl, rfl⟩

theorem Aside.trans (h : Aside w w') (h' : Aside w' w'') : Aside w w'' :=
  ⟨h'.table.trans h.table, h'.creating.trans h.creating, h'.created.trans h.created⟩

theorem Aside.free (h : Aside w w') {ticket : Ticket} (hf : w.Free ticket) : w'.Free ticket := by
  unfold Free
  rwa [h.creating]

theorem creating_reply (ticket : Ticket) (answer : Answer) :
    (w.reply ticket answer).creating = w.creating.filter (·.ticket ≠ ticket) :=
  List.filter_comm ..

theorem created_reply (ticket : Ticket) (answer : Answer) :
    (w.reply ticket answer).created = w.created ++ (answer.created?.map (ticket, ·)).toList := by
  cases h : answer.created? <;> simp [created, reply, List.filterMap_append, h]

theorem creating_arm (p : Pending) : (w.arm p).creating =
    w.creating.filter (·.ticket ≠ p.ticket) ++ if p.wait.registers then [p] else [] := by
  have hold : (w.waits.filter (·.ticket ≠ p.ticket)).filter (·.wait.registers) =
      w.creating.filter (·.ticket ≠ p.ticket) := List.filter_comm ..
  rw [← hold]
  cases h : p.wait.registers <;> simp [creating, arm, List.filter_append, h]

theorem Free.filter {ticket : Ticket} (hf : w.Free ticket) :
    w.creating.filter (·.ticket ≠ ticket) = w.creating :=
  List.filter_eq_self.mpr fun p hp => by simpa using hf p hp

theorem aside_reply {ticket : Ticket} (hf : w.Free ticket) {answer : Answer}
    (ha : answer.created? = none) : Aside w (w.reply ticket answer) where
  table := rfl
  creating := (creating_reply ticket answer).trans hf.filter
  created := by rw [created_reply, ha]; exact List.append_nil _

theorem aside_arm {p : Pending} (hf : w.Free p.ticket) (hp : p.wait.registers = false) :
    Aside w (w.arm p) where
  table := rfl
  creating := by rw [creating_arm, hp, hf.filter]; exact List.append_nil _
  created := rfl

theorem Aside.reply (h : Aside w w') {ticket : Ticket} (hf : w.Free ticket) {answer : Answer}
    (ha : answer.created? = none) : Aside w (w'.reply ticket answer) :=
  h.trans (aside_reply (h.free hf) ha)

theorem Aside.arm (h : Aside w w') {p : Pending} (hf : w.Free p.ticket)
    (hp : p.wait.registers = false) : Aside w (w'.arm p) := h.trans (aside_arm (h.free hf) hp)

theorem aside_draw (w : Switchboard σ) : Aside w w.draw.2 := ⟨rfl, rfl, rfl⟩

theorem Booked.free (hw : w.Booked) {p : Pending} (hp : p ∈ w.waits)
    (hwait : p.wait.registers = false) : w.Free p.ticket := by
  intro q hq ht
  obtain ⟨hq, hreg⟩ := List.mem_filter.mp hq
  obtain rfl := List.inj_on_of_nodup_map hw.1 hq hp ht
  simp [hwait] at hreg

theorem Booked.free_next (hw : w.Booked) : w.Free w.nextTicket :=
  fun p hp => Nat.ne_of_lt (hw.2 p (List.mem_of_mem_filter hp))

variable {readings : List Reading}

theorem Attended.free (hx : Attended readings w) {h : Nat} {s : Session}
    (hs : w.sessions[h]? = some s) {ticket : Ticket} (ht : ticket ∈ s.readers) :
    w.Free ticket := by
  obtain ⟨p, hp, rfl, hwait⟩ := (hx.line h s hs).2 ticket ht
  exact hx.booked.free hp (by simp [hwait, Wait.registers])

theorem serveLine_tickets (line : List Ticket) (s : Session) :
    (∀ e ∈ (s.serveLine line).1, e.1 ∈ line) ∧ ∀ t ∈ (s.serveLine line).2.readers, t ∈ line := by
  induction line generalizing s with
  | nil => simp [Session.serveLine]
  | cons r rest ih =>
    rcases s.take_some_or_none with ⟨outcome, s', ht⟩ | ht
    · obtain ⟨hserved, hline⟩ := ih s'
      simp only [Session.serveLine, ht]
      refine ⟨?_, fun t hm => List.mem_cons_of_mem r (hline t hm)⟩
      intro e he
      rcases List.mem_cons.mp he with rfl | he
      · exact List.mem_cons_self
      · exact List.mem_cons_of_mem r (hserved e he)
    · simp [Session.serveLine, ht]

theorem aside_replyAll (served : List (Ticket × ReadOutcome)) (w : Switchboard σ)
    (hf : ∀ e ∈ served, w.Free e.1) : Aside w (replyAll served w) := by
  induction served generalizing w with
  | nil => exact .refl w
  | cons first rest ih =>
    have hfirst : Aside w (w.reply first.1 (.read first.2)) := aside_reply (hf first (by simp)) rfl
    exact hfirst.trans (ih _ fun e he => hfirst.free (hf e (List.mem_cons_of_mem first he)))

theorem aside_rearmFirst {s : Session} (hf : ∀ t ∈ s.readers, w.Free t) :
    Aside w (w.rearmFirst s) := by
  unfold rearmFirst
  cases hr : s.readers.head? with
  | none => exact .refl w
  | some ticket =>
    dsimp only
    have hfree : w.Free ticket := hf ticket (List.mem_of_head? hr)
    cases hp : w.waits.find? (·.ticket = ticket) with
    | none => exact .refl w
    | some p =>
      have ht : p.ticket = ticket := by simpa using List.find?_some hp
      refine aside_arm (ht ▸ hfree) ?_
      cases hreg : p.wait.registers with
      | false => rfl
      | true => exact absurd ht (hfree p (List.mem_filter.mpr ⟨List.mem_of_find?_eq_some hp, hreg⟩))

theorem aside_serve (hx : Attended readings w) (h : Handle) : Aside w (w.serve h) := by
  unfold serve
  cases hs : w.sessions[h]? with
  | none => exact .refl w
  | some s =>
    obtain ⟨hserved, hline⟩ := serveLine_tickets s.readers s
    have hfree : ∀ t ∈ s.readers, w.Free t := fun t ht => hx.free hs ht
    dsimp only
    unfold Session.serve
    cases hl : s.serveLine s.readers with
    | mk served s' =>
      rw [hl] at hserved hline
      cases served with
      | nil => exact .refl w
      | cons first rest =>
        have hput : Aside w { w with sessions := w.sessions.set h s' } := ⟨rfl, rfl, rfl⟩
        have hreply := aside_replyAll (first :: rest) { w with sessions := w.sessions.set h s' }
          fun e he => hput.free (hfree _ (hserved e he))
        have hall := hput.trans hreply
        exact hall.trans (aside_rearmFirst fun t ht => hall.free (hfree t (hline t ht)))

variable [Transport σ]

theorem aside_settle (hx : Sound readings w) : Aside w w.settle := by
  suffices hall : ∀ (handles : List Handle) (w : Switchboard σ), Sound readings w →
      Aside w (handles.foldl serve w) by
    have hround : Aside w w.round.round := ⟨rfl, rfl, rfl⟩
    have hsteps : Steps w w.round.round := (steps_round w).trans (steps_round w.round)
    exact hround.trans (hall _ _ (Steps.sound hsteps hx))
  intro handles
  induction handles with
  | nil => exact fun w _ => .refl w
  | cons g rest ih =>
    intro w hx
    exact (aside_serve hx.toAttended g).trans (ih _ (Steps.sound (steps_serve w g) hx))

theorem aside_then_settle (hx : Sound readings w) (hst : Steps w w') (ha : Aside w w') :
    Aside w w'.settle := ha.trans (aside_settle (hst.sound hx))

omit [Transport σ] in
theorem aside_updateSession (w : Switchboard σ) (h : Handle) (f : Session → σ → Session × σ) :
    Aside w (w.updateSession h f) := by
  obtain ⟨sessions, t, hf⟩ := updateSession_frame w h f
  rw [hf]
  exact ⟨rfl, rfl, rfl⟩

theorem aside_conclude {ticket : Ticket} (hf : w.Free ticket) (h : Handle)
    (result : Except SessionError Unit) : Aside w (w.conclude ticket h false result) :=
  aside_reply hf rfl

theorem aside_look {ticket : Ticket} (hf : w.Free ticket) (h : Handle) (deadline : Millis) :
    Aside w (w.look ticket h deadline false) := by
  unfold look
  cases w.sessions[h]? with
  | none => exact .refl w
  | some s =>
    dsimp only
    cases s.progress with
    | some result => exact aside_conclude hf h result
    | none =>
      dsimp only
      split
      · have hgive := aside_updateSession w h Session.giveUp
        exact hgive.trans (aside_conclude (hgive.free hf) h _)
      · exact aside_arm hf rfl

theorem aside_lookForPath {ticket : Ticket} (hf : w.Free ticket) (d : Destination)
    (deadline : Millis) : Aside w (w.lookForPath ticket d deadline) := by
  unfold lookForPath
  split
  · exact aside_reply hf rfl
  · split
    · exact aside_arm hf rfl
    · exact aside_reply hf rfl

omit [Transport σ] in
theorem aside_leave (hx : Attended readings w) {ticket : Ticket} (hf : w.Free ticket)
    (h : Handle) : Aside w (w.leave ticket h) := by
  unfold leave
  cases hs : w.sessions[h]? with
  | none => exact .refl w
  | some s =>
    have hput : Aside w { w with sessions := w.sessions.set h (s.leave ticket).2 } := ⟨rfl, rfl, rfl⟩
    have htold : Aside w ({ w with sessions := w.sessions.set h (s.leave ticket).2 }.reply ticket
        (.read (s.leave ticket).1)) := hput.trans (aside_reply (hput.free hf) rfl)
    dsimp only
    split
    · refine htold.trans (aside_rearmFirst fun t ht => htold.free ?_)
      exact hx.free hs (List.mem_of_mem_filter ht)
    · exact htold

theorem aside_expire (hx : Sound readings w) {p : Pending} (hp : p ∈ w.waits)
    (hreg : p.wait.registers = false) : Aside w (w.expire p) := by
  have hf : w.Free p.ticket := hx.booked.free hp hreg
  unfold expire
  cases hwait : p.wait with
  | connecting h deadline register =>
    obtain rfl : register = false := by simpa [hwait, Wait.registers] using hreg
    exact aside_look hf h deadline
  | resolving d deadline => exact aside_lookForPath hf d deadline
  | reading h => exact aside_leave hx.toAttended hf h
  | sleeping => exact aside_reply hf rfl

theorem aside_connect (hx : Sound readings w) (h : Handle) (rows cols : UInt16) :
    Aside w (w.connect h rows cols false).2 := by
  have hf : w.Free w.nextTicket := hx.booked.free_next
  rcases connect_cases w h rows cols false with
    ⟨-, he⟩ | ⟨s, p, -, hput, ⟨e, -, he⟩ | ⟨-, he⟩⟩ <;> rw [he]
  · exact ⟨rfl, rfl, rfl⟩
  · have haside : Aside w (w.draw.2.put h p) := ⟨rfl, rfl, rfl⟩
    have hi : (w.draw.2.put h p).Idle w.nextTicket := hx.booked.idle_draw.of_same rfl rfl
    exact aside_then_settle hx (hput.trans (steps_conclude hi h false _))
      (haside.trans (aside_conclude (haside.free hf) h _))
  · have haside : Aside w (w.draw.2.put h p).collect := ⟨rfl, rfl, rfl⟩
    have hi : (w.draw.2.put h p).collect.Idle w.nextTicket := hx.booked.idle_draw.of_same rfl rfl
    exact aside_then_settle hx ((hput.trans (steps_collect _)).trans (steps_look hi h _ false))
      (haside.trans (aside_look (haside.free hf) h _))

omit [Transport σ] in
theorem aside_read (hw : w.Booked) (h : Nat) (span : Millis) : Aside w (w.read h span).2 := by
  have hf : w.Free w.nextTicket := hw.free_next
  cases hs : w.sessions[h]? with
  | none =>
    rw [read_none hs]
    exact (aside_draw w).reply hf rfl
  | some s =>
    rw [read_eq hs]
    cases s.join w.nextTicket (0 < span) with
    | mk outcome s' =>
      have hput : Aside w { w.draw.2 with sessions := w.sessions.set h s' } := ⟨rfl, rfl, rfl⟩
      cases outcome with
      | some outcome => exact hput.reply hf rfl
      | none => exact hput.arm hf rfl

theorem aside_resolve (hx : Sound readings w) (d : Destination) (span : Millis) :
    Aside w (w.resolve d span).2 := by
  have hf : w.Free w.nextTicket := hx.booked.free_next
  have hidle : w.draw.2.Idle w.nextTicket := hx.booked.idle_draw
  unfold resolve
  dsimp only
  split
  · exact (aside_draw w).reply hf rfl
  · have hask : Steps w { w.draw.2 with
        transport := Transport.requestPath w.draw.2.now d w.draw.2.transport } :=
      .head .draw (.single (.transport _))
    have haside : Aside w { w.draw.2 with
        transport := Transport.requestPath w.draw.2.now d w.draw.2.transport } := ⟨rfl, rfl, rfl⟩
    have hi : Idle { w.draw.2 with
        transport := Transport.requestPath w.draw.2.now d w.draw.2.transport } w.nextTicket :=
      hidle.of_same rfl rfl
    split
    · exact aside_then_settle hx (hask.tail (.arm hi (by simp))) (haside.arm hf rfl)
    · exact aside_then_settle hx (hask.tail (.reply hi (by simp))) (haside.reply hf rfl)

/-- The registry has no part in a call. -/
def Call.Unrelated : Call σ → Prop
  | .connect _ _ _ wanted => wanted = false
  | .create .. => False
  | .register _ => False
  | .remove _ => False
  | .closeId _ => False
  | .closeAll => False
  | .expire p => p.wait.registers = false
  | _ => True

theorem aside_take (hx : Sound readings w) (hset : w.Settled) {c : Call σ} (hc : c.Unrelated) :
    Aside w (w.take c) := by
  cases c with
  | make id d settings => exact ⟨rfl, rfl, rfl⟩
  | connect h rows cols register =>
    obtain rfl : register = false := hc
    exact aside_connect hx h rows cols
  | read h span => exact aside_read hx.booked h span
  | sendInput h data =>
    dsimp only [take, sendInput]
    unfold onSession
    cases hs : w.sessions[h]? with
    | none => exact aside_settle hx
    | some s =>
      have hact : Session.Acts (s, w.transport) (s, (s.sendInput data w.transport).2) :=
        Session.Acts.single (a := .sendInput data) (s, w.transport) trivial
      exact aside_then_settle hx (.single (.act hs hact)) ⟨rfl, rfl, rfl⟩
  | resize h size =>
    have hst := steps_updateSession w h (f := Session.resize (σ := σ) size) fun s t =>
      Session.Acts.single (a := .resize size) (s, t) trivial
    exact aside_then_settle hx hst (aside_updateSession w h _)
  | close h => exact aside_then_settle hx (steps_closeSession w h) (aside_updateSession w h _)
  | requestPath d =>
    dsimp only [take, requestPath]
    split
    · exact .refl w
    · exact aside_then_settle hx (.single (.transport _)) ⟨rfl, rfl, rfl⟩
  | resolve d span => exact aside_resolve hx d span
  | sleep span =>
    have hf : w.Free w.nextTicket := hx.booked.free_next
    dsimp only [take, sleep]
    split
    · exact (aside_draw w).reply hf rfl
    · exact (aside_draw w).arm hf rfl
  | disturb f => exact aside_then_settle hx (.single (.transport _)) ⟨rfl, rfl, rfl⟩
  | alter f => exact ⟨rfl, rfl, rfl⟩
  | advance time =>
    have htick : Aside w { w with
        now := max w.now time
        transport := Transport.wake (max w.now time) w.transport } := ⟨rfl, rfl, rfl⟩
    exact htick.trans (aside_settle (hx.tick time))
  | expire p =>
    dsimp only [take]
    split
    · rename_i h
      exact aside_then_settle hx (steps_expire hx.booked h.1 h.2 hset) (aside_expire hx h.1 hc)
    · exact .refl w
  | _ => exact hc.elim

end Switchboard

end MeshShell

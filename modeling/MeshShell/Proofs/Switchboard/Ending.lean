import MeshShell.Proofs.Switchboard.Creations

/-! # How a creation ends

When its turn comes a creation registers its session, gives up, or goes on
waiting. If it comes to nothing, its session is over, the table is as it was, and
nobody but its own driver has touched any other session.
-/
namespace MeshShell

namespace Session

variable {σ : Type} [Transport σ]

/-- Nobody can do anything to a session without a link but its callers. -/
theorem next_inner {s : Session} (ho : s.opened = none) (hi : s.inbox = []) (hr : s.readers = [])
    {a : Action σ} (ha : a.Inner) (t : σ) : (next a (s, t)).1 = s := by
  cases a with
  | report c => simp [next, receive, ho]
  | drive => simp [next, driveOne, hi]
  | serve => simp [next, serveFirst, hr]
  | elsewhere f => rfl
  | _ => exact ha.elim

theorem new_of_inner {id : String} {d : Destination} {settings : SessionSettings} {t : σ}
    {q : Session × σ} (h : ActsBy Action.Inner (new id d settings, t) q) :
    q.1 = new id d settings := by
  obtain ⟨hist, hr, hall⟩ := h
  induction hr with
  | nil => rfl
  | @snoc hist p a hr ih =>
    have hp := ih fun u b hm => hall u b (List.mem_append_left _ hm)
    have hsame : (next a (p.1, p.2)).1 = p.1 :=
      next_inner (by rw [hp]; rfl) (by rw [hp]; rfl) (by rw [hp]; rfl) (hall p a (by simp)) p.2
    exact hsame.trans hp

/-- A new session that starts has a link to let go of, or is closed, or knows nobody to call. -/
theorem start_new (now : Millis) (rows cols : UInt16) (id : String) (d : Destination)
    (settings : SessionSettings) (t : σ) :
    ((new id d settings).start now rows cols t =
        (.error (.identityUnresolved d), new id d settings, t)) ∨
    (∃ e p, (new id d settings).start now rows cols t = (.error (.transport e), p) ∧
      p.1.closed = true ∧ Tidy p.1) ∨
    ∃ p, (new id d settings).start now rows cols t = (.ok (), p) ∧ Tidy p.1 := by
  have hd : ¬ (new id d settings).driver ≠ .notStarted := not_not_intro rfl
  unfold start
  cases Transport.recallIdentity (new id d settings).destination t with
  | none => exact .inl rfl
  | some identity =>
    refine .inr ?_
    dsimp only
    rw [if_neg hd]
    cases Transport.openLink now identity shellAspect t with
    | mk result t' =>
      cases result with
      | error e => exact .inl ⟨e, _, rfl, rfl, by simp [endDriver], fun _ => rfl⟩
      | ok l => exact .inr ⟨_, rfl, by simp, fun h => absurd h (by simp [new])⟩

theorem closed_of_progress {s : Session} {e : SessionError} (h : Consistent s)
    (hp : s.progress = some (.error e)) :
    s.closed = true ∧ e = .linkClosed s.destination := by
  unfold progress at hp
  cases hphase : s.phase with
  | closed =>
    refine ⟨?_, ?_⟩
    · cases hc : s.closed with
      | true => rfl
      | false => rcases h.open_phase hc with ⟨-, hp⟩ | ⟨-, hp | hp⟩ <;> simp [hphase] at hp
    · rw [hphase] at hp
      dsimp only at hp
      split at hp
      · simp at hp
      · simpa [eq_comm] using hp
  | _ => simp [hphase] at hp

end Session

namespace Switchboard

variable {σ : Type} [Transport σ] {w w' w'' : Switchboard σ}

inductive Looked (w : Switchboard σ) (k : Creation) (deadline : Millis) : Switchboard σ → Prop
  | done {s : Session} : w.sessions[(k.session : Nat)]? = some s → s.progress = some (.ok ()) →
      Looked w k deadline ((w.register k.session).reply k.ticket (.created (.ok k.session)))
  | lost {s : Session} {e : SessionError} : w.sessions[(k.session : Nat)]? = some s →
      s.progress = some (.error e) → Looked w k deadline (w.reply k.ticket (.created (.error e)))
  | late {s : Session} : w.sessions[(k.session : Nat)]? = some s → s.progress = none →
      deadline ≤ w.now → Looked w k deadline ((w.put k.session (s.giveUp w.transport)).reply k.ticket
        (.created (.error (.linkTimeout s.destination s.settings.linkTimeout))))
  | waits {s : Session} : w.sessions[(k.session : Nat)]? = some s → s.progress = none →
      w.now < deadline → Looked w k deadline
        (w.arm ⟨k.ticket, w.now + s.settings.poll, .connecting k.session deadline true⟩)

theorem looked {k : Creation} {s : Session} (hs : w.sessions[(k.session : Nat)]? = some s)
    (deadline : Millis) : Looked w k deadline (w.look k.ticket k.session deadline true) := by
  unfold look
  rw [hs]
  dsimp only
  cases hp : s.progress with
  | some result =>
    cases result with
    | ok => exact .done hs hp
    | error e => exact .lost hs hp
  | none =>
    dsimp only
    split
    · rename_i hlate
      rw [updateSession_eq hs]
      exact .late hs hp hlate
    · rename_i hearly
      exact .waits hs hp (Nat.lt_of_not_le hearly)

/-- What is left of the session of a failed creation. -/
def Spent (w : Switchboard σ) (h : Handle) (e : SessionError) : Prop :=
  w.At h fun s => (∃ d, e = .identityUnresolved d) ∧ s = .new s.id s.destination s.settings ∨
    (∀ d, e ≠ .identityUnresolved d) ∧ s.closed = true ∧ s.Tidy

/-- Whatever else happened, nobody has called any other session. -/
def DriftApart (w w' : Switchboard σ) (h : Handle) : Prop :=
  ∀ (g : Nat) s, g ≠ h → w.sessions[g]? = some s → Drifts w w' g s

inductive Ending (ks : List Creation) (handed : List Handle) (bound : String → Option Handle)
    (k : Creation) (w w' : Switchboard σ) : Prop
  | waits : Registry ks handed bound w' → w'.created = w.created →
      (∀ s, w.sessions[(k.session : Nat)]? = some s → s.progress ≠ some (.ok ())) →
      Ending ks handed bound k w w'
  | done : Registry ks handed (Function.update bound k.id (some k.session)) w' →
      w'.created = w.created ++ [(k.ticket, .ok k.session)] → Ending ks handed bound k w w'
  | failed (e : SessionError) : Registry ks handed bound w' →
      w'.created = w.created ++ [(k.ticket, .error e)] → w'.table = w.table →
      DriftApart w w' k.session → Spent w' k.session e →
      (∀ s, w.sessions[(k.session : Nat)]? = some s → s.progress ≠ some (.ok ())) →
      Ending ks handed bound k w w'

variable {ks : List Creation} {handed : List Handle} {bound : String → Option Handle} {k : Creation}

theorem nextTicket_settle (w : Switchboard σ) : w.settle.nextTicket = w.nextTicket := by
  obtain ⟨_, _, _, _, hf⟩ := settle_frame w
  rw [hf]

theorem DriftApart.settle {h : Handle} (hd : DriftApart w w' h) : DriftApart w w'.settle h :=
  fun g s hg hs => (hd g s hg hs).trans fun _ => drifts_settle

variable {readings : List Reading}

theorem Registry.settle (hx : Registry ks handed bound w) (hs : Sound readings w) :
    Registry ks handed bound w.settle :=
  hx.aside (aside_settle hs) (steps_settle w).along (nextTicket_settle w).ge

theorem Ending.settle (he : Ending ks handed bound k w w') (hs : Sound readings w') :
    Ending ks handed bound k w w'.settle := by
  have ha : Aside w' w'.settle := aside_settle hs
  have hal : Along w' w'.settle := (steps_settle w').along
  cases he with
  | waits hx hcreated hno => exact .waits (hx.settle hs) (ha.created.trans hcreated) hno
  | done hx hcreated => exact .done (hx.settle hs) (ha.created.trans hcreated)
  | failed e hx hcreated htable hd hspent hno =>
    refine .failed e (hx.settle hs) (ha.created.trans hcreated) (ha.table.trans htable) hd.settle ?_ hno
    obtain ⟨s, hsess, ⟨hun, hnew⟩ | ⟨hres, hc, htidy⟩⟩ := hspent
    · obtain ⟨s', hs', hact⟩ := drifts_settle hsess
      rw [hnew] at hact
      have hsame : s' = .new s.id s.destination s.settings := Session.new_of_inner hact
      exact ⟨s', hs', .inl ⟨hun, by rw [hsame]; rfl⟩⟩
    · have hlast : Lasting σ fun s => s.closed = true ∧ s.Tidy :=
        fun a p h => ⟨lasting_closed a p h.1, lasting_tidy a p h.2⟩
      obtain ⟨s', hs', hboth⟩ := At.along ⟨s, hsess, hc, htidy⟩ hlast hal
      exact ⟨s', hs', .inr ⟨hres, hboth⟩⟩

theorem ending_look (hx : Registry ks handed bound w) (hs : Sound readings w) (hk : k ∈ ks)
    (htidy : w.At k.session Session.Tidy) (hnew : ∀ e ∈ w.created, e.1 ≠ k.ticket)
    (deadline : Millis) :
    Ending ks handed bound k w (w.look k.ticket k.session deadline true) := by
  obtain ⟨s, hsess, ht⟩ := id htidy
  have hno : s.progress ≠ some (.ok ()) →
      ∀ s', w.sessions[(k.session : Nat)]? = some s' → s'.progress ≠ some (.ok ()) := by
    intro hp s' hs'
    obtain rfl : s = s' := Option.some.inj (hsess.symm.trans hs')
    exact hp
  have hl : Looked w k deadline (w.look k.ticket k.session deadline true) := looked hsess deadline
  generalize w.look k.ticket k.session deadline true = w' at hl ⊢
  cases hl with
  | done _ _ =>
    refine .done (hx.done hk htidy) ?_
    obtain ⟨_, _, _, hf⟩ := register_frame w k.session
    rw [created_reply, hf]
    rfl
  | @lost s' e hs' hp =>
    obtain rfl : s = s' := Option.some.inj (hsess.symm.trans hs')
    obtain ⟨hc, he⟩ := Session.closed_of_progress (hs.consistent hsess) hp
    refine .failed e (hx.fail hk e) (created_reply _ _) rfl ?_ ?_ (hno (by simp [hp]))
    · exact fun g s _ hg => drifts_same hg
    · exact ⟨s, hsess, .inr ⟨by simp [he], hc, ht⟩⟩
  | @late s' hs' hp =>
    obtain rfl : s = s' := Option.some.inj (hsess.symm.trans hs')
    have hlt := (List.getElem?_eq_some_iff.mp hsess).1
    have hact : Step w (w.put k.session (s.giveUp w.transport)) := by
      refine .act hsess ?_
      have hgive : Session.next (.giveUp : Session.Action σ) (s, w.transport) = s.giveUp w.transport := by
        simp [Session.next, Session.timeOut, hp]
      exact hgive ▸ Session.Acts.single (a := .giveUp) (s, w.transport) trivial
    have hal : Along w (w.put k.session (s.giveUp w.transport)) :=
      Steps.along (.single hact)
    have hput : Registry ks handed bound (w.put k.session (s.giveUp w.transport)) :=
      hx.aside ⟨rfl, rfl, rfl⟩ hal (Nat.le_refl _)
    refine .failed _ (hput.fail hk _) (created_reply _ _) rfl ?_ ?_ (hno (by simp [hp]))
    · intro g s' hg hgs
      refine drifts_same ?_
      simpa [put, Ne.symm hg] using hgs
    · obtain ⟨s', hs'', htidy'⟩ := htidy.along lasting_tidy hal
      refine ⟨s', hs'', .inr ⟨by simp, ?_, htidy'⟩⟩
      have hs₁ : (s.giveUp w.transport).1 = s' := by simpa [put, hlt] using hs''
      rw [← hs₁]
      simp
  | @waits s' hs' hp =>
    obtain rfl : s = s' := Option.some.inj (hsess.symm.trans hs')
    exact .waits (hx.wait hk htidy hnew _ deadline) rfl (hno (by simp [hp]))

omit [Transport σ] in
theorem Heeds.aside (hh : w.Heeds k) (ha : Aside w w') : w'.Heeds k := by
  unfold Heeds
  rwa [ha.creating, ha.created]

omit [Transport σ] in
theorem heeds_reply {ticket : Ticket} {result : Except SessionError Handle}
    (hk : k.ticket = ticket ∨ w.Heeds k) : (w.reply ticket (.created result)).Heeds k := by
  have hcreated : (w.reply ticket (.created result)).created = w.created ++ [(ticket, result)] :=
    created_reply ticket _
  by_cases ht : k.ticket = ticket
  · exact .inr ⟨(ticket, result), by simp [hcreated], ht.symm⟩
  · rcases hk.resolve_left ht with ⟨p, hp, hpt⟩ | ⟨e, he, het⟩
    · refine .inl ⟨p, ?_, hpt⟩
      rw [creating_reply]
      exact List.mem_filter.mpr ⟨hp, by simpa [hpt] using ht⟩
    · exact .inr ⟨e, by simp [hcreated, he], het⟩

omit [Transport σ] in
theorem heeds_arm {p : Pending} (hp : p.wait.registers = true) (hk : k.ticket = p.ticket ∨ w.Heeds k) :
    (w.arm p).Heeds k := by
  by_cases ht : k.ticket = p.ticket
  · exact .inl ⟨p, by simp [creating_arm, hp], ht.symm⟩
  · rcases hk.resolve_left ht with ⟨q, hq, hqt⟩ | he
    · refine .inl ⟨q, ?_, hqt⟩
      rw [creating_arm]
      exact List.mem_append_left _ (List.mem_filter.mpr ⟨hq, by simpa [hqt] using ht⟩)
    · exact .inr he

theorem heeds_look {k' : Creation} {s : Session} (hs : w.sessions[(k.session : Nat)]? = some s)
    (deadline : Millis) (hk : k'.ticket = k.ticket ∨ w.Heeds k') :
    (w.look k.ticket k.session deadline true).Heeds k' := by
  have hl : Looked w k deadline (w.look k.ticket k.session deadline true) := looked hs deadline
  generalize w.look k.ticket k.session deadline true = w' at hl ⊢
  cases hl with
  | done =>
    obtain ⟨_, _, _, hf⟩ := register_frame w k.session
    refine heeds_reply (hk.imp_right fun hh => ?_)
    rw [hf]
    exact hh
  | lost => exact heeds_reply hk
  | late => exact heeds_reply hk
  | waits => exact heeds_arm rfl hk

theorem Ending.after (he : Ending ks handed bound k w' w'') (ha : Aside w w')
    (hd : DriftApart w w' k.session) (hnone : w.sessions[(k.session : Nat)]? = none) :
    Ending ks handed bound k w w'' := by
  have hno : ∀ s, w.sessions[(k.session : Nat)]? = some s → s.progress ≠ some (.ok ()) := by
    simp [hnone]
  cases he with
  | waits hx hcreated => exact .waits hx (hcreated.trans ha.created) hno
  | done hx hcreated => exact .done hx (by rw [hcreated, ha.created])
  | failed e hx hcreated htable hd' hspent =>
    refine .failed e hx (by rw [hcreated, ha.created]) (htable.trans ha.table) ?_ hspent hno
    exact fun g s hg hs => (hd g s hg hs).trans fun s' => hd' g s' hg

theorem turn_expire (hx : Registry ks handed bound w) (hs : Sound readings w) {p : Pending}
    (hp : p ∈ w.creating) (hwake : p.wake ≤ w.now) :
    ∃ k ∈ ks, k.ticket = p.ticket ∧ Ending ks handed bound k w (w.take (.expire p)) ∧
      ∀ k' : Creation, w.Heeds k' → (w.take (.expire p)).Heeds k' := by
  obtain ⟨k, hk, ht, ⟨deadline, hwait⟩, htidy, hnew⟩ := hx.waiting p hp
  obtain ⟨s, hsess, -⟩ := id htidy
  have hmem : p ∈ w.waits := List.mem_of_mem_filter hp
  have htake : w.take (.expire p) = (w.look k.ticket k.session deadline true).settle := by
    simp only [take, hmem, hwake, and_self, if_true, expire, hwait, ht]
  have hi : w.Idle k.ticket := ht ▸ hs.booked.idle hmem (by simp [hwait])
  have hsound : Sound readings (w.look k.ticket k.session deadline true) :=
    Steps.sound (steps_look hi k.session deadline true) hs
  rw [htake]
  refine ⟨k, hk, ht, ?_, ?_⟩
  · exact (ending_look hx hs hk htidy (ht ▸ hnew) deadline).settle hsound
  · exact fun k' hh => (heeds_look hsess deadline (.inr hh)).aside (aside_settle hsound)

/-- The switchboard with a new session that was told to start. -/
def begun (w : Switchboard σ) (id : String) (d : Destination) (p : Session × σ) : Switchboard σ :=
  (w.makeSession id d w.settings).2.draw.2.put w.sessions.length p

omit [Transport σ] in
theorem session_begun (w : Switchboard σ) (id : String) (d : Destination) (p : Session × σ) :
    (w.begun id d p).sessions[w.sessions.length]? = some p.1 := by
  simp [begun, put, draw, makeSession]

omit [Transport σ] in
theorem aside_begun (w : Switchboard σ) (id : String) (d : Destination) (p : Session × σ) :
    Aside w (w.begun id d p) := ⟨rfl, rfl, rfl⟩

theorem driftApart_begun (w : Switchboard σ) (id : String) (d : Destination) (p : Session × σ) :
    DriftApart w (w.begun id d p) w.sessions.length := by
  intro g s hg hs
  have hlt := (List.getElem?_eq_some_iff.mp hs).1
  refine drifts_same ?_
  simp [begun, put, draw, makeSession, List.getElem?_append_left hlt, hs]

omit [Transport σ] in
theorem idle_begun (hw : w.Booked) (id : String) (d : Destination) (p : Session × σ) :
    (w.begun id d p).Idle w.nextTicket := hw.idle_draw.of_same rfl rfl

theorem create_cases (w : Switchboard σ) (id : String) (d : Destination) (rows cols : UInt16) :
    ∃ p, Steps w (w.begun id d p) ∧ p.1.id = id ∧
      ((∃ e, (Session.new id d w.settings).start w.now rows cols w.transport = (.error e, p) ∧
          w.create id d rows cols = (w.nextTicket,
            ((w.begun id d p).reply w.nextTicket (.created (.error e))).settle)) ∨
        (Session.new id d w.settings).start w.now rows cols w.transport = (.ok (), p) ∧
          w.create id d rows cols = (w.nextTicket, ((w.begun id d p).collect.look w.nextTicket
            w.sessions.length (w.now + p.1.settings.linkTimeout) true).settle)) := by
  have hsess : (w.makeSession id d w.settings).2.sessions[w.sessions.length]? =
      some (.new id d w.settings) := by
    simp [makeSession]
  have hid := (Session.effect (.connect w.now rows cols) (.new id d w.settings) w.transport).id
  rcases connect_cases (w.makeSession id d w.settings).2 w.sessions.length rows cols true with
    ⟨hno, -⟩ | ⟨s, p, hs, hput, hrest⟩
  · simp [hsess] at hno
  · obtain rfl : Session.new id d w.settings = s := Option.some.inj (hsess.symm.trans hs)
    refine ⟨p, .head (.made id d w.settings) hput, ?_, hrest⟩
    rcases hrest with ⟨e, hstart, -⟩ | ⟨hstart, -⟩
    all_goals
      have hp := congrArg (fun r => r.2.1.id) hstart
      exact hp.symm.trans hid

theorem Registry.begun (hx : Registry ks handed bound w) {id : String} {d : Destination}
    {p : Session × σ} (hsteps : Steps w (w.begun id d p)) (hid : p.1.id = id) :
    Registry (ks ++ [⟨w.nextTicket, w.sessions.length, id⟩]) handed bound (w.begun id d p) := by
  have hy : Registry ks handed bound (w.begun id d p) := hx.aside (aside_begun w id d p) (Steps.along hsteps) (Nat.le_succ _)
  have hlt : ∀ k ∈ ks, k.session < w.sessions.length := by
    intro k hk
    obtain ⟨s, hs, -⟩ := hx.made k hk
    exact (List.getElem?_eq_some_iff.mp hs).1
  have hmem : ∀ {k : Creation}, k ∈ ks → k ∈ ks ++ [⟨w.nextTicket, w.sessions.length, id⟩] :=
    fun hk => List.mem_append_left _ hk
  refine
    { tickets := ?_
      sessions := ?_
      drawn := ?_
      made := ?_
      waiting := ?_
      told := ?_
      table := hy.table
      sorted := hy.sorted
      rows := ?_
      kept := ?_ }
  · rw [List.map_append]
    refine List.nodup_append.mpr ⟨hx.tickets, by simp, ?_⟩
    intro t ht u hu htu
    obtain ⟨k, hk, rfl⟩ := List.mem_map.mp ht
    exact Nat.ne_of_lt (hx.drawn k hk) (htu.trans (List.mem_singleton.mp hu))
  · rw [List.map_append]
    refine List.nodup_append.mpr ⟨hx.sessions, by simp, ?_⟩
    intro t ht u hu htu
    obtain ⟨k, hk, rfl⟩ := List.mem_map.mp ht
    exact Nat.ne_of_lt (hlt k hk) (htu.trans (List.mem_singleton.mp hu))
  · intro k hk
    rcases List.mem_append.mp hk with hk | hk
    · exact hy.drawn k hk
    · rw [List.mem_singleton.mp hk]
      exact Nat.lt_succ_self _
  · intro k hk
    rcases List.mem_append.mp hk with hk | hk
    · exact hy.made k hk
    · rw [List.mem_singleton.mp hk]
      exact ⟨p.1, session_begun w id d p, hid⟩
  · intro p hp
    obtain ⟨k, hk, hrest⟩ := hy.waiting p hp
    exact ⟨k, hmem hk, hrest⟩
  · intro e he
    obtain ⟨k, hk, hrest⟩ := hy.told e he
    exact ⟨k, hmem hk, hrest⟩
  · intro id' h hb
    obtain ⟨k, hk, hrest⟩ := hy.rows id' h hb
    exact ⟨k, hmem hk, hrest⟩
  · intro k hk hok
    rcases List.mem_append.mp hk with hk | hk
    · exact hy.kept k hk hok
    · -- The new creation has no answer yet.
      obtain rfl := List.mem_singleton.mp hk
      rw [(aside_begun w id d p).created] at hok
      obtain ⟨k', hk', ht, -⟩ := hx.told _ hok
      exact absurd ht (Nat.ne_of_lt (hx.drawn k' hk'))

theorem turn_create (hx : Registry ks handed bound w) (hs : Sound readings w) (id : String)
    (d : Destination) (rows cols : UInt16) :
    let k : Creation := ⟨w.nextTicket, w.sessions.length, id⟩
    Ending (ks ++ [k]) handed bound k w (w.take (.create id d rows cols)) ∧
      ∀ k' : Creation, k' = k ∨ w.Heeds k' → (w.take (.create id d rows cols)).Heeds k' := by
  intro k
  have hnone : w.sessions[(k.session : Nat)]? = none := List.getElem?_eq_none (Nat.le_refl _)
  obtain ⟨p, hsteps, hid, hrest⟩ := create_cases w id d rows cols
  have hreg : Registry (ks ++ [k]) handed bound (w.begun id d p) := hx.begun hsteps hid
  have hidle := idle_begun hs.booked id d p
  have haside := aside_begun w id d p
  have hnew := Session.start_new w.now rows cols id d w.settings w.transport
  rcases hrest with ⟨e, hstart, he⟩ | ⟨hstart, he⟩ <;> rw [hstart] at hnew
  · have hspent : Spent (w.begun id d p) k.session e := by
      refine ⟨p.1, session_begun w id d p, ?_⟩
      rcases hnew with hun | ⟨e', p', hfail, hc, htidy⟩ | ⟨p', hok, -⟩
      · cases hun
        exact .inl ⟨⟨d, rfl⟩, rfl⟩
      · cases hfail
        exact .inr ⟨by simp, hc, htidy⟩
      · cases hok
    have hsound : Sound readings ((w.begun id d p).reply w.nextTicket (.created (.error e))) :=
      Steps.sound (hsteps.tail (.reply hidle (by simp))) hs
    have htake : w.take (.create id d rows cols) = _ := congrArg Prod.snd he
    rw [htake]
    refine ⟨Ending.settle (.failed e (hreg.fail (k := k) (by simp) e) (created_reply _ _) rfl
      (driftApart_begun w id d p) hspent (by simp [hnone])) hsound, fun k' hh => ?_⟩
    refine (heeds_reply ?_).aside (aside_settle hsound)
    exact hh.imp (congrArg Creation.ticket) (Heeds.aside · haside)
  · have htidy : (w.begun id d p).At k.session Session.Tidy := by
      refine ⟨p.1, session_begun w id d p, ?_⟩
      rcases hnew with hun | ⟨e', p', hfail, -⟩ | ⟨p', hok, htidy⟩
      · cases hun
      · cases hfail
      · cases hok
        exact htidy
    have hcollect : Steps (w.begun id d p) (w.begun id d p).collect := steps_collect _
    have hsound : Sound readings (w.begun id d p).collect := Steps.sound (hsteps.trans hcollect) hs
    have hreg' : Registry (ks ++ [k]) handed bound (w.begun id d p).collect :=
      hreg.aside ⟨rfl, rfl, rfl⟩ (Steps.along hcollect) (Nat.le_refl _)
    have htidy' := htidy.along lasting_tidy (Steps.along hcollect)
    have hdrift : DriftApart w (w.begun id d p).collect k.session :=
      fun g s hg hgs => (driftApart_begun w id d p g s hg hgs).trans fun _ => drifts_collect
    have hfresh : ∀ e ∈ (w.begun id d p).collect.created, e.1 ≠ k.ticket := by
      intro e he
      obtain ⟨k', hk', ht, -⟩ := hx.told e he
      rw [← ht]
      exact Nat.ne_of_lt (hx.drawn k' hk')
    have hend := ending_look (k := k) hreg' hsound (by simp) htidy' hfresh
      (w.now + p.1.settings.linkTimeout)
    have hidle' : (w.begun id d p).collect.Idle k.ticket := hidle.of_same rfl rfl
    have hsound' := Steps.sound (steps_look hidle' k.session (w.now + p.1.settings.linkTimeout) true)
      hsound
    have htake : w.take (.create id d rows cols) = _ := congrArg Prod.snd he
    rw [htake]
    have haside' : Aside w (w.begun id d p).collect := haside.trans ⟨rfl, rfl, rfl⟩
    refine ⟨(hend.after haside' hdrift hnone).settle hsound', fun k' hh => ?_⟩
    obtain ⟨s, hsess, -⟩ := htidy'
    refine (heeds_look (k := k) hsess _ ?_).aside (aside_settle hsound')
    exact hh.imp (congrArg Creation.ticket) (Heeds.aside · haside')

end Switchboard

end MeshShell

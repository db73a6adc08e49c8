import MeshShell.Proofs.Session.Kinship
import MeshShell.Proofs.Switchboard.Drift
import MeshShell.Proofs.Transport.Separation

/-! # When nothing is left to do

After a switchboard has settled no callback is on its way, no driver has anything
in its inbox, and no reader would get anything. What drivers do in the first
round may call back. The second round brings this to the same drivers, and what
they do then calls back no more. So settling once more does nothing that could
be noticed.
-/
namespace MeshShell

namespace Session

/-- Nobody in line would get anything. -/
def Sated (s : Session) : Prop := s.serve.1 = []

/-- The driver has nothing to take. -/
def Idle (s : Session) : Prop := s.driver = .running → s.inbox = []

theorem sated_of_take {s : Session} (h : s.readers = [] ∨ s.take = (none, s)) : s.Sated := by
  unfold Sated serve
  rcases h with h | h
  · rw [h]
    rfl
  · cases s.readers <;> simp [serveLine, h]

theorem sated_serve (s : Session) : s.serve.2.Sated := by
  suffices hall : ∀ (line : List Ticket) (s : Session), (s.serveLine line).2.Sated from
    hall s.readers s
  intro line
  induction line with
  | nil => exact fun s => sated_of_take (.inl rfl)
  | cons r rest ih =>
    intro s
    rcases s.take_some_or_none with ⟨outcome, s', ht⟩ | ht
    · simpa [serveLine, ht] using ih s'
    · have htake := Switchboard.take_readers s (r :: rest)
      rw [ht] at htake
      simpa [serveLine, ht] using sated_of_take (.inr htake)

/-- Who joins the line of a session whose line gets nothing gets nothing later. -/
theorem Sated.join {s : Session} (hs : s.Sated) (ticket : Ticket) (patient : Bool) :
    (s.join ticket patient).2.Sated := by
  rcases s.join_cases ticket patient with ⟨hr, outcome, s', ht, he⟩ | ⟨hwhy, ⟨-, he⟩ | ⟨-, he⟩⟩
  · rw [he]
    obtain ⟨queue, rfl⟩ := take_frame ht
    exact sated_of_take (.inl hr)
  · rw [he]
    have hnone : s.take = (none, s) := by
      rcases hwhy with hne | hnone
      · obtain ⟨r, rest, hr⟩ := List.exists_cons_of_ne_nil hne
        rcases s.take_some_or_none with ⟨outcome, s', ht⟩ | ht
        · simp [Sated, serve, hr, serveLine, ht] at hs
        · exact ht
      · exact hnone
    have htake := Switchboard.take_readers s (s.readers ++ [ticket])
    rw [hnone] at htake
    exact sated_of_take (.inr htake)
  · rwa [he]

theorem idle_serve {s : Session} (hs : s.Idle) : s.serve.2.Idle := by
  suffices hall : ∀ (line : List Ticket) (s : Session), s.Idle → (s.serveLine line).2.Idle from
    hall s.readers s hs
  intro line
  induction line with
  | nil => exact fun s hs => hs
  | cons r rest ih =>
    intro s hs
    rcases s.take_some_or_none with ⟨outcome, s', ht⟩ | ht
    · obtain ⟨queue, rfl⟩ := take_frame ht
      have hnext : Idle { s with output := queue } := hs
      simpa only [serveLine, ht] using ih _ hnext
    · simp only [serveLine, ht]
      exact hs

theorem idle_join {s : Session} (hs : s.Idle) (ticket : Ticket) (patient : Bool) :
    (s.join ticket patient).2.Idle := by
  rcases s.join_cases ticket patient with ⟨-, outcome, s', ht, he⟩ | ⟨-, ⟨-, he⟩ | ⟨-, he⟩⟩
  · rw [he]
    obtain ⟨queue, rfl⟩ := take_frame ht
    exact hs
  · rw [he]
    exact hs
  · rwa [he]

variable {σ : Type} [Transport σ]

theorem idle_handleAll (events : List LinkEvent) (s : Session) (t : σ) (hi : s.inbox = []) :
    (s.handleAll t events).1.Idle := by
  induction events generalizing s t with
  | nil => exact fun _ => hi
  | cons e rest ih =>
    unfold handleAll
    split
    · have hh : Handled s e (s.handle e t).1 := handled e s t
      cases hs : s.handle e t with
      | mk s' t' =>
        rw [hs] at hh
        by_cases hd : s'.driver = .ended
        · -- A driver that has ended takes nothing more.
          have hstop : s'.handleAll t' rest = (s', t') := by
            cases rest <;> simp [handleAll, hd]
          intro hr
          simp [hstop, hd] at hr
        · exact ih s' t' ((hh.inbox hd).trans hi)
    · exact fun _ => hi

theorem idle_drive (s : Session) (t : σ) : (s.drive t).1.Idle := by
  unfold drive
  split
  · exact idle_handleAll s.inbox _ t rfl
  · rename_i hd
    exact fun hr => absurd hr hd

theorem drive_of_idle {s : Session} (hs : s.Idle) (t : σ) : s.drive t = (s, t) := by
  unfold drive
  split
  · rename_i hd
    have hi := hs hd
    rw [hi]
    have hsame : { s with inbox := [] } = s := by rw [← hi]
    rw [hsame]
    rfl
  · rfl

end Session

/-- Sessions that have the same link, or none. -/
def Kin.tied (link : Option LinkId) : Kin := ⟨fun _ => True, Eq, Eq, fun l l' => l = l' ∧ link = some l⟩

theorem Session.Consistent.alike_tied {s : Session} (hs : s.Consistent) :
    (Kin.tied s.opened).Alike s s := by
  have hrel : ∀ o : Option LinkId, (∀ l, o = some l → s.opened = some l) →
      Option.Rel (Kin.tied s.opened).link o o := by
    intro o ho
    cases o with
    | none => exact .none
    | some l => exact .some ⟨rfl, ho l rfl⟩
  refine .intro trivial (hrel _ hs.link_opened) (hrel _ hs.channel_opened) (hrel _ fun _ h => h) ?_
    (List.forall₂_same.mpr fun _ _ => rfl)
  refine List.forall₂_same.mpr fun e he => ?_
  cases e with
  | established l => exact .established ⟨rfl, hs.inbox_opened l he⟩
  | closed => exact .closed
  | message m => exact .message m
  | shutdown => exact .shutdown

namespace Separation

variable {σ : Type} [Transport σ] {S : Separation σ} {t : σ} {s : Session}

/-- What everything keeps that may be done on a link is kept by the driver of the link. -/
theorem drive_keeps {P : σ → Prop} (hs : s.Consistent) (ht : P t)
    (hact : ∀ {f : LinkId → σ → σ} (hf : S.Local f), Layout.Settling S.still S.mute hf.effect →
      ∀ {l t}, s.opened = some l → P t → P (f l t)) : P (s.drive t).2 := by
  have hcouples : Kin.Couples (Kin.tied s.opened).link fun t t' => t = t' ∧ P t :=
    { channel := by
        rintro l l' t t' ⟨rfl, -⟩ ⟨rfl, -⟩
        rfl
      setHandler := by
        rintro l l' t t' ⟨rfl, hl⟩ ⟨rfl, ht⟩
        exact ⟨rfl, hact S.handling S.handling_settling hl ht⟩
      send := by
        rintro l l' m t t' ⟨rfl, hl⟩ ⟨rfl, ht⟩
        exact ⟨rfl, rfl, hact (S.sending m) (S.sending_settling m) hl ht⟩
      teardown := by
        rintro l l' t t' ⟨rfl, hl⟩ ⟨rfl, ht⟩
        exact ⟨rfl, hact S.tearing S.tearing_settling hl ht⟩ }
  exact (Kin.drive hcouples hs.alike_tied ⟨rfl, ht⟩).2.2

end Separation

namespace Switchboard

variable {σ : Type} [Transport σ] {S : Separation σ} {v w : Switchboard σ}

structure Calm (S : Separation σ) (w : Switchboard σ) : Prop where
  sated : ∀ s ∈ w.sessions, s.Sated
  idle : ∀ s ∈ w.sessions, s.Idle
  consistent : w.Consistent
  drained : S.Drained w.transport

theorem draining_driveAll {sessions : List Session} (hs : ∀ s ∈ sessions, s.Consistent) {t : σ}
    (ht : S.Draining t) : S.Draining (driveAll sessions t).2 := by
  induction sessions generalizing t with
  | nil => exact ht
  | cons s rest ih =>
    have hnext : S.Draining (s.drive t).2 := by
      refine S.drive_keeps (P := S.Draining) (hs s List.mem_cons_self) ht ?_
      intro f hf hset l t _ ht
      exact ht.act hf hset l
    exact ih (fun s' hs' => hs s' (List.mem_cons_of_mem s hs')) hnext

theorem spent_driveAll {links : LinkId → Prop} {sessions : List Session}
    (hs : ∀ s ∈ sessions, s.Idle ∨ s.Consistent ∧ ∀ l, s.opened = some l → links l) {t : σ}
    (ht : S.Spent links t) : S.Spent links (driveAll sessions t).2 := by
  induction sessions generalizing t with
  | nil => exact ht
  | cons s rest ih =>
    have hnext : S.Spent links (s.drive t).2 := by
      rcases hs s List.mem_cons_self with hidle | ⟨hcons, hl⟩
      · rwa [Session.drive_of_idle hidle]
      · refine S.drive_keeps (P := S.Spent links) hcons ht ?_
        intro f hf hset l t ho ht
        exact ht.act hf hset (hl l ho)
    exact ih (fun s' hs' => hs s' (List.mem_cons_of_mem s hs')) hnext

theorem idle_driveAll (sessions : List Session) (t : σ) :
    ∀ s ∈ (driveAll sessions t).1, s.Idle := by
  induction sessions generalizing t with
  | nil => simp [driveAll]
  | cons s rest ih =>
    intro s' hs'
    rcases List.mem_cons.mp hs' with rfl | hs'
    · exact Session.idle_drive s t
    · exact ih _ s' hs'

omit [Transport σ] in
theorem idle_serveAll (handles : List Handle) (w : Switchboard σ) (hw : ∀ s ∈ w.sessions, s.Idle) :
    ∀ s ∈ (handles.foldl serve w).sessions, s.Idle := by
  induction handles generalizing w with
  | nil => exact hw
  | cons g rest ih =>
    refine ih (w.serve g) fun s' hs' => ?_
    cases hg : w.sessions[g]? with
    | none => exact hw s' (by simpa [serve, hg] using hs')
    | some s =>
      rw [sessions_serve hg] at hs'
      rcases List.mem_or_eq_of_mem_set hs' with hs' | rfl
      · exact hw s' hs'
      · exact Session.idle_serve (hw s (List.mem_of_getElem? hg))

end Switchboard

/-- The callbacks that are about one link. -/
def callbacksOf (l : LinkId) (callbacks : List (LinkId × Callback)) : List Callback :=
  (callbacks.filter (·.1 = l)).map (·.2)

/-- A session with what came back on its link. -/
def Session.hear (callbacks : List (LinkId × Callback)) (s : Session) : Session :=
  match s.opened with
  | none => s
  | some l =>
    (callbacksOf l callbacks).foldl (fun s c => s.push (Switchboard.eventOf l c)) s

namespace Switchboard

variable {σ : Type} [Transport σ] {S : Separation σ} {v w : Switchboard σ}

theorem opened_push (s : Session) (e : LinkEvent) : (s.push e).opened = s.opened := by
  obtain ⟨inbox, h⟩ := s.push_frame e
  rw [h]

theorem foldl_receive (callbacks : List (LinkId × Callback)) (sessions : List Session) :
    callbacks.foldl receive sessions = sessions.map (Session.hear callbacks) := by
  induction callbacks generalizing sessions with
  | nil =>
    have hsame : Session.hear [] = id := by
      funext s
      unfold Session.hear callbacksOf
      cases s.opened <;> rfl
    rw [List.foldl_nil, hsame, List.map_id]
  | cons first rest ih =>
    obtain ⟨l, c⟩ := first
    rw [List.foldl_cons, ih, receive, List.map_map]
    congr 1
    funext s
    unfold Session.hear callbacksOf
    by_cases ho : s.opened = some l
    · simp [ho, opened_push]
    · cases hs : s.opened with
      | none => simp [hs]
      | some k =>
        have hk : l ≠ k := by
          rintro rfl
          exact ho hs
        simp [hs, hk, Ne.symm hk]

theorem opened_hear (callbacks : List (LinkId × Callback)) (s : Session) :
    (s.hear callbacks).opened = s.opened := by
  have hpush : ∀ (l : LinkId) (cs : List Callback) (s : Session),
      (cs.foldl (fun s c => s.push (eventOf l c)) s).opened = s.opened := by
    intro l cs
    induction cs with
    | nil => exact fun _ => rfl
    | cons c rest ih => exact fun s => (ih _).trans (opened_push s _)
  unfold Session.hear
  cases ho : s.opened with
  | none => exact ho
  | some l => exact (hpush l _ s).trans ho

theorem hear_of_silent {s : Session} {l : LinkId} (ho : s.opened = some l)
    {callbacks : List (LinkId × Callback)} (hc : callbacksOf l callbacks = []) :
    s.hear callbacks = s := by
  simp [Session.hear, ho, hc]

theorem silent_of_not_calling {t : σ} {l : LinkId} (h : ¬ S.Calling t l) :
    callbacksOf l (Transport.deliver t).1 = [] := by
  unfold Separation.Calling at h
  push Not at h
  obtain ⟨x, hx, hstill⟩ := h
  exact (S.deliver_eq hx).trans (S.waiting_still hstill)

theorem collect_eq (w : Switchboard σ) : w.collect =
    { w with
      sessions := w.sessions.map (Session.hear (Transport.deliver w.transport).1)
      transport := (Transport.deliver w.transport).2 } := by
  unfold collect
  dsimp only
  rw [foldl_receive]

/-- The second round brings the last callbacks. -/
theorem drained_round (S : Separation σ) (hw : w.Consistent) : S.Drained w.round.round.transport := by
  have hcollect : w.collect.Consistent := (steps_collect w).consistent hw
  have hround : w.round.Consistent := (steps_round w).consistent hw
  have hdraining : S.Draining w.round.transport :=
    draining_driveAll hcollect (S.drained_deliver w.transport).draining
  have hidle : ∀ s ∈ w.round.sessions, s.Idle :=
    idle_driveAll w.collect.sessions w.collect.transport
  have hspent : S.Spent (S.Calling w.round.transport) w.round.collect.transport := hdraining.spent
  have hlast : ∀ s' ∈ w.round.collect.sessions,
      s'.Idle ∨ s'.Consistent ∧ ∀ l, s'.opened = some l → S.Calling w.round.transport l := by
    intro s' hs'
    by_cases hcalled : ∀ l, s'.opened = some l → S.Calling w.round.transport l
    · exact .inr ⟨(steps_collect w.round).consistent hround s' hs', hcalled⟩
    · -- A session that nobody has called is what it was before.
      rw [collect_eq] at hs'
      obtain ⟨s, hs, rfl⟩ := List.mem_map.mp hs'
      push Not at hcalled
      obtain ⟨l, ho, hnot⟩ := hcalled
      rw [opened_hear] at ho
      rw [hear_of_silent ho (silent_of_not_calling hnot)]
      exact .inl (hidle s hs)
  exact (spent_driveAll hlast hspent).drained

theorem calm_settle (S : Separation σ) (hw : w.Consistent) : Calm S w.settle where
  sated := holds_settle Session.sated_serve w
  idle := idle_serveAll _ w.round.round
    (idle_driveAll w.round.collect.sessions w.round.collect.transport)
  consistent := (steps_settle w).consistent hw
  drained := by
    obtain ⟨_, _, _, hs⟩ :=
      serveAll_frame (List.range w.round.round.sessions.length) w.round.round
    unfold settle
    dsimp only
    rw [hs]
    exact drained_round S hw

/-- The link of every session is there. -/
def Linked (S : Separation σ) (w : Switchboard σ) : Prop :=
  ∀ s ∈ w.sessions, ∀ l, s.opened = some l → ∃ x, S.line w.transport l = some x

/-- Nothing has changed that could be noticed. -/
def Rests (S : Separation σ) (v v' : Switchboard σ) : Prop :=
  ∃ t, v' = { v with transport := t } ∧ S.Like v.transport t

theorem Rests.trans {v v' v'' : Switchboard σ} (h : Rests S v v') (h' : Rests S v' v'') :
    Rests S v v'' := by
  obtain ⟨t, rfl, ht⟩ := h
  obtain ⟨t', rfl, ht'⟩ := h'
  exact ⟨t', rfl, ht.trans ht'⟩

theorem Rests.calm {v' : Switchboard σ} (h : Rests S v v') (hc : Calm S v) : Calm S v' := by
  obtain ⟨t, rfl, ht⟩ := h
  exact ⟨hc.sated, hc.idle, hc.consistent, hc.drained.like ht⟩

theorem Rests.linked {v' : Switchboard σ} (h : Rests S v v') (hl : Linked S v) : Linked S v' := by
  obtain ⟨t, rfl, ht⟩ := h
  intro s hs l ho
  obtain ⟨x, hx⟩ := hl s hs l ho
  exact ⟨x, (ht.line l).trans hx⟩

theorem rests_collect (hc : Calm S v) (hl : Linked S v) : Rests S v v.collect := by
  refine ⟨(Transport.deliver v.transport).2, ?_, hc.drained.deliver_like⟩
  have hsame : ∀ s ∈ v.sessions, s.hear (Transport.deliver v.transport).1 = s := by
    intro s hs
    cases ho : s.opened with
    | none => simp [Session.hear, ho]
    | some l =>
      obtain ⟨x, hx⟩ := hl s hs l ho
      exact hear_of_silent ho ((S.deliver_eq hx).trans (S.waiting_still (hc.drained l x hx)))
  rw [collect_eq, List.map_congr_left hsame, List.map_id']

theorem driveAll_of_idle {sessions : List Session} (hs : ∀ s ∈ sessions, s.Idle) (t : σ) :
    driveAll sessions t = (sessions, t) := by
  induction sessions with
  | nil => rfl
  | cons s rest ih =>
    have hrest := ih fun s' hs' => hs s' (List.mem_cons_of_mem s hs')
    simp [driveAll, Session.drive_of_idle (hs s List.mem_cons_self), hrest]

theorem rests_round (hc : Calm S v) (hl : Linked S v) : Rests S v v.round := by
  have hcollect := rests_collect hc hl
  have hround : v.round = v.collect := by
    unfold round
    dsimp only
    rw [driveAll_of_idle (hcollect.calm hc).idle]
  rwa [hround]

omit [Transport σ] in
theorem serve_of_sated {h : Handle} (hs : ∀ s ∈ v.sessions, s.Sated) : v.serve h = v := by
  unfold serve
  cases hg : v.sessions[h]? with
  | none => rfl
  | some s =>
    have hnone : s.serve.1 = [] := hs s (List.mem_of_getElem? hg)
    dsimp only
    cases hserve : s.serve with
    | mk served s' =>
      rw [hserve] at hnone
      obtain rfl : served = [] := hnone
      rfl

theorem rests_settle (hc : Calm S v) (hl : Linked S v) : Rests S v v.settle := by
  have hround := rests_round hc hl
  have htwice := hround.trans (rests_round (hround.calm hc) (hround.linked hl))
  have hserve : ∀ handles : List Handle, handles.foldl serve v.round.round = v.round.round := by
    intro handles
    induction handles with
    | nil => rfl
    | cons g rest ih => rw [List.foldl_cons, serve_of_sated (htwice.calm hc).sated, ih]
  have hsettle : v.settle = v.round.round := hserve _
  rwa [hsettle]

end Switchboard

end MeshShell

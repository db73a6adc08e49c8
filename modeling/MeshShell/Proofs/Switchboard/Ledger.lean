import MeshShell.Proofs.Switchboard.Ending
import MeshShell.Proofs.Switchboard.Removal
import MeshShell.Transport.Scripted

/-! # No session is lost

Over all runs of a switchboard the table is the map that creations bind and that
removals unbind. A created session is found under its id, was handed out, or is
closed with its link torn down, however many creations are on their way at once.
-/
namespace MeshShell.Switchboard

variable {σ : Type} [Transport σ] {w w' : Switchboard σ}

/-- A switchboard, the creations that were called for, the sessions that were handed out, and where
the ids ought to lead. -/
structure Ledger (σ : Type) where
  board : Switchboard σ
  creations : List Creation
  handed : List Handle
  bound : String → Option Handle

omit [Transport σ] in
def Call.creation? (w : Switchboard σ) : Call σ → Option Creation
  | .create id _ _ _ => some ⟨w.nextTicket, w.sessions.length, id⟩
  | _ => none

def Call.handed? (w : Switchboard σ) : Call σ → Option Handle
  | .remove id => (w.remove id).1
  | _ => none

omit [Transport σ] in
/-- Taking an id out unbinds it, and closing all sessions unbinds all ids. -/
def Call.unbind (bound : String → Option Handle) : Call σ → String → Option Handle
  | .remove id => Function.update bound id none
  | .closeId id => Function.update bound id none
  | .closeAll => fun _ => none
  | _ => bound

/-- A creation that succeeds binds its id to its session. -/
def complete (ks : List Creation) (bound : String → Option Handle)
    (e : Ticket × Except SessionError Handle) : String → Option Handle :=
  match e.2, ks.find? (·.ticket = e.1) with
  | .ok _, some k => Function.update bound k.id (some k.session)
  | _, _ => bound

namespace Ledger

/-- What creations come to with a call. -/
def news (u : Ledger σ) (c : Call σ) : List (Ticket × Except SessionError Handle) :=
  (u.board.take c).created.drop u.board.created.length

def enter (c : Call σ) (u : Ledger σ) : Ledger σ :=
  let creations := u.creations ++ (c.creation? u.board).toList
  { board := u.board.take c
    creations
    handed := u.handed ++ (c.handed? u.board).toList
    bound := (u.news c).foldl (complete creations) (c.unbind u.bound) }

structure Good (u : Ledger σ) : Prop where
  watched : ∃ readings, Watched.Good ⟨u.board, readings⟩
  registry : Registry u.creations u.handed u.bound u.board
  heeded : ∀ k ∈ u.creations, u.board.Heeds k

end Ledger

/-- Sessions come into the table by their creation and in no other way. -/
def Call.Regular : Call σ → Prop
  | .register _ => False
  | .connect _ _ _ wanted => wanted = false
  | _ => True

section Turn

variable {u : Ledger σ} {c : Call σ} {ks : List Creation} {handed : List Handle}
variable {bound : String → Option Handle} {k : Creation}

theorem find_ticket (hnodup : (ks.map (·.ticket)).Nodup) (hk : k ∈ ks) :
    ks.find? (·.ticket = k.ticket) = some k := by
  cases hf : ks.find? (·.ticket = k.ticket) with
  | none =>
    have hno := List.find?_eq_none.mp hf k hk
    simp at hno
  | some k' =>
    have ht : k'.ticket = k.ticket := by simpa using List.find?_some hf
    rw [List.inj_on_of_nodup_map hnodup (List.mem_of_find?_eq_some hf) hk ht]

theorem Ending.registry (he : Ending ks handed bound k w w') (hk : k ∈ ks) :
    Registry ks handed ((w'.created.drop w.created.length).foldl (complete ks) bound) w' := by
  cases he with
  | waits hx hcreated =>
    rw [hcreated, List.drop_length]
    exact hx
  | done hx hcreated =>
    rw [hcreated, List.drop_left]
    simpa only [List.foldl_cons, List.foldl_nil, complete, find_ticket hx.tickets hk] using hx
  | failed e hx hcreated =>
    rw [hcreated, List.drop_left]
    exact hx

/-- In a call one creation has its turn, or none. -/
inductive Turn (c : Call σ) (u : Ledger σ) : Prop
  | nobody : (u.board.take c).created = u.board.created →
      Registry (u.enter c).creations (u.enter c).handed (c.unbind u.bound) (u.board.take c) →
      Turn c u
  | one (k : Creation) : k ∈ (u.enter c).creations → (u.enter c).handed = u.handed →
      c.unbind u.bound = u.bound →
      Ending (u.enter c).creations u.handed u.bound k u.board (u.board.take c) → Turn c u

theorem Step.nextTicket_le (hst : Step w w') : w.nextTicket ≤ w'.nextTicket := by
  cases hst with
  | draw => exact Nat.le_succ _
  | _ => exact Nat.le_refl _

theorem Steps.nextTicket_le (hst : Steps w w') : w.nextTicket ≤ w'.nextTicket := by
  induction hst with
  | refl => exact Nat.le_refl _
  | tail _ hstep ih => exact ih.trans hstep.nextTicket_le

theorem nextTicket_take (hw : w.Booked) (hset : w.Settled) (c : Call σ) :
    w.nextTicket ≤ (w.take c).nextTicket := by
  by_cases hc : c.Plain
  · exact Steps.nextTicket_le (steps_take hw hset hc)
  · cases c with
    | read h span =>
      dsimp only [take]
      cases hs : w.sessions[h]? with
      | none =>
        rw [read_none hs]
        exact Nat.le_succ _
      | some s =>
        rw [read_eq hs]
        cases s.join w.nextTicket (0 < span) with
        | mk outcome s' => cases outcome <;> exact Nat.le_succ _
    | advance time =>
      exact (nextTicket_settle { w with
        now := max w.now time
        transport := Transport.wake (max w.now time) w.transport }).ge
    | _ => exact absurd trivial hc

end Turn

namespace Ledger

variable {u : Ledger σ} {c : Call σ}

/-- A call that takes sessions out of the table gives no creation its turn. -/
theorem Good.removal (hu : u.Good) (hc : c.creation? u.board = none) {readings : List Reading}
    (hs : Sound readings w) (htake : u.board.take c = w ∨ u.board.take c = w.settle)
    (hcreating : w.creating = u.board.creating) (hcreated : w.created = u.board.created)
    (hreg : Registry u.creations (u.enter c).handed (c.unbind u.bound) w) :
    Turn c u ∧ ∀ k ∈ (u.enter c).creations, (u.board.take c).Heeds k := by
  have hks : (u.enter c).creations = u.creations := by simp [enter, hc]
  have hheeds : ∀ k ∈ u.creations, w.Heeds k := by
    intro k hk
    unfold Heeds
    rw [hcreating, hcreated]
    exact hu.heeded k hk
  rcases htake with htake | htake
  · refine ⟨.nobody (by rw [htake, hcreated]) ?_, ?_⟩ <;> rw [hks, htake]
    · exact hreg
    · exact hheeds
  · refine ⟨.nobody (by rw [htake, (aside_settle hs).created, hcreated]) ?_, ?_⟩ <;> rw [hks, htake]
    · exact hreg.settle hs
    · exact fun k hk => (hheeds k hk).aside (aside_settle hs)

theorem Good.turn (hu : u.Good) (hc : c.Regular) :
    Turn c u ∧ ∀ k ∈ (u.enter c).creations, (u.board.take c).Heeds k := by
  obtain ⟨⟨readings, hs, hset⟩, hx, hheeds⟩ := id hu
  replace hs : Sound readings u.board := hs
  replace hset : u.board.Settled := hset
  by_cases hun : c.Unrelated
  · have ha : Aside u.board (u.board.take c) := aside_take hs hset hun
    have hcreations : (u.enter c).creations = u.creations := by
      cases c <;> simp_all [enter, Call.creation?, Call.Unrelated]
    have hhanded : (u.enter c).handed = u.handed := by
      cases c <;> simp_all [enter, Call.handed?, Call.Unrelated]
    have hunbind : c.unbind u.bound = u.bound := by
      cases c <;> first | rfl | exact hun.elim
    refine ⟨.nobody ha.created ?_, ?_⟩
    · rw [hcreations, hhanded, hunbind]
      exact hx.aside ha (along_take hs.booked hset c) (nextTicket_take hs.booked hset c)
    · rw [hcreations]
      exact fun k hk => (hheeds k hk).aside ha
  · cases c with
    | create id d rows cols =>
      obtain ⟨hend, hall⟩ := turn_create hx hs id d rows cols
      have hcreations : (u.enter (.create id d rows cols)).creations =
          u.creations ++ [⟨u.board.nextTicket, u.board.sessions.length, id⟩] := rfl
      refine ⟨.one ⟨u.board.nextTicket, u.board.sessions.length, id⟩ (by simp [hcreations])
        (List.append_nil _) rfl hend, ?_⟩
      rw [hcreations]
      intro k hk
      rcases List.mem_append.mp hk with hk | hk
      · exact hall k (.inr (hheeds k hk))
      · exact hall k (.inl (List.mem_singleton.mp hk))
    | remove id =>
      refine hu.removal rfl (Steps.sound (steps_remove u.board id) hs) (.inl rfl) rfl rfl ?_
      exact hx.remove id
    | closeId id =>
      obtain ⟨sessions, t, hf⟩ := closeId_frame u.board id
      refine hu.removal rfl (Steps.sound (steps_closeId u.board id) hs) (.inr rfl) (by rw [hf]; rfl)
        (by rw [hf]; rfl) ?_
      simpa [enter, Call.handed?, Call.unbind] using hx.closeId id
    | closeAll =>
      obtain ⟨sessions, t, hf⟩ := closeAll_frame u.board
      refine hu.removal rfl (Steps.sound (steps_closeAll u.board) hs) (.inr rfl) (by rw [hf]; rfl)
        (by rw [hf]; rfl) ?_
      simpa [enter, Call.handed?, Call.unbind] using hx.closeAll
    | expire p =>
      have hcreations : (u.enter (.expire p)).creations = u.creations := List.append_nil _
      have hreg : p.wait.registers = true := by simpa [Call.Unrelated] using hun
      by_cases hdue : p ∈ u.board.waits ∧ p.wake ≤ u.board.now
      · obtain ⟨k, hk, -, hend, hall⟩ :=
          turn_expire hx hs (List.mem_filter.mpr ⟨hdue.1, hreg⟩) hdue.2
        refine ⟨.one k (hcreations ▸ hk) (List.append_nil _) rfl (hcreations ▸ hend), ?_⟩
        rw [hcreations]
        exact fun k hk => hall k (hheeds k hk)
      · have htake : u.board.take (.expire p) = u.board := if_neg hdue
        refine hu.removal rfl hs (.inl htake) rfl rfl ?_
        simpa [enter, Call.handed?, Call.unbind] using hx
    | register => exact hc.elim
    | connect => exact absurd hc hun
    | _ => exact absurd trivial hun

theorem Good.enter (hu : u.Good) (hc : c.Regular) : (u.enter c).Good := by
  obtain ⟨hturn, hheeds⟩ := hu.turn hc
  obtain ⟨readings, hw⟩ := hu.watched
  refine ⟨⟨_, hw.watch c⟩, ?_, hheeds⟩
  cases hturn with
  | nobody hcreated hreg =>
    have hnews : u.news c = [] := by rw [news, hcreated, List.drop_length]
    have hbound : (u.enter c).bound = c.unbind u.bound := by
      show (u.news c).foldl _ _ = _
      rw [hnews]
      rfl
    rw [hbound]
    exact hreg
  | one k hk hhanded hunbind hend =>
    have hreg := hend.registry hk
    have hbound : (u.enter c).bound = (u.news c).foldl (complete (u.enter c).creations) u.bound := by
      rw [← hunbind]
      rfl
    rw [hhanded, hbound]
    exact hreg

end Ledger

namespace Traffic

def opening (x : Traffic σ) : Ledger σ :=
  { board := .new x.transport x.settings, creations := [], handed := [], bound := fun _ => none }

def entries (x : Traffic σ) : List (Ledger σ × Call σ) := trail Ledger.enter x.opening x.calls

def ledger (x : Traffic σ) : Ledger σ := reach Ledger.enter x.opening x.calls

theorem ledgerRun (x : Traffic σ) : Run Ledger.enter x.opening x.entries x.ledger :=
  .of_actions Ledger.enter x.opening x.calls

def Regular (x : Traffic σ) : Prop := ∀ c ∈ x.calls, c.Regular

theorem good_opening (x : Traffic σ) : x.opening.Good where
  watched := ⟨[], x.good_start⟩
  registry :=
    { tickets := List.nodup_nil
      sessions := List.nodup_nil
      drawn := by simp [opening]
      made := by simp [opening]
      waiting := by simp [opening, new, creating]
      told := by simp [opening, new, created]
      table := rfl
      sorted := List.Pairwise.nil
      rows := by simp [opening]
      kept := by simp [opening] }
  heeded := by simp [opening]

variable {x : Traffic σ}

theorem Regular.of_mem (hx : x.Regular) {u : Ledger σ} {c : Call σ} (hm : (u, c) ∈ x.entries) :
    c.Regular := by
  have hc : c ∈ (trail Ledger.enter x.opening x.calls).map (·.2) := List.mem_map_of_mem hm
  rw [trail_actions] at hc
  exact hx c hc

theorem Regular.good_run (hx : x.Regular) {hist : List (Ledger σ × Call σ)} {u : Ledger σ}
    (hr : Run Ledger.enter x.opening hist u) (hsub : ∀ p ∈ hist, p ∈ x.entries) : u.Good := by
  induction hr with
  | nil => exact x.good_opening
  | @snoc hist u c _ ih =>
    have hu := ih fun p hp => hsub p (List.mem_append_left _ hp)
    exact hu.enter (hx.of_mem (hsub (u, c) (by simp)))

theorem Regular.good (hx : x.Regular) : x.ledger.Good := hx.good_run x.ledgerRun fun _ h => h

theorem Regular.good_of_mem (hx : x.Regular) {u : Ledger σ} {c : Call σ}
    (hm : (u, c) ∈ x.entries) : u.Good := by
  obtain ⟨before, after, hhist, hr, -⟩ := x.ledgerRun.cut hm
  exact hx.good_run hr fun p hp => by simp [hhist, hp]

end Traffic

/-- A session is closed, and in every life that leads to it all its links are torn down. -/
def Over (w : Switchboard σ) (h : Handle) : Prop :=
  w.At h fun s => s.closed = true ∧ (∃ l : Session.Life σ, l.outcome = (s, w.transport)) ∧
    ∀ l : Session.Life σ, l.session = s → l.recorded.outcome.2.Cleared

theorem over_of_tidy {readings : List Reading} (hs : Sound readings w) {h : Handle} {s : Session}
    (hsess : w.sessions[(h : Nat)]? = some s) (hc : s.closed = true) (ht : s.Tidy) : w.Over h := by
  obtain ⟨l, hl, -⟩ := hs.lives h s hsess
  refine ⟨s, hsess, hc, ⟨l, hl⟩, fun l' hl' => l'.cleared ?_⟩
  rw [hl']
  exact ht.2 hc

def Ledger.Succeeded (u : Ledger σ) (k : Creation) : Prop :=
  k ∈ u.creations ∧ (k.ticket, .ok k.session) ∈ u.board.created

/-- What is left of the session of a failed creation: it never had a link, or it is over. -/
def Failed (w : Switchboard σ) (h : Handle) (e : SessionError) : Prop :=
  (∃ d, e = .identityUnresolved d) ∧ w.At h (fun s => s = .new s.id s.destination s.settings) ∨
    (∀ d, e ≠ .identityUnresolved d) ∧ w.Over h

/-- What can be relied on in every run. -/
structure Traffic.Accounted (x : Traffic σ) : Prop where
  /-- The table is the map that creations bind and that removals unbind. -/
  table : ∀ id, x.ledger.board.registered? id = x.ledger.bound id
  keys : (x.ledger.board.table.map (·.1)).Nodup
  owner : ∀ id h, (id, h) ∈ x.ledger.board.table → x.ledger.board.At h (·.id = id)
  /-- No created session is lost. -/
  kept : ∀ k, x.ledger.Succeeded k → x.ledger.bound k.id = some k.session ∨
    k.session ∈ x.ledger.handed ∨ x.ledger.board.Over k.session
  single : ∀ k k', x.ledger.Succeeded k → x.ledger.Succeeded k' → k.id = k'.id →
    x.ledger.board.At k.session (·.closed = false) → k.session ∉ x.ledger.handed →
    x.ledger.board.At k'.session (·.closed = false) → k'.session ∉ x.ledger.handed → k = k'
  /-- A caller that asks for a session waits or has its answer. -/
  asked : ∀ u id d rows cols, (u, .create id d rows cols) ∈ x.entries →
    ∃ k ∈ (u.enter (.create id d rows cols)).creations,
      k.ticket = (u.board.create id d rows cols).1 ∧ k.id = id
  heeded : ∀ k ∈ x.ledger.creations, x.ledger.board.Heeds k
  told : ∀ e ∈ x.ledger.board.created, ∃ k ∈ x.ledger.creations, k.ticket = e.1 ∧
    ∀ h, e.2 = .ok h → h = k.session
  /-- A creation that fails leaves the table and all other sessions alone. -/
  failed : ∀ u c, (u, c) ∈ x.entries → ∀ t e, (t, .error e) ∈ u.news c →
    ∃ k ∈ (u.enter c).creations, k.ticket = t ∧ (u.enter c).board.table = u.board.table ∧
      DriftApart u.board (u.enter c).board k.session ∧ Failed (u.enter c).board k.session e
  /-- A creation succeeds when its turn comes and its link is up, whatever was closed before. -/
  completed : ∀ u p, (u, .expire p) ∈ x.entries → p ∈ u.board.creating → p.wake ≤ u.board.now →
    ∀ k ∈ u.creations, k.ticket = p.ticket → u.board.At k.session (·.phase = .active) →
      (u.enter (.expire p)).Succeeded k ∧ (u.enter (.expire p)).bound k.id = some k.session
  removed : ∀ u id, (u, .remove id) ∈ x.entries → (u.board.remove id).1 = u.bound id ∧
    (u.enter (.remove id)).board.sessions = u.board.sessions
  closedId : ∀ u id, (u, .closeId id) ∈ x.entries →
    (u.board.closeId id).1 = (u.bound id).isSome ∧
      ∀ h, u.bound id = some h → (u.enter (.closeId id)).board.Over h
  /-- Closing all sessions leaves those alone that are still on their way. -/
  closedAll : ∀ u, (u, .closeAll) ∈ x.entries → u.board.closeAll.1 = u.board.table.length ∧
    (u.enter .closeAll).board.table = [] ∧
    (∀ id h, u.bound id = some h → (u.enter .closeAll).board.Over h) ∧
    (u.enter .closeAll).board.creating = u.board.creating ∧
    ∀ p ∈ u.board.creating, ∀ k ∈ u.creations, k.ticket = p.ticket →
      ∀ s, u.board.sessions[(k.session : Nat)]? = some s →
        Drifts u.board (u.enter .closeAll).board k.session s

namespace Ledger

variable {u : Ledger σ} {c : Call σ} {k k' : Creation} {id : String} {h : Handle}

theorem Good.over (hu : u.Good) (hc : u.board.At h (·.closed = true))
    (ht : u.board.At h Session.Tidy) : u.board.Over h := by
  obtain ⟨⟨readings, hs, -⟩, -, -⟩ := hu
  obtain ⟨s, hsess, hclosed⟩ := hc
  obtain ⟨s', hsess', htidy⟩ := ht
  obtain rfl : s = s' := Option.some.inj (hsess.symm.trans hsess')
  exact over_of_tidy hs hsess hclosed htidy

theorem Good.tidy (hu : u.Good) (hk : u.Succeeded k) : u.board.At k.session Session.Tidy := by
  obtain ⟨k', hk', ht, hok⟩ := hu.registry.told _ hk.2
  obtain rfl : k' = k := hu.registry.eq_of_ticket hk' hk.1 ht
  exact (hok k'.session rfl).2

theorem Good.kept (hu : u.Good) (hk : u.Succeeded k) :
    u.bound k.id = some k.session ∨ k.session ∈ u.handed ∨ u.board.Over k.session :=
  (hu.registry.kept k hk.1 hk.2).imp_right fun h => h.imp_right fun hc => hu.over hc (hu.tidy hk)

theorem Good.bound_of_open (hu : u.Good) (hk : u.Succeeded k)
    (ho : u.board.At k.session (·.closed = false)) (hout : k.session ∉ u.handed) :
    u.bound k.id = some k.session := by
  rcases hu.kept hk with hb | hm | ⟨s, hs, hc, -⟩
  · exact hb
  · exact absurd hm hout
  · obtain ⟨s', hs', hopen⟩ := ho
    obtain rfl : s = s' := Option.some.inj (hs.symm.trans hs')
    simp [hc] at hopen

theorem Good.failed (hu : u.Good) (hc : c.Regular) {t : Ticket} {e : SessionError}
    (hm : (t, .error e) ∈ u.news c) :
    ∃ k ∈ (u.enter c).creations, k.ticket = t ∧ (u.enter c).board.table = u.board.table ∧
      DriftApart u.board (u.enter c).board k.session ∧ Failed (u.enter c).board k.session e := by
  rw [news] at hm
  cases (hu.turn hc).1 with
  | nobody hcreated =>
    rw [hcreated, List.drop_length] at hm
    exact absurd hm List.not_mem_nil
  | one k hk _ _ hend =>
    cases hend with
    | waits _ hcreated =>
      rw [hcreated, List.drop_length] at hm
      exact absurd hm List.not_mem_nil
    | done _ hcreated =>
      rw [hcreated, List.drop_left] at hm
      simp at hm
    | failed e' _ hcreated htable hd hspent =>
      rw [hcreated, List.drop_left] at hm
      obtain ⟨rfl, rfl⟩ : t = k.ticket ∧ e = e' := by simpa using hm
      refine ⟨k, hk, rfl, htable, hd, ?_⟩
      obtain ⟨s, hs, ⟨hun, hnew⟩ | ⟨hres, hclosed, htidy⟩⟩ := hspent
      · exact .inl ⟨hun, s, hs, hnew⟩
      · exact .inr ⟨hres, (hu.enter hc).over ⟨s, hs, hclosed⟩ ⟨s, hs, htidy⟩⟩

theorem Good.completed (hu : u.Good) {p : Pending} (hp : p ∈ u.board.creating)
    (hwake : p.wake ≤ u.board.now) (hk : k ∈ u.creations) (ht : k.ticket = p.ticket)
    (hactive : u.board.At k.session (·.phase = .active)) :
    (u.enter (.expire p)).Succeeded k ∧ (u.enter (.expire p)).bound k.id = some k.session := by
  obtain ⟨readings, hs, -⟩ := hu.watched
  obtain ⟨k', hk', ht', hend, -⟩ := turn_expire hu.registry hs hp hwake
  obtain rfl : k' = k := hu.registry.eq_of_ticket hk' hk (ht'.trans ht.symm)
  obtain ⟨s, hsess, hphase⟩ := hactive
  have hprogress : s.progress = some (.ok ()) := by simp [Session.progress, hphase]
  cases hend with
  | waits _ _ hno => exact absurd hprogress (hno s hsess)
  | failed _ _ _ _ _ _ hno => exact absurd hprogress (hno s hsess)
  | done hx hcreated =>
    have hboard : (u.enter (.expire p)).board = u.board.take (.expire p) := rfl
    refine ⟨⟨List.mem_append_left _ hk, by simp [hboard, hcreated]⟩, ?_⟩
    have hbound : (u.enter (.expire p)).bound = Function.update u.bound k'.id (some k'.session) :=
      (hu.enter (c := .expire p) trivial).registry.table.symm.trans hx.table
    rw [hbound, Function.update_self]

theorem Good.over_settled (hu : (u.enter c).Good) (htake : u.board.take c = w.settle)
    (hal : Along u.board w) (hc : w.At h (·.closed = true)) (ht : u.board.At h Session.Tidy) :
    (u.enter c).board.Over h := by
  have hboard : (u.enter c).board = w.settle := htake
  have hset : Along w w.settle := (steps_settle w).along
  refine hu.over ?_ ?_ <;> rw [hboard]
  · exact hc.along lasting_closed hset
  · exact ht.along lasting_tidy (hal.trans hset)

theorem Good.closedId (hu : u.Good) (hb : u.bound id = some h) :
    (u.enter (.closeId id)).board.Over h := by
  obtain ⟨s, hs, -, htidy⟩ := hu.registry.exists_session hb
  exact Good.over_settled (c := .closeId id) (hu.enter trivial) rfl (steps_closeId u.board id).along
    (closed_closeId hu.registry hb) ⟨s, hs, htidy⟩

theorem Good.closedAll (hu : u.Good) (hb : u.bound id = some h) :
    (u.enter .closeAll).board.Over h := by
  obtain ⟨s, hs, -, htidy⟩ := hu.registry.exists_session hb
  exact Good.over_settled (c := .closeAll) (hu.enter trivial) rfl (steps_closeAll u.board).along
    (closed_closeAll hu.registry hb) ⟨s, hs, htidy⟩

theorem Good.not_row (hu : u.Good) {p : Pending} (hp : p ∈ u.board.creating)
    (hk : k ∈ u.creations) (ht : k.ticket = p.ticket) : k.session ∉ u.board.table.map (·.2) := by
  intro hm
  obtain ⟨⟨id, h⟩, hrow, hh⟩ := List.mem_map.mp hm
  have hh' : h = k.session := hh
  obtain ⟨k', hk', -, hsess, htold⟩ :=
    hu.registry.rows id h (hu.registry.table ▸ hu.registry.sorted.mem_iff.mp hrow)
  obtain rfl : k' = k := hu.registry.eq_of_session hk' hk (hsess.trans hh')
  obtain ⟨_, -, -, -, -, hnew⟩ := hu.registry.waiting p hp
  exact hnew _ htold ht

theorem Good.spared (hu : u.Good) {p : Pending} (hp : p ∈ u.board.creating)
    (hk : k ∈ u.creations) (ht : k.ticket = p.ticket) {s : Session}
    (hs : u.board.sessions[(k.session : Nat)]? = some s) :
    Drifts u.board (u.enter .closeAll).board k.session s :=
  (drifts_closeAll (hu.not_row hp hk ht) hs).trans fun _ => drifts_settle

end Ledger

theorem creating_closeAll {readings : List Reading} (hs : Sound readings w) :
    (w.take .closeAll).creating = w.creating := by
  obtain ⟨sessions, t, hf⟩ := closeAll_frame w
  have hafter : w.closeAll.2.creating = w.creating := by rw [hf]; rfl
  exact (aside_settle (Steps.sound (steps_closeAll w) hs)).creating.trans hafter

/-- Of a run of creations, look-ups and removals nothing is lost, whatever the transport does. -/
theorem no_orphans (x : Traffic σ) (hx : x.Regular) : x.Accounted := by
  have hend := hx.good
  have hreg := hend.registry
  exact
    { table := congrFun hreg.table
      keys := hreg.sorted.nodup
      owner := by
        intro id h hrow
        obtain ⟨s, hs, hid, -⟩ :=
          hreg.exists_session (hreg.table ▸ hreg.sorted.mem_iff.mp hrow)
        exact ⟨s, hs, hid⟩
      kept := fun k hk => hend.kept hk
      single := by
        intro k k' hk hk' hid ho hout ho' hout'
        have hb := hend.bound_of_open hk ho hout
        have hb' := hend.bound_of_open hk' ho' hout'
        rw [hid, hb'] at hb
        exact hreg.eq_of_session hk.1 hk'.1 (Option.some.inj hb).symm
      asked := by
        intro u id d rows cols _
        refine ⟨⟨u.board.nextTicket, u.board.sessions.length, id⟩, ?_, ?_, rfl⟩
        · exact List.mem_append_right _ (List.mem_singleton_self _)
        · obtain ⟨p, -, -, ⟨e, -, he⟩ | ⟨-, he⟩⟩ := create_cases u.board id d rows cols <;> rw [he]
      heeded := hend.heeded
      told := by
        intro e he
        obtain ⟨k, hk, ht, hok⟩ := hreg.told e he
        exact ⟨k, hk, ht, fun h heq => (hok h heq).1⟩
      failed := fun u c hm t e hnews => (hx.good_of_mem hm).failed (hx.of_mem hm) hnews
      completed := fun u p hm hp hwake k hk ht hactive =>
        (hx.good_of_mem hm).completed hp hwake hk ht hactive
      removed := fun u id hm => ⟨congrFun (hx.good_of_mem hm).registry.table id, rfl⟩
      closedId := by
        intro u id hm
        have hu := hx.good_of_mem hm
        refine ⟨?_, fun h hb => hu.closedId hb⟩
        rw [← congrFun hu.registry.table id]
        rcases closeId_cases u.board id with ⟨hnone, he⟩ | ⟨h, hsome, he⟩ <;> rw [he]
        · exact (congrArg Option.isSome hnone).symm
        · exact (congrArg Option.isSome hsome).symm
      closedAll := by
        intro u hm
        have hu := hx.good_of_mem hm
        obtain ⟨readings, hs, -⟩ := hu.watched
        refine ⟨by simp [closeAll], ?_, fun id h hb => hu.closedAll hb, creating_closeAll hs, ?_⟩
        · obtain ⟨sessions, t, hf⟩ := closeAll_frame u.board
          have hempty : u.board.closeAll.2.table = [] := by rw [hf]
          exact (aside_settle (Steps.sound (steps_closeAll u.board) hs)).table.trans hempty
        · exact fun p hp k hk ht s hs => hu.spared hp hk ht hs }

/-- Two sessions come up under one id and a third fails, while all that are registered are closed. -/
def racing (near far : Destination) : Traffic ScriptedTransport :=
  { transport := .ofScripts
      [(near, { Script.blank with known := true, onOpen := [(0, .established)] }),
        (far, { Script.blank with known := true, openError := some .channelClosed })]
    settings := { linkTimeout := 50, poll := 0, term := "xterm" }
    calls := [.create "a" near 24 80, .create "a" near 24 80,
      .expire ⟨0, 0, .connecting 0 50 true⟩, .create "a" far 24 80, .closeAll,
      .expire ⟨1, 0, .connecting 1 50 true⟩] }

theorem regular_racing (near far : Destination) : (racing near far).Regular := by
  simp [Traffic.Regular, racing, Call.Regular]

theorem no_orphans_racing :
    let x := racing ⟨List.replicate 16 0xab, rfl⟩ ⟨List.replicate 16 0xcd, rfl⟩
    x.Regular ∧ x.Accounted ∧ x.ledger.board.table = [("a", 1)] ∧
      x.ledger.board.created.map (fun e => (e.1, e.2.toOption)) =
        [(0, some 0), (2, none), (1, some 1)] ∧
      x.ledger.board.sessions.map (·.closed) = [true, false, true] ∧
      x.ledger.board.transport.links.map (·.teardowns) = [1, 0] :=
  ⟨regular_racing _ _, no_orphans _ (regular_racing _ _), by decide, by decide, by decide, by decide⟩

end MeshShell.Switchboard

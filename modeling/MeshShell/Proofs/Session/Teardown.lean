import MeshShell.Proofs.Session.Coherence
import MeshShell.Proofs.Session.Outbound

/-! # No link is left behind

The log of a session tells which links were opened for it and which of them were
torn down. Whoever closes a session tears its link down, with one exception: a
link that was opened for a session that had closed before stays for ever.
-/
namespace MeshShell

/-- Something that is done with a link as a whole. -/
def Deed.handles : Deed → Bool
  | .sent .. => false
  | _ => true

namespace Recorded

variable {σ : Type}

/-- What was done with links, without the messages on them. -/
def handling (r : Recorded σ) : List Deed := r.deeds.filter Deed.handles

/-- Every link that was opened was torn down later. -/
def Cleared (r : Recorded σ) : Prop :=
  ∀ before k after, r.deeds = before ++ .opened k :: after → .tornDown k ∈ after

@[simp] theorem handling_pass (r : Recorded σ) (t : σ) : (r.pass t).handling = r.handling := rfl

theorem handling_note (r : Recorded σ) (d : Deed) (t : σ) :
    (r.note d t).handling = r.handling ++ if d.handles then [d] else [] := by
  cases h : d.handles <;> simp [note, handling, h]

theorem cleared_of_nil {r : Recorded σ} (h : r.handling = []) : r.Cleared := by
  intro before k after hd
  have hm : Deed.opened k ∈ r.handling := List.mem_filter.mpr ⟨by simp [hd], rfl⟩
  simp [h] at hm

/-- One link was opened, and what was done later decides. -/
theorem cleared_iff_of_cons {r : Recorded σ} {k : LinkId} {rest : List Deed}
    (h : r.handling = .opened k :: rest) (hone : ∀ j, .opened j ∉ rest) :
    r.Cleared ↔ .tornDown k ∈ rest := by
  constructor
  · intro hc
    have hm : Deed.opened k ∈ r.deeds := (List.mem_filter.mp (h ▸ List.mem_cons_self)).1
    obtain ⟨before, after, hd⟩ := List.append_of_mem hm
    have htorn : Deed.tornDown k ∈ r.handling :=
      List.mem_filter.mpr ⟨by simp [hd, hc before k after hd], rfl⟩
    simpa [h] using htorn
  · intro ht before j after hd
    have hsplit : before.filter Deed.handles ++ .opened j :: after.filter Deed.handles =
        .opened k :: rest := by
      rw [← h, handling, hd, List.filter_append]
      rfl
    cases hb : before.filter Deed.handles with
    | nil =>
      rw [hb] at hsplit
      obtain ⟨hjk, hrest⟩ := List.cons.inj hsplit
      obtain rfl := Deed.opened.inj hjk
      rw [← hrest] at ht
      exact (List.mem_filter.mp ht).1
    | cons d ds =>
      rw [hb] at hsplit
      have hj : Deed.opened j ∈ rest := by
        rw [← (List.cons.inj hsplit).2]
        exact List.mem_append_right _ List.mem_cons_self
      exact absurd hj (hone j)

end Recorded

namespace Session

variable {σ : Type} [Transport σ]

@[simp] theorem handling_finish (s : Session) (r : Recorded σ) :
    (s.finish r).2.handling =
      r.handling ++ if s.closed then [] else s.link.toList.map .tornDown := by
  unfold finish
  split
  · simp
  · cases s.link with
    | none => simp
    | some l => exact Recorded.handling_note r (.tornDown l) _

theorem handling_send (l : LinkId) (m : Message) (r : Recorded σ) :
    (Transport.send l m r).2.handling = r.handling := by
  rcases r.send_cases l m with ⟨e, t, -, hr⟩ | ⟨t, -, hr⟩ <;> rw [hr]
  · rfl
  · exact (Recorded.handling_note _ _ _).trans (List.append_nil _)

theorem handling_greet (s : Session) (l : LinkId) (r : Recorded σ) :
    (s.greet l r).2.handling = r.handling := by
  unfold greet
  have hfirst := handling_send l .hello r
  cases h : Transport.send l .hello r with
  | mk result r' =>
    rw [h] at hfirst
    cases result with
    | error e => exact hfirst
    | ok => exact (handling_send l _ r').trans hfirst

theorem handling_handshake (s : Session) (l : LinkId) (r : Recorded σ) :
    (s.handshake l r).2.2.handling = r.handling := by
  unfold handshake
  cases Transport.channel l r with
  | error e => rfl
  | ok =>
    have hg := handling_greet { s with phase := .handshaking } l (Transport.setHandler l r)
    dsimp only
    cases h : greet { s with phase := .handshaking } l (Transport.setHandler l r) with
    | mk result r' =>
      rw [h] at hg
      cases result <;> exact hg

/-- What is torn down when one state leads to another and the driver takes an event: the link of a
session that closes, and a link that comes up for a closed session. -/
def frees (s s' : Session) (e : Option LinkEvent) : List Deed :=
  if s.closed then
    match e with
    | some (.established l) => [.tornDown l]
    | _ => []
  else if s'.closed then s.link.toList.map .tornDown
  else []

theorem opened_not_mem_frees (s s' : Session) (e : Option LinkEvent) (l : LinkId) :
    .opened l ∉ frees s s' e := by
  unfold frees
  split
  · split <;> simp
  · split <;> simp

/-- The log shows what was torn down, and nothing else that was done with links. -/
def Frees (p : Session × Recorded σ) (e : Option LinkEvent) (q : Session × Recorded σ) : Prop :=
  q.2.handling = p.2.handling ++ frees p.1 q.1 e

omit [Transport σ] in
theorem Frees.idle {p q : Session × Recorded σ} {e : Option LinkEvent}
    (hq : q.2.handling = p.2.handling) (hc : q.1.closed = p.1.closed)
    (he : p.1.closed = true → ∀ l, e ≠ some (.established l)) : Frees p e q := by
  unfold Frees frees
  rw [hq, hc]
  by_cases hclosed : p.1.closed = true
  · rw [if_pos hclosed]
    split
    · exact absurd rfl (he hclosed _)
    · simp
  · simp [hclosed]

theorem frees_finish (s : Session) (r : Recorded σ) {e : Option LinkEvent}
    (he : s.closed = true → ∀ l, e ≠ some (.established l)) : Frees (s, r) e (s.finish r) := by
  by_cases hc : s.closed = true
  · exact .idle (by simp [hc]) (by simp [hc]) he
  · simp [Frees, frees, hc]

theorem frees_handle (e : LinkEvent) (s : Session) (r : Recorded σ) :
    Frees (s, r) (some e) (s.handle e r) := by
  cases e with
  | established l =>
    unfold handle
    dsimp only
    by_cases hc : s.closed = true
    · rw [if_pos hc]
      have htorn : (Transport.teardown l r).handling = r.handling ++ [.tornDown l] :=
        Recorded.handling_note r (.tornDown l) (Transport.teardown l r.inner)
      simpa [Frees, frees, hc] using htorn
    · rw [if_neg hc]
      have hh := handling_handshake s l r
      rcases s.handshake_cases l r with ⟨e, r', h⟩ | ⟨r', h⟩
      · rw [h] at hh ⊢
        have hfin := frees_finish { s with phase := .handshaking } r'
          (e := some (.established l)) fun h => absurd h hc
        exact hfin.trans (congrArg (· ++ _) hh)
      · rw [h] at hh ⊢
        exact .idle hh rfl fun h => absurd h hc
  | message m =>
    have hfin : Frees (s, r) (some (.message m)) (s.finish r) := frees_finish s r (by simp)
    unfold handle dispatch
    dsimp only
    by_cases hc : s.closed = true
    · rw [if_pos hc]
      exact .idle rfl rfl (by simp)
    · rw [if_neg hc]
      cases m with
      | streamData n data eof compressed =>
        refine .idle rfl ?_ (by simp)
        cases data with
        | nil => rfl
        | cons b rest => exact closed_enqueue s _
      | commandExited code => exact hfin
      | error text fatal =>
        cases fatal with
        | true => exact hfin
        | false => exact .idle rfl rfl (by simp)
      | _ => exact .idle rfl rfl (by simp)
  | closed =>
    have hfin : Frees (s, r) (some .closed) (s.finish r) := frees_finish s r (by simp)
    exact hfin
  | shutdown => exact .idle rfl rfl (by simp)

/-- An action that leaves the log to the session. -/
def Action.Discreet (a : Action (Recorded σ)) : Prop :=
  ∀ f, a = .elsewhere f → ∀ r, (f r).handling = r.handling

omit [Transport σ] in
theorem discreet_recorded (a : Action σ) : a.recorded.Discreet := by
  intro f hf r
  cases a with
  | elsewhere g =>
    cases hf
    rfl
  | _ => cases hf

/-- Apart from the opening of a link the log shows what an action tears down. -/
theorem frees_next {p : Session × Recorded σ} {a : Action (Recorded σ)} (ha : a.Discreet)
    (hd : p.1.dials p.2 a = false) : Frees p (p.1.taken a) (next a p) := by
  obtain ⟨s, r⟩ := p
  have hfin : Frees (s, r) none (s.finish r) := frees_finish s r (by simp)
  have hpush : Frees (s, r) none ((s.finish r).1.push .shutdown, (s.finish r).2) := by
    simpa only [Frees, frees, closed_push] using hfin
  cases a with
  | connect now rows cols =>
    rcases s.start_cases now rows cols r with ⟨-, he⟩ | ⟨hn, -⟩
    · dsimp only [next]
      rw [he]
      exact .idle rfl rfl (by simp [taken])
    · simp [hn] at hd
  | giveUp =>
    dsimp only [next, timeOut]
    cases s.progress with
    | some result => exact .idle rfl rfl (by simp [taken])
    | none => exact hpush
  | report c =>
    refine .idle rfl ?_ (by simp [taken])
    dsimp only [next, receive]
    cases s.opened with
    | none => rfl
    | some l => exact closed_push s _
  | drive =>
    rcases s.driveOne_cases r with ⟨he, ht⟩ | ⟨e, rest, -, -, ht, he⟩
    · dsimp only [next]
      rw [he, ht]
      exact .idle rfl rfl (by simp)
    · dsimp only [next]
      rw [he, ht]
      exact frees_handle e { s with inbox := rest } r
  | sendInput data =>
    refine .idle ?_ rfl (by simp [taken])
    dsimp only [next, sendInput]
    cases s.channel with
    | none => rfl
    | some l =>
      have hsend := handling_send l (.stdin data) r
      dsimp only
      split
      · rfl
      · cases h : Transport.send l (.stdin data) r with
        | mk result r' =>
          rw [h] at hsend
          cases result <;> exact hsend
  | resize size =>
    dsimp only [next, resize]
    cases s.channel with
    | none => exact .idle rfl rfl (by simp [taken])
    | some l =>
      dsimp only
      split
      · exact .idle rfl rfl (by simp [taken])
      · exact .idle (handling_send l _ r) rfl (by simp [taken])
  | close =>
    dsimp only [next, close]
    split
    · exact .idle rfl rfl (by simp [taken])
    · exact hpush
  | read ticket patient =>
    obtain ⟨_, _, _, -, hs⟩ := reader_frame s r (a := .read ticket patient) not_false
    exact .idle rfl (by rw [hs]) (by simp [taken])
  | serve =>
    obtain ⟨_, _, _, -, hs⟩ := reader_frame s r (a := .serve) not_false
    exact .idle rfl (by rw [hs]) (by simp [taken])
  | expire ticket => exact .idle rfl rfl (by simp [taken])
  | elsewhere f => exact .idle (ha f rfl r) rfl (by simp [taken])

/-- The link that an action opens. -/
def opens (s : Session) (t : σ) (a : Action σ) : Option LinkId :=
  if s.dials t a then (next a (s, t)).1.opened else none

/-- A link was opened for a session that had closed before. -/
def OpenedLate (hist : History σ) : Prop :=
  ∃ p a, (p, a) ∈ hist ∧ p.1.closed = true ∧ (p.1.opens p.2 a).isSome = true

theorem openedLate_snoc (hist : History σ) (p : Session × σ) (a : Action σ) :
    OpenedLate (hist ++ [(p, a)]) ↔
      OpenedLate hist ∨ p.1.closed = true ∧ (p.1.opens p.2 a).isSome = true := by
  constructor
  · rintro ⟨q, b, hm, h⟩
    rcases List.mem_append.mp hm with hm | hm
    · exact .inl ⟨q, b, hm, h⟩
    · obtain ⟨rfl, rfl⟩ := Prod.mk.inj (List.mem_singleton.mp hm)
      exact .inr h
  · rintro (⟨q, b, hm, h⟩ | h)
    · exact ⟨q, b, List.mem_append_left _ hm, h⟩
    · exact ⟨p, a, by simp, h⟩

/-- No event of the link reaches the session any more. -/
def Deaf (s : Session) : Prop := s.driver = .ended ∨ s.inbox.head? = some .shutdown

variable {s s' : Session} {t : σ} {a : Action σ}

omit [Transport σ] in
theorem Deaf.push (h : Deaf s) (e : LinkEvent) : Deaf (s.push e) := by
  by_cases hd : s.driver = .ended
  · exact .inl ((driver_push s e).trans hd)
  · have hi := h.resolve_left hd
    refine .inr ?_
    rw [inbox_push hd, List.head?_append, hi]
    rfl

omit [Transport σ] in
theorem Deaf.taken (h : Deaf s) : s.taken a = none ∨ s.taken a = some .shutdown := by
  cases a with
  | drive =>
    by_cases hd : s.driver = .running
    · have hi := h.resolve_left (by simp [hd])
      exact .inr (by simp [Session.taken, hd, hi])
    · exact .inl (by simp [Session.taken, hd])
  | _ => exact .inl rfl

theorem Effect.deaf (he : Effect s t a s') (h : Deaf s) : Deaf s' := by
  cases he with
  | none => exact h
  | refused => exact .inl rfl
  | opened _ hd => exact .inr (h.resolve_left (by simp [unstarted_of_dials hd]))
  | finished =>
    have hs : Deaf s.shut := by simpa [Deaf] using h
    exact hs.push _
  | reported => exact h.push _
  | @handled e rest s' _ hd hi hs =>
    have hhead := h.resolve_left (by simp [hd])
    obtain rfl : e = .shutdown := by simpa [hi] using hhead
    cases hs
    exact .inl rfl
  | resized => exact h
  | took _ _ _ ht =>
    obtain ⟨_, rfl⟩ := take_frame ht
    exact h
  | lined => exact h

theorem link_shut (s : Session) : s.shut.link = if s.closed then s.link else none := by
  unfold shut
  split <;> rfl

@[simp] theorem link_push (s : Session) (e : LinkEvent) : (s.push e).link = s.link := by
  unfold push
  split <;> rfl

@[simp] theorem link_endDriver (s : Session) : s.endDriver.link = s.link := rfl

@[simp] theorem link_enqueue (s : Session) (data : Bytes) : (s.enqueue data).link = s.link := by
  unfold enqueue
  split <;> rfl

theorem Handled.link {e : LinkEvent} (h : Handled s e s') :
    s'.link = if !s.closed && s'.closed then none else s.link := by
  cases h with
  | failed hc => simp [link_shut, hc]
  | ended hc => simp [link_shut, hc]
  | gone => cases hc : s.closed <;> simp [link_shut, hc]
  | _ => simp [*]

theorem Effect.link (he : Effect s t a s') (hd : s.dials t a = false) :
    s'.link = if !s.closed && s'.closed then .none else s.link := by
  cases he with
  | refused _ hn => simp [hn] at hd
  | opened _ hn => simp [hn] at hd
  | finished => cases hc : s.closed <;> simp [link_shut, hc]
  | handled _ _ _ hs => exact hs.link
  | took _ _ _ ht =>
    obtain ⟨_, rfl⟩ := take_frame ht
    simp
  | _ => simp

theorem Effect.fresh (he : Effect s t a s') (h : Consistent s) (hd : s.dials t a = false)
    (hn : s.driver = .notStarted) (hi : s.inbox = []) :
    s'.closed = true ∧ Deaf s' ∨ s'.closed = s.closed ∧ s'.inbox = [] := by
  cases he with
  | refused _ hd' => simp [hd] at hd'
  | opened _ hd' => simp [hd] at hd'
  | finished =>
    refine .inl ⟨by simp, .inr ?_⟩
    rw [inbox_push (by simp [hn]), inbox_shut, hi]
    rfl
  | reported _ ho => simp [(h.unstarted hn).1] at ho
  | handled _ hr => simp [hn] at hr
  | took _ _ _ ht =>
    obtain ⟨_, rfl⟩ := take_frame ht
    exact .inr ⟨rfl, hi⟩
  | _ => exact .inr ⟨rfl, hi⟩

/-- What has become of the link of a session, and whether it was opened too late. -/
inductive Holding (late : Prop) (s : Session) (r : Recorded σ) : Prop
  /-- No link was opened so far, and if the session is closed its driver will end at once. -/
  | unopened : ¬ late → s.link = none → r.handling = [] →
      (s.closed = true ∧ Deaf s ∨ s.closed = false ∧ s.driver = .notStarted ∧ s.inbox = []) →
      Holding late s r
  | held (k : LinkId) : ¬ late → s.closed = false → s.driver ≠ .notStarted → s.link = some k →
      r.handling = [.opened k] → Holding late s r
  | freed (k : LinkId) (rest : List Deed) : ¬ late → s.closed = true → s.driver ≠ .notStarted →
      s.link = none → r.handling = .opened k :: rest → .tornDown k ∈ rest →
      (∀ j, .opened j ∉ rest) → Holding late s r
  /-- The link came after the closing, and nobody is left to tear it down. -/
  | stranded (k : LinkId) : late → s.closed = true → s.driver ≠ .notStarted → s.link = some k →
      r.handling = [.opened k] → Deaf s → Holding late s r

namespace Holding

variable {late : Prop} {p : Session × Recorded σ} {b : Action (Recorded σ)}

/-- Opening a link for an open session hands it over, and for a closed one strands it. -/
theorem dial {s : Session} {r : Recorded σ} {now : Millis} {rows cols : UInt16}
    (h : Holding late s r) (hcons : Consistent s) (hd : s.dials r (.connect now rows cols) = true) :
    Holding (late ∨ s.closed = true ∧ (s.opens r (.connect now rows cols)).isSome = true)
      (s.start now rows cols r).2.1 (s.start now rows cols r).2.2 := by
  have hstart : s.driver = .notStarted := unstarted_of_dials hd
  have hopens : s.opens r (.connect now rows cols) = (s.start now rows cols r).2.1.opened := by
    simp [opens, hd, next]
  rw [hopens]
  cases h with
  | held _ _ _ hn => exact absurd hstart hn
  | freed _ _ _ _ hn => exact absurd hstart hn
  | stranded _ _ _ hn => exact absurd hstart hn
  | unopened hlate hlink hlog hwait =>
    rcases s.start_cases now rows cols r with
      ⟨hn, -⟩ | ⟨-, identity, -, ⟨e, r', hfail, he⟩ | ⟨k, r', hok, he⟩⟩
    · simp [hd] at hn
    · have hnone : (s.dial rows cols).shut.endDriver.opened = none := by
        have ho : s.opened = none := (hcons.unstarted hstart).1
        simpa [endDriver, Session.dial] using ho
      have hr' : r'.handling = [] := by
        rcases r.openLink_cases now identity shellAspect with ⟨_, t, -, hr⟩ | ⟨_, t, -, hr⟩
        · rw [hfail] at hr
          cases hr
          exact hlog
        · simp [hfail] at hr
      rw [he]
      refine .unopened (by simp [hlate, hnone]) ?_ ?_ (.inl ⟨by simp, .inl rfl⟩)
      · simp [link_shut, Session.dial, hlink]
      · simp [hr', Session.dial, hlink]
    · have hr' : r'.handling = [.opened k] := by
        rcases r.openLink_cases now identity shellAspect with ⟨_, t, -, hr⟩ | ⟨_, t, -, hr⟩
        · simp [hok] at hr
        · rw [hok] at hr
          cases hr
          rw [Recorded.handling_note, hlog]
          rfl
      rw [he]
      rcases hwait with ⟨hc, hdeaf⟩ | ⟨hc, -, -⟩
      · have hhead := hdeaf.resolve_left (by simp [hstart])
        exact .stranded k (by simp [hc]) hc (by simp) rfl hr' (.inr hhead)
      · exact .held k (by simp [hlate, hc]) hc (by simp) rfl hr'

/-- Any other action tears the link down exactly when it closes the session. -/
theorem keep (h : Holding late p.1 p.2) (hcons : Consistent p.1) (hb : b.Discreet)
    (hd : p.1.dials p.2 b = false) : Holding late (Session.next b p).1 (Session.next b p).2 := by
  have he : Effect p.1 p.2 b (Session.next b p).1 := effect b p.1 p.2
  have hlink := he.link hd
  have hlog : (Session.next b p).2.handling =
      p.2.handling ++ frees p.1 (Session.next b p).1 (p.1.taken b) := frees_next hb hd
  have hstarted : p.1.driver ≠ .notStarted → (Session.next b p).1.driver ≠ .notStarted :=
    fun hn hn' => hn (he.driver.mp hn').1
  -- What a closed session tears down came up after the closing, which a deaf one does not hear of.
  have hdeaf : p.1.closed = true → Deaf p.1 →
      frees p.1 (Session.next b p).1 (p.1.taken b) = [] := by
    intro hc hdeaf
    rcases hdeaf.taken (a := b) with ht | ht <;> simp [frees, hc, ht]
  cases h with
  | unopened hlate hnone hempty hwait =>
    have hlink' : (Session.next b p).1.link = none := by simp [hlink, hnone]
    rcases hwait with ⟨hc, hd'⟩ | ⟨hc, hn, hi⟩
    · exact .unopened hlate hlink' (by simp [hlog, hempty, hdeaf hc hd'])
        (.inl ⟨he.closed hc, he.deaf hd'⟩)
    · refine .unopened hlate hlink' (by simp [hlog, hempty, frees, hc, hnone]) ?_
      rcases he.fresh hcons hd hn hi with hf | ⟨hc', hi'⟩
      · exact .inl hf
      · exact .inr ⟨hc'.trans hc, he.driver.mpr ⟨hn, hd⟩, hi'⟩
  | held k hlate hc hn hk hone =>
    cases hc' : (Session.next b p).1.closed with
    | true =>
      refine .freed k [.tornDown k] hlate hc' (hstarted hn) (by simp [hlink, hc, hc']) ?_ (by simp)
        (by simp)
      simp [hlog, hone, frees, hc, hc', hk]
    | false =>
      exact .held k hlate hc' (hstarted hn) (by simp [hlink, hc', hk])
        (by simp [hlog, hone, frees, hc, hc'])
  | freed k rest hlate hc hn hnone hlist htorn hno =>
    refine .freed k (rest ++ frees p.1 (Session.next b p).1 (p.1.taken b)) hlate (he.closed hc)
      (hstarted hn) (by simp [hlink, hc, hnone]) (by rw [hlog, hlist]; rfl)
      (List.mem_append_left _ htorn) ?_
    intro j hj
    exact (List.mem_append.mp hj).elim (hno j) (opened_not_mem_frees _ _ _ j)
  | stranded k hlate hc hn hk hone hd' =>
    exact .stranded k hlate (he.closed hc) (hstarted hn) (by simp [hlink, hc, hk])
      (by simp [hlog, hone, hdeaf hc hd']) (he.deaf hd')

theorem of_run {start : Session × Recorded σ} {hist : History (Recorded σ)}
    (hr : Run Session.next start hist p) (hcons : Consistent start.1)
    (hd : ∀ q b, (q, b) ∈ hist → b.Discreet) (hstart : Holding False start.1 start.2) :
    Holding (OpenedLate hist) p.1 p.2 := by
  induction hr with
  | nil => simpa [OpenedLate] using hstart
  | @snoc hist p b hr ih =>
    have hp := ih fun q c hq => hd q c (List.mem_append_left _ hq)
    have hc : Consistent p.1 := hcons.of_run hr
    rw [openedLate_snoc]
    cases hdial : p.1.dials p.2 b with
    | false =>
      have hno : p.1.opens p.2 b = none := by simp [opens, hdial]
      simpa [hno] using hp.keep hc (hd p b (by simp)) hdial
    | true =>
      cases b with
      | connect now rows cols => exact hp.dial hc hdial
      | _ => simp [dials] at hdial

omit [Transport σ] in
theorem cleared_iff {s : Session} {r : Recorded σ} (h : Holding late s r) (hc : s.closed = true) :
    r.Cleared ↔ ¬ late := by
  cases h with
  | unopened hlate _ hempty => exact iff_of_true (Recorded.cleared_of_nil hempty) hlate
  | held _ _ hopen => simp [hc] at hopen
  | freed k rest hlate _ _ _ hlist htorn hno =>
    exact iff_of_true ((Recorded.cleared_iff_of_cons hlist hno).mpr htorn) hlate
  | stranded k hlate _ _ _ hone =>
    have hnot : ¬ r.Cleared := by simp [Recorded.cleared_iff_of_cons hone]
    exact iff_of_false hnot (not_not_intro hlate)

omit [Transport σ] in
theorem cleared {s : Session} {r : Recorded σ} (h : Holding late s r) (hl : s.link = none) :
    r.Cleared := by
  cases h with
  | unopened _ _ hempty => exact Recorded.cleared_of_nil hempty
  | held _ _ _ _ hk => simp [hl] at hk
  | freed k rest _ _ _ _ hlist htorn hno =>
    exact (Recorded.cleared_iff_of_cons hlist hno).mpr htorn
  | stranded _ _ _ _ hk => simp [hl] at hk

end Holding

theorem Life.holding (l : Life σ) :
    Holding (OpenedLate l.recorded.history) l.recorded.outcome.1 l.recorded.outcome.2 := by
  refine .of_run l.recorded.run (.new l.id l.destination l.settings) ?_ ?_
  · intro p a hm
    obtain ⟨b, rfl⟩ := l.exists_recorded hm
    exact discreet_recorded b
  · exact .unopened not_false rfl rfl (.inr ⟨rfl, rfl, rfl⟩)

theorem Life.fst_recorded (l : Life σ) : l.recorded.outcome.1 = l.session :=
  congrArg Prod.fst (plain_outcome l)

theorem Life.cleared (l : Life σ) (h : l.session.link = none) : l.recorded.outcome.2.Cleared := by
  rw [← l.fst_recorded] at h
  exact l.holding.cleared h

/-- A session that was started, and whose link is gone when it is closed. -/
def Tidy (s : Session) : Prop := s.driver ≠ .notStarted ∧ (s.closed = true → s.link = none)

theorem Effect.tidy (he : Effect s t a s') (h : Tidy s) : Tidy s' := by
  obtain ⟨hn, hlink⟩ := h
  have hd : s.dials t a = false := by
    cases hd : s.dials t a with
    | false => rfl
    | true => exact absurd (unstarted_of_dials hd) hn
  refine ⟨fun hn' => hn (he.driver.mp hn').1, ?_⟩
  intro hc'
  rw [he.link hd]
  cases hc : s.closed with
  | false => simp [hc']
  | true => simp [hlink hc]

/-- Once a session is closed, every link that was opened for it is torn down, unless it was opened
after the closing. -/
theorem cleared_iff_not_openedLate (l : Life σ) (h : l.session.closed = true) :
    l.recorded.outcome.2.Cleared ↔ ¬ OpenedLate l.recorded.history := by
  rw [← l.fst_recorded] at h
  exact l.holding.cleared_iff h

theorem cleared_known :
    let l := known [.connect 0 24 80, .report .established, .drive, .close]
    l.session.closed = true ∧ l.session.opened = some 0 ∧
      (l.recorded.outcome.2.Cleared ↔ ¬ OpenedLate l.recorded.history) :=
  ⟨by decide, by decide, cleared_iff_not_openedLate _ (by decide)⟩

/-- A session that is connected after its closing. -/
theorem stranded_late_connect :
    let l := known [.close, .connect 0 24 80, .drive, .giveUp]
    l.session.closed = true ∧ l.session.inbox = [] ∧ l.session.driver = .ended ∧
      ¬ l.recorded.outcome.2.Cleared := by
  refine ⟨by decide, by decide, by decide, ?_⟩
  intro h
  exact absurd (h [] 0 [] (by decide)) (by decide)

end Session

end MeshShell

import MeshShell.Proofs.Session.Steps

/-! # The parts of a session agree

The phase, the flags, the channel and the queue are kept apart from each other.
Whatever happens to a session in whatever order, they tell the same story: only
an active session has a channel, only an open one has a queue without its end
mark, and a link is never anything but the one that was opened.
-/
namespace MeshShell.Session

variable {σ : Type} [Transport σ]

structure Consistent (s : Session) : Prop where
  outputOpen : s.outputOpen = !s.closed
  /-- Only a closed session has an end mark in its queue, and nothing comes after it. -/
  queue : ∃ chunks : List Bytes, s.output = chunks.map .chunk ∨
    s.closed = true ∧ s.output = chunks.map .chunk ++ [.finish]
  channel_active : s.channel.isSome = true ↔ s.phase = .active
  connected_active : s.connected = true ↔ s.phase = .active
  active_open : s.phase = .active → s.closed = false
  link_opened : ∀ l, s.link = some l → s.opened = some l
  channel_opened : ∀ l, s.channel = some l → s.opened = some l
  inbox_opened : ∀ l, .established l ∈ s.inbox → s.opened = some l
  unstarted : s.driver = .notStarted → s.opened = none ∧ s.channel = none ∧ s.phase ≠ .active
  /-- An open session is new, waits for its link or is active. -/
  open_phase : s.closed = false →
    s.driver = .notStarted ∧ s.phase = .created ∨
      s.driver ≠ .notStarted ∧ (s.phase = .linking ∨ s.phase = .active)

namespace Consistent

variable {s : Session}

theorem new (id : String) (d : Destination) (settings : SessionSettings) :
    Consistent (Session.new id d settings) where
  outputOpen := rfl
  queue := ⟨[], .inl rfl⟩
  channel_active := by simp [Session.new]
  connected_active := by simp [Session.new]
  active_open := by simp [Session.new]
  link_opened := by simp [Session.new]
  channel_opened := by simp [Session.new]
  inbox_opened := by simp [Session.new]
  unstarted := by simp [Session.new]
  open_phase := by simp [Session.new]

theorem shut (h : Consistent s) : Consistent s.shut := by
  by_cases hc : s.closed = true
  · rwa [shut_of_closed hc]
  · obtain ⟨chunks, hq | ⟨hq, -⟩⟩ := h.queue
    · have ho : s.outputOpen = true := by simpa [hc] using h.outputOpen
      unfold Session.shut
      rw [if_neg hc]
      exact
        { outputOpen := rfl
          queue := ⟨chunks, .inr ⟨rfl, by simp [ho, hq]⟩⟩
          channel_active := by simp
          connected_active := by simp
          active_open := by simp
          link_opened := by simp
          channel_opened := by simp
          inbox_opened := h.inbox_opened
          unstarted := fun hd => ⟨(h.unstarted hd).1, rfl, by simp⟩
          open_phase := by simp }
    · exact absurd hq hc

theorem push {e : LinkEvent} (h : Consistent s) (he : ∀ l, e = .established l → s.opened = some l) :
    Consistent (s.push e) := by
  unfold Session.push
  split
  · exact h
  · refine { h with inbox_opened := ?_ }
    intro l hl
    rcases List.mem_append.mp hl with hl | hl
    · exact h.inbox_opened l hl
    · exact he l (List.mem_singleton.mp hl).symm

theorem enqueue (h : Consistent s) (data : Bytes) : Consistent (s.enqueue data) := by
  unfold Session.enqueue
  split
  · rename_i ho
    have hc : s.closed = false := by simpa [ho] using h.outputOpen
    obtain ⟨chunks, hq | ⟨hq, -⟩⟩ := h.queue
    · exact { h with queue := ⟨chunks ++ [data], .inl (by simp [hq])⟩ }
    · simp [hc] at hq
  · exact h

theorem endDriver (h : Consistent s) (hd : s.closed = true ∨ s.driver = .running) :
    Consistent s.endDriver where
  outputOpen := h.outputOpen
  queue := h.queue
  channel_active := h.channel_active
  connected_active := h.connected_active
  active_open := h.active_open
  link_opened := h.link_opened
  channel_opened := h.channel_opened
  inbox_opened := by simp [Session.endDriver]
  unstarted := by simp [Session.endDriver]
  open_phase := by
    intro hc
    rcases hd with hd | hd
    · exact absurd hd (by simpa [Session.endDriver] using hc)
    · rcases h.open_phase hc with ⟨hn, -⟩ | ⟨-, hp⟩
      · simp [hd] at hn
      · exact .inr ⟨by simp [Session.endDriver], hp⟩

theorem greeted {l : LinkId} (h : Consistent s) (hc : s.closed = false) (hd : s.driver = .running)
    (hl : s.opened = some l) :
    Consistent { s with channel := some l, established := true, connected := true, phase := .active } where
  outputOpen := h.outputOpen
  queue := h.queue
  channel_active := by simp
  connected_active := by simp
  active_open := fun _ => hc
  link_opened := h.link_opened
  channel_opened := by simp [hl]
  inbox_opened := h.inbox_opened
  unstarted := by simp [hd]
  open_phase := fun _ => .inr ⟨by simp [hd], .inr rfl⟩

theorem handled {e : LinkEvent} {s' : Session} (h : Consistent s) (hd : s.driver = .running)
    (he : ∀ l, e = .established l → s.opened = some l) (hs : Handled s e s') : Consistent s' := by
  cases hs with
  | late => exact h
  | failed => exact h.shut
  | greeted hc => exact h.greeted hc hd (he _ rfl)
  | dropped => exact h
  | output => exact h.enqueue _
  | suppressed => exact { h with }
  | ended => exact h.shut
  | ignored => exact h
  | gone => exact h.shut.endDriver (.inl (closed_shut s))
  | shutdown => exact h.endDriver (.inr hd)

theorem withoutFirst {e : LinkEvent} {rest : List LinkEvent} (h : Consistent s)
    (hi : s.inbox = e :: rest) : Consistent { s with inbox := rest } :=
  { h with inbox_opened := fun l hl => h.inbox_opened l (hi ▸ List.mem_cons_of_mem e hl) }

theorem dial (h : Consistent s) (hd : s.driver = .notStarted) (rows cols : UInt16) :
    Consistent (s.dial rows cols).shut := by
  obtain ⟨ho, hch, hp⟩ := h.unstarted hd
  by_cases hc : s.closed = true
  · rw [shut_of_closed (by exact hc)]
    exact
      { outputOpen := h.outputOpen
        queue := h.queue
        channel_active := by simp [Session.dial, hch]
        connected_active := by simpa [Session.dial, hp] using h.connected_active
        active_open := by simp [Session.dial]
        link_opened := h.link_opened
        channel_opened := h.channel_opened
        inbox_opened := h.inbox_opened
        unstarted := fun _ => ⟨ho, hch, by simp [Session.dial]⟩
        open_phase := fun hf => absurd (hc.symm.trans hf) (by simp) }
  · have hs := h.shut
    have hcl := closed_shut s
    unfold Session.shut Session.dial at *
    rw [if_neg hc] at *
    exact { hs with }

theorem opened {l : LinkId} (h : Consistent s) (hd : s.driver = .notStarted) (rows cols : UInt16) :
    Consistent { s.dial rows cols with link := some l, opened := some l, driver := .running } := by
  obtain ⟨ho, hch, hp⟩ := h.unstarted hd
  exact
    { outputOpen := h.outputOpen
      queue := h.queue
      channel_active := by simp [Session.dial, hch]
      connected_active := by simpa [Session.dial, hp] using h.connected_active
      active_open := by simp [Session.dial]
      link_opened := by simp
      channel_opened := by simp [Session.dial, hch]
      inbox_opened := by
        intro k hk
        exact absurd (h.inbox_opened k hk) (by simp [ho])
      unstarted := by simp
      open_phase := fun _ => .inr ⟨by simp, .inl rfl⟩ }

theorem withReaders (h : Consistent s) (line : List Ticket) :
    Consistent { s with readers := line } := { h with }

theorem take (h : Consistent s) : Consistent s.take.2 := by
  obtain ⟨chunks, hq⟩ := h.queue
  rcases s.take_cases with ⟨data, rest, ho, ht⟩ | ⟨rest, ho, ht⟩ | ⟨-, -, ht⟩ | ⟨-, -, -, ht⟩
  · rw [ht]
    rw [ho] at hq
    cases chunks with
    | nil => simp at hq
    | cons c cs =>
      refine { h with queue := ⟨cs, ?_⟩ }
      rcases hq with hq | ⟨hc, hq⟩
      · exact .inl (List.cons.inj hq).2
      · exact .inr ⟨hc, (List.cons.inj hq).2⟩
  · rw [ht]
    rw [ho] at hq
    cases chunks with
    | nil =>
      have hr : s.closed = true ∧ rest = [] := by simpa using hq
      exact { h with queue := ⟨[], .inl hr.2⟩ }
    | cons c cs => simp at hq
  · rwa [ht]
  · rwa [ht]

theorem effect {t : σ} {a : Action σ} {s' : Session} (h : Consistent s) (he : Effect s t a s') :
    Consistent s' := by
  cases he with
  | none => exact h
  | refused _ hd => exact (h.dial (unstarted_of_dials hd) _ _).endDriver (.inl (closed_shut _))
  | opened _ hd => exact h.opened (unstarted_of_dials hd) _ _
  | finished => exact h.shut.push (by simp)
  | @reported c l _ ho =>
    apply h.push
    intro k hk
    cases c with
    | established => exact ho.trans (congrArg some (LinkEvent.established.inj hk))
    | closed => cases hk
    | message m => cases hk
  | handled _ hd hi hs =>
    refine (h.withoutFirst hi).handled hd ?_ hs
    rintro l rfl
    exact h.inbox_opened l (by simp [hi])
  | resized => exact { h with }
  | took line _ _ ht =>
    have hs := h.take
    rw [ht] at hs
    exact hs.withReaders line
  | lined line => exact h.withReaders line

theorem next (h : Consistent s) (a : Action σ) (t : σ) : Consistent (next a (s, t)).1 :=
  h.effect (Session.effect a s t)

theorem of_run {start p : Session × σ} {hist : History σ} (h : Consistent start.1)
    (hr : Run Session.next start hist p) : Consistent p.1 :=
  hr.invariant (P := fun p => Consistent p.1) h fun a p hp => hp.next a p.2

end Consistent

theorem Life.consistent (l : Life σ) : l.session.Consistent :=
  (Consistent.new l.id l.destination l.settings).of_run l.run

end MeshShell.Session

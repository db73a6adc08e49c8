import MeshShell.Proofs.Transport.Recorded
import MeshShell.Proofs.Transport.Separation

/-! # The log of each link

A transport that keeps its links apart does so with a log as well. The state of
a link then goes with the messages that its channel has taken and the number of
its teardowns.
-/
namespace MeshShell

variable {σ : Type}

structure RecordedLine (Line : Type) where
  inner : Line
  /-- The messages that the channel has taken, oldest first. -/
  sent : List Message
  teardowns : Nat

def Deed.link : Deed → LinkId
  | .opened l => l
  | .sent l _ => l
  | .tornDown l => l

namespace Recorded

variable (r : Recorded σ) (t : σ) (k l : LinkId)

/-- The messages that were taken on a link. -/
def messages (r : Recorded σ) (l : LinkId) : List Message := (r.sent.filter (·.1 = l)).map (·.2)

def teardowns (r : Recorded σ) (l : LinkId) : Nat := r.deeds.count (.tornDown l)

@[simp] theorem messages_pass : (r.pass t).messages l = r.messages l := rfl

@[simp] theorem messages_opened : (r.note (.opened k) t).messages l = r.messages l := by
  simp [messages, sent_note, Deed.message?]

@[simp] theorem messages_tornDown : (r.note (.tornDown k) t).messages l = r.messages l := by
  simp [messages, sent_note, Deed.message?]

theorem messages_sent (m : Message) :
    (r.note (.sent k m) t).messages l = if l = k then r.messages l ++ [m] else r.messages l := by
  by_cases h : l = k
  · subst h
    simp [messages, sent_note, Deed.message?, List.filter_append]
  · have hne : k ≠ l := Ne.symm h
    simp [messages, sent_note, Deed.message?, List.filter_append, h, hne]

@[simp] theorem teardowns_pass : (r.pass t).teardowns l = r.teardowns l := rfl

@[simp] theorem teardowns_opened : (r.note (.opened k) t).teardowns l = r.teardowns l := by
  simp [teardowns, note]

@[simp] theorem teardowns_sent (m : Message) : (r.note (.sent k m) t).teardowns l = r.teardowns l := by
  simp [teardowns, note]

theorem teardowns_tornDown :
    (r.note (.tornDown k) t).teardowns l = if l = k then r.teardowns l + 1 else r.teardowns l := by
  by_cases h : l = k
  · subst h
    simp [teardowns, note]
  · have hne : k ≠ l := Ne.symm h
    simp [teardowns, note, h, hne]

variable {r l}

theorem messages_eq_nil (h : ∀ d ∈ r.deeds, d.link ≠ l) : r.messages l = [] := by
  have hnone : r.sent.filter (·.1 = l) = [] := by
    refine List.filter_eq_nil_iff.mpr fun p hp => ?_
    obtain ⟨d, hd, hm⟩ := List.mem_filterMap.mp hp
    cases d with
    | sent k m =>
      cases hm
      simpa [Deed.link] using h _ hd
    | opened => cases hm
    | tornDown => cases hm
  rw [messages, hnone, List.map_nil]

theorem teardowns_eq_zero (h : ∀ d ∈ r.deeds, d.link ≠ l) : r.teardowns l = 0 :=
  List.count_eq_zero.mpr fun hd => h _ hd rfl

end Recorded

namespace Layout

variable {P : Layout σ}

theorem Settling.recorded {Line : Type} {still mute : Line → Prop} {inner : Line → Line}
    {effect : RecordedLine Line → RecordedLine Line} (h : Settling still mute inner)
    (he : ∀ x, (effect x).inner = inner x.inner) :
    Settling (fun x : RecordedLine Line => still x.inner) (fun x => mute x.inner) effect where
  calls {x} hx := by
    rw [he]
    exact h.calls hx
  ends {x} hx := by
    rw [he]
    exact h.ends hx
  rest {x} ho hs := by
    rw [he]
    exact h.rest ho hs

structure SoundLog (P : Layout σ) (r : Recorded σ) : Prop where
  inner : P.sound r.inner
  /-- Only links that were opened are in the log. -/
  known : ∀ d ∈ r.deeds, (P.line r.inner d.link).isSome

def recorded (P : Layout σ) : Layout (Recorded σ) where
  Common := P.Common
  Line := RecordedLine P.Line
  common r := P.common r.inner
  line r l := (P.line r.inner l).map fun x => ⟨x, r.messages l, r.teardowns l⟩
  sound := P.SoundLog

theorem SoundLog.pass {r : Recorded σ} {t : σ} (h : P.SoundLog r) (ht : P.sound t)
    (hline : ∀ k, (P.line r.inner k).isSome → (P.line t k).isSome) : P.SoundLog (r.pass t) :=
  ⟨ht, fun d hd => hline d.link (h.known d hd)⟩

theorem SoundLog.note {r : Recorded σ} {t : σ} {d : Deed} (h : P.SoundLog r) (ht : P.sound t)
    (hline : ∀ k, (P.line r.inner k).isSome → (P.line t k).isSome) (hd : (P.line t d.link).isSome) :
    P.SoundLog (r.note d t) := by
  refine ⟨ht, fun d' hd' => ?_⟩
  rcases List.mem_append.mp hd' with hd' | hd'
  · exact hline d'.link (h.known d' hd')
  · rwa [List.mem_singleton.mp hd']

theorem Local.isSome {f : LinkId → σ → σ} (hf : P.Local f) (l : LinkId) (t : σ) (k : LinkId)
    (h : (P.line t k).isSome) : (P.line (f l t) k).isSome := by
  rw [hf.line]
  split
  · rwa [Option.isSome_map]
  · exact h

/-- A change to one link that is not noted. -/
def Local.pass {f : LinkId → σ → σ} (hf : P.Local f) :
    P.recorded.Local fun l r => r.pass (f l r.inner) where
  effect := fun x => { x with inner := hf.effect x.inner }
  sound := fun {l r} h hl => h.pass (hf.sound h.inner (by simpa [recorded] using hl)) (hf.isSome l r.inner)
  common := fun l r => hf.common l r.inner
  line := fun l r k => by
    simp only [recorded, Recorded.inner_pass, Recorded.messages_pass, Recorded.teardowns_pass, hf.line]
    split <;> simp [Function.comp_def]

def Uniform.pass {f : σ → σ} (hf : P.Uniform f) : P.recorded.Uniform fun r => r.pass (f r.inner) where
  shared := hf.shared
  effect := fun x => { x with inner := hf.effect x.inner }
  sound := fun {r} h => h.pass (hf.sound h.inner) fun k hk => by rwa [hf.line, Option.isSome_map]
  common := fun r => hf.common r.inner
  line := fun r k => by
    simp [recorded, hf.line, Function.comp_def]

end Layout

namespace Separation

variable [Transport σ] (S : Separation σ)

/-- A teardown is noted. -/
def recordedTeardown : S.toLayout.recorded.Local Transport.teardown where
  effect := fun x => ⟨S.tearing.effect x.inner, x.sent, x.teardowns + 1⟩
  sound := fun {l r} h hl => by
    have hl : (S.line r.inner l).isSome := by simpa [Layout.recorded] using hl
    exact h.note (S.tearing.sound h.inner hl) (S.tearing.isSome l r.inner) (S.tearing.isSome l r.inner l hl)
  common := fun l r => S.tearing.common l r.inner
  line := by
    intro l r k
    show (S.line (Transport.teardown l r.inner) k).map _ = _
    simp only [Layout.recorded, Transport.teardown, Recorded.messages_tornDown,
      Recorded.teardowns_tornDown, S.tearing.line]
    split <;> simp [Function.comp_def]

/-- A message is noted if the channel takes it. -/
def recordedSend (m : Message) : S.toLayout.recorded.Local fun l r => (Transport.send l m r).2 where
  effect := fun x =>
    { inner := (S.sending m).effect x.inner
      sent := match S.takes m x.inner with
        | .ok () => x.sent ++ [m]
        | .error _ => x.sent
      teardowns := x.teardowns }
  sound := by
    intro l r h hl
    have hl : (S.line r.inner l).isSome := by simpa [Layout.recorded] using hl
    have hsound := (S.sending m).sound h.inner hl
    have hsome := (S.sending m).isSome l r.inner
    rcases Recorded.send_cases l m r with ⟨e, t, hi, ho⟩ | ⟨t, hi, ho⟩
    · rw [ho]
      rw [hi] at hsound hsome
      exact h.pass hsound hsome
    · rw [ho]
      rw [hi] at hsound hsome
      exact h.note hsound hsome (hsome l hl)
  common := by
    intro l r
    have hcommon := (S.sending m).common l r.inner
    rcases Recorded.send_cases l m r with ⟨e, t, hi, ho⟩ | ⟨t, hi, ho⟩
    · rw [hi] at hcommon
      rw [ho]
      exact hcommon
    · rw [hi] at hcommon
      rw [ho]
      exact hcommon
  line := by
    intro l r k
    have hline := (S.sending m).line l r.inner k
    simp only [Layout.recorded]
    rcases Recorded.send_cases l m r with ⟨e, t, hi, ho⟩ | ⟨t, hi, ho⟩
    · simp only [hi] at hline
      simp only [ho, Recorded.inner_pass, Recorded.messages_pass, Recorded.teardowns_pass, hline]
      split
      · cases hx : S.line r.inner k with
        | none => rfl
        | some x =>
          have htakes : S.takes m x = .error e := by rw [← S.takes_eq (‹k = l› ▸ hx), hi]
          simp [htakes]
      · rfl
    · simp only [hi] at hline
      simp only [ho, Recorded.inner_note, Recorded.messages_sent, Recorded.teardowns_sent, hline]
      split
      · cases hx : S.line r.inner k with
        | none => rfl
        | some x =>
          have htakes : S.takes m x = .ok () := by rw [← S.takes_eq (‹k = l› ▸ hx), hi]
          simp [htakes]
      · rfl

theorem recorded_refused {now : Millis} {identity : RemoteIdentity} {aspect : String} {r : Recorded σ}
    {e : TransportError}
    (h : (S.dial now identity aspect (S.common r.inner)).map (RecordedLine.mk · [] 0) = .error e) :
    ∃ r', Transport.openLink now identity aspect r = (.error e, r') ∧ S.toLayout.recorded.Like r r' := by
  cases hd : S.dial now identity aspect (S.common r.inner) with
  | ok x => rw [hd] at h; cases h
  | error e' =>
    rw [hd] at h
    cases h
    obtain ⟨t', ht', hlike⟩ := S.refused hd
    refine ⟨r.pass t', by simp [Transport.openLink, ht'], ?_, hlike.common, fun k => ?_⟩
    · exact fun h => h.pass (hlike.sound h.inner) fun k hk => by rwa [hlike.line]
    · simp [Layout.recorded, hlike.line]

theorem recorded_opened {now : Millis} {identity : RemoteIdentity} {aspect : String} {r : Recorded σ}
    {x : RecordedLine S.Line} (hr : S.SoundLog r)
    (h : (S.dial now identity aspect (S.common r.inner)).map (RecordedLine.mk · [] 0) = .ok x) :
    ∃ l r', Transport.openLink now identity aspect r = (.ok l, r') ∧ S.toLayout.recorded.line r l = none ∧
      S.SoundLog r' ∧ S.common r'.inner = S.common r.inner ∧
      ∀ k, S.toLayout.recorded.line r' k = if k = l then some x else S.toLayout.recorded.line r k := by
  cases hd : S.dial now identity aspect (S.common r.inner) with
  | error e => rw [hd] at h; cases h
  | ok y =>
    rw [hd] at h
    cases h
    obtain ⟨l, t', ht', hnew, hsound, hcommon, hline⟩ := S.opened hr.inner hd
    have hunknown : ∀ d ∈ r.deeds, d.link ≠ l := by
      intro d hm heq
      have hsome := hr.known d hm
      simp [heq, hnew] at hsome
    refine ⟨l, r.note (.opened l) t', by simp [Transport.openLink, ht'], by simp [Layout.recorded, hnew],
      hr.note hsound (fun k hk => ?_) (by simp [Deed.link, hline]), hcommon, fun k => ?_⟩
    · rw [hline]
      split
      · rfl
      · exact hk
    · simp only [Layout.recorded, Recorded.inner_note, Recorded.messages_opened,
        Recorded.teardowns_opened, hline]
      split
      · rename_i hk
        subst hk
        simp [Recorded.messages_eq_nil hunknown, Recorded.teardowns_eq_zero hunknown]
      · rfl

theorem line_inner {r : Recorded σ} {l : LinkId} {x : RecordedLine S.Line}
    (h : S.toLayout.recorded.line r l = some x) : S.line r.inner l = some x.inner := by
  obtain ⟨y, hy, rfl⟩ := Option.map_eq_some_iff.mp h
  exact hy

def recorded : Separation (Recorded σ) where
  toLayout := S.toLayout.recorded
  hasPath := S.hasPath
  hasPath_eq d r := S.hasPath_eq d r.inner
  identity := S.identity
  identity_eq d r := S.identity_eq d r.inner
  dial now identity aspect c := (S.dial now identity aspect c).map (⟨·, [], 0⟩)
  refused := S.recorded_refused
  opened := S.recorded_opened
  channel x := S.channel x.inner
  channel_eq h := S.channel_eq (S.line_inner h)
  takes m x := S.takes m x.inner
  takes_eq {l m r x} h := by
    have htakes := S.takes_eq (m := m) (S.line_inner h)
    rcases Recorded.send_cases l m r with ⟨e, t, hi, ho⟩ | ⟨t, hi, ho⟩
    · rw [ho, ← htakes, hi]
    · rw [ho, ← htakes, hi]
  handling := S.handling.pass
  sending := S.recordedSend
  tearing := S.recordedTeardown
  asking now d := (S.asking now d).pass
  waking now := (S.waking now).pass
  delivering := S.delivering.pass
  waiting x := S.waiting x.inner
  deliver_eq h := S.deliver_eq (S.line_inner h)
  delivering_shared := S.delivering_shared
  still x := S.still x.inner
  mute x := S.mute x.inner
  waiting_still := S.waiting_still
  delivering_still {x} h := by
    obtain ⟨inner, sent, teardowns⟩ := x
    exact congrArg (RecordedLine.mk · sent teardowns) (S.delivering_still h)
  still_delivering x := S.still_delivering x.inner
  mute_delivering := S.mute_delivering
  handling_settling := S.handling_settling.recorded fun _ => rfl
  sending_settling m := (S.sending_settling m).recorded fun _ => rfl
  tearing_settling := S.tearing_settling.recorded fun _ => rfl

theorem ready_blank {t : σ} (ht : S.Ready t) : S.recorded.Ready (.blank t) where
  sound := ⟨ht.sound, by simp [Recorded.blank]⟩
  drained := fun l _ hx => ht.drained l _ (S.line_inner hx)

end Separation

end MeshShell

import MeshShell.Proofs.Partners
import MeshShell.Transport.Basic

/-! # Transports that keep their links apart

A transport holds what all links share, and a state for each link. Whoever uses
a link changes the state of this link, and it depends on this state alone how it
is changed and what is called back. What all links share decides which paths and
identities are known and how a new link begins.
-/
namespace MeshShell

/-- How a transport falls apart into its links and what they share. -/
structure Layout (σ : Type) where
  Common : Type
  Line : Type
  common : σ → Common
  /-- The state of a link, if there is such a link. -/
  line : σ → LinkId → Option Line
  /-- Nothing refers to a link that was never opened. -/
  sound : σ → Prop

namespace Layout

variable {σ : Type}

/-- A change that goes to one link. -/
structure Local (P : Layout σ) (f : LinkId → σ → σ) where
  effect : P.Line → P.Line
  sound : ∀ {l t}, P.sound t → (P.line t l).isSome → P.sound (f l t)
  common : ∀ l t, P.common (f l t) = P.common t
  line : ∀ l t k, P.line (f l t) k = if k = l then (P.line t k).map effect else P.line t k

/-- A change that goes to everything, and to all links in the same way. -/
structure Uniform (P : Layout σ) (f : σ → σ) where
  shared : P.Common → P.Common
  effect : P.Line → P.Line
  sound : ∀ {t}, P.sound t → P.sound (f t)
  common : ∀ t, P.common (f t) = shared (P.common t)
  line : ∀ t k, P.line (f t) k = (P.line t k).map effect

/-- Several changes to one link, one after the other. -/
def Local.foldl {α : Type} {P : Layout σ} {f : α → LinkId → σ → σ} (h : ∀ a, P.Local (f a))
    (as : List α) : P.Local fun l t => as.foldl (fun t a => f a l t) t where
  effect := fun x => as.foldl (fun x a => (h a).effect x) x
  sound := by
    intro l t ht hl
    induction as generalizing t with
    | nil => exact ht
    | cons a as ih => exact ih ((h a).sound ht hl) (by simpa [(h a).line] using hl)
  common := by
    intro l t
    induction as generalizing t with
    | nil => rfl
    | cons a as ih => rw [List.foldl_cons, ih, (h a).common]
  line := by
    intro l t k
    induction as generalizing t with
    | nil => simp
    | cons a as ih =>
      simp only [List.foldl_cons, ih, (h a).line]
      split
      · rw [Option.map_map]
        rfl
      · rfl

/-- What a session does on a link may call back on this link, and then no more than once: what it
does later calls back nothing. -/
structure Settling {Line : Type} (still mute : Line → Prop) (effect : Line → Line) : Prop where
  calls : ∀ {x}, still x → still (effect x) ∨ mute (effect x)
  ends : ∀ {x}, mute x → mute (effect x)
  rest : ∀ {x}, mute x → still x → still (effect x)

/-- Both transports look the same. -/
structure Like (P : Layout σ) (t t' : σ) : Prop where
  sound : P.sound t → P.sound t'
  common : P.common t' = P.common t
  line : ∀ k, P.line t' k = P.line t k

end Layout

structure Separation (σ : Type) [Transport σ] extends Layout σ where
  hasPath : Destination → Common → Bool
  hasPath_eq : ∀ d t, Transport.hasPath d t = hasPath d (common t)
  identity : Destination → Common → Option RemoteIdentity
  identity_eq : ∀ d t, Transport.recallIdentity d t = identity d (common t)
  /-- How a new link begins, if it can be had. -/
  dial : Millis → RemoteIdentity → String → Common → Except TransportError Line
  refused : ∀ {now identity aspect t e}, dial now identity aspect (common t) = .error e →
    ∃ t', Transport.openLink now identity aspect t = (.error e, t') ∧ toLayout.Like t t'
  opened : ∀ {now identity aspect t x}, sound t → dial now identity aspect (common t) = .ok x →
    ∃ l t', Transport.openLink now identity aspect t = (.ok l, t') ∧ line t l = none ∧ sound t' ∧
      common t' = common t ∧ ∀ k, line t' k = if k = l then some x else line t k
  channel : Line → Bool
  channel_eq : ∀ {l t x}, line t l = some x → (Transport.channel l t).isOk = channel x
  takes : Message → Line → Except TransportError Unit
  takes_eq : ∀ {l m t x}, line t l = some x → (Transport.send l m t).1 = takes m x
  handling : toLayout.Local Transport.setHandler
  sending : ∀ m, toLayout.Local fun l t => (Transport.send l m t).2
  tearing : toLayout.Local Transport.teardown
  asking : ∀ now d, toLayout.Uniform (Transport.requestPath now d)
  waking : ∀ now, toLayout.Uniform (Transport.wake now)
  delivering : toLayout.Uniform fun t => (Transport.deliver t).2
  /-- The callbacks of a link that are waiting. -/
  waiting : Line → List Callback
  deliver_eq : ∀ {l t x}, line t l = some x →
    ((Transport.deliver t).1.filter (·.1 = l)).map (·.2) = waiting x
  delivering_shared : ∀ c, delivering.shared c = c
  /-- No callback of the link is on its way. -/
  still : Line → Prop
  /-- Nothing that is done on the link is called back any more. -/
  mute : Line → Prop
  waiting_still : ∀ {x}, still x → waiting x = []
  delivering_still : ∀ {x}, still x → delivering.effect x = x
  still_delivering : ∀ x, still (delivering.effect x)
  mute_delivering : ∀ {x}, mute x → mute (delivering.effect x)
  handling_settling : Layout.Settling still mute handling.effect
  sending_settling : ∀ m, Layout.Settling still mute (sending m).effect
  tearing_settling : Layout.Settling still mute tearing.effect

namespace Layout

variable {σ : Type} {P : Layout σ} {t t' u u' : σ} {b b' : Bond}

theorem Like.refl (t : σ) : P.Like t t := ⟨id, rfl, fun _ => rfl⟩

theorem Like.trans (h : P.Like t t') (h' : P.Like t' u) : P.Like t u :=
  ⟨fun hs => h'.sound (h.sound hs), h'.common.trans h.common, fun k => (h'.line k).trans (h.line k)⟩

/-- Two transports look the same, but for links that only the second one has. -/
structure Agree (P : Layout σ) (b : Bond) (t t' : σ) : Prop where
  sound : P.sound t
  sound' : P.sound t'
  common : P.common t' = P.common t
  partner : ∀ {l l'}, b.partner l l' → ∃ x, P.line t l = some x ∧ P.line t' l' = some x
  stranger : ∀ {l'}, b.stranger l' → (P.line t' l').isSome

namespace Agree

theorem like (h : P.Agree b t t') (hl : P.Like t u) (hr : P.Like t' u') : P.Agree b u u' where
  sound := hl.sound h.sound
  sound' := hr.sound h.sound'
  common := by rw [hr.common, hl.common, h.common]
  partner := fun hp => by
    rw [hl.line, hr.line]
    exact h.partner hp
  stranger := fun hs => by
    rw [hr.line]
    exact h.stranger hs

theorem unlike (h : P.Agree b u t') (hl : P.Like t u) (hs : P.sound t) : P.Agree b t t' where
  sound := hs
  sound' := h.sound'
  common := by rw [h.common, hl.common]
  partner := fun hp => by
    rw [← hl.line]
    exact h.partner hp
  stranger := h.stranger

theorem weaken (h : P.Agree b' t t') (hle : b.Le b') : P.Agree b t t' :=
  { h with
    partner := fun hp => h.partner (hle.partner hp)
    stranger := fun hs => h.stranger (hle.stranger hs) }

theorem uniform (h : P.Agree b t t') {f : σ → σ} (hf : P.Uniform f) : P.Agree b (f t) (f t') where
  sound := hf.sound h.sound
  sound' := hf.sound h.sound'
  common := by rw [hf.common, hf.common, h.common]
  partner := fun hp => by
    obtain ⟨x, hl, hr⟩ := h.partner hp
    exact ⟨hf.effect x, by rw [hf.line, hl]; rfl, by rw [hf.line, hr]; rfl⟩
  stranger := fun hs => by
    rw [hf.line, Option.isSome_map]
    exact h.stranger hs

/-- A change goes to a link on both sides. -/
theorem both (h : P.Agree b t t') (hb : b.Fair) {f : LinkId → σ → σ} (hf : P.Local f)
    {l l' : LinkId} (hl : b.partner l l') : P.Agree b (f l t) (f l' t') where
  sound := by
    obtain ⟨x, hx, -⟩ := h.partner hl
    exact hf.sound h.sound (by simp [hx])
  sound' := by
    obtain ⟨x, -, hx⟩ := h.partner hl
    exact hf.sound h.sound' (by simp [hx])
  common := by rw [hf.common, hf.common, h.common]
  partner := by
    intro k k' hk
    obtain ⟨x, hx, hx'⟩ := h.partner hk
    have hiff : k = l ↔ k' = l' :=
      ⟨fun he => hb.left (he ▸ hk) hl, fun he => hb.right (he ▸ hk) hl⟩
    simp only [hf.line, hiff, hx, hx']
    split
    · exact ⟨hf.effect x, rfl, rfl⟩
    · exact ⟨x, rfl, rfl⟩
  stranger := by
    intro k' hk'
    rw [hf.line]
    split
    · rw [Option.isSome_map]
      exact h.stranger hk'
    · exact h.stranger hk'

theorem extra (h : P.Agree b t t') (hb : b.Fair) {f : LinkId → σ → σ} (hf : P.Local f)
    {l' : LinkId} (hl : b.stranger l') : P.Agree b t (f l' t') where
  sound := h.sound
  sound' := hf.sound h.sound' (h.stranger hl)
  common := by rw [hf.common, h.common]
  partner := by
    intro k k' hk
    rw [hf.line, if_neg fun he => hb.apart hk (by rwa [he])]
    exact h.partner hk
  stranger := by
    intro k' hk'
    rw [hf.line]
    split
    · rw [Option.isSome_map]
      exact h.stranger hk'
    · exact h.stranger hk'

end Agree

end Layout

namespace Separation

variable {σ : Type} [Transport σ] {S : Separation σ} {t t' : σ} {b : Bond}

/-- A new link on both sides, if it can be had. -/
theorem open_both (h : S.Agree b t t') (hb : b.Fair) (now : Millis) (identity : RemoteIdentity)
    (aspect : String) :
    (∃ e u u', Transport.openLink now identity aspect t = (.error e, u) ∧
      Transport.openLink now identity aspect t' = (.error e, u') ∧ S.Agree b u u') ∨
    ∃ l l' u u', Transport.openLink now identity aspect t = (.ok l, u) ∧
      Transport.openLink now identity aspect t' = (.ok l', u') ∧ (b.tie l l').Fair ∧
      S.Agree (b.tie l l') u u' := by
  cases hd : S.dial now identity aspect (S.common t) with
  | error e =>
    obtain ⟨u, hu, hlike⟩ := S.refused hd
    obtain ⟨u', hu', hlike'⟩ := S.refused (t := t') (h.common ▸ hd)
    exact .inl ⟨e, u, u', hu, hu', h.like hlike hlike'⟩
  | ok x =>
    obtain ⟨l, u, hu, hnew, hs, hc, hline⟩ := S.opened h.sound hd
    obtain ⟨l', u', hu', hnew', hs', hc', hline'⟩ := S.opened (t := t') h.sound' (h.common ▸ hd)
    refine .inr ⟨l, l', u, u', hu, hu', hb.tie ?_ ?_ ?_, hs, hs', ?_, ?_, ?_⟩
    · intro k' hk'
      obtain ⟨y, hy, -⟩ := h.partner hk'
      simp [hnew] at hy
    · intro k hk
      obtain ⟨y, -, hy⟩ := h.partner hk
      simp [hnew'] at hy
    · intro hk
      simpa [hnew'] using h.stranger hk
    · rw [hc, hc', h.common]
    · rintro k k' (hk | ⟨rfl, rfl⟩)
      · obtain ⟨y, hy, hy'⟩ := h.partner hk
        have hkl : k ≠ l := by
          rintro rfl
          simp [hnew] at hy
        have hkl' : k' ≠ l' := by
          rintro rfl
          simp [hnew'] at hy'
        exact ⟨y, by rw [hline, if_neg hkl, hy], by rw [hline', if_neg hkl', hy']⟩
      · exact ⟨x, by rw [hline, if_pos rfl], by rw [hline', if_pos rfl]⟩
    · intro k' hk'
      rw [hline']
      split
      · rfl
      · exact h.stranger hk'

/-- A new link on the second side, if it can be had. -/
theorem open_extra (h : S.Agree b t t') (hb : b.Fair) (now : Millis) (identity : RemoteIdentity)
    (aspect : String) :
    (∃ e u', Transport.openLink now identity aspect t' = (.error e, u') ∧ S.Agree b t u') ∨
    ∃ l' u', Transport.openLink now identity aspect t' = (.ok l', u') ∧ (b.lose l').Fair ∧
      S.Agree (b.lose l') t u' := by
  cases hd : S.dial now identity aspect (S.common t') with
  | error e =>
    obtain ⟨u', hu', hlike⟩ := S.refused hd
    exact .inl ⟨e, u', hu', h.like (.refl t) hlike⟩
  | ok x =>
    obtain ⟨l', u', hu', hnew, hs, hc, hline⟩ := S.opened h.sound' hd
    refine .inr ⟨l', u', hu', hb.lose ?_, h.sound, hs, ?_, ?_, ?_⟩
    · intro k hk
      obtain ⟨y, -, hy⟩ := h.partner hk
      simp [hnew] at hy
    · rw [hc, h.common]
    · intro k k' hk
      obtain ⟨y, hy, hy'⟩ := h.partner hk
      have hkl : k' ≠ l' := by
        rintro rfl
        simp [hnew] at hy'
      exact ⟨y, hy, by rw [hline, if_neg hkl, hy']⟩
    · intro k' hk'
      rw [hline]
      split
      · rfl
      · rename_i hkl
        exact h.stranger (hk'.resolve_right hkl)

/-- No callback is on its way. -/
def Drained (S : Separation σ) (t : σ) : Prop := ∀ l x, S.line t l = some x → S.still x

/-- Callbacks are on their way only on links on which nothing else will be called back. -/
def Draining (S : Separation σ) (t : σ) : Prop :=
  ∀ l x, S.line t l = some x → S.still x ∨ S.mute x

/-- No callback is on its way, and none will be on the given links. -/
structure Spent (S : Separation σ) (links : LinkId → Prop) (t : σ) : Prop where
  drained : S.Drained t
  mute : ∀ l, links l → ∀ x, S.line t l = some x → S.mute x

theorem line_local {f : LinkId → σ → σ} (hf : S.Local f) {l k : LinkId} {y : S.Line}
    (h : S.line (f l t) k = some y) :
    k = l ∧ (∃ x, S.line t k = some x ∧ hf.effect x = y) ∨ k ≠ l ∧ S.line t k = some y := by
  rw [hf.line] at h
  split at h
  · exact .inl ⟨‹_›, Option.map_eq_some_iff.mp h⟩
  · exact .inr ⟨‹_›, h⟩

theorem Draining.act (ht : S.Draining t) {f : LinkId → σ → σ} (hf : S.Local f)
    (hs : Layout.Settling S.still S.mute hf.effect) (l : LinkId) : S.Draining (f l t) := by
  intro k y hy
  rcases line_local hf hy with ⟨-, x, hx, rfl⟩ | ⟨-, hx⟩
  · rcases ht k x hx with hstill | hover
    · exact hs.calls hstill
    · exact .inr (hs.ends hover)
  · exact ht k y hx

theorem Spent.act {links : LinkId → Prop} (ht : S.Spent links t) {f : LinkId → σ → σ}
    (hf : S.Local f) (hs : Layout.Settling S.still S.mute hf.effect) {l : LinkId} (hl : links l) :
    S.Spent links (f l t) where
  drained := by
    intro k y hy
    rcases line_local hf hy with ⟨rfl, x, hx, rfl⟩ | ⟨-, hx⟩
    · exact hs.rest (ht.mute k hl x hx) (ht.drained k x hx)
    · exact ht.drained k y hx
  mute := by
    intro k hk y hy
    rcases line_local hf hy with ⟨-, x, hx, rfl⟩ | ⟨-, hx⟩
    · exact hs.ends (ht.mute k hk x hx)
    · exact ht.mute k hk y hx

theorem Drained.draining (ht : S.Drained t) : S.Draining t := fun l x hx => .inl (ht l x hx)

theorem drained_deliver (S : Separation σ) (t : σ) : S.Drained (Transport.deliver t).2 := by
  intro l y hy
  rw [S.delivering.line] at hy
  obtain ⟨x, -, rfl⟩ := Option.map_eq_some_iff.mp hy
  exact S.still_delivering x

/-- A callback of the link may be on its way. -/
def Calling (S : Separation σ) (t : σ) (l : LinkId) : Prop := ∀ x, S.line t l = some x → ¬ S.still x

theorem Draining.spent (ht : S.Draining t) : S.Spent (S.Calling t) (Transport.deliver t).2 where
  drained := S.drained_deliver t
  mute := by
    intro l hl y hy
    rw [S.delivering.line] at hy
    obtain ⟨x, hx, rfl⟩ := Option.map_eq_some_iff.mp hy
    exact S.mute_delivering ((ht l x hx).resolve_left (hl x hx))

theorem Drained.like (ht : S.Drained t) (hl : S.Like t t') :
    S.Drained t' := by
  intro l x hx
  rw [hl.line] at hx
  exact ht l x hx

theorem Drained.deliver_like (ht : S.Drained t) :
    S.Like t (Transport.deliver t).2 where
  sound := S.delivering.sound
  common := by rw [S.delivering.common, S.delivering_shared]
  line := by
    intro l
    rw [S.delivering.line]
    cases hl : S.line t l with
    | none => rfl
    | some x => rw [Option.map_some, S.delivering_still (ht l x hl)]

/-- A transport at the start of a run: nothing refers to a link that was never opened, and no
callback is on its way. -/
structure Ready (S : Separation σ) (t : σ) : Prop where
  sound : S.sound t
  drained : S.Drained t

end Separation

end MeshShell

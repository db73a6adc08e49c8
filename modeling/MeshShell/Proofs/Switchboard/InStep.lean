import MeshShell.Proofs.Switchboard.Calm
import MeshShell.Proofs.Switchboard.Mirrored

/-! # In step

Two switchboards, one mirrored in the other, settle and let time pass in step.
The larger one may settle more often: whatever of it the smaller one has had
nothing left to do.
-/
namespace MeshShell.Switchboard

variable {σ : Type} [Transport σ] {S : Separation σ} {m : Matching} {v w : Switchboard σ}

theorem push_event {k : Kin} {s s' : Session} (hs : k.Alike s s') {l l' : LinkId}
    (hl : k.link l l') (callbacks : List Callback) :
    k.Alike (callbacks.foldl (fun s c => s.push (eventOf l c)) s)
      (callbacks.foldl (fun s c => s.push (eventOf l' c)) s') := by
  induction callbacks generalizing s s' with
  | nil => exact hs
  | cons c rest ih =>
    refine ih (hs.push ?_)
    cases c with
    | established => exact .established hl
    | closed => exact .closed
    | message msg => exact .message msg

theorem alike_hear {k : Kin} {s s' : Session} (hs : k.Alike s s')
    {callbacks callbacks' : List (LinkId × Callback)}
    (hc : ∀ {l l'}, k.link l l' → callbacksOf l' callbacks' = callbacksOf l callbacks) :
    k.Alike (s.hear callbacks) (s'.hear callbacks') := by
  unfold Session.hear
  rcases Kin.rel_cases hs.opened with ⟨ho, ho'⟩ | ⟨l, l', ho, ho', hl⟩
  · rw [ho, ho']
    exact hs
  · rw [ho, ho']
    dsimp only
    rw [hc hl]
    exact push_event hs hl _

namespace Mirrors

theorem linked (hx : Mirrors S m v w) : Linked S v := by
  intro s hs l ho
  obtain ⟨i, hlt, hget⟩ := List.getElem_of_mem hs
  obtain ⟨h, hh⟩ := hx.left hlt
  obtain ⟨u, u', hu, -, ha⟩ := hx.kept hh
  obtain rfl : s = u := by
    rw [← hget]
    exact Option.some.inj ((List.getElem?_eq_getElem hlt).symm.trans hu)
  rcases Kin.rel_cases ha.opened with ⟨hnone, -⟩ | ⟨k, k', hk, -, hl⟩
  · simp [ho] at hnone
  · obtain rfl : l = k := Option.some.inj (ho.symm.trans hk)
    obtain ⟨x, hx, -⟩ := hx.transport.partner hl
    exact ⟨x, hx⟩

/-- The handles of the larger switchboard are those of the smaller one and those of strangers. -/
theorem handles (hx : Mirrors S m v w) : Woven m.session.partner m.session.stranger
    (List.range v.sessions.length) (List.range w.sessions.length) := by
  suffices hall : ∀ n ≤ w.sessions.length, ∃ k ≤ v.sessions.length,
      Woven m.session.partner m.session.stranger (List.range k) (List.range n) ∧
        ∀ {i h}, m.session.partner i h → (i < k ↔ h < n) by
    obtain ⟨k, hk, hwoven, hiff⟩ := hall _ le_rfl
    obtain rfl : k = v.sessions.length := by
      refine le_antisymm hk (le_of_not_gt fun hlt => ?_)
      obtain ⟨h, hh⟩ := hx.left hlt
      exact Nat.lt_irrefl k ((hiff hh).mpr (hx.sessions.partner hh).2)
    exact hwoven
  intro n
  induction n with
  | zero => exact fun _ => ⟨0, Nat.zero_le _, .nil, by simp⟩
  | succ n ih =>
    intro hn
    obtain ⟨k, hk, hwoven, hiff⟩ := ih (Nat.le_of_succ_le hn)
    rcases hx.right hn with ⟨i, hi⟩ | hs
    · -- The next of the larger one is the partner of the next of the smaller one.
      have hki : k ≤ i := Nat.not_lt.mp fun hlt => Nat.lt_irrefl n ((hiff hi).mp hlt)
      have hik : i ≤ k := by
        refine Nat.not_lt.mp fun hlt => ?_
        obtain ⟨h, hh⟩ := hx.left (hlt.trans (hx.sessions.partner hi).1)
        have hnh : ¬ h < n := fun hlt' => Nat.lt_irrefl k ((hiff hh).mpr hlt')
        exact hnh ((hx.fair.ordered hh hi).mp hlt)
      obtain rfl := le_antisymm hki hik
      refine ⟨k + 1, (hx.sessions.partner hi).1, ?_, ?_⟩
      · rw [List.range_succ, List.range_succ]
        exact hwoven.snoc hi
      · intro j h hj
        have hsucc := hx.fair.ordered hi hj
        omega
    · refine ⟨k, hk, ?_, ?_⟩
      · rw [List.range_succ]
        exact hwoven.snoc_extra hs
      · intro j h hj
        have hne : h ≠ n := by
          rintro rfl
          exact hx.fair.session.apart hj hs
        have := hiff hj
        omega

theorem foldl_handles (hx : Mirrors S m v w) {f : Switchboard σ → Handle → Switchboard σ}
    (hboth : ∀ {v w i h}, Mirrors S m v w → m.session.partner i h → Mirrors S m (f v i) (f w h))
    (hextra : ∀ {v w h}, Mirrors S m v w → m.session.stranger h → Mirrors S m v (f w h)) :
    Mirrors S m ((List.range v.sessions.length).foldl f v)
      ((List.range w.sessions.length).foldl f w) :=
  hx.handles.foldl (r := Mirrors S m) (fun _ _ _ _ hh hx => hboth hx hh)
    (fun _ _ _ hh hx => hextra hx hh) hx

theorem collect (hx : Mirrors S m v w) : Mirrors S m v.collect w.collect := by
  rw [collect_eq, collect_eq]
  exact
    { hx with
      sessions := by simpa using hx.sessions
      transport := hx.transport.uniform S.delivering
      left := fun hi => hx.left (by simpa using hi)
      right := fun hh => hx.right (by simpa using hh)
      kept := by
        intro i h hh
        obtain ⟨s, s', hs, hs', ha⟩ := hx.kept hh
        refine ⟨s.hear (Transport.deliver v.transport).1, s'.hear (Transport.deliver w.transport).1,
          by simp [hs], by simp [hs'], alike_hear ha ?_⟩
        intro l l' hl
        obtain ⟨x, hl, hl'⟩ := hx.transport.partner hl
        exact (S.deliver_eq hl').trans (S.deliver_eq hl).symm
      lost := by
        intro h hh
        obtain ⟨s, hs, ha⟩ := hx.lost hh
        refine ⟨s.hear (Transport.deliver w.transport).1, by simp [hs], alike_hear ha ?_⟩
        rintro l l' ⟨rfl, -⟩
        rfl }

end Mirrors

/-- The drivers empty their inboxes one after the other. -/
theorem driveAll_eq (done rest : List Session) (w : Switchboard σ)
    (hw : w.sessions = done ++ rest) :
    { w with
      sessions := done ++ (driveAll rest w.transport).1
      transport := (driveAll rest w.transport).2 } =
    (List.range' done.length rest.length).foldl (fun w h => w.updateSession h Session.drive) w := by
  induction rest generalizing done w with
  | nil =>
    have hsame : { w with sessions := done ++ [], transport := w.transport } = w := by rw [← hw]
    exact hsame
  | cons s rest ih =>
    have hs : w.sessions[done.length]? = some s := by simp [hw]
    have hput : (w.put done.length (s.drive w.transport)).sessions =
        (done ++ [(s.drive w.transport).1]) ++ rest := by
      simp [put, hw]
    have hrest := ih (done ++ [(s.drive w.transport).1]) _ hput
    rw [List.length_append, List.length_singleton] at hrest
    rw [List.length_cons, List.range'_succ, List.foldl_cons, updateSession_eq hs, ← hrest]
    simp [driveAll, put]

theorem round_eq (w : Switchboard σ) : w.round =
    (List.range w.collect.sessions.length).foldl (fun w h => w.updateSession h Session.drive)
      w.collect := by
  have hall := driveAll_eq [] w.collect.sessions w.collect rfl
  rw [List.length_nil, ← List.range_eq_range'] at hall
  exact hall

namespace Mirrors

theorem round (hx : Mirrors S m v w) : Mirrors S m v.round w.round := by
  rw [round_eq, round_eq]
  refine hx.collect.foldl_handles ?_ ?_
  · intro v w i h hx hh
    have hc := coupled_kept (S := S) hx.fair
    exact hc.update (Kin.drive hc.couples) hx hh
  · intro v w h hx hh
    have hc := coupled_lost (S := S) hx.fair v
    exact (hc.update (Kin.drive hc.couples) ⟨rfl, hx⟩ ⟨rfl, hh⟩).2

theorem settle (hx : Mirrors S m v w) : Mirrors S m v.settle w.settle := by
  refine hx.round.round.foldl_handles ?_ ?_
  · intro v w i h hx hh
    exact (coupled_kept hx.fair).serve hx hh
  · intro v w h hx hh
    exact ((coupled_lost hx.fair v).serve ⟨rfl, hx⟩ ⟨rfl, hh⟩).2

theorem unrest (hv : Mirrors S m v w) {v' w' : Switchboard σ} (hr : Rests S v v')
    (hx : Mirrors S m v' w') : Mirrors S m v w' := by
  obtain ⟨t, rfl, ht⟩ := hr
  exact { hx with transport := hx.transport.unlike ht hv.transport.sound }

theorem collect_extra (hx : Mirrors S m v w) (hc : Calm S v) : Mirrors S m v w.collect :=
  hx.unrest (rests_collect hc hx.linked) hx.collect

theorem settle_extra (hx : Mirrors S m v w) (hc : Calm S v) : Mirrors S m v w.settle :=
  hx.unrest (rests_settle hc hx.linked) hx.settle

end Mirrors

/-- The smaller switchboard is mirrored and has nothing left to do. -/
structure InStep (S : Separation σ) (m : Matching) (v w : Switchboard σ) : Prop where
  mirrors : Mirrors S m v w
  calm : Calm S v

namespace Mirrors

theorem inStep (hx : Mirrors S m v w) (hv : v.Consistent) : InStep S m v.settle w.settle :=
  ⟨hx.settle, calm_settle S hv⟩

theorem tick (hx : Mirrors S m v w) (time : Millis) :
    Mirrors S m { v with now := time, transport := Transport.wake time v.transport }
      { w with now := time, transport := Transport.wake time w.transport } :=
  { hx with
    now := rfl
    transport := hx.transport.uniform (S.waking time) }

end Mirrors

namespace InStep

theorem settle_extra (hx : InStep S m v w) : InStep S m v w.settle :=
  ⟨hx.mirrors.settle_extra hx.calm, hx.calm⟩

theorem expire_both (hx : InStep S m v w) {p p' : Pending} (hp : m.kept.Pends p p') :
    InStep S m (v.expireIfPending p) (w.expireIfPending p') := by
  have hany := hx.mirrors.waits.any (p := (·.ticket = p.ticket)) (q := (·.ticket = p'.ticket))
    (fun q q' hq => by simp [hx.mirrors.fair.distinct hq.ticket hp.ticket])
    (fun q hq => by
      have hne : q.ticket ≠ p'.ticket :=
        fun he => hx.mirrors.fair.ticket.apart hp.ticket (he ▸ hq.ticket.2)
      simpa using hne)
  unfold expireIfPending
  rw [hany]
  split
  · exact ((coupled_kept hx.mirrors.fair).expire hx.mirrors hp).inStep (hx.calm.consistent.expire p)
  · exact hx

theorem expire_extra (hx : InStep S m v w) {p' : Pending} (hp : m.lost.Pends p' p') :
    InStep S m v (w.expireIfPending p') := by
  unfold expireIfPending
  split
  · have hexpire := (coupled_lost hx.mirrors.fair v).expire ⟨rfl, hx.mirrors⟩ hp
    exact settle_extra ⟨hexpire.2, hx.calm⟩
  · exact hx

theorem moment (hx : InStep S m v w) (time : Millis) :
    InStep S m (v.moment time) (w.moment time) := by
  have htick := (hx.mirrors.tick time).inStep (hx.calm.consistent.of_same rfl)
  have hdue := htick.mirrors.waits.filter (p := (·.wake ≤ time)) (q := (·.wake ≤ time))
    fun p p' hp => by rw [hp.wake]
  exact hdue.foldl (r := InStep S m) (fun _ _ _ _ hp hx => hx.expire_both hp)
    (fun _ _ _ hp hx => hx.expire_extra hp) htick

end InStep

end MeshShell.Switchboard

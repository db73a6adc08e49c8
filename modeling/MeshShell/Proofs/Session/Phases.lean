import MeshShell.Proofs.Session.Consistency
import MeshShell.Transport.Scripted
import Mathlib.Data.List.Chain

/-! # The order of phases

A session is orderly if its phase only moves forward, is closed exactly when the
session is, and if the handshake happens at most once. Two missteps are possible:
a late connect takes a closed session back to linking, and a second report of an
established link takes an active session back to the handshake. Without them
every session is orderly, and with any of them none is.
-/
namespace MeshShell

/-- One phase does not come later than another. -/
def Phase.NoLater (p q : Phase) : Prop := p.rank ≤ q.rank

instance : DecidableRel Phase.NoLater := fun p q => inferInstanceAs (Decidable (p.rank ≤ q.rank))

instance : Trans Phase.NoLater Phase.NoLater Phase.NoLater := ⟨Nat.le_trans⟩

theorem Phase.noLater_closed (p : Phase) : p.NoLater .closed := by cases p <;> decide

namespace Session

variable {σ : Type} [Transport σ]

/-- The driver shakes hands with an action. -/
def greets (s : Session) (a : Action σ) : Bool :=
  match s.taken a with
  | some (.established _) => !s.closed
  | _ => false

/-- The phases that a session passes through in the middle of an action. -/
def passing (s : Session) (t : σ) (a : Action σ) : List Phase :=
  if s.dials t a then [.linking] else if s.greets a then [.handshaking] else []

/-- The phases before and in the middle of the actions of a history. -/
def shown (hist : History σ) : List Phase :=
  hist.flatMap fun (p, a) => p.1.phase :: p.1.passing p.2 a

/-- How often the driver has shaken hands. -/
def handshakes (hist : History σ) : Nat := hist.countP fun (p, a) => p.1.greets a

/-- The phase says whether the session is closed. -/
def Agrees (s : Session) : Prop := s.phase = .closed ↔ s.closed = true

structure Orderly (l : Life σ) : Prop where
  forward : (shown l.history ++ [l.session.phase]).IsChain Phase.NoLater
  agrees : (∀ p a, (p, a) ∈ l.history → Agrees p.1) ∧ Agrees l.session
  once : handshakes l.history ≤ 1

/-- What takes a session back in its life. -/
inductive Misstep (s : Session) (t : σ) (a : Action σ) : Prop
  /-- A closed session opens a link. -/
  | lateConnect : s.closed = true → s.dials t a = true → Misstep s t a
  /-- The link of an active session is established again. -/
  | again : s.phase = .active → s.greets a = true → Misstep s t a

theorem Agrees.shut {s : Session} (h : Agrees s) : Agrees s.shut ∧ s.shut.phase = .closed := by
  by_cases hc : s.closed = true
  · rw [shut_of_closed hc]
    exact ⟨h, h.mpr hc⟩
  · have hp : s.shut.phase = .closed := by simp [Session.shut, hc]
    exact ⟨by simp [Agrees, hp], hp⟩

@[simp] theorem phase_push (s : Session) (e : LinkEvent) : (s.push e).phase = s.phase := by
  unfold push
  split <;> rfl

@[simp] theorem phase_enqueue (s : Session) (data : Bytes) :
    (s.enqueue data).phase = s.phase := by
  unfold enqueue
  split <;> rfl

@[simp] theorem phase_endDriver (s : Session) : s.endDriver.phase = s.phase := rfl

theorem Apart.ungreeted {s : Session} {t : σ} {a : Action σ} (h : Apart s t a) :
    s.greets a = false := by
  simp [greets, h.untaken]

/-- Without a misstep an action takes the phase forward, keeps it in agreement, and shakes hands
only with a session that has not come as far before. -/
structure Ahead (s : Session) (t : σ) (a : Action σ) (s' : Session) : Prop where
  forward : (s.phase :: s.passing t a ++ [s'.phase]).IsChain Phase.NoLater
  agrees : Agrees s'
  first : s.greets a = true → s.phase = .linking ∧ (s'.phase = .active ∨ s'.phase = .closed)

variable {s s' : Session} {t : σ} {a : Action σ}

theorem passing_of_dials (hd : s.dials t a = true) : s.passing t a = [.linking] := by
  simp [passing, hd]

theorem passing_of_greets (hd : s.dials t a = false) (hg : s.greets a = true) :
    s.passing t a = [.handshaking] := by
  simp [passing, hd, hg]

theorem Ahead.noLater (h : Ahead s t a s') : s.phase.NoLater s'.phase :=
  List.rel_of_pairwise_cons h.forward.pairwise (by simp)

theorem Ahead.of_apart (hd : s.dials t a = false) (hg : s.greets a = false)
    (hp : s.phase.NoLater s'.phase) (hs : Agrees s') : Ahead s t a s' where
  forward := by simpa [passing, hd, hg] using hp
  agrees := hs
  first := by simp [hg]

theorem Ahead.same (hd : s.dials t a = false) (hg : s.greets a = false) (hp : s'.phase = s.phase)
    (hc : s'.closed = s.closed) (hs : Agrees s) : Ahead s t a s' := by
  refine .of_apart hd hg ?_ ?_
  · rw [hp]
    exact Nat.le_refl _
  · unfold Agrees
    rwa [hp, hc]

theorem linking_of_greets (h : Consistent s) (hg : s.greets a = true) (hm : ¬ Misstep s t a) :
    s.phase = .linking := by
  have hg' := hg
  unfold greets at hg
  cases ht : s.taken a with
  | none => simp [ht] at hg
  | some e =>
    have hc : s.closed = false := by
      rw [ht] at hg
      cases e <;> simp_all
    rcases h.open_phase hc with ⟨hd, -⟩ | ⟨-, hp | hp⟩
    · simp [running_of_taken ht] at hd
    · exact hp
    · exact absurd (.again hp hg') hm

theorem ahead_handled {e : LinkEvent} {rest : List LinkEvent} (h : Consistent s) (ha : Agrees s)
    (hm : ¬ Misstep s t a) (hd : s.dials t a = false) (ht : s.taken a = some e)
    (hs : Handled { s with inbox := rest } e s') : Ahead s t a s' := by
  have hshut : Agrees { s with inbox := rest }.shut ∧ { s with inbox := rest }.shut.phase = .closed :=
    Agrees.shut ha
  have hfar := s.phase.noLater_closed
  cases hs with
  | late hc => exact .same hd (by simpa [greets, ht] using hc) rfl rfl ha
  | failed hc =>
    have hg : s.greets a = true := by simpa [greets, ht] using hc
    have hl := linking_of_greets h hg hm
    refine ⟨?_, hshut.1, fun _ => ⟨hl, .inr hshut.2⟩⟩
    rw [passing_of_greets hd hg, hshut.2, hl]
    decide
  | greeted hc =>
    have hg : s.greets a = true := by simpa [greets, ht] using hc
    have hl := linking_of_greets h hg hm
    refine ⟨?_, ?_, fun _ => ⟨hl, .inl rfl⟩⟩
    · rw [passing_of_greets hd hg, hl]
      exact (by decide : [Phase.linking, .handshaking, .active].IsChain Phase.NoLater)
    · simpa [Agrees] using hc
  | dropped => exact .same hd (by simp [greets, ht]) rfl rfl ha
  | output => exact .same hd (by simp [greets, ht]) (by simp) (by simp) ha
  | suppressed => exact .same hd (by simp [greets, ht]) rfl rfl ha
  | ended => exact .of_apart hd (by simp [greets, ht]) (hshut.2 ▸ hfar) hshut.1
  | ignored => exact .same hd (by simp [greets, ht]) rfl rfl ha
  | gone =>
    refine .of_apart hd (by simp [greets, ht]) ?_ (by simpa [Agrees] using hshut.1)
    rw [phase_endDriver, hshut.2]
    exact hfar
  | shutdown => exact .same hd (by simp [greets, ht]) rfl rfl ha

theorem created_of_dials (h : Consistent s) (hd : s.dials t a = true) (hm : ¬ Misstep s t a) :
    s.closed = false ∧ s.phase = .created := by
  have hc : s.closed = false := by
    cases hc : s.closed with
    | false => rfl
    | true => exact absurd (.lateConnect hc hd) hm
  rcases h.open_phase hc with ⟨-, hp⟩ | ⟨hn, -⟩
  · exact ⟨hc, hp⟩
  · exact absurd (unstarted_of_dials hd) hn

theorem ahead (h : Consistent s) (ha : Agrees s) (hm : ¬ Misstep s t a)
    (he : Effect s t a s') : Ahead s t a s' := by
  cases he with
  | none hap => exact .same hap.undialed hap.ungreeted rfl rfl ha
  | @refused now rows cols hc hd =>
    obtain ⟨hopen, hp⟩ := created_of_dials h hd hm
    have hphase : (s.dial rows cols).shut.endDriver.phase = .closed := by
      simp [shut, dial, hopen]
    refine ⟨?_, by rw [Agrees, hphase]; simp, by simp [hc, greets, taken]⟩
    rw [passing_of_dials hd, hp, hphase]
    decide
  | opened hc hd =>
    obtain ⟨hopen, hp⟩ := created_of_dials h hd hm
    refine ⟨?_, by simp [Agrees, dial, hopen], by simp [hc, greets, taken]⟩
    rw [passing_of_dials hd, hp]
    exact (by decide : [Phase.created, .linking, .linking].IsChain Phase.NoLater)
  | finished hap =>
    have hs : Agrees (s.shut.push .shutdown) := by simpa [Agrees] using ha.shut.1
    refine .of_apart hap.undialed hap.ungreeted ?_ hs
    rw [phase_push, ha.shut.2]
    exact s.phase.noLater_closed
  | reported hc => exact .same (by simp [hc, dials]) (by simp [hc, greets, taken]) (by simp) (by simp) ha
  | handled hc hr hi hs =>
    exact ahead_handled h ha hm (by simp [hc, dials]) (by simp [hc, taken, hr, hi]) hs
  | resized hc => exact .same (by simp [hc, dials]) (by simp [hc, greets, taken]) rfl rfl ha
  | took line hap _ ht =>
    obtain ⟨_, rfl⟩ := take_frame ht
    exact .same hap.undialed hap.ungreeted rfl rfl ha
  | lined line hap => exact .same hap.undialed hap.ungreeted rfl rfl ha

theorem shown_snoc (hist : History σ) (p : Session × σ) (a : Action σ) :
    shown (hist ++ [(p, a)]) = shown hist ++ p.1.phase :: p.1.passing p.2 a := by
  simp [shown]

omit [Transport σ] in
theorem handshakes_snoc (hist : History σ) (p : Session × σ) (a : Action σ) :
    handshakes (hist ++ [(p, a)]) = handshakes hist + if p.1.greets a then 1 else 0 := by
  simp [handshakes, List.countP_append]

/-- A run without missteps goes forward and shakes hands no more than once. -/
theorem orderly_of_run {start p : Session × σ} {hist : History σ} (hr : Run next start hist p)
    (hc : Consistent start.1) (ha : Agrees start.1)
    (hm : ∀ q a, (q, a) ∈ hist → ¬ Misstep q.1 q.2 a) :
    (shown hist ++ [p.1.phase]).IsChain Phase.NoLater ∧
      ((∀ q a, (q, a) ∈ hist → Agrees q.1) ∧ Agrees p.1) ∧
      (handshakes hist = 0 ∨ handshakes hist = 1 ∧ Phase.active.NoLater p.1.phase) := by
  induction hr with
  | nil => simp [shown, handshakes, ha]
  | @snoc hist p a hr ih =>
    obtain ⟨hshown, ⟨hall, hp⟩, hcount⟩ := ih fun q b hq => hm q b (List.mem_append_left _ hq)
    have hcons : Consistent p.1 := hc.of_run hr
    have hstep : Ahead p.1 p.2 a (next a p).1 :=
      ahead hcons hp (hm p a (by simp)) (effect a p.1 p.2)
    refine ⟨?_, ⟨?_, hstep.agrees⟩, ?_⟩
    · rw [shown_snoc, List.append_assoc, List.cons_append]
      exact List.isChain_split.mpr ⟨hshown, hstep.forward⟩
    · intro q b hq
      rcases List.mem_append.mp hq with hq | hq
      · exact hall q b hq
      · obtain ⟨rfl, rfl⟩ := Prod.mk.inj (List.mem_singleton.mp hq)
        exact hp
    · rw [handshakes_snoc]
      by_cases hg : p.1.greets a = true
      · obtain ⟨hl, hafter⟩ := hstep.first hg
        rcases hcount with h0 | ⟨-, hfar⟩
        · refine .inr ⟨by simp [h0, hg], ?_⟩
          rcases hafter with h | h <;> rw [h] <;> decide
        · rw [hl] at hfar
          exact absurd hfar (by decide)
      · rcases hcount with h0 | ⟨h1, hfar⟩
        · exact .inl (by simp [h0, hg])
        · exact .inr ⟨by simp [h1, hg], Nat.le_trans hfar hstep.noLater⟩

theorem Effect.not_agrees (he : Effect s t a s') (hc : s.closed = true)
    (hd : s.dials t a = true) : ¬ Agrees s' := by
  cases he with
  | none hap => simp [hap.undialed] at hd
  | @refused now rows cols =>
    have hcd : (s.dial rows cols).closed = true := hc
    rw [shut_of_closed hcd]
    simp [Agrees, endDriver, dial, hc]
  | opened => simp [Agrees, dial, hc]
  | finished hap => simp [hap.undialed] at hd
  | reported ha => simp [ha, dials] at hd
  | handled ha => simp [ha, dials] at hd
  | resized ha => simp [ha, dials] at hd
  | took _ hap => simp [hap.undialed] at hd
  | lined _ hap => simp [hap.undialed] at hd

theorem undialed_of_greets (hg : s.greets a = true) : s.dials t a = false := by
  cases a with
  | connect => simp [greets, taken] at hg
  | _ => rfl

/-- A misstep shows in the phases or in the state that it leads to. -/
theorem not_orderly_of_misstep {l : Life σ} {p : Session × σ} {a : Action σ}
    (hm : (p, a) ∈ l.history) (h : Misstep p.1 p.2 a) : ¬ Orderly l := by
  intro ho
  cases h with
  | lateConnect hc hd =>
    have hbad : ¬ Agrees (next a p).1 := (effect a p.1 p.2).not_agrees hc hd
    rcases l.run.after hm with he | ⟨b, hb⟩
    · rw [he] at hbad
      exact hbad ho.agrees.2
    · exact hbad (ho.agrees.1 _ b hb)
  | again hp hg =>
    obtain ⟨before, after, hist, -, -⟩ := l.run.cut hm
    have hforward := ho.forward
    have hpass : p.1.passing p.2 a = [.handshaking] := passing_of_greets (undialed_of_greets hg) hg
    have hinfix : [Phase.active, .handshaking] <:+: shown l.history ++ [l.session.phase] := by
      refine ⟨shown before, shown after ++ [l.session.phase], ?_⟩
      simp [hist, shown, hp, hpass]
    have hback : [Phase.active, .handshaking].IsChain Phase.NoLater :=
      List.IsChain.infix hforward hinfix
    exact absurd hback (by decide)

/-- A session is orderly exactly if no closed session opens a link and no active session shakes
hands again. -/
theorem orderly_iff_no_misstep (l : Life σ) :
    Orderly l ↔ ∀ p a, (p, a) ∈ l.history → ¬ Misstep p.1 p.2 a := by
  constructor
  · intro ho p a hm h
    exact not_orderly_of_misstep hm h ho
  · intro h
    have hnew := Consistent.new l.id l.destination l.settings
    obtain ⟨hshown, hagrees, hcount⟩ :=
      orderly_of_run l.run hnew (by simp [Life.start, Agrees, new]) h
    exact ⟨hshown, hagrees, by omega⟩

/-- A session of a destination that the transport knows. -/
def known (actions : List (Action ScriptedTransport)) : Life ScriptedTransport :=
  let destination : Destination := ⟨List.replicate 16 0xab, rfl⟩
  { id := "s", destination
    settings := { linkTimeout := 50, poll := 10, term := "xterm" }
    transport := .ofScripts [(destination, { Script.blank with known := true })]
    actions }

/-- A connect after the closing leaves a closed session linking, and a link that is established
twice takes an active session through the handshake again. -/
theorem not_orderly_late_or_again :
    ¬ Orderly (known [.close, .connect 0 24 80]) ∧
      ¬ Orderly (known [.connect 0 24 80, .report .established, .drive, .report .established, .drive]) := by
  constructor
  · intro h
    exact absurd h.agrees.2 (by unfold Agrees; decide)
  · intro h
    exact absurd h.once (by decide)

end Session

end MeshShell

import MeshShell.Proofs.Switchboard.Drift

/-! # What sessions cannot change

Sessions shake hands, send and tear their links down. What stays the same in
each of these stays the same however a switchboard settles.
-/
namespace MeshShell

variable {σ α : Type} [Transport σ]

/-- A quantity of the transport that sessions do not change. -/
structure Unaffected (q : σ → α) : Prop where
  setHandler : ∀ l t, q (Transport.setHandler l t) = q t
  send : ∀ l m t, q (Transport.send l m t).2 = q t
  teardown : ∀ l t, q (Transport.teardown l t) = q t
  deliver : ∀ t, q (Transport.deliver t).2 = q t

namespace Unaffected

variable {q : σ → α}

theorem finish (hq : Unaffected q) (s : Session) (t : σ) : q (s.finish t).2 = q t := by
  unfold Session.finish
  split
  · rfl
  · cases s.link with
    | none => rfl
    | some l => exact hq.teardown l t

theorem greet (hq : Unaffected q) (s : Session) (l : LinkId) (t : σ) : q (s.greet l t).2 = q t := by
  have hhello := hq.send l .hello t
  unfold Session.greet
  cases hs : Transport.send l .hello t with
  | mk result t' =>
    rw [hs] at hhello
    cases result with
    | error e => exact hhello
    | ok => exact (hq.send l _ t').trans hhello

theorem handshake (hq : Unaffected q) (s : Session) (l : LinkId) (t : σ) :
    q (s.handshake l t).2.2 = q t := by
  unfold Session.handshake
  cases Transport.channel l t with
  | error e => rfl
  | ok =>
    have hgreet := hq.greet { s with phase := .handshaking } l (Transport.setHandler l t)
    dsimp only
    cases hg : Session.greet { s with phase := .handshaking } l (Transport.setHandler l t) with
    | mk result t' =>
      rw [hg] at hgreet
      cases result <;> exact hgreet.trans (hq.setHandler l t)

theorem dispatch (hq : Unaffected q) (m : Message) (s : Session) (t : σ) :
    q (s.dispatch m t).2 = q t := by
  unfold Session.dispatch
  split
  · rfl
  · split
    · rfl
    · exact hq.finish s t
    · exact hq.finish s t
    · rfl
    · rfl

theorem handle (hq : Unaffected q) (e : LinkEvent) (s : Session) (t : σ) :
    q (s.handle e t).2 = q t := by
  cases e with
  | established l =>
    have hshake := hq.handshake s l t
    unfold Session.handle
    dsimp only
    split
    · exact hq.teardown l t
    · cases hh : s.handshake l t with
      | mk result p =>
        rw [hh] at hshake
        cases result with
        | ok => exact hshake
        | error e => exact (hq.finish p.1 p.2).trans hshake
  | message m => exact hq.dispatch m s t
  | closed => exact hq.finish s t
  | shutdown => rfl

theorem handleAll (hq : Unaffected q) (events : List LinkEvent) (s : Session) (t : σ) :
    q (s.handleAll t events).2 = q t := by
  induction events generalizing s t with
  | nil => rfl
  | cons e rest ih =>
    unfold Session.handleAll
    split
    · exact (ih _ _).trans (hq.handle e s t)
    · rfl

theorem drive (hq : Unaffected q) (s : Session) (t : σ) : q (s.drive t).2 = q t := by
  unfold Session.drive
  split
  · exact hq.handleAll s.inbox _ t
  · rfl

theorem driveAll (hq : Unaffected q) (sessions : List Session) (t : σ) :
    q (Switchboard.driveAll sessions t).2 = q t := by
  induction sessions generalizing t with
  | nil => rfl
  | cons s rest ih => exact (ih _).trans (hq.drive s t)

theorem round (hq : Unaffected q) (w : Switchboard σ) : q w.round.transport = q w.transport :=
  (hq.driveAll w.collect.sessions w.collect.transport).trans (hq.deliver w.transport)

theorem settle (hq : Unaffected q) (w : Switchboard σ) : q w.settle.transport = q w.transport := by
  have hserved : ((List.range w.round.round.sessions.length).foldl Switchboard.serve w.round.round).transport =
      w.round.round.transport := by
    obtain ⟨_, _, _, hs⟩ :=
      Switchboard.serveAll_frame (List.range w.round.round.sessions.length) w.round.round
    rw [hs]
  exact (congrArg q hserved).trans ((hq.round w.round).trans (hq.round w))

theorem disturb (hq : Unaffected q) (w : Switchboard σ) (f : σ → σ) :
    q (w.disturb f).transport = q (f w.transport) :=
  hq.settle { w with transport := f w.transport }

end Unaffected

end MeshShell

import MeshShell.Gateway
import MeshShell.Proofs.Net.Loopback
import Mathlib.Data.List.Nodup

/-! # What gateways ask of the transport

An endpoint that is new in the table is attached to the transport, and it is in
the table with the outcome of that. In every other case the transport is not
asked for anything.
-/
namespace MeshShell

/-- Where an interface leads. -/
def Interface.target (i : Interface) : Endpoint := ⟨i.targetHost, i.targetPort⟩

/-- A transport that keeps a list of the interfaces it was asked to attach, and of how that went.
Apart from the list everything is as it is without it. -/
structure Attempted (σ : Type) where
  inner : σ
  attempts : List (Interface × Except TransportError Unit)

namespace Attempted

variable {σ : Type}

/-- Nothing has been asked for yet. -/
def blank (t : σ) : Attempted σ := ⟨t, []⟩

def pass (r : Attempted σ) (t : σ) : Attempted σ := { r with inner := t }

variable [Transport σ]

instance : Transport (Attempted σ) where
  hasPath d r := Transport.hasPath d r.inner
  requestPath now d r := r.pass (Transport.requestPath now d r.inner)
  recallIdentity d r := Transport.recallIdentity d r.inner
  hopsTo d r := Transport.hopsTo d r.inner
  openLink now identity aspect r :=
    match Transport.openLink now identity aspect r.inner with
    | (result, t) => (result, r.pass t)
  channel l r := Transport.channel l r.inner
  setHandler l r := r.pass (Transport.setHandler l r.inner)
  send l m r :=
    match Transport.send l m r.inner with
    | (result, t) => (result, r.pass t)
  teardown l r := r.pass (Transport.teardown l r.inner)
  attach i r :=
    match Transport.attach i r.inner with
    | (result, t) => (result, ⟨t, r.attempts ++ [(i, result)]⟩)
  deliver r :=
    match Transport.deliver r.inner with
    | (callbacks, t) => (callbacks, r.pass t)
  due? r := Transport.due? r.inner
  wake now r := r.pass (Transport.wake now r.inner)

end Attempted

namespace Gateways

section Table

variable {table : List (Endpoint × GatewayState)} {e : Endpoint}

theorem put_perm (h : table.lookup e = none) (state : GatewayState) :
    (put e state table).Perm ((e, state) :: table) := by
  induction table with
  | nil => exact .refl _
  | cons row rest ih =>
    obtain ⟨f, other⟩ := row
    have hne : e ≠ f := by
      rintro rfl
      simp at h
    have hrest : rest.lookup e = none := by
      rwa [List.lookup_cons, beq_eq_false_iff_ne.mpr hne] at h
    unfold put
    rw [if_neg hne]
    split
    · exact .refl _
    · exact ((ih hrest).cons (f, other)).trans (.swap _ _ rest)

theorem lookup_eq_none_iff : table.lookup e = none ↔ e ∉ table.map (·.1) := by
  rw [List.lookup_eq_none_iff, List.mem_map, not_exists]
  refine forall_congr' fun row => ?_
  rw [not_and, bne_iff_ne, ne_comm]

end Table

theorem mode_start (mode : InstanceMode) (host : String) (port : UInt16) :
    ((new mode).recordInitial host port).mode = mode := rfl

section Ensure

variable {σ : Type} [Transport σ]

/-- An endpoint may not be attached if it is on this host and the mode is direct. -/
def Bars (g : Gateways) (e : Endpoint) : Prop := g.mode = .directGateway ∧ Host.isLoopback e.host

theorem not_bars_of_forHost {g : Gateways} {host : String} {port : UInt16}
    (h : InstanceMode.forHost host = .directGateway) : ¬ g.Bars (.of host port) := by
  rintro ⟨-, hloop⟩
  have hhost : Host.isLoopback host = true := (Host.isLoopback_normal host).symm.trans hloop
  simp [InstanceMode.forHost, hhost] at h

/-- The state in which an attempt leaves a gateway. -/
def stateAfter : Except TransportError Unit → GatewayState
  | .ok () => .online
  | .error _ => .inert

/-- The outcome that an attempt leads to. -/
def outcomeAfter : Except TransportError Unit → GatewayOutcome
  | .ok () => .attached
  | .error _ => .attachedInert

inductive Ensured (g : Gateways) (e : Endpoint) (t : σ) : GatewayOutcome × Gateways × σ → Prop
  | present : e ∈ g.table.map (·.1) → Ensured g e t (.alreadyAttached, g, t)
  | barred : e ∉ g.table.map (·.1) → g.Bars e → Ensured g e t (.rejected e, g, t)
  | tried (result : Except TransportError Unit) (t' : σ) : e ∉ g.table.map (·.1) → ¬ g.Bars e →
      Transport.attach (interface e) t = (result, t') →
      Ensured g e t (outcomeAfter result, { g with table := put e (stateAfter result) g.table }, t')

theorem ensured (g : Gateways) (host : String) (port : UInt16) (t : σ) :
    Ensured g (.of host port) t (g.ensure host port t) := by
  have hnone : ¬ (g.state? (.of host port)).isSome ↔ .of host port ∉ g.table.map (·.1) := by
    rw [← lookup_eq_none_iff, Option.not_isSome_iff_eq_none, state?]
  unfold ensure
  dsimp only
  split
  · rename_i h
    exact .present (Classical.byContradiction fun hno => hnone.mpr hno h)
  · rename_i h
    split
    · rename_i hbars
      exact .barred (hnone.mp h) hbars
    · rename_i hbars
      cases ha : Transport.attach (interface (.of host port)) t with
      | mk result t' =>
        cases result with
        | ok => exact .tried (.ok ()) t' (hnone.mp h) hbars ha
        | error cause => exact .tried (.error cause) t' (hnone.mp h) hbars ha

theorem attempts_attach {i : Interface} {r r' : Attempted σ} {result : Except TransportError Unit}
    (h : Transport.attach i r = (result, r')) : r'.attempts = r.attempts ++ [(i, result)] := by
  have hattach : Transport.attach i r = ((Transport.attach i r.inner).1,
      ⟨(Transport.attach i r.inner).2, r.attempts ++ [(i, (Transport.attach i r.inner).1)]⟩) := rfl
  rw [hattach] at h
  obtain ⟨rfl, rfl⟩ := Prod.mk.inj h
  rfl

theorem ensure_attempted (g : Gateways) (host : String) (port : UInt16) (r : Attempted σ) :
    g.ensure host port r.inner =
      ((g.ensure host port r).1, (g.ensure host port r).2.1, (g.ensure host port r).2.2.inner) := by
  have hattach : ∀ i, Transport.attach i r.inner =
      ((Transport.attach i r).1, (Transport.attach i r).2.inner) := fun _ => rfl
  unfold ensure
  dsimp only
  split
  · rfl
  · split
    · rfl
    · rw [hattach]
      generalize Transport.attach (interface (.of host port)) r = attached
      obtain ⟨result, r'⟩ := attached
      cases result <;> rfl

end Ensure

end Gateways

end MeshShell

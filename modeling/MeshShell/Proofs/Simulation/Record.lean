import MeshShell.Gateway
import MeshShell.Proofs.Switchboard.Unaffected
import MeshShell.Simulation.Network

/-! # The record of a mesh

The starts of the transport and those who listen on it are on record. Sessions
and gateways add nothing to the record, and a start adds itself.
-/
namespace MeshShell.Simulation.Network

/-- What the transport was started with, and who listens on it. -/
def record (n : Network) : List Start × List Listener := (n.starts, n.listeners)

theorem detach_frame (n : Network) (l : LinkId) (name : String) :
    ∃ remotes, n.detach l name = { n with remotes } := by
  unfold detach
  split <;> exact ⟨_, rfl⟩

theorem shutLink_frame (n : Network) (l : LinkId) (here : Bool) :
    ∃ remotes links teardowns, n.shutLink l here = { n with remotes, links, teardowns } := by
  unfold shutLink
  split
  · exact ⟨_, _, _, rfl⟩
  · rename_i link _
    dsimp only
    split
    · exact ⟨_, _, _, rfl⟩
    · obtain ⟨remotes, hd⟩ := detach_frame
        { n with teardowns := if here then n.teardowns + 1 else n.teardowns } l link.remote
      exact ⟨remotes, _, _, by rw [hd]; rfl⟩

theorem send_frame (l : LinkId) (m : Message) (n : Network) :
    ∃ remotes, (n.send l m).2 = { n with remotes } := by
  unfold send
  split <;> exact ⟨_, rfl⟩

theorem unaffected_of_frame {α : Type} {q : Network → α}
    (hq : ∀ n remotes links teardowns, q { n with remotes, links, teardowns } = q n) :
    Unaffected q where
  setHandler _ n := hq n _ _ _
  send l m n := by
    obtain ⟨remotes, hs⟩ := send_frame l m n
    show q (n.send l m).2 = q n
    rw [hs]
    exact hq n _ _ _
  teardown l n := by
    obtain ⟨remotes, links, teardowns, hs⟩ := n.shutLink_frame l true
    show q (n.shutLink l true) = q n
    rw [hs]
    exact hq n _ _ _
  deliver n := hq n _ _ _

theorem unaffected_record : Unaffected record := unaffected_of_frame fun _ _ _ _ => rfl

theorem record_ensure (g : Gateways) (host : String) (port : UInt16) (n : Network) :
    (g.ensure host port n).2.2.record = n.record := by
  unfold Gateways.ensure
  dsimp only
  split
  · rfl
  · split
    · rfl
    · have hattach : (Transport.attach (Gateways.interface (.of host port)) n).2.record = n.record := by
        show (attach _ n).2.record = n.record
        unfold attach
        dsimp only
        split <;> rfl
      cases ha : Transport.attach (Gateways.interface (.of host port)) n with
      | mk result n' =>
        rw [ha] at hattach
        cases result <;> exact hattach

theorem snd_start (thread : Option String) (s : Start) (n : Network) :
    (n.start thread s).2 = { n with starts := n.starts ++ [s] } := by
  unfold start
  dsimp only
  split
  · rfl
  · split <;> rfl

end MeshShell.Simulation.Network

import MeshShell.Discovery
import MeshShell.Simulation.Network

/-! # Announces in the discovery table

What the simulated mesh tells a listener goes into a discovery table. A notice
carries the distance of the moment at which the announce came.
-/
namespace MeshShell.Discovery

open Simulation

/-- Takes in what a listener was told, oldest first. -/
def hearAll (c : Discovery) (listener : String) (notices : List Notice) : Discovery :=
  (notices.filter (·.listener = listener)).foldl
    (fun c n => c.upsert n.time n.destination n.hops) c

end MeshShell.Discovery

import MeshShell.Proofs.Bridge.Bootstrap
import MeshShell.Proofs.Bridge.Refusals
import MeshShell.Proofs.Bridge.Status
import MeshShell.Proofs.Config.Defaults
import MeshShell.Proofs.Config.Layers
import MeshShell.Proofs.Config.Transport
import MeshShell.Proofs.Discovery.History
import MeshShell.Proofs.Gateway.Entries
import MeshShell.Proofs.Gateway.Lasting
import MeshShell.Proofs.Identity.Persistence
import MeshShell.Proofs.Mesh.HexReading
import MeshShell.Proofs.Message.Integers
import MeshShell.Proofs.Message.Roundtrip
import MeshShell.Proofs.Session.Dialing
import MeshShell.Proofs.Session.Overtaking
import MeshShell.Proofs.Simulation.Links
import MeshShell.Proofs.Simulation.Routing
import MeshShell.Proofs.Switchboard.Isolation
import MeshShell.Proofs.Switchboard.Registering
import MeshShell.Proofs.Switchboard.Resolved
import MeshShell.Proofs.Switchboard.Timely

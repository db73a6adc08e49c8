import MeshShell.Hash.Blake3
import MeshShell.Mesh.Destination

/-! # Public identities of remote endpoints

A link is opened to a public key, which an announce or a resolved path makes
known. Its hash is the truncated digest of the key.
-/
namespace MeshShell

structure RemoteIdentity where
  publicKey : Bytes
  deriving DecidableEq, Repr

namespace RemoteIdentity

def hash (r : RemoteIdentity) : Bytes := Blake3.truncated r.publicKey

/-- The key that an endpoint of the simulated mesh has: its hash, written twice. -/
def doubled (d : Destination) : RemoteIdentity := ⟨d.bytes ++ d.bytes⟩

theorem doubled_injective {a b : Destination} (h : doubled a = doubled b) : a = b := by
  obtain ⟨a, ha⟩ := a
  obtain ⟨b, hb⟩ := b
  have hk : a ++ a = b ++ b := congrArg publicKey h
  have := (List.append_inj hk (ha.trans hb.symm)).1
  subst this
  rfl

end RemoteIdentity

end MeshShell

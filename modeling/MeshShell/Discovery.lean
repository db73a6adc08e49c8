import MeshShell.Transport.Basic

/-! # Discovered endpoints

The endpoints that were announced, each with its hop count and the time of its
latest announce. An endpoint goes only when it is evicted for its age.
-/
namespace MeshShell

structure Discovered where
  destination : Destination
  hops : HopCount
  lastSeen : Nat
  deriving DecidableEq, Repr

namespace Discovered

/-- Near ones first, unknown distances last, and by destination where the distance is the same. -/
instance : LT Discovered :=
  ⟨fun a b => a.hops < b.hops ∨ (a.hops = b.hops ∧ a.destination < b.destination)⟩

instance (a b : Discovered) : Decidable (a < b) :=
  inferInstanceAs (Decidable (a.hops < b.hops ∨ (a.hops = b.hops ∧ a.destination < b.destination)))

end Discovered

/-- One entry for each destination. -/
structure Discovery where
  entries : List Discovered
  deriving DecidableEq, Repr

namespace Discovery

def empty : Discovery := ⟨[]⟩

/-- Takes an endpoint in, or takes it in anew. -/
def upsert (c : Discovery) (now : Nat) (d : Destination) (hops : HopCount) : Discovery :=
  ⟨⟨d, hops, now⟩ :: c.entries.filter (·.destination ≠ d)⟩

/-- Takes in an announce, with the distance that the transport knows at this moment. -/
def hear {σ : Type} [Transport σ] (c : Discovery) (now : Nat) (d : Destination) (t : σ) : Discovery :=
  c.upsert now d (Transport.hopsTo d t)

def get? (c : Discovery) (d : Destination) : Option Discovered :=
  c.entries.find? (·.destination = d)

def snapshot (c : Discovery) : List Discovered :=
  c.entries.mergeSort fun a b => !decide (b < a)

/-- Drops what was not seen within an age, and tells how many entries that were. -/
def evict (c : Discovery) (now age : Nat) : Nat × Discovery :=
  let kept := c.entries.filter fun e => now - e.lastSeen < age
  (c.entries.length - kept.length, ⟨kept⟩)

def size (c : Discovery) : Nat := c.entries.length

end Discovery

end MeshShell

import MeshShell.Text.Blank
import MeshShell.Text.Decimal

/-! # Network endpoints

A host and a port, with the host in the form that endpoints are compared by:
no white space around it and no capital letters.
-/
namespace MeshShell

structure Endpoint where
  host : String
  port : UInt16
  deriving DecidableEq, Repr

namespace Endpoint

/-- The form of a host in an endpoint. -/
def normal (host : String) : String := String.ofList (Text.lower (Text.trim host.toList))

def of (host : String) (port : UInt16) : Endpoint := ⟨normal host, port⟩

/-- A host with a colon in it stands in brackets. -/
def text (e : Endpoint) : String :=
  if e.host.toList.contains ':' then "[" ++ e.host ++ "]:" ++ Decimal.text e.port.toNat
  else e.host ++ ":" ++ Decimal.text e.port.toNat

/-- By host, then by port. -/
instance : LT Endpoint := ⟨fun a b => a.host < b.host ∨ (a.host = b.host ∧ a.port < b.port)⟩

instance (a b : Endpoint) : Decidable (a < b) :=
  inferInstanceAs (Decidable (a.host < b.host ∨ (a.host = b.host ∧ a.port < b.port)))

def sort (es : List Endpoint) : List Endpoint := es.mergeSort fun a b => !decide (b < a)

end Endpoint

end MeshShell

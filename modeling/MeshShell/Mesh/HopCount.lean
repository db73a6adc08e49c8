import MeshShell.Text.Decimal

/-! # Hop counts

The distance to an endpoint as the routing table has it. An unknown distance
is not zero hops, and it comes after every known one.
-/
namespace MeshShell

inductive HopCount
  | known (hops : UInt8)
  | unknown
  deriving DecidableEq, Repr

namespace HopCount

def ofOption : Option UInt8 → HopCount
  | some hops => .known hops
  | none => .unknown

def toOption : HopCount → Option UInt8
  | .known hops => some hops
  | .unknown => none

def debug : HopCount → String
  | .known hops => "Known(" ++ Decimal.text hops.toNat ++ ")"
  | .unknown => "Unknown"

/-- The place of a hop count in the order. -/
def rank : HopCount → Nat
  | .known hops => hops.toNat
  | .unknown => 256

instance : LT HopCount := ⟨fun a b => a.rank < b.rank⟩

instance (a b : HopCount) : Decidable (a < b) := inferInstanceAs (Decidable (a.rank < b.rank))

theorem rank_injective {a b : HopCount} (h : a.rank = b.rank) : a = b := by
  cases a with
  | known m =>
    cases b with
    | known n => exact congrArg _ (UInt8.toNat_inj.1 h)
    | unknown => have := m.toNat_lt; simp only [rank] at h; omega
  | unknown =>
    cases b with
    | known n => have := n.toNat_lt; simp only [rank] at h; omega
    | unknown => rfl

def sort (hs : List HopCount) : List HopCount := hs.mergeSort fun a b => !decide (b < a)

end HopCount

end MeshShell

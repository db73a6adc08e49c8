import MeshShell.Discovery
import MeshShell.Proofs.Mesh.HexOrder
import Mathlib.Data.Prod.Lex

/-! # The order of discovered endpoints

Endpoints are compared by their distance, and where this is the same by their
destination. A snapshot holds what is in the table, each destination once and
one strictly after the other.
-/
namespace MeshShell

namespace Discovered

/-- Known distances come in numeric order and before unknown ones, the same distances in the order
of the destinations. -/
def Precedes (a b : Discovered) : Prop :=
  match a.hops, b.hops with
  | .known m, .known n => m < n ∨ m = n ∧ a.destination < b.destination
  | .known _, .unknown => True
  | .unknown, .known _ => False
  | .unknown, .unknown => a.destination < b.destination

theorem lt_iff_precedes (a b : Discovered) : a < b ↔ a.Precedes b := by
  have hlt : a < b ↔ a.hops.rank < b.hops.rank ∨ a.hops = b.hops ∧ a.destination < b.destination :=
    Iff.rfl
  rw [hlt]
  unfold Precedes
  cases a.hops with
  | known m =>
    cases b.hops with
    | known n => simp [HopCount.rank, UInt8.lt_iff_toNat_lt]
    | unknown =>
      have hm := m.toNat_lt
      simp only [HopCount.rank]
      exact iff_of_true (.inl (by omega)) trivial
  | unknown =>
    cases b.hops with
    | known n =>
      have hn := n.toNat_lt
      simp only [HopCount.rank, reduceCtorEq, false_and, or_false, iff_false]
      omega
    | unknown => simp [HopCount.rank]

/-- The place of an endpoint in a linear order. -/
def place (a : Discovered) : Nat ×ₗ String := toLex (a.hops.rank, a.destination.text)

theorem place_lt_place_iff (a b : Discovered) : a.place < b.place ↔ a < b := by
  have hrank : a.hops.rank = b.hops.rank ↔ a.hops = b.hops :=
    ⟨HopCount.rank_injective, congrArg HopCount.rank⟩
  unfold place
  rw [Prod.Lex.toLex_lt_toLex, hrank, Destination.text_lt_text_iff]
  exact Iff.rfl

theorem destination_eq_of_place_eq {a b : Discovered} (h : a.place = b.place) :
    a.destination = b.destination :=
  Destination.text_injective (Prod.mk.inj (toLex_inj.mp h)).2

end Discovered

namespace Discovery

/-- Every destination is in the table once at the most. -/
def Distinct (c : Discovery) : Prop := (c.entries.map (·.destination)).Nodup

theorem mem_snapshot {c : Discovery} {e : Discovered} : e ∈ c.snapshot ↔ e ∈ c.entries :=
  List.mem_mergeSort

theorem snapshot_perm (c : Discovery) : c.snapshot.Perm c.entries := List.mergeSort_perm _ _

theorem nodup_snapshot {c : Discovery} (h : c.Distinct) :
    (c.snapshot.map (·.destination)).Nodup := (c.snapshot_perm.map _).nodup_iff.mpr h

theorem snapshot_sorted (c : Discovery) : c.snapshot.Pairwise fun a b => a.place ≤ b.place := by
  have hle : ∀ a b : Discovered, (!decide (b < a)) = true ↔ a.place ≤ b.place := by
    intro a b
    rw [Bool.not_eq_true', decide_eq_false_iff_not, ← Discovered.place_lt_place_iff, not_lt]
  have hsorted : c.snapshot.Pairwise fun a b => (!decide (b < a)) = true := by
    refine List.pairwise_mergeSort ?_ ?_ c.entries
    · intro a b d hab hbd
      exact (hle a d).mpr (le_trans ((hle a b).mp hab) ((hle b d).mp hbd))
    · intro a b
      rw [Bool.or_eq_true, hle, hle]
      exact le_total _ _
  exact hsorted.imp fun h => (hle _ _).mp h

theorem snapshot_ascending {c : Discovery} (h : c.Distinct) :
    c.snapshot.Pairwise Discovered.Precedes := by
  have hne : c.snapshot.Pairwise fun a b => a.destination ≠ b.destination :=
    List.pairwise_map.mp (nodup_snapshot h)
  refine (c.snapshot_sorted.and hne).imp fun {a b} hab => ?_
  rw [← Discovered.lt_iff_precedes, ← Discovered.place_lt_place_iff]
  exact lt_of_le_of_ne hab.1 fun heq => hab.2 (Discovered.destination_eq_of_place_eq heq)

theorem eq_snapshot {c : Discovery} (h : c.Distinct) {l : List Discovered} (hl : l.Perm c.entries)
    (hsorted : l.Pairwise Discovered.Precedes) : l = c.snapshot := by
  refine (hl.trans c.snapshot_perm.symm).eq_of_pairwise ?_ hsorted (snapshot_ascending h)
  intro a b _ _ hab hba
  rw [← Discovered.lt_iff_precedes, ← Discovered.place_lt_place_iff] at hab hba
  exact absurd hba hab.asymm

end Discovery

end MeshShell

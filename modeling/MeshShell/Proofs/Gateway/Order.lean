import MeshShell.Proofs.Gateway.Attempts
import MeshShell.Proofs.Net.Endpoints

/-! # The order of gateways

The table of gateways is in the order of its endpoints, each of them once,
whatever is attached.
-/
namespace MeshShell.Gateways

/-- Endpoints come one after the other, each of them once. -/
def Ascending (table : List (Endpoint × GatewayState)) : Prop := (table.map (·.1)).Pairwise (· < ·)

variable {table : List (Endpoint × GatewayState)}

theorem ascending_cons {e : Endpoint} {state : GatewayState} :
    Ascending ((e, state) :: table) ↔ (∀ row ∈ table, e < row.1) ∧ Ascending table := by
  simp [Ascending, List.pairwise_cons]

theorem mem_put {e : Endpoint} {state : GatewayState} {row : Endpoint × GatewayState}
    (hm : row ∈ put e state table) : row = (e, state) ∨ row ∈ table := by
  induction table with
  | nil => exact .inl (List.mem_singleton.mp hm)
  | cons first rest ih =>
    obtain ⟨f, other⟩ := first
    unfold put at hm
    split at hm
    · exact (List.mem_cons.mp hm).imp_right (List.mem_cons_of_mem _)
    · split at hm
      · exact List.mem_cons.mp hm
      · rcases List.mem_cons.mp hm with rfl | hm
        · exact .inr List.mem_cons_self
        · exact (ih hm).imp_right (List.mem_cons_of_mem _)

theorem Ascending.put (ht : Ascending table) (e : Endpoint) (state : GatewayState) :
    Ascending (put e state table) := by
  induction table with
  | nil => exact List.pairwise_singleton ..
  | cons first rest ih =>
    obtain ⟨f, other⟩ := first
    obtain ⟨hlt, hrest⟩ := ascending_cons.mp ht
    unfold Gateways.put
    split
    · rename_i heq
      subst heq
      exact ascending_cons.mpr ⟨hlt, hrest⟩
    · rename_i hne
      split
      · rename_i hef
        refine ascending_cons.mpr ⟨?_, ht⟩
        intro row hrow
        rcases List.mem_cons.mp hrow with rfl | hrow
        · exact hef
        · exact Endpoint.lt_trans hef (hlt row hrow)
      · rename_i hnot
        refine ascending_cons.mpr ⟨?_, ih hrest⟩
        intro row hrow
        rcases mem_put hrow with rfl | hrow
        · exact Endpoint.lt_of_not_lt hne hnot
        · exact hlt row hrow

theorem ascending_ensure {σ : Type} [Transport σ] {g : Gateways} (hg : Ascending g.table)
    (host : String) (port : UInt16) (t : σ) : Ascending (g.ensure host port t).2.1.table := by
  have h := ensured g host port t
  generalize g.ensure host port t = out at h
  cases h with
  | present => exact hg
  | barred => exact hg
  | tried => exact hg.put _ _

theorem Ascending.nodup_texts (ht : Ascending table) : (table.map (·.1.text)).Nodup := by
  have hnodup : (table.map (·.1)).Nodup := List.Pairwise.imp Endpoint.ne_of_lt ht
  have htexts := hnodup.map_on (f := Endpoint.text) fun _ _ _ _ h => Endpoint.text_injective h
  rwa [List.map_map] at htexts

end MeshShell.Gateways

import MeshShell.Switchboard.Registry
import Mathlib.Data.List.Nodup
import Mathlib.Data.String.Basic

/-! # The table of registered sessions

The table is a sorted list of rows. Looked at through its ids it is a map, in
which binding an id and taking one out change this id alone.
-/
namespace MeshShell.Switchboard

/-- Where the ids of a table lead. -/
def leads (rows : List (String × Handle)) : String → Option Handle := fun id => rows.lookup id

/-- The ids of a table come one after the other, each of them once. -/
def Sorted (rows : List (String × Handle)) : Prop := (rows.map (·.1)).Pairwise (· < ·)

theorem leads_cons (k : String) (g : Handle) (rows : List (String × Handle)) :
    leads ((k, g) :: rows) = Function.update (leads rows) k (some g) := by
  funext key
  by_cases hk : key = k
  · simp [leads, hk]
  · have hne : (key == k) = false := by simpa using hk
    simp [leads, List.lookup_cons, hk, hne]

theorem leads_bind (id : String) (h : Handle) (rows : List (String × Handle)) :
    leads (bind id h rows) = Function.update (leads rows) id (some h) := by
  induction rows with
  | nil => exact leads_cons id h []
  | cons row rest ih =>
    obtain ⟨k, g⟩ := row
    unfold bind
    split
    · rename_i heq
      rw [leads_cons, leads_cons, heq, Function.update_idem]
    · rename_i hne
      split
      · exact leads_cons id h _
      · rw [leads_cons, ih, leads_cons, Function.update_comm (Ne.symm hne)]

theorem leads_filter (id : String) (rows : List (String × Handle)) :
    leads (rows.filter (·.1 ≠ id)) = Function.update (leads rows) id none := by
  induction rows with
  | nil => simp [leads]
  | cons row rest ih =>
    obtain ⟨k, g⟩ := row
    by_cases hk : k = id
    · rw [List.filter_cons_of_neg (by simpa using hk), ih, leads_cons, hk, Function.update_idem]
    · rw [List.filter_cons_of_pos (by simpa using hk), leads_cons, ih, leads_cons,
        Function.update_comm hk]

theorem registered_bind {σ : Type} (w : Switchboard σ) (id id' : String) (h : Handle) :
    registered? { w with table := bind id h w.table } id' =
      if id' = id then some h else w.registered? id' := by
  have hleads := congrFun (leads_bind id h w.table) id'
  rwa [Function.update_apply] at hleads

theorem registered_remove {σ : Type} (w : Switchboard σ) (id id' : String) :
    (w.remove id).2.registered? id' = if id' = id then none else w.registered? id' := by
  have hleads := congrFun (leads_filter id w.table) id'
  rwa [Function.update_apply] at hleads

variable {rows : List (String × Handle)} {id : String} {h : Handle}

theorem Sorted.cons_iff {k : String} {g : Handle} :
    Sorted ((k, g) :: rows) ↔ (∀ row ∈ rows, k < row.1) ∧ Sorted rows := by
  simp [Sorted, List.pairwise_cons]

theorem Sorted.nodup (hr : Sorted rows) : (rows.map (·.1)).Nodup := hr.imp ne_of_lt

theorem Sorted.filter (hr : Sorted rows) (p : String × Handle → Bool) : Sorted (rows.filter p) :=
  List.Pairwise.sublist (List.filter_sublist.map _) hr

theorem Sorted.mem_iff (hr : Sorted rows) : (id, h) ∈ rows ↔ leads rows id = some h := by
  induction rows with
  | nil => simp [leads]
  | cons row rest ih =>
    obtain ⟨k, g⟩ := row
    obtain ⟨hlt, hrest⟩ := Sorted.cons_iff.mp hr
    rw [leads_cons, List.mem_cons, ih hrest]
    by_cases hk : id = k
    · subst hk
      have hnot : leads rest id ≠ some h := fun hm => lt_irrefl _ (hlt _ ((ih hrest).mpr hm))
      simp [hnot, eq_comm]
    · simp [hk]

theorem mem_bind {row : String × Handle} (hm : row ∈ bind id h rows) :
    row = (id, h) ∨ row ∈ rows := by
  induction rows with
  | nil => exact .inl (List.mem_singleton.mp hm)
  | cons first rest ih =>
    obtain ⟨k, g⟩ := first
    unfold bind at hm
    split at hm
    · exact (List.mem_cons.mp hm).imp_right (List.mem_cons_of_mem _)
    · split at hm
      · exact List.mem_cons.mp hm
      · rcases List.mem_cons.mp hm with rfl | hm
        · exact .inr List.mem_cons_self
        · exact (ih hm).imp_right (List.mem_cons_of_mem _)

theorem Sorted.bind (hr : Sorted rows) (id : String) (h : Handle) :
    Sorted (Switchboard.bind id h rows) := by
  induction rows with
  | nil => simp [Switchboard.bind, Sorted]
  | cons first rest ih =>
    obtain ⟨k, g⟩ := first
    obtain ⟨hlt, hrest⟩ := Sorted.cons_iff.mp hr
    unfold Switchboard.bind
    split
    · rename_i heq
      subst heq
      exact Sorted.cons_iff.mpr ⟨hlt, hrest⟩
    · rename_i hne
      split
      · rename_i hid
        refine Sorted.cons_iff.mpr ⟨?_, hr⟩
        intro row hrow
        rcases List.mem_cons.mp hrow with rfl | hrow
        · exact hid
        · exact hid.trans (hlt row hrow)
      · rename_i hnot
        refine Sorted.cons_iff.mpr ⟨?_, ih hrest⟩
        intro row hrow
        rcases mem_bind hrow with rfl | hrow
        · exact lt_of_le_of_ne (not_lt.mp hnot) (Ne.symm hne)
        · exact hlt row hrow

end MeshShell.Switchboard

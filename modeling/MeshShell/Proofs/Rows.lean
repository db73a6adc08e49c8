import Mathlib.Data.List.Basic

/-! # Rows under keys

A list of rows is looked up by the keys of the rows. Putting a row in the place
of the one with its key changes what is found under this key alone.
-/
namespace MeshShell

variable {α β : Type} [DecidableEq α] [BEq α] [LawfulBEq α]

theorem lookup_filter_ne {key other : α} (hne : key ≠ other) (rows : List (α × β)) :
    (rows.filter (·.1 ≠ other)).lookup key = rows.lookup key := by
  induction rows with
  | nil => rfl
  | cons row rest ih =>
    obtain ⟨k, v⟩ := row
    by_cases hk : k = other
    · have hkey : (key == k) = false := by simpa [hk] using hne
      rw [List.filter_cons_of_neg (by simpa using hk), ih, List.lookup_cons, hkey]
    · rw [List.filter_cons_of_pos (by simpa using hk), List.lookup_cons, List.lookup_cons, ih]

theorem lookup_replaced (key other : α) (v : β) (rows : List (α × β)) :
    ((other, v) :: rows.filter (·.1 ≠ other)).lookup key =
      if key = other then some v else rows.lookup key := by
  by_cases hk : key = other
  · simp [hk]
  · have hkey : (key == other) = false := by simpa using hk
    rw [List.lookup_cons, hkey, if_neg hk]
    exact lookup_filter_ne hk rows

end MeshShell

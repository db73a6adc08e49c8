/-! # Runs and their histories

A machine takes one action after another. Its history holds every action
together with the state in which it was taken, so whatever happened in a run
can be read off the history.
-/
namespace MeshShell

variable {S A : Type}

/-- The runs of a machine from a start, with their histories and the states they lead to. -/
inductive Run (next : A → S → S) (start : S) : List (S × A) → S → Prop
  | nil : Run next start [] start
  | snoc {hist : List (S × A)} {s : S} (a : A) :
      Run next start hist s → Run next start (hist ++ [(s, a)]) (next a s)

/-- The history of a list of actions that are taken one after another. -/
def trail (next : A → S → S) : S → List A → List (S × A)
  | _, [] => []
  | s, a :: as => (s, a) :: trail next (next a s) as

/-- The state to which a list of actions leads. -/
def reach (next : A → S → S) (start : S) (as : List A) : S := as.foldl (fun s a => next a s) start

theorem reach_append (next : A → S → S) (start : S) (as bs : List A) :
    reach next start (as ++ bs) = reach next (reach next start as) bs := List.foldl_append

theorem trail_actions (next : A → S → S) (start : S) (as : List A) :
    (trail next start as).map (·.2) = as := by
  induction as generalizing start with
  | nil => rfl
  | cons a as ih => exact congrArg (a :: ·) (ih (next a start))

theorem trail_append (next : A → S → S) (start : S) (as bs : List A) :
    trail next start (as ++ bs) = trail next start as ++ trail next (reach next start as) bs := by
  induction as generalizing start with
  | nil => rfl
  | cons a as ih => exact congrArg ((start, a) :: ·) (ih (next a start))

namespace Run

variable {next : A → S → S} {start s : S} {hist : List (S × A)}

theorem single (a : A) (s : S) : Run next s [(s, a)] (next a s) := .snoc a .nil

theorem append {t : S} {later : List (S × A)} (h : Run next start hist s)
    (hl : Run next s later t) : Run next start (hist ++ later) t := by
  induction hl with
  | nil => simpa using h
  | snoc a _ ih =>
    rw [← List.append_assoc]
    exact .snoc a ih

theorem of_actions (next : A → S → S) (start : S) (as : List A) :
    Run next start (trail next start as) (reach next start as) := by
  induction as generalizing start with
  | nil => exact .nil
  | cons a as ih => exact (single a start).append (ih (next a start))

theorem eq_reach (h : Run next start hist s) : s = reach next start (hist.map (·.2)) := by
  induction h with
  | nil => rfl
  | @snoc hist s a _ ih =>
    rw [ih]
    simp [reach]

theorem eq_trail (h : Run next start hist s) : hist = trail next start (hist.map (·.2)) := by
  induction h with
  | nil => rfl
  | @snoc hist s a hr ih =>
    rw [List.map_append, trail_append, ← ih, ← hr.eq_reach]
    rfl

theorem invariant {P : S → Prop} (h : Run next start hist s) (hstart : P start)
    (hnext : ∀ a s, P s → P (next a s)) : P s := by
  induction h with
  | nil => exact hstart
  | snoc a _ ih => exact hnext a _ ih

theorem cut (h : Run next start hist s) {u : S} {a : A} (hm : (u, a) ∈ hist) :
    ∃ before after, hist = before ++ (u, a) :: after ∧ Run next start before u ∧
      Run next (next a u) after s := by
  induction h with
  | nil => simp at hm
  | @snoc hist s b hr ih =>
    rcases List.mem_append.mp hm with hm | hm
    · obtain ⟨before, after, rfl, hb, ha⟩ := ih hm
      exact ⟨before, after ++ [(s, b)], by simp, hb, .snoc b ha⟩
    · obtain ⟨rfl, rfl⟩ := Prod.mk.inj (List.mem_singleton.mp hm)
      exact ⟨hist, [], by simp, hr, .nil⟩

theorem always {P : S → Prop} (h : Run next start hist s) (hstart : P start)
    (hnext : ∀ a s, P s → P (next a s)) {u : S} {a : A} (hm : (u, a) ∈ hist) : P u := by
  obtain ⟨_, _, -, hu, -⟩ := h.cut hm
  exact hu.invariant hstart hnext

theorem split {before after : List (S × A)} {u : S} {a : A}
    (h : Run next start (before ++ (u, a) :: after) s) :
    Run next start before u ∧ Run next (next a u) after s := by
  generalize hhist : before ++ (u, a) :: after = hist at h
  induction h generalizing after with
  | nil => simp at hhist
  | @snoc hist s b hr ih =>
    rcases List.eq_nil_or_concat after with rfl | ⟨first, last, rfl⟩
    · obtain ⟨rfl, hlast⟩ := List.append_inj' hhist rfl
      obtain ⟨rfl, rfl⟩ := Prod.mk.inj (List.singleton_inj.mp hlast)
      exact ⟨hr, .nil⟩
    · rw [List.concat_eq_append, ← List.cons_append, ← List.append_assoc] at hhist
      obtain ⟨hfirst, hlast⟩ := List.append_inj' hhist rfl
      obtain ⟨hb, ha⟩ := ih hfirst
      rw [List.concat_eq_append, List.singleton_inj.mp hlast]
      exact ⟨hb, .snoc b ha⟩

theorem after (h : Run next start hist s) {u : S} {a : A} (hm : (u, a) ∈ hist) :
    next a u = s ∨ ∃ b, (next a u, b) ∈ hist := by
  induction h with
  | nil => simp at hm
  | @snoc hist s b _ ih =>
    rcases List.mem_append.mp hm with hm | hm
    · rcases ih hm with rfl | ⟨c, hc⟩
      · exact .inr ⟨b, by simp⟩
      · exact .inr ⟨c, List.mem_append_left _ hc⟩
    · obtain ⟨rfl, rfl⟩ := Prod.mk.inj (List.mem_singleton.mp hm)
      exact .inl rfl

end Run

end MeshShell

import MeshShell.Files.Path

/-! # The last name of a path

Whatever stands before the last slash of a path, its last name is what comes
after it. So a name that is joined to a directory is the last one.
-/
namespace MeshShell.Path

theorem split_ne_nil (cs : List Char) : split cs ≠ [] := by
  cases cs with
  | nil => simp [split]
  | cons c cs =>
    unfold split
    split
    · simp
    · split <;> simp

theorem split_append (xs ys : List Char) : split (xs ++ '/' :: ys) = split xs ++ split ys := by
  induction xs with
  | nil => simp [split]
  | cons c xs ih =>
    by_cases hc : c = '/'
    · simp [split, hc, ih]
    · cases hs : split xs with
      | nil => exact absurd hs (split_ne_nil xs)
      | cons p ps => simp [split, hc, ih, hs]

theorem split_name {xs : List Char} (h : '/' ∉ xs) : split xs = [xs] := by
  induction xs with
  | nil => rfl
  | cons c xs ih =>
    have hc : c ≠ '/' := fun hc => h (by simp [hc])
    have hxs := ih fun hm => h (List.mem_cons_of_mem c hm)
    simp [split, hc, hxs]

/-- A text that ends where a name may begin. -/
def Opens (xs : List Char) : Prop := xs = [] ∨ ∃ ys, xs = ys ++ ['/']

/-- A text that can be a name. -/
def Plain (name : String) : Prop := name ≠ "" ∧ '/' ∉ name.toList

theorem getLast?_names {path name : String} {xs : List Char} (hpath : path.toList = xs ++ name.toList)
    (hxs : Opens xs) (hname : Plain name) : (names path).getLast? = some name := by
  have hlast : ∃ before, split path.toList = before ++ [name.toList] := by
    rcases hxs with rfl | ⟨ys, rfl⟩
    · exact ⟨[], by simpa [hpath] using split_name hname.2⟩
    · refine ⟨split ys, ?_⟩
      rw [hpath, List.append_assoc, List.singleton_append, split_append, split_name hname.2]
  obtain ⟨before, hb⟩ := hlast
  have hkept : name.toList.isEmpty = false := by
    simpa [String.toList_eq_nil_iff] using hname.1
  simp [names, hb, hkept]

theorem getLast?_filter {p : String → Bool} {ns : List String} {name : String}
    (h : ns.getLast? = some name) (hp : p name = true) : (ns.filter p).getLast? = some name := by
  obtain ⟨before, rfl⟩ := List.getLast?_eq_some_iff.mp h
  simp [hp]

/-- The last name is the last part unless it is a point. -/
theorem getLast?_parts {path name : String} (h : (names path).getLast? = some name)
    (hname : name ≠ ".") : (parts path).getLast? = some name := by
  have hp : decide (name ≠ ".") = true := by simpa using hname
  unfold parts
  dsimp only
  split
  · rename_i more hnames
    have hmore : more.getLast? = some name := by
      rw [hnames] at h
      cases more with
      | nil => exact absurd (Option.some.inj h).symm hname
      | cons n ns => simpa using h
    have hrest := getLast?_filter (p := fun n => decide (n ≠ ".")) hmore hp
    split
    · exact hrest
    · rw [List.getLast?_cons, hrest]
      rfl
  · exact getLast?_filter h hp

theorem join_opens (directory name : String) :
    ∃ xs, (join directory name).toList = xs ++ name.toList ∧ Opens xs := by
  unfold join
  split
  · rename_i h
    refine ⟨directory.toList, by simp, ?_⟩
    rcases Bool.or_eq_true_iff.mp h with h | h
    · exact .inl (by simpa [String.isEmpty_iff, String.toList_eq_nil_iff] using h)
    · exact .inr (List.getLast?_eq_some_iff.mp (of_decide_eq_true h))
  · exact ⟨directory.toList ++ ['/'], by simp, .inr ⟨_, rfl⟩⟩

theorem names_join (directory : String) {name : String} (hname : Plain name) :
    (names (join directory name)).getLast? = some name := by
  obtain ⟨xs, hxs, ho⟩ := join_opens directory name
  exact getLast?_names hxs ho hname

theorem not_point_eq_some_iff {last : Option String} {name : String} :
    (match last with
      | some "." => none
      | some ".." => none
      | last => last) = some name ↔ last = some name ∧ name ≠ "." ∧ name ≠ ".." := by
  constructor
  · intro h
    split at h
    · cases h
    · cases h
    · rename_i hpoint hpoints
      refine ⟨h, ?_, ?_⟩
      · rintro rfl
        exact hpoint h
      · rintro rfl
        exact hpoints h
  · rintro ⟨rfl, hpoint, hpoints⟩
    split
    · rename_i h
      exact absurd (Option.some.inj h) hpoint
    · rename_i h
      exact absurd (Option.some.inj h) hpoints
    · rfl

theorem fileName?_eq_some_iff {path name : String} : fileName? path = some name ↔
    (parts path).getLast? = some name ∧ name ≠ "." ∧ name ≠ ".." := not_point_eq_some_iff

theorem fileName?_join (directory : String) {name : String} (hname : Plain name)
    (hpoint : name ≠ ".") (hpoints : name ≠ "..") :
    fileName? (join directory name) = some name :=
  fileName?_eq_some_iff.mpr ⟨getLast?_parts (names_join directory hname) hpoint, hpoint, hpoints⟩

end MeshShell.Path

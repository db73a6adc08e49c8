import MeshShell.Proofs.Files.Names

/-! # The paths above a path

The path without its last part has the same names but for the last one, and
points. So whoever goes up from path to path comes to shorter and shorter ones,
and no name is met on the way that was not there before.
-/
namespace MeshShell.Path

theorem split_names (cs : List Char) : ∀ piece ∈ split cs, '/' ∉ piece := by
  induction cs with
  | nil => simp [split]
  | cons c cs ih =>
    unfold split
    split
    · simpa using ih
    · rename_i hc
      split
      · simpa using Ne.symm hc
      · rename_i piece pieces hs
        rw [hs] at ih
        intro other hother
        rcases List.mem_cons.mp hother with rfl | hother
        · have hrest := ih piece (by simp)
          simp [hrest, Ne.symm hc]
        · exact ih other (List.mem_cons_of_mem piece hother)

theorem plain_of_mem_names {path name : String} (h : name ∈ names path) : Plain name := by
  obtain ⟨piece, hpiece, rfl⟩ := List.mem_map.mp h
  obtain ⟨hsplit, hkept⟩ := List.mem_filter.mp hpiece
  refine ⟨?_, by simpa using split_names path.toList piece hsplit⟩
  intro hempty
  have hnil : piece = [] := by simpa using congrArg String.toList hempty
  simp [hnil] at hkept

theorem parts_sublist (path : String) : (parts path).Sublist (names path) := by
  unfold parts
  dsimp only
  split
  · rename_i more hnames
    rw [hnames]
    split
    · exact List.filter_sublist.trans (List.sublist_cons_self _ _)
    · exact List.filter_sublist.cons_cons _
  · exact List.filter_sublist

/-- Names that go down. -/
def down (ns : List String) : List String := ns.filter (· ≠ ".")

theorem down_parts (path : String) : down (parts path) = down (names path) := by
  unfold parts
  dsimp only
  split
  · rename_i more hnames
    rw [hnames]
    split <;> simp [down, List.filter_filter]
  · simp [down, List.filter_filter]

/-- Paths that differ in slashes and single points only. -/
def Alike (other path : String) : Prop :=
  isAbsolute other = isAbsolute path ∧ down (names other) = down (names path)

theorem Alike.up {other path : String} (h : Alike other path) (hup : ".." ∉ names path) :
    ".." ∉ names other := by
  intro hm
  have hdown : ".." ∈ down (names other) := List.mem_filter.mpr ⟨hm, by decide⟩
  rw [h.2] at hdown
  exact hup (List.mem_filter.mp hdown).1

theorem split_intercalate {pieces : List (List Char)} (hne : pieces ≠ [])
    (h : ∀ piece ∈ pieces, '/' ∉ piece) : split (['/'].intercalate pieces) = pieces := by
  induction pieces with
  | nil => exact absurd rfl hne
  | cons first rest ih =>
    have hfirst : split first = [first] := split_name (h first (by simp))
    cases rest with
    | nil => simpa using hfirst
    | cons second rest =>
      have hrest := ih (by simp) fun piece hp => h piece (List.mem_cons_of_mem first hp)
      rw [List.intercalate_cons_cons, List.append_assoc, List.singleton_append, split_append, hfirst,
        hrest]
      rfl

theorem toList_ofParts (absolute : Bool) (ps : List String) : (ofParts absolute ps).toList =
    (if absolute then ['/'] else []) ++ ['/'].intercalate (ps.map String.toList) := by
  unfold ofParts
  cases absolute <;> simp [String.toList_intercalate]

theorem names_ofParts (absolute : Bool) {ps : List String} (h : ∀ p ∈ ps, Plain p) :
    names (ofParts absolute ps) = ps := by
  have hpieces : ∀ piece ∈ ps.map String.toList, '/' ∉ piece :=
    List.forall_mem_map.mpr fun p hp => (h p hp).2
  have hbody : ((split (['/'].intercalate (ps.map String.toList))).filter (!·.isEmpty)).map
      String.ofList = ps := by
    by_cases hps : ps = []
    · subst hps
      rfl
    · have hkept : (ps.map String.toList).filter (!·.isEmpty) = ps.map String.toList := by
        refine List.filter_eq_self.mpr (List.forall_mem_map.mpr fun p hp => ?_)
        simpa [String.toList_eq_nil_iff] using (h p hp).1
      rw [split_intercalate (by simpa using hps) hpieces, hkept]
      simp [Function.comp_def]
  unfold names
  rw [toList_ofParts]
  cases absolute with
  | false => exact hbody
  | true => simpa [split] using hbody

theorem isAbsolute_ofParts (absolute : Bool) {ps : List String} (h : ∀ p ∈ ps, Plain p) :
    isAbsolute (ofParts absolute ps) = absolute := by
  unfold isAbsolute
  rw [toList_ofParts]
  cases absolute with
  | true => simp
  | false =>
    cases ps with
    | nil => simp
    | cons first rest =>
      obtain ⟨hne, hslash⟩ := h first (by simp)
      cases hl : first.toList with
      | nil => exact absurd (String.toList_eq_nil_iff.mp hl) hne
      | cons c cs =>
        have hc : c ≠ '/' := by
          rintro rfl
          simp [hl] at hslash
        cases rest <;> simp [hl, hc, List.intercalate_cons_cons]

theorem mem_of_mem_stem {name : String} {c : Char} (h : c ∈ (stem name).toList) :
    c ∈ name.toList := by
  unfold stem at h
  dsimp only at h
  split at h
  · exact h
  · rw [String.toList_ofList, List.mem_reverse] at h
    have hkept := (List.dropWhile_sublist _).subset ((List.drop_sublist 1 _).subset h)
    exact List.mem_reverse.mp hkept

theorem plain_withExtension {name extension : String} (hname : Plain name)
    (hextension : '/' ∉ extension.toList) : Plain (stem name ++ "." ++ extension) := by
  refine ⟨fun hempty => ?_, fun hslash => ?_⟩
  · have hnil := congrArg String.toList hempty
    simp at hnil
  · have hthere : '/' ∈ (stem name).toList := by simpa [hextension] using hslash
    exact hname.2 (mem_of_mem_stem hthere)

/-- The path with a new extension has the names of the path but for the last one. -/
theorem withExtension_eq {path name : String} (extension : String) (h : fileName? path = some name)
    (hextension : '/' ∉ extension.toList) :
    names (withExtension path extension) = (parts path).dropLast ++ [stem name ++ "." ++ extension] ∧
      isAbsolute (withExtension path extension) = isAbsolute path := by
  have hlast := (fileName?_eq_some_iff.mp h).1
  have hplain : ∀ p ∈ (parts path).dropLast ++ [stem name ++ "." ++ extension], Plain p := by
    intro p hp
    rcases List.mem_append.mp hp with hp | hp
    · exact plain_of_mem_names ((parts_sublist path).subset ((List.dropLast_sublist _).subset hp))
    · rw [List.mem_singleton.mp hp]
      have hname := (parts_sublist path).subset (List.mem_of_getLast? hlast)
      exact plain_withExtension (plain_of_mem_names hname) hextension
  simp only [withExtension, h]
  exact ⟨names_ofParts _ hplain, isAbsolute_ofParts _ hplain⟩

theorem parent?_eq_some {path above : String} (h : parent? path = some above) :
    names above = (parts path).dropLast ∧ isAbsolute above = isAbsolute path := by
  have hplain : ∀ p ∈ (parts path).dropLast, Plain p := fun p hp =>
    plain_of_mem_names ((parts_sublist path).subset ((List.dropLast_sublist _).subset hp))
  unfold parent? at h
  split at h
  · cases h
  · obtain rfl := Option.some.inj h
    exact ⟨names_ofParts _ hplain, isAbsolute_ofParts _ hplain⟩

theorem names_above {path above : String} (h : parent? path = some above) :
    names above ⊆ names path := by
  rw [(parent?_eq_some h).1]
  exact fun n hn => (parts_sublist path).subset ((List.dropLast_sublist _).subset hn)

theorem down_above {path above : String} (h : parent? path = some above) :
    (down (names above)).length ≤ (down (names path)).length := by
  rw [(parent?_eq_some h).1, ← down_parts path]
  exact ((List.dropLast_sublist _).filter _).length_le

/-- Only a point can be the last part without going down, and nothing is above it. -/
theorem parts_of_getLast?_point {path : String} (h : (parts path).getLast? = some ".") :
    parts path = ["."] ∧ isAbsolute path = false := by
  have hno : ∀ ns : List String, (ns.filter (· ≠ ".")).getLast? ≠ some "." := fun ns hl => by
    simpa using (List.mem_filter.mp (List.mem_of_getLast? hl)).2
  unfold parts at h ⊢
  dsimp only at h ⊢
  split at h
  · rename_i more hnames
    split at h
    · exact absurd h (hno more)
    · rename_i habs
      cases hm : more.filter (· ≠ ".") with
      | nil => simp_all
      | cons n ns =>
        rw [hm, List.getLast?_cons_cons, ← hm] at h
        exact absurd h (hno more)
  · exact absurd h (hno _)

theorem down_above_lt {path above : String} (h : parent? path = some above) :
    above = "" ∨ (down (names above)).length < (down (names path)).length := by
  cases hl : (parts path).getLast? with
  | none =>
    have hnil : parts path = [] := List.getLast?_eq_none_iff.mp hl
    simp [parent?, hnil] at h
  | some last =>
    by_cases hpoint : last = "."
    · subst hpoint
      obtain ⟨hparts, habs⟩ := parts_of_getLast?_point hl
      left
      simpa [parent?, hparts, habs, ofParts] using h.symm
    · right
      obtain ⟨before, hparts⟩ := List.getLast?_eq_some_iff.mp hl
      rw [(parent?_eq_some h).1, ← down_parts path, hparts, List.dropLast_concat]
      simp [down, hpoint]

end MeshShell.Path

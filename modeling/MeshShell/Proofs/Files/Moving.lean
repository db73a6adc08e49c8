import MeshShell.Proofs.Files.Directories

/-! # Moving a file

A file that was moved is found under its new path and nowhere else. All
directories stay, so every other path leads to where it led before.
-/
namespace MeshShell.Files

variable {f g h : Files} {place : Place} {entry : FileEntry} {old new : String}

theorem get?_erase_self (hplace : place ≠ []) : (f.erase place).get? place = none := by
  cases place with
  | nil => exact absurd rfl hplace
  | cons name place =>
    refine List.lookup_eq_none_iff.mpr fun row hrow => ?_
    have hne : row.1 ≠ name :: place := by simpa using (List.mem_filter.mp hrow).2
    exact bne_iff_ne.mpr hne.symm

/-- What a move has done that went through. -/
structure Moved (f g : Files) (old new : String) (source place : Place) (entry : FileEntry) :
    Prop where
  leaves : f.resolve old = .ok source
  arrives : f.resolve new = .ok place
  named : (newName? new).isSome = true
  bare : Path.hasTrailingSlash new = false
  found : f.get? source = some entry
  free : f.get? place ≠ some .directory
  current : g.current = f.current
  there : g.get? place = some entry
  others : ∀ other, other ≠ place → g.get? other = if other = source then none else f.get? other

theorem move_ok (hm : f.moveFile old new = .ok g) :
    ∃ source place entry, Moved f g old new source place entry := by
  obtain ⟨sourceDirectory, hsource, hm⟩ := bind_ok hm
  obtain ⟨targetDirectory, htarget, hm⟩ := bind_ok hm
  split at hm
  · rename_i oldName newName ho hn
    obtain ⟨source, hold, hm⟩ := bind_ok hm
    have hsource' := (resolve_eq hsource (newName?_eq_some_iff.mp ho).1).trans hold
    split at hm
    · cases hm
    · rename_i entry hfound
      obtain ⟨place, hnew, hm⟩ := bind_ok hm
      have htarget' := (resolve_eq htarget (newName?_eq_some_iff.mp hn).1).trans hnew
      by_cases hslash : (Path.hasTrailingSlash old || Path.hasTrailingSlash new) = true
      · rw [if_pos hslash] at hm
        cases hm
      · have hbare : Path.hasTrailingSlash new = false := by
          simp only [Bool.or_eq_true, not_or] at hslash
          simpa using hslash.2
        rw [if_neg hslash] at hm
        by_cases hdirectory : f.get? place = some .directory
        · rw [if_pos hdirectory] at hm
          cases hm
        · rw [if_neg hdirectory] at hm
          refine ⟨source, place, entry, ?_⟩
          by_cases hsame : source = place
          · rw [if_pos hsame] at hm
            obtain rfl := Except.ok.inj hm
            refine ⟨hsource', htarget', by simp [hn], hbare, hfound, hdirectory, rfl, hsame ▸ hfound, ?_⟩
            intro other hother
            rw [if_neg (hsame ▸ hother)]
          · rw [if_neg hsame] at hm
            obtain rfl := Except.ok.inj hm
            have hplace : place ≠ [] := by simp [step_new hn hnew]
            refine ⟨hsource', htarget', by simp [hn], hbare, hfound, hdirectory, rfl, get?_set_self hplace, ?_⟩
            intro other hother
            rw [get?_set_ne hother]
            split
            · rename_i hgone
              have hne : source ≠ [] := by simp [step_new ho hold]
              rw [hgone, get?_erase_self hne]
            · rename_i hstays
              exact get?_erase_ne hstays
  · cases hm

theorem Moved.keepsDirectories {source place : Place} (hm : Moved f g old new source place entry)
    (hfile : entry ≠ .directory) : KeepsDirectories f g := by
  intro other hother
  have hne : other ≠ place := by
    rintro rfl
    exact hm.free hother
  have hsource : other ≠ source := by
    rintro rfl
    exact hfile (Option.some.inj (hm.found.symm.trans hother))
  rw [hm.others other hne, if_neg hsource, hother]

theorem move_written {content : Bytes} {mode : Nat} (hw : f.write old content mode = .ok g)
    (hm : g.moveFile old new = .ok h) : ∃ source place kept,
      Moved g h old new source place (.file content kept) ∧
      f.resolve old = .ok source ∧ Path.hasTrailingSlash old = false ∧
      (f.get? source = none ∧ kept = mode ∨ ∃ before, f.get? source = some (.file before kept)) ∧
      g = f.set source (.file content kept) := by
  obtain ⟨source, kept, -, hsource, hne, hbare, hentry, rfl⟩ := write_ok hw
  obtain ⟨leaves, place, entry, hmoved⟩ := move_ok hm
  have hkept : KeepsDirectories f (f.set source (.file content kept)) :=
    keepsDirectories_set (not_directory hentry)
  obtain rfl : source = leaves :=
    Except.ok.inj ((hkept.resolve rfl hsource).symm.trans hmoved.leaves)
  obtain rfl : .file content kept = entry :=
    Option.some.inj ((get?_set_self hne).symm.trans hmoved.found)
  exact ⟨source, place, kept, hmoved, hsource, hbare, hentry, rfl⟩

theorem Rooted.move (hf : f.Rooted) {source : Place} (hm : Moved f g old new source place entry)
    (hfile : entry ≠ .directory) : g.Rooted := by
  obtain ⟨last, above, rfl, hdirectory⟩ := directory_above hm.named hm.arrives
  refine hf.change (hm.keepsDirectories hfile) fun name other found he hfree => ?_
  by_cases hnew : name :: other = last :: above
  · obtain ⟨-, rfl⟩ := List.cons.inj hnew
    exact hdirectory
  · rw [hm.others _ hnew] at he
    split at he
    · cases he
    · simp [hfree] at he

theorem move_onto_itself {content : Bytes} {mode : Nat} (ho : (newName? old).isSome = true)
    (hn : (newName? new).isSome = true) (hold : f.resolve old = .ok place)
    (hnew : f.resolve new = .ok place) (hfile : f.get? place = some (.file content mode))
    (hoslash : Path.hasTrailingSlash old = false) (hnslash : Path.hasTrailingSlash new = false) :
    f.moveFile old new = .ok f := by
  obtain ⟨oldName, ho⟩ := Option.isSome_iff_exists.mp ho
  obtain ⟨newName, hn⟩ := Option.isSome_iff_exists.mp hn
  obtain ⟨source, hsource, -, hostep⟩ := directoryOf_of_resolve ho hold
  obtain ⟨target, htarget, -, hnstep⟩ := directoryOf_of_resolve hn hnew
  unfold moveFile
  simp [hsource, htarget, ho, hn, hostep, hnstep, hfile, hoslash, hnslash, bind, Except.bind, pure,
    Except.pure]

end MeshShell.Files

import MeshShell.Proofs.Identity.Storing

/-! # The file of an identity

Storing leaves the secret and nothing else in the file at the path. The file is
the one that was written beside the path first, and all other files stay as they
are. A file that was already there beside the path is lost.
-/
namespace MeshShell.KeyPair

variable {k : KeyPair} {path : String} {f g : Files}

/-- What has become of the files after an identity was stored at a place, with the place beside it
that the secret was written to first. -/
structure Stored (k : KeyPair) (path : String) (f g : Files) (place beside : Place) : Prop where
  /-- The file holds the secret. Only its owner may read it, unless others could read a file that
  was there beside it before. -/
  content : ∃ mode, g.stat path = .ok (place, .file k.secret mode) ∧
    ((∀ old kept, f.get? beside = some (.file old kept) → kept = privateMode) → mode = privateMode)
  temporary : g.resolve (besidePath path) = .ok beside
  others : ∀ other, other ≠ place → ∀ content mode, g.get? other = some (.file content mode) ↔
    other ≠ beside ∧ f.get? other = some (.file content mode)

theorem stored_of_storing (h : Storing k path f (.ok () g)) :
    ∃ place beside, Stored k path f g place beside := by
  cases h with
  | @stored room written _ hroom hwrite hmove =>
    have hgrows : Files.Grows (fun _ => True) f room := by
      simpa [hroom, Files.after] using adds_makeRoom_any path f.current f rfl
    obtain ⟨beside, place, mode, hmoved, -, -, hentry, rfl⟩ := Files.move_written hwrite hmove
    have hkeeps := hmoved.keepsDirectories (by simp)
    refine ⟨place, beside, ⟨mode, ?_, ?_⟩, hkeeps.resolve hmoved.current hmoved.leaves, ?_⟩
    · exact Files.stat_ok_iff.mpr
        ⟨hkeeps.resolve hmoved.current hmoved.arrives, hmoved.there, .inr hmoved.bare⟩
    · intro hkept
      rcases hentry with ⟨-, hnew⟩ | ⟨old, hold⟩
      · exact hnew
      · exact hkept old mode (hgrows.file_iff.mp hold)
    · intro other hother content mode
      rw [hmoved.others other hother]
      split
      · rename_i hgone
        simp [hgone]
      · rename_i hstays
        rw [Files.get?_set_ne hstays, hgrows.file_iff, and_iff_right hstays]

/-- Who stores an identity has its secret in the file, and every file is as it was but for the one
that was there and the one beside it. -/
theorem secret_stored (k : KeyPair) (path : String) (f g : Files) :
    (k.toFile path f = .ok () g → ∃ place beside, Stored k path f g place beside) ∧
      ∀ l, loadOrCreate k path f = .ok (l, true) g →
        l = k ∧ ∃ place beside, Stored k path f g place beside := by
  refine ⟨fun h => stored_of_storing (stored_of_toFile h), fun l h => ?_⟩
  cases hfile : f.isFile path with
  | true =>
    rw [loadOrCreate_eq, if_pos hfile] at h
    split at h <;> cases h
  | false =>
    rw [loadOrCreate_created hfile] at h
    split at h
    · rename_i hstored
      cases h
      exact ⟨rfl, stored_of_storing (stored_of_toFile hstored)⟩
    · cases h

/-- A secret that is easy to tell. -/
def sample : KeyPair := ⟨List.replicate 32 7, rfl⟩

/-- A file that is nobody's business, and one that an earlier attempt left beside the path. -/
def interrupted (mode : Nat) : Files :=
  (Files.empty.set ["notes", "work", "tmp"] (.file [4, 5] 0o644)).set
    ["node.tmp", "work", "tmp"] (.file [1, 2, 3] mode)

theorem stored_over_private : ∃ g, sample.toFile "node.key" (interrupted privateMode) = .ok () g ∧
    (∃ place beside, Stored sample "node.key" (interrupted privateMode) g place beside) ∧
    g.get? ["node.key", "work", "tmp"] = some (.file sample.secret privateMode) ∧
    g.get? ["notes", "work", "tmp"] = some (.file [4, 5] 0o644) := by
  have hdone : sample.toFile "node.key" (interrupted privateMode) = .ok () _ :=
    Files.eq_ok_after (by decide +kernel)
  exact ⟨_, hdone, (secret_stored sample "node.key" _ _).1 hdone, by decide +kernel, by decide +kernel⟩

/-- A file beside the path is lost, and the secret can be read by whoever could read this file. -/
theorem stored_over_readable : ∃ g, sample.toFile "node.key" (interrupted 0o644) = .ok () g ∧
    (interrupted 0o644).get? ["node.tmp", "work", "tmp"] = some (.file [1, 2, 3] 0o644) ∧
    g.get? ["node.tmp", "work", "tmp"] = none ∧
    (g.stat "node.key").toOption = some (["node.key", "work", "tmp"], .file sample.secret 0o644) ∧
    privateMode ≠ 0o644 := by
  have hdone : sample.toFile "node.key" (interrupted 0o644) = .ok () _ :=
    Files.eq_ok_after (by decide +kernel)
  exact ⟨_, hdone, by decide +kernel, by decide +kernel, by decide +kernel, by decide⟩

end MeshShell.KeyPair

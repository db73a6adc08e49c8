import MeshShell.Identity.KeyPair
import MeshShell.Proofs.Files.Frame
import MeshShell.Proofs.Files.Parents

/-! # The files of an identity

An identity is written beside its file and moved there. Whatever becomes of
this, no other file is touched.
-/
namespace MeshShell.KeyPair

/-- The names of the files that saving an identity may touch. -/
def fileNames : List String := ["haven_identity", "haven_identity.tmp"]

theorem confined_store (k : KeyPair) {path name beside : String} {names : List String}
    (hpath : Files.newName? path = some name) (hname : name ∈ names)
    (htmp : Files.newName? (Path.withExtension path "tmp") = some beside) (hbeside : beside ∈ names) :
    Files.Confined names (k.store path) := by
  have hwritten := Files.confined_writeFile htmp hbeside k.secret privateMode
  have hmoved : Files.Confined names (Files.modifyWith
      (·.moveFile (Path.withExtension path "tmp") path)) :=
    Files.confined_modifyWith fun _ _ h => Files.spares_move htmp hpath hbeside hname h
  have hboth := hwritten.bind fun _ => Files.confined_sync.bind fun _ => hmoved
  unfold store
  split
  · exact (Files.confined_ensureDirectories _).bind fun _ => hboth
  · exact hboth

theorem confined_toFile (k : KeyPair) (directory : String) :
    Files.Confined fileNames (k.toFile (Path.join directory "haven_identity")) := by
  have hplain : Path.Plain "haven_identity" := ⟨by decide, by decide⟩
  have hfile := Path.fileName?_join directory hplain (by decide) (by decide)
  have hpath := Files.newName?_eq_some_iff.mpr ⟨Path.names_join directory hplain, by decide⟩
  have hstem : Path.stem "haven_identity" ++ "." ++ "tmp" = "haven_identity.tmp" := by decide
  obtain ⟨htmp, -⟩ := Path.withExtension_eq "tmp" hfile (by decide)
  rw [hstem] at htmp
  have hlast := List.getLast?_eq_some_iff.mpr ⟨_, htmp⟩
  have hbeside := Files.newName?_eq_some_iff.mpr ⟨hlast, by decide⟩
  have hstored : Files.Confined fileNames
      (k.store (Path.join directory "haven_identity")) :=
    confined_store k hpath (by simp [fileNames]) hbeside (by simp [fileNames])
  unfold toFile
  exact hstored.adaptExcept _

theorem loadOrCreate_eq (fresh : KeyPair) (path : String) (f : Files) :
    loadOrCreate fresh path f =
      if f.isFile path then
        match fromFile f path with
        | .ok k => .ok (k, false) f
        | .error e => .error e f
      else (fresh.toFile path >>= fun _ => pure (fresh, true)) f := by
  unfold loadOrCreate
  show (if f.isFile path = true then _ else _ : EStateM IdentityError Files (KeyPair × Bool)) f = _
  split
  · cases fromFile f path <;> rfl
  · rfl

theorem spares_loadOrCreate (fresh : KeyPair) (directory : String) (f : Files) :
    f.Spares fileNames (Files.after
      (loadOrCreate fresh (Path.join directory "haven_identity") f)) := by
  rw [loadOrCreate_eq]
  split
  · split <;> exact .refl _ f
  · exact (confined_toFile fresh directory).bind (fun _ => Files.confined_pure _) f

end MeshShell.KeyPair

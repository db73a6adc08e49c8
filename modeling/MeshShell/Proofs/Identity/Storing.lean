import MeshShell.Proofs.Files.Moving
import MeshShell.Proofs.Identity.Saving

/-! # How an identity is stored

First the directories above the file are made, then the secret is written beside
it, and when the device has kept it, it is moved to its place. Each of these may
fail, and what was done before stays done.
-/
namespace MeshShell.KeyPair

variable {k : KeyPair} {path : String} {f g : Files} {r : EStateM.Result FileError Files Unit}

/-- The path of the file that the secret is written to first. -/
def besidePath (path : String) : String := Path.withExtension path "tmp"

theorem temporary_name (s : String) : s ++ "." ++ "tmp" ≠ "." ∧ s ++ "." ++ "tmp" ≠ ".." := by
  constructor <;> intro h <;>
    simpa using congrArg (fun name : String => name.toList.getLast?) h

theorem names_besidePath {name : String} (h : Path.fileName? path = some name) :
    Path.names (besidePath path) = (Path.parts path).dropLast ++ [Path.stem name ++ "." ++ "tmp"] ∧
      Path.isAbsolute (besidePath path) = Path.isAbsolute path :=
  Path.withExtension_eq "tmp" h (by decide)

/-- The temporary file is as far down as the file itself. -/
theorem besidePath_beside (hup : ".." ∉ Path.names path) : ".." ∉ Path.names (besidePath path) ∧
    Path.isAbsolute (besidePath path) = Path.isAbsolute path ∧
    (Path.down (Path.names path)).length ≤ (Path.down (Path.names (besidePath path))).length := by
  cases hname : Path.fileName? path with
  | none =>
    have hsame : besidePath path = path := by simp [besidePath, Path.withExtension, hname]
    rw [hsame]
    exact ⟨hup, rfl, Nat.le_refl _⟩
  | some name =>
    obtain ⟨hnames, habsolute⟩ := names_besidePath hname
    obtain ⟨hpoint, hpoints⟩ := temporary_name (Path.stem name)
    obtain ⟨hlast, hname, -⟩ := Path.fileName?_eq_some_iff.mp hname
    obtain ⟨before, hparts⟩ := List.getLast?_eq_some_iff.mp hlast
    rw [hparts, List.dropLast_concat] at hnames
    have hbefore : before ⊆ Path.names path := fun part hpart =>
      (Path.parts_sublist path).subset (by simp [hparts, hpart])
    rw [hnames, ← Path.down_parts path, hparts]
    refine ⟨fun hm => ?_, habsolute, ?_⟩
    · rcases List.mem_append.mp hm with hm | hm
      · exact hup (hbefore hm)
      · exact hpoints (List.mem_singleton.mp hm).symm
    · simp [Path.down, hname, hpoint]

/-- A file whose temporary path is its own. -/
def OwnTemporary (path : String) : Prop :=
  ∃ name, Path.fileName? path = some name ∧ Path.stem name ++ "." ++ "tmp" = name

/-- Any other file is somewhere else than its temporary file, however its path is spelled. -/
theorem ne_of_resolve {other : String} {beside place : Place} (hup : ".." ∉ Path.names path)
    (hown : ¬ OwnTemporary path) (hlike : Path.Alike other path)
    (hnew : (Files.newName? (besidePath path)).isSome = true)
    (hbeside : f.resolve (besidePath path) = .ok beside) (hplace : g.resolve other = .ok place) :
    place ≠ beside := by
  cases hname : Path.fileName? path with
  | none =>
    have hsame : besidePath path = path := by simp [besidePath, Path.withExtension, hname]
    obtain ⟨last, hlast⟩ := Option.isSome_iff_exists.mp (hsame ▸ hnew)
    obtain ⟨hnames, hpoint, hpoints⟩ := Files.newName?_eq_some_iff.mp hlast
    have hlast' := Path.getLast?_parts hnames hpoint
    rw [Path.fileName?_eq_some_iff.mpr ⟨hlast', hpoint, hpoints⟩] at hname
    cases hname
  | some name =>
    obtain ⟨hnames, -⟩ := names_besidePath hname
    obtain ⟨hpoint, hpoints⟩ := temporary_name (Path.stem name)
    obtain ⟨hlast, hne, -⟩ := Path.fileName?_eq_some_iff.mp hname
    have hbesideHead := Files.head?_resolve (List.getLast?_eq_some_iff.mpr ⟨_, hnames⟩) hpoint hpoints hbeside
    have hdown : (Path.down (Path.names other)).getLast? = some name := by
      rw [hlike.2, ← Path.down_parts path]
      exact Path.getLast?_filter hlast (by simpa using hne)
    have hhead : place.head? = some name := by
      rw [Files.resolve_down (hlike.up hup) hplace, List.head?_append, List.head?_reverse, hdown]
      rfl
    rintro rfl
    exact hown ⟨name, hname, Option.some.inj (hbesideHead.symm.trans hhead)⟩

/-- The directories above a file. -/
def makeRoom (path : String) : FileAction Unit :=
  match Path.parent? path with
  | some above => Files.ensureDirectories above
  | none => pure ()

/-- The ways in which storing goes. -/
inductive Storing (k : KeyPair) (path : String) (f : Files) :
    EStateM.Result FileError Files Unit → Prop
  | noRoom {e : FileError} {g : Files} : makeRoom path f = .error e g → Storing k path f (.error e g)
  | unopened {e : FileError} {g : Files} : makeRoom path f = .ok () g →
      g.write (besidePath path) (g.device.taken k.secret) privateMode = .error e →
      Storing k path f (.error e g)
  /-- The file is emptied and then the device fails. -/
  | unkept {e : FileError} {g written : Files} : makeRoom path f = .ok () g → g.device ≠ .sound →
      g.write (besidePath path) (g.device.taken k.secret) privateMode = .ok written →
      Storing k path f (.error e written)
  | unmoved {e : FileError} {g written : Files} : makeRoom path f = .ok () g →
      g.write (besidePath path) k.secret privateMode = .ok written →
      written.moveFile (besidePath path) path = .error e → Storing k path f (.error e written)
  | stored {g written moved : Files} : makeRoom path f = .ok () g →
      g.write (besidePath path) k.secret privateMode = .ok written →
      written.moveFile (besidePath path) path = .ok moved → Storing k path f (.ok () moved)

theorem store_eq (k : KeyPair) (path : String) : k.store path = makeRoom path >>= fun _ =>
    Files.writeFile (besidePath path) k.secret privateMode >>= fun _ => Files.sync >>= fun _ =>
      Files.modifyWith (·.moveFile (besidePath path) path) := by
  unfold store makeRoom
  cases Path.parent? path <;> rfl

theorem storing (k : KeyPair) (path : String) (f : Files) : Storing k path f (k.store path f) := by
  rw [store_eq]
  show Storing k path f (EStateM.bind (makeRoom path) _ f)
  unfold EStateM.bind
  cases hroom : makeRoom path f with
  | error e g => exact .noRoom hroom
  | ok _ g =>
    show Storing k path f (EStateM.bind (Files.writeFile _ _ _) _ g)
    unfold EStateM.bind Files.writeFile
    dsimp only
    cases hwrite : g.write (besidePath path) (g.device.taken k.secret) privateMode with
    | error e => exact .unopened hroom hwrite
    | ok written =>
      by_cases htaken : g.device.takesAll k.secret = true
      · simp only [if_pos htaken]
        show Storing k path f (EStateM.bind Files.sync _ written)
        unfold EStateM.bind Files.sync Files.modifyWith
        cases hkeeps : written.device.keeps with
        | false =>
          refine .unkept hroom (fun hsound => ?_) hwrite
          rw [Files.device_write hwrite, hsound] at hkeeps
          cases hkeeps
        | true =>
          rw [Files.taken_eq htaken] at hwrite
          simp only [if_pos]
          cases hmove : written.moveFile (besidePath path) path with
          | error e => exact .unmoved hroom hwrite hmove
          | ok moved => exact .stored hroom hwrite hmove
      · simp only [if_neg htaken]
        refine .unkept hroom (fun hsound => htaken ?_) hwrite
        rw [hsound]
        rfl

theorem stored_of_toFile (h : k.toFile path f = .ok () g) : Storing k path f (.ok () g) := by
  rw [← Files.action_adaptExcept_ok h]
  exact storing k path f

theorem toFile_error {e : IdentityError} (h : k.toFile path f = .error e g) :
    ∃ cause, e = .write path cause ∧ Storing k path f (.error cause g) := by
  have hways := storing k path f
  unfold toFile EStateM.adaptExcept at h
  split at h
  · rename_i cause g' hr
    obtain ⟨rfl, rfl⟩ := EStateM.Result.error.inj h
    exact ⟨cause, rfl, hr ▸ hways⟩
  · cases h

/-- The fresh identity is stored unless a file is there. -/
theorem loadOrCreate_created {fresh : KeyPair} (hno : f.isFile path = false) :
    loadOrCreate fresh path f = match fresh.toFile path f with
      | .ok () g => .ok (fresh, true) g
      | .error e g => .error e g := by
  rw [loadOrCreate_eq, if_neg (by simp [hno])]
  show EStateM.bind (fresh.toFile path) _ f = _
  unfold EStateM.bind
  cases fresh.toFile path f <;> rfl

theorem adds_makeRoom_any (path : String) (start : Place) :
    Files.Adds start (fun _ => True) (makeRoom path) := by
  unfold makeRoom
  split
  · exact (Files.chain_any start).ensureDirectories trivial
  · exact Files.adds_pure ()

theorem adds_makeRoom (start : Place) (hup : ".." ∉ Path.names path) :
    Files.Adds start (fun place => place.length < (Path.down (Path.names path)).length +
      (if Path.isAbsolute path then [] else start).length) (makeRoom path) := by
  unfold makeRoom
  cases hparent : Path.parent? path with
  | none => exact Files.adds_pure ()
  | some above =>
    rcases Path.down_above_lt hparent with rfl | hlt
    · exact Files.adds_pure ()
    · refine (Files.chain_above path start).ensureDirectories ⟨?_, (Path.parent?_eq_some hparent).2, hlt⟩
      exact fun hm => hup (Path.names_above hparent hm)

theorem at?_makeRoom_of_le {other : String} (hf : f.Rooted) (hup : ".." ∉ Path.names path)
    (hother : ".." ∉ Path.names other) (habsolute : Path.isAbsolute other = Path.isAbsolute path)
    (hle : (Path.down (Path.names path)).length ≤ (Path.down (Path.names other)).length) :
    (Files.after (makeRoom path f)).at? other = f.at? other := by
  have hg := adds_makeRoom f.current hup f rfl
  refine hg.at?_eq hf hother fun place hplace hlt => ?_
  rw [Files.resolve_down hother hplace, List.length_append, List.length_reverse, hg.current,
    habsolute] at hlt
  exact Nat.not_lt.mpr (Nat.add_le_add_right hle _) hlt

theorem at?_makeRoom {other : String} (hf : f.Rooted) (hup : ".." ∉ Path.names path)
    (hlike : Path.Alike other path) : (Files.after (makeRoom path f)).at? other = f.at? other :=
  at?_makeRoom_of_le hf hup (hlike.up hup) hlike.1 (Nat.le_of_eq (congrArg List.length hlike.2).symm)

theorem rooted_of_storing (hf : f.Rooted) (h : Storing k path f r) : (Files.after r).Rooted := by
  have hroom := (adds_makeRoom_any path f.current f rfl).rooted hf
  cases h with
  | noRoom hr => simpa [hr, Files.after] using hroom
  | unopened hr => simpa [hr, Files.after] using hroom
  | unkept hr _ hwrite =>
    rw [hr] at hroom
    exact hroom.write hwrite
  | unmoved hr hwrite =>
    rw [hr] at hroom
    exact hroom.write hwrite
  | stored hr hwrite hmove =>
    rw [hr] at hroom
    obtain ⟨source, place, kept, hmoved, -⟩ := Files.move_written hwrite hmove
    exact (hroom.write hwrite).move hmoved (by simp)

theorem rooted_toFile (hf : f.Rooted) (k : KeyPair) (path : String) :
    (Files.after (k.toFile path f)).Rooted := by
  have hstored := rooted_of_storing hf (storing k path f)
  unfold toFile EStateM.adaptExcept
  cases hr : k.store path f <;> simpa [hr, Files.after] using hstored

end MeshShell.KeyPair

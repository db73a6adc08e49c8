import MeshShell.Files.Store
import MeshShell.Proofs.Files.Names
import MeshShell.Proofs.Rows

/-! # What file operations leave alone

Writing and moving change the file of the last name of a path and no other.
Directories are only made where nothing is.
-/
namespace MeshShell.Files

variable {f g h : Files} {names : List String} {place : Place} {entry : FileEntry}

theorem get?_set_self (hplace : place ≠ []) : (f.set place entry).get? place = some entry := by
  cases place with
  | nil => exact absurd rfl hplace
  | cons name place => simp [set, get?]

theorem get?_erase_ne {other : Place} (hne : place ≠ other) :
    (f.erase other).get? place = f.get? place := by
  cases place with
  | nil => rfl
  | cons name place => exact lookup_filter_ne hne f.entries

theorem get?_set_ne {other : Place} (hne : place ≠ other) :
    (f.set other entry).get? place = f.get? place := by
  have hkey : (place == other) = false := by simpa using hne
  cases place with
  | nil => rfl
  | cons name place =>
    have hrest := lookup_filter_ne hne f.entries
    simpa [set, get?, List.lookup_cons, hkey] using hrest

/-- Files are the same in both trees, but for those of the given names. -/
def Spares (names : List String) (f g : Files) : Prop :=
  ∀ place, (∀ name ∈ names, place.head? ≠ some name) →
    ∀ content mode, g.get? place = some (.file content mode) ↔ f.get? place = some (.file content mode)

theorem Spares.refl (names : List String) (f : Files) : Spares names f f :=
  fun _ _ _ _ => Iff.rfl

theorem Spares.trans (hf : Spares names f g) (hg : Spares names g h) : Spares names f h :=
  fun place hp content mode => (hg place hp content mode).trans (hf place hp content mode)

theorem spares_erase {name : String} (hn : name ∈ names) : Spares names f (f.erase (name :: place)) := by
  intro other hother content mode
  have hne : other ≠ name :: place := by
    rintro rfl
    exact hother name hn rfl
  rw [get?_erase_ne hne]

theorem spares_set {name : String} (hn : name ∈ names) :
    Spares names f (f.set (name :: place) entry) := by
  intro other hother content mode
  have hne : other ≠ name :: place := by
    rintro rfl
    exact hother name hn rfl
  rw [get?_set_ne hne]

theorem spares_directory (hfree : f.get? place = none) : Spares names f (f.set place .directory) := by
  intro other _ content mode
  by_cases hne : other = place
  · subst hne
    have hplace : other ≠ [] := by
      rintro rfl
      simp [get?] at hfree
    simp [get?_set_self hplace, hfree]
  · rw [get?_set_ne hne]

theorem newName?_eq_some_iff {path name : String} : newName? path = some name ↔
    (Path.names path).getLast? = some name ∧ name ≠ "." ∧ name ≠ ".." :=
  Path.not_point_eq_some_iff

theorem step_new {path name : String} {next : Place} (hn : newName? path = some name)
    (hs : f.step place name = .ok next) : next = name :: place := by
  obtain ⟨-, hpoints⟩ := newName?_eq_some_iff.mp hn
  unfold step at hs
  cases he : f.enter place with
  | error e => simp [he, bind, Except.bind] at hs
  | ok =>
    rw [he] at hs
    simp only [bind, Except.bind, if_neg hpoints.1, if_neg hpoints.2] at hs
    split at hs
    · cases hs
    · exact (Except.ok.inj hs).symm

theorem bind_ok {ε α β : Type} {x : Except ε α} {k : α → Except ε β} {b : β}
    (h : x >>= k = .ok b) : ∃ a, x = .ok a ∧ k a = .ok b := by
  cases x with
  | error e => cases h
  | ok a => exact ⟨a, rfl, h⟩

theorem head?_resolve {path name : String} (hlast : (Path.names path).getLast? = some name)
    (hpoint : name ≠ ".") (hpoints : name ≠ "..") (h : f.resolve path = .ok place) :
    place.head? = some name := by
  obtain ⟨before, hnames⟩ := List.getLast?_eq_some_iff.mp hlast
  obtain ⟨start, -, hwalk⟩ := bind_ok h
  rw [hnames, List.foldlM_append] at hwalk
  obtain ⟨above, -, hstep⟩ := bind_ok hwalk
  rw [List.foldlM_cons] at hstep
  obtain ⟨next, hnext, hdone⟩ := bind_ok hstep
  cases hdone
  rw [step_new (newName?_eq_some_iff.mpr ⟨hlast, hpoint, hpoints⟩) hnext]
  rfl

theorem spares_makeDirectory {path : String} (h : f.makeDirectory path = .ok g) :
    Spares names f g := by
  obtain ⟨directory, -, h⟩ := bind_ok h
  split at h
  · cases h
  · obtain ⟨place, -, h⟩ := bind_ok h
    split at h
    · cases h
    · rename_i hfree
      cases h
      exact spares_directory (by simpa using hfree)

theorem spares_write {path name : String} {content : Bytes} {mode : Nat}
    (hn : newName? path = some name) (hname : name ∈ names)
    (h : f.write path content mode = .ok g) : Spares names f g := by
  obtain ⟨directory, -, h⟩ := bind_ok h
  rw [hn] at h
  dsimp only at h
  split at h
  · cases h
  · obtain ⟨place, hs, h⟩ := bind_ok h
    obtain rfl := step_new hn hs
    split at h
    · cases h
    · split at h <;> cases h
      exact spares_set hname
    · cases h
      exact spares_set hname

theorem spares_move {old new oldName newName : String} (ho : newName? old = some oldName)
    (hn : newName? new = some newName) (holdName : oldName ∈ names) (hnewName : newName ∈ names)
    (h : f.moveFile old new = .ok g) : Spares names f g := by
  obtain ⟨source, -, h⟩ := bind_ok h
  obtain ⟨target, -, h⟩ := bind_ok h
  rw [ho, hn] at h
  obtain ⟨oldPlace, hold, h⟩ := bind_ok h
  obtain rfl := step_new ho hold
  split at h
  · cases h
  · obtain ⟨newPlace, hnew, h⟩ := bind_ok h
    obtain rfl := step_new hn hnew
    by_cases hslash : (Path.hasTrailingSlash old || Path.hasTrailingSlash new) = true
    · rw [if_pos hslash] at h
      cases h
    · rw [if_neg hslash] at h
      by_cases hdirectory : f.get? (newName :: target) = some .directory
      · rw [if_pos hdirectory] at h
        cases h
      · rw [if_neg hdirectory] at h
        split at h
        · cases h
          exact .refl names f
        · cases h
          exact (spares_erase holdName).trans (spares_set hnewName)

section Actions

variable {ε ε' α β : Type} {x : EStateM ε Files α}

/-- The tree after an operation, whether it went through or not. -/
def after : EStateM.Result ε Files α → Files
  | .ok _ f => f
  | .error _ f => f

/-- An operation that changes no files but those of the given names. -/
def Confined (names : List String) (x : EStateM ε Files α) : Prop :=
  ∀ f, Spares names f (after (x f))

theorem confined_pure (a : α) : Confined names (pure a : EStateM ε Files α) :=
  fun f => .refl names f

theorem Confined.bind (hx : Confined names x) {k : α → EStateM ε Files β}
    (hk : ∀ a, Confined names (k a)) : Confined names (x >>= k) := by
  intro f
  have hfirst := hx f
  show Spares names f (after (EStateM.bind x k f))
  unfold EStateM.bind
  cases hr : x f <;> rw [hr] at hfirst
  · exact hfirst.trans (hk _ _)
  · exact hfirst

theorem Confined.adaptExcept (hx : Confined names x) (cause : ε → ε') :
    Confined names (x.adaptExcept cause) := by
  intro f
  have hfirst := hx f
  unfold EStateM.adaptExcept
  cases hr : x f <;> rw [hr] at hfirst <;> exact hfirst

theorem confined_modifyWith {operation : Files → Except FileError Files}
    (hop : ∀ f g, operation f = .ok g → Spares names f g) : Confined names (modifyWith operation) := by
  intro f
  unfold modifyWith
  cases hr : operation f with
  | error e => exact .refl names f
  | ok g => exact hop f g hr

theorem confined_writeFile {path name : String} (hn : newName? path = some name)
    (hname : name ∈ names) (content : Bytes) (mode : Nat) :
    Confined names (writeFile path content mode) := by
  intro f
  unfold writeFile
  cases hw : f.write path (f.device.taken content) mode with
  | error e => exact .refl names f
  | ok g =>
    dsimp only
    split <;> exact spares_write hn hname hw

theorem after_sync (f : Files) : after (sync f) = f := by
  unfold sync
  split <;> rfl

theorem confined_sync : Confined names sync := by
  intro f
  rw [after_sync]
  exact .refl names f

theorem confined_ensureDirectory (path : String) : Confined names (ensureDirectory path) := by
  intro f
  unfold ensureDirectory
  cases hm : f.makeDirectory path with
  | ok g => exact spares_makeDirectory hm
  | error e =>
    dsimp only
    split <;> exact .refl names f

theorem confined_ensureAbove (n : Nat) (path : String) : Confined names (ensureAbove n path) := by
  -- The fuel is spent on the directories above, from which the operation comes back to this one.
  induction n generalizing path with
  | zero => exact confined_ensureDirectory path
  | succ n ih =>
    intro f
    by_cases hhere : ((Path.parts path).isEmpty && !Path.isAbsolute path) = true
    · have hdone : ensureAbove (n + 1) path = pure () := if_pos hhere
      rw [hdone]
      exact confined_pure () f
    · have hnext : ensureAbove (n + 1) path f = _ := congrFun (if_neg hhere) f
      rw [hnext]
      split
      · rename_i hm
        exact spares_makeDirectory hm
      · split
        · exact (ih _).bind (fun _ => confined_ensureDirectory path) f
        · exact .refl names f
      · split <;> exact .refl names f

theorem confined_ensureDirectories (path : String) : Confined names (ensureDirectories path) :=
  confined_ensureAbove _ path

end Actions

end MeshShell.Files
